/-
This file takes status words apart. A word is its failure bit and three fields, one behind the
other, so the parts that it was made of can be read back. The text of a word tells success from
failure.
-/

import Launcher.Proofs.Status
import Mathlib.Algebra.Group.Nat.Defs

namespace Launcher.Status

/-! ### Fields -/

/-- The failure bit comes first, then the severity, the category and the code. -/
def joined (fails : Bool) (severity : BitVec 4) (category : BitVec 11) (code : BitVec 16) :
    Status :=
  ⟨BitVec.ofBool fails ++ severity ++ category ++ code⟩

section

variable (fails : Bool) (severity : BitVec 4) (category : BitVec 11) (code : BitVec 16)

theorem getLsbD_joined (index : Nat) : (joined fails severity category code).word.getLsbD index =
    if index < 16 then code.getLsbD index
    else if index < 27 then category.getLsbD (index - 16)
    else if index < 31 then severity.getLsbD (index - 27)
    else decide (index = 31) && fails := by
  simp only [joined, BitVec.getLsbD_append, BitVec.getLsbD_ofBool]
  by_cases inCode : index < 16
  · simp [inCode]
  by_cases inCategory : index < 27
  · have within : index - 16 < 11 := by omega
    simp [inCode, inCategory, within]
  have past : ¬ index - 16 < 11 := by omega
  by_cases inSeverity : index < 31
  · have within : index - 27 < 4 := by omega
    have place : index - 16 - 11 = index - 27 := by omega
    simp [inCode, inCategory, inSeverity, past, place, within]
  · have beyond : ¬ index - 16 - 11 < 4 := by omega
    have last : index - 16 - 11 - 4 = 0 ↔ index = 31 := by omega
    simp [inCode, inCategory, inSeverity, past, beyond, last]

theorem failed_joined : (joined fails severity category code).failed = fails := by
  rw [failed, BitVec.msb_eq_getLsbD_last, getLsbD_joined]
  simp

theorem severity_joined : (joined fails severity category code).severity = severity.toNat := by
  apply congrArg BitVec.toNat
  ext index bound
  rw [BitVec.getElem_extractLsb', getLsbD_joined, if_neg (by omega), if_neg (by omega),
    if_pos (by omega), Nat.add_sub_cancel_left, BitVec.getLsbD_eq_getElem]

theorem category_joined : (joined fails severity category code).category = category.toNat := by
  apply congrArg BitVec.toNat
  ext index bound
  rw [BitVec.getElem_extractLsb', getLsbD_joined, if_neg (by omega), if_pos (by omega),
    Nat.add_sub_cancel_left, BitVec.getLsbD_eq_getElem]

theorem code_joined : (joined fails severity category code).code = code.toNat := by
  apply congrArg BitVec.toNat
  ext index bound
  rw [BitVec.getElem_extractLsb', getLsbD_joined, if_pos (by omega), Nat.zero_add,
    BitVec.getLsbD_eq_getElem]

end

/-- Every word is joined from its own fields. -/
theorem joined_fields (status : Status) : joined status.failed (status.word.extractLsb' 27 4)
    (status.word.extractLsb' 16 11) (status.word.extractLsb' 0 16) = status := by
  apply congrArg Status.mk
  apply BitVec.eq_of_getLsbD_eq
  intro index bound
  change (joined _ _ _ _).word.getLsbD index = _
  rw [getLsbD_joined]
  simp only [BitVec.getLsbD_extractLsb', failed, BitVec.msb_eq_getLsbD_last]
  grind

/-- These are the masks that cut a field out of a word. -/
theorem getLsbD_mask (length index : Nat) : (BitVec.ofNat 32 (2 ^ length - 1)).getLsbD index =
    (decide (index < 32) && decide (index < length)) := by
  rw [BitVec.getLsbD_ofNat, Nat.testBit_two_pow_sub_one]

/-- A severity of four bits is never negative as a word. -/
theorem sle_warning (severity : BitVec 4) : Severity.warning.code.sle (severity.setWidth 32) =
    decide (Severity.warning.code.toNat ≤ severity.toNat) := by
  revert severity
  decide

/-- Parts that fit in their fields are joined, and the failure bit is set from a warning on. -/
theorem pack_eq (severity : BitVec 4) (category : BitVec 11) (code : BitVec 16) :
    pack (severity.setWidth 32) (category.setWidth 32) (code.setWidth 32) =
      joined (Severity.warning.code.toNat ≤ severity.toNat) severity category code := by
  apply congrArg Status.mk
  apply BitVec.eq_of_getLsbD_eq
  intro index bound
  change _ = (joined _ _ _ _).word.getLsbD index
  rw [getLsbD_joined, sle_warning]
  generalize decide (Severity.warning.code.toNat ≤ severity.toNat) = severe
  have mask : (0xFFFF#32).getLsbD index = (decide (index < 32) && decide (index < 16)) :=
    getLsbD_mask 16 index
  have last : (0x80000000#32).getLsbD index = decide (index = 31) := by
    have power : 0x80000000#32 = BitVec.twoPow 32 31 := by decide
    rw [power, BitVec.getLsbD_twoPow]
    grind
  have flag : (if severe = true then 0x80000000#32 else 0#32).getLsbD index =
      (decide (index = 31) && severe) := by
    cases severe <;> simp [last]
  simp only [BitVec.getLsbD_or, BitVec.getLsbD_and, BitVec.getLsbD_shiftLeft,
    BitVec.getLsbD_setWidth, mask, flag]
  grind

/-- An arithmetic shift and a mask cut out the same field, because the sign does not reach it. -/
theorem toNat_field (word : BitVec 32) (start length : Nat) (inside : start + length ≤ 32) :
    (word.extractLsb' start length).toNat =
      (word.sshiftRight start &&& BitVec.ofNat 32 (2 ^ length - 1)).toNat := by
  have same : word.sshiftRight start &&& BitVec.ofNat 32 (2 ^ length - 1) =
      (word.extractLsb' start length).setWidth 32 := by
    apply BitVec.eq_of_getLsbD_eq
    intro index bound
    rw [BitVec.getLsbD_and, getLsbD_mask, BitVec.getLsbD_sshiftRight, BitVec.getLsbD_setWidth,
      BitVec.getLsbD_extractLsb']
    grind
  rw [same, BitVec.toNat_setWidth_of_le (by omega)]

/-! ### Parts that are read back -/

/-- These are the parts of a status, and it fails from a warning on. -/
structure HasParts (severity category code : Nat) (status : Status) : Prop where
  failed : status.failed = true ↔ Severity.warning.code.toNat ≤ severity
  severity : status.severity = severity
  category : status.category = category
  code : status.code = code

/-- Parts that fit in their fields are the parts of the packed word. -/
theorem hasParts_pack {severity category code : Nat} (severityFits : severity < 16)
    (categoryFits : category < 2048) (codeFits : code < 65536) :
    HasParts severity category code
      (pack (.ofNat 32 severity) (.ofNat 32 category) (.ofNat 32 code)) := by
  have widen (length : Nat) {number : Nat} (short : length ≤ 32) (fits : number < 2 ^ length) :
      BitVec.ofNat 32 number = (BitVec.ofNat length number).setWidth 32 :=
    (BitVec.setWidth_ofNat_of_le_of_lt short fits).symm
  have kept {length number : Nat} (fits : number < 2 ^ length) :
      (BitVec.ofNat length number).toNat = number := by
    rw [BitVec.toNat_ofNat, Nat.mod_eq_of_lt fits]
  rw [widen 4 (by decide) severityFits, widen 11 (by decide) categoryFits,
    widen 16 (by decide) codeFits, pack_eq]
  constructor
  · rw [failed_joined, decide_eq_true_eq, kept severityFits]
  · rw [severity_joined, kept severityFits]
  · rw [category_joined, kept categoryFits]
  · rw [code_joined, kept codeFits]

/-- The parts of an error are its own. -/
theorem hasParts_error (category : Category) (cause : Cause) :
    HasParts Severity.error.code.toNat category.code.toNat cause.code.toNat
      (error category cause) := by
  have categoryFits : category.code.toNat < 2048 := by cases category <;> decide
  have codeFits : cause.code.toNat < 65536 := by cases cause <;> decide
  have severityFits : Severity.error.code.toNat < 16 := by decide
  have parts := hasParts_pack severityFits categoryFits codeFits
  simp only [BitVec.ofNat_toNat, BitVec.setWidth_eq] at parts
  exact parts

/-- The word that is packed from the parts of a status. -/
def repacked (status : Status) : Status :=
  pack (.ofNat 32 status.severity) (.ofNat 32 status.category) (.ofNat 32 status.code)

/-- Only the failure bit can be lost, because it is not one of the parts. -/
theorem repacked_eq_iff (status : Status) : status.repacked = status ↔
    (status.failed = true ↔ Severity.warning.code.toNat ≤ status.severity) := by
  have whole := status.joined_fields
  have packed : status.repacked = joined (Severity.warning.code.toNat ≤ status.severity)
      (status.word.extractLsb' 27 4) (status.word.extractLsb' 16 11)
      (status.word.extractLsb' 0 16) := by
    rw [repacked, severity, category, code, BitVec.ofNat_toNat, BitVec.ofNat_toNat,
      BitVec.ofNat_toNat, pack_eq]
  rw [packed]
  constructor
  · intro same
    rw [← same, failed_joined, decide_eq_true_eq, severity_joined]
    rfl
  · intro agree
    have bit : decide (Severity.warning.code.toNat ≤ status.severity) = status.failed := by
      rw [Bool.eq_iff_iff, decide_eq_true_eq]
      exact agree.symm
    rw [bit]
    exact whole

/-! ### Texts -/

/-- Nothing but a success reads as one. -/
theorem message_eq_success (status : Status) :
    status.message = "Success" ↔ status.failed = false ∧ status.severity = 0 := by
  have others : ∀ entry ∈ texts, entry.2 ≠ "Success" := by decide
  constructor
  · intro reads
    unfold message at reads
    split at reads
    · rename_i success
      simpa using success
    split at reads
    · exact absurd reads (by decide)
    split at reads
    · rename_i entry found
      exact absurd reads (others entry (List.mem_of_find?_eq_some found))
    · exact absurd reads (by decide)
  · rintro ⟨went, least⟩
    simp [message, went, least]

/-- Every cause has a text. -/
theorem message_recognised {status : Status} {cause : Cause}
    (known : status.code = cause.code.toNat) : status.message ≠ "Unrecognized result" := by
  have listed : ∃ entry ∈ texts, entry.1.code.toNat = cause.code.toNat := by
    cases cause <;> decide
  have others : ∀ entry ∈ texts, entry.2 ≠ "Unrecognized result" := by decide
  unfold message
  split
  · decide
  split
  · decide
  split
  · rename_i entry found
    exact others entry (List.mem_of_find?_eq_some found)
  · rename_i missing
    obtain ⟨entry, among, same⟩ := listed
    have absent := List.find?_eq_none.mp missing entry among
    exact absurd (same.trans known.symm) (by simpa using absent)

/-- The status of an error number is an error of one of three categories. -/
theorem ofErrno_eq_error {errno : Errno} (some : errno.number ≠ 0) :
    ∃ category ∈ [Category.system, .fileSystem, .runtime], ∃ cause,
      ofErrno errno = error category cause := by
  have three : ∀ entry ∈ causes, entry.2.1 ∈ [Category.system, .fileSystem, .runtime] := by decide
  unfold ofErrno
  rw [if_neg some]
  split
  · rename_i category cause known
    obtain ⟨front, back, split, _⟩ := List.lookup_eq_some_iff.mp known
    exact ⟨category, three (errno, category, cause) (by simp [split]), cause, rfl⟩
  · exact ⟨.system, by simp, .unknown, rfl⟩

/-! ### Words and parts -/

/-- The three parts are packed into a word, any status is taken apart and packed again, and the
error number is explained by its status. The parts are cut out by arithmetic shifts and masks. -/
structure Tells (severity category code : Nat) (status : Status) (errno : Errno) : Prop where
  packed : HasParts severity category code
    (pack (.ofNat 32 severity) (.ofNat 32 category) (.ofNat 32 code))
  read : status.severity = (status.word.sshiftRight 27 &&& 0xF#32).toNat ∧
    status.category = (status.word.sshiftRight 16 &&& 0x7FF#32).toNat ∧
    status.code = (status.word &&& 0xFFFF#32).toNat ∧
    (status.failed = true ↔ status.word.toInt < 0)
  repacked : status.repacked = status ↔
    (status.word.toInt < 0 ↔ Severity.warning.code.toNat ≤ status.severity)
  success : status.message = "Success" ↔ 0 ≤ status.word.toInt ∧ status.severity = 0
  refusal : (ofErrno errno).failed = true ∧
    (ofErrno errno).severity = Severity.error.code.toNat ∧
    (ofErrno errno).category ∈ [Category.system.code.toNat, Category.fileSystem.code.toNat,
      Category.runtime.code.toNat]
  explained : (ofErrno errno).message ≠ "Success" ∧ (ofErrno errno).message ≠ "Unrecognized result"

theorem failed_iff_neg (status : Status) : status.failed = true ↔ status.word.toInt < 0 := by
  rw [failed, BitVec.msb_eq_toInt, decide_eq_true_eq]

/-- The parts that a word is packed from are read back from it, and a word is packed from its parts
unless its failure bit says something else than its severity. -/
theorem words_tellParts {severity category code : Nat} (severityFits : severity < 16)
    (categoryFits : category < 2048) (codeFits : code < 65536) (status : Status) {errno : Errno}
    (some : errno.number ≠ 0) : Tells severity category code status errno where
  packed := hasParts_pack severityFits categoryFits codeFits
  read := by
    refine ⟨toNat_field status.word 27 4 (by decide), toNat_field status.word 16 11 (by decide), ?_,
      status.failed_iff_neg⟩
    have field := toNat_field status.word 0 16 (by decide)
    rw [BitVec.sshiftRight_zero] at field
    exact field
  repacked := by rw [repacked_eq_iff, failed_iff_neg]
  success := by
    rw [message_eq_success, ← Bool.not_eq_true, failed_iff_neg, Int.not_lt]
  refusal := by
    obtain ⟨category, among, cause, same⟩ := ofErrno_eq_error some
    have parts := hasParts_error category cause
    rw [same, parts.failed, parts.severity, parts.category]
    refine ⟨by decide, rfl, ?_⟩
    have numbered : category.code.toNat ∈ [Category.system, .fileSystem, .runtime].map
        fun kind => kind.code.toNat := List.mem_map_of_mem among
    exact numbered
  explained := by
    obtain ⟨category, _, cause, same⟩ := ofErrno_eq_error some
    rw [same]
    refine ⟨?_, message_recognised (hasParts_error category cause).code⟩
    rw [ne_eq, message_eq_success, failed_error]
    simp

/-- The word with nothing but the failure bit is one that is not packed from its parts. -/
theorem words_tellParts_bareFailure : Tells 3 2 4 ⟨0x80000000#32⟩ .noEntry :=
  words_tellParts (by decide) (by decide) (by decide) ⟨0x80000000#32⟩ (by decide)

example : repacked ⟨0x80000000#32⟩ = ok := by decide

end Launcher.Status
