/-
This file says what an installation leaves behind. A binary takes its place as a whole, and when it
does not, only the temporary file may differ.
-/

import Launcher.Install
import Launcher.Proofs.Download

namespace Launcher

/-- Owner, group and others may all execute after the bits are added. -/
theorem Mode.executable_bits (mode : Mode) : mode.executable &&& 0o111 = 0o111 := by
  ext index
  simp only [executable, BitVec.getElem_and, BitVec.getElem_or]
  cases (0o111 : BitVec 12)[index] <;> simp

/-- The bytes that a fetch writes when it succeeds, if it writes at all. -/
def Fetch.content (fetch : Fetch) (surroundings : Surroundings) : Option Bytes :=
  match fetch with
  | .download => some (Transfer.received surroundings.transport.events)
  | .given => surroundings.fetcher.content

/-! ### Names of temporary files -/

namespace Bytes

theorem digit_of_mem_ofNat {number : Nat} {byte : UInt8} (among : byte ∈ ofNat number) :
    48 ≤ byte.toNat ∧ byte.toNat ≤ 57 := by
  obtain ⟨digit, isDigit, rfl⟩ := List.mem_map.mp among
  have bounds := Nat.isDigit_of_mem_toDigits (by decide) (by decide) isDigit
  simp only [Char.isDigit, Bool.and_eq_true, decide_eq_true_eq] at bounds
  have least : 48 ≤ digit.val.toNat := bounds.1
  have most : digit.val.toNat ≤ 57 := bounds.2
  have code : digit.toUInt8.toNat = digit.val.toNat % 256 := rfl
  omega

theorem notMem_ofNat {byte : UInt8} (below : byte.toNat < 48) (number : Nat) :
    byte ∉ ofNat number := by
  intro among
  have least := (digit_of_mem_ofNat among).1
  omega

/-- A number is written with digits, and with a sign when it is negative. -/
theorem notMem_ofInt {byte : UInt8} (below : byte.toNat < 48) (noSign : byte ≠ 45)
    (number : Int) : byte ∉ ofInt number := by
  have sign : (("-" : Bytes)) = [45] := by decide
  cases number with
  | ofNat number => exact notMem_ofNat below number
  | negSucc number =>
      simp only [ofInt, sign, List.mem_append, List.mem_singleton, not_or]
      exact ⟨noSign, notMem_ofNat below _⟩

/-- The number is read back from its digits. -/
theorem ofNat_injective : Function.Injective ofNat := by
  have digits (number : Nat) :
      (ofNat number).map Char.ofUInt8 = Nat.toDigits 10 number := by
    rw [ofNat, List.map_map]
    refine (List.map_congr_left fun digit isDigit => ?_).trans (List.map_id _)
    have bounds := Nat.isDigit_of_mem_toDigits (by decide) (by decide) isDigit
    simp only [Char.isDigit, Bool.and_eq_true, decide_eq_true_eq] at bounds
    have most : digit.val.toNat ≤ 57 := bounds.2
    apply Char.ext
    apply UInt32.toNat.inj
    show digit.val.toNat % 256 = digit.val.toNat
    omega
  intro first second same
  have chars : Nat.toDigits 10 first = Nat.toDigits 10 second := by
    rw [← digits, ← digits, same]
  calc
    first = Nat.ofDigitChars 10 (Nat.toDigits 10 first) 0 := Nat.ofDigitChars_ten_toDigits.symm
    _ = Nat.ofDigitChars 10 (Nat.toDigits 10 second) 0 := by rw [chars]
    _ = second := Nat.ofDigitChars_ten_toDigits

theorem ofInt_injective : Function.Injective ofInt := by
  have apart (number other : Nat) : ofNat number ≠ "-" ++ ofNat other := by
    intro same
    have among : (45 : UInt8) ∈ ofNat number := by
      rw [same]
      exact List.mem_append_left _ (by decide)
    exact absurd (digit_of_mem_ofNat among) (by decide)
  intro first second same
  cases first with
  | ofNat number =>
      cases second with
      | ofNat other => exact congrArg Int.ofNat (ofNat_injective same)
      | negSucc other => exact absurd same (apart number _)
  | negSucc number =>
      cases second with
      | ofNat other => exact absurd same.symm (apart other _)
      | negSucc other =>
          have equal := ofNat_injective (List.append_cancel_left same)
          exact congrArg Int.negSucc (Nat.succ.inj equal)

/-- What comes after the last separator is read back from the whole. -/
theorem afterLast_append {separator : UInt8} {last : Bytes} (free : separator ∉ last)
    (front : Bytes) : afterLast separator (front ++ separator :: last) = last := by
  have others : ∀ byte ∈ last.reverse, (byte != separator) = true := by
    intro byte among
    rw [bne_iff_ne]
    rintro rfl
    exact free (List.mem_reverse.mp among)
  have turned : (front ++ separator :: last).reverse =
      last.reverse ++ separator :: front.reverse := by simp
  rw [afterLast, turned, List.takeWhile_append_of_pos others, List.takeWhile_cons,
    if_neg (by simp), List.append_nil, List.reverse_reverse]

/-- A text is split in one way at its last separator. -/
theorem append_last_inj {separator : UInt8} {front last other final : Bytes}
    (noLast : separator ∉ last) (noFinal : separator ∉ final) :
    front ++ separator :: last = other ++ separator :: final ↔ front = other ∧ last = final := by
  constructor
  · intro same
    have ends := congrArg (afterLast separator) same
    rw [afterLast_append noLast, afterLast_append noFinal] at ends
    subst ends
    exact ⟨List.append_cancel_right same, rfl⟩
  · rintro ⟨rfl, rfl⟩
    rfl

end Bytes

namespace Install

/-- The temporary file is beside the target. -/
theorem temporary_child (directory name : Bytes) (processId : Int) :
    temporary (directory ++ "/" ++ name) processId =
      directory ++ "/" ++ temporary name processId := by
  simp [temporary]

theorem temporary_extension (target : Bytes) (processId : Int) :
    (".tmp" : Bytes) <:+ temporary target processId := List.suffix_append _ _

theorem temporary_long (name : Bytes) (processId : Int) :
    name.length + 4 < (temporary name processId).length := by
  have dot : (("." : Bytes)).length = 1 := by decide
  have extension : ((".tmp" : Bytes)).length = 4 := by decide
  simp only [temporary, List.length_append, dot, extension]
  omega

/-- A temporary file tells the target and the process. -/
theorem temporary_inj {target other : Bytes} {processId number : Int} :
    temporary target processId = temporary other number ↔
      target = other ∧ processId = number := by
  have noDot (number : Int) : 46 ∉ Bytes.ofInt number :=
    Bytes.notMem_ofInt (by decide) (by decide) number
  have shape (target : Bytes) (number : Int) :
      temporary target number = (target ++ 46 :: Bytes.ofInt number) ++ ".tmp" := by
    simp [temporary, show (("." : Bytes)) = [46] by decide]
  rw [shape, shape, List.append_left_inj, Bytes.append_last_inj (noDot _) (noDot _),
    Bytes.ofInt_injective.eq_iff]

/-- Different processes have different temporary files. -/
theorem temporary_injective (target : Bytes) : Function.Injective (temporary target) :=
  fun _ _ same => (temporary_inj.mp same).2

theorem temporary_plain {name : Name} (plain : Path.IsPlain name) (processId : Int) :
    Path.IsPlain (temporary name processId) := by
  have long := temporary_long name processId
  have least := List.length_pos_iff.mpr plain.nonempty
  have apart {other : Name} (short : other.length ≤ 2) : temporary name processId ≠ other := by
    intro same
    rw [same] at long
    omega
  refine ⟨apart (by decide), ?_, apart (by decide), apart (by decide)⟩
  have dot : Bytes.slash ∉ (("." : Bytes)) := by decide
  have extension : Bytes.slash ∉ ((".tmp" : Bytes)) := by decide
  simp only [temporary, List.mem_append, not_or]
  exact ⟨⟨⟨plain.noSlash, dot⟩, Bytes.notMem_ofInt (by decide) (by decide) processId⟩, extension⟩

end Install

/-! ### Fetches -/

variable {world : World} {parent : Location} {name binary : Name} {address path target : Bytes}

/-- A fetch touches its file only. A download neither succeeds nor changes anything where there is no
room. -/
theorem Fetch.yields_run (sound : world.FaultsFail)
    (slot : world.files.tree.Slot path parent name)
    (noLink : ∀ target, world.files.tree.get? (parent ++ [name]) ≠ some (.link target))
    (fetch : Fetch) :
    world.Yields (fetch.run address path) fun status after =>
      Tree.Touched (parent ++ [name]) world.files.tree after.files.tree ∧
        (¬ Path.Fits path name → after.files.tree = world.files.tree) ∧
        (fetch = .download → ¬ world.files.tree.HasRoom (parent ++ [name]) →
          after.files.tree = world.files.tree) ∧
        (status.failed = false →
          (fetch = .given → world.surroundings.fetcher.status.failed = false) ∧
          (world.files.tree.HasRoom (parent ++ [name]) ∨ fetch = .given) ∧
          (Path.Fits path name → world.files.tree.HasRoom (parent ++ [name]) →
            after.files.tree.content? (parent ++ [name]) =
              (fetch.content world.surroundings).or
                (world.files.tree.content? (parent ++ [name])))) := by
  cases fetch with
  | download =>
      apply (Download.yields_file sound slot noLink _).mono
      intro status after reached
      obtain ⟨touched, untouched, success⟩ := reached
      refine ⟨touched, fun long => untouched (.inl long), fun _ full => untouched (.inr full),
        fun went => ?_⟩
      obtain ⟨room, mode, found⟩ := success went
      exact ⟨nofun, .inl room, fun _ _ => Tree.content?_file found⟩
  | given =>
      simp only [Fetch.run, World.yields_fetch, World.answerFetch, World.witness, Fetch.content]
      cases writing : world.surroundings.fetcher.content with
      | none =>
          cases setting : world.surroundings.fetcher.mode with
          | none =>
              exact ⟨.refl _ _, by simp, nofun,
                fun went => ⟨fun _ => went, .inr trivial, fun _ _ => rfl⟩⟩
          | some mode =>
              obtain ⟨touched, unset, same⟩ := slot.attempt_setMode noLink mode
              exact ⟨touched, unset, nofun,
                fun went => ⟨fun _ => went, .inr trivial, fun _ _ => same⟩⟩
      | some content =>
          obtain ⟨touched, untouched, filled⟩ := slot.attempt_overwrite noLink content
            (Mode.masked 0o666 world.surroundings.mask)
          cases setting : world.surroundings.fetcher.mode with
          | none =>
              exact ⟨touched, untouched, nofun,
                fun went => ⟨fun _ => went, .inr trivial, filled⟩⟩
          | some mode =>
              obtain ⟨more, unset, same⟩ := (slot.keep touched.ways).attempt_setMode
                (touched.noLink noLink) mode
              refine ⟨touched.trans more, fun long => ?_, nofun,
                fun went => ⟨fun _ => went, .inr trivial, fun fits room => ?_⟩⟩
              · exact (unset long).trans (untouched long)
              · exact same.trans (filled fits room)

namespace Install

/-- Execute bits are added to what is there, and the content stays. -/
theorem yields_mark (sound : world.FaultsFail)
    (slot : world.files.tree.Slot path parent name)
    (noLink : ∀ target, world.files.tree.get? (parent ++ [name]) ≠ some (.link target))
    (executable : Bool) :
    world.Yields (mark path executable) fun status after =>
      Tree.Touched (parent ++ [name]) world.files.tree after.files.tree ∧
        (¬ Path.Fits path name → after.files.tree = world.files.tree) ∧
        after.files.tree.content? (parent ++ [name]) =
          world.files.tree.content? (parent ++ [name]) ∧
        (status.failed = false → executable = true →
          ∀ node, after.files.tree.get? (parent ++ [name]) = some node →
            node.mode &&& 0o111 = 0o111) := by
  cases executable with
  | false =>
      simp only [mark, Bool.false_eq_true, if_false, Program.pure_eq, World.yields_done]
      exact ⟨.refl _ _, by simp⟩
  | true =>
      simp only [mark, if_true, Binary.makeExecutable, World.yields_bind]
      apply World.Yields.inspect sound
      · intro found after seen descends same
        simp only [World.yields_bind]
        apply World.Yields.setMode (descends.faultsFail sound)
        · intro tree last changed _ files
          simp only [Program.pure_eq, World.yields_done, files]
          rw [same] at changed
          obtain ⟨fits, node, held, rfl⟩ := slot.setMode_ok noLink changed
          have noTarget (target : Bytes) : node ≠ .link target := by
            rintro rfl
            exact noLink target held
          obtain ⟨touched, kept⟩ := Tree.Slot.put_withMode held noTarget found.mode.executable
          refine ⟨touched, fun long => absurd fits long, kept, ?_⟩
          intro _ _ other present
          rw [Tree.get?_put_self (by simp)] at present
          cases present
          cases node with
          | directory mode => exact found.mode.executable_bits
          | file mode content => exact found.mode.executable_bits
          | link target => exact absurd rfl (noTarget target)
        · intro errno last fails _ files
          simp only [Program.pure_eq, World.yields_done, files, same, Status.failed_ofErrno fails]
          exact ⟨.refl _ _, by simp⟩
      · intro errno after fails _ same
        simp only [Program.pure_eq, World.yields_done, same, Status.failed_ofErrno fails]
        exact ⟨.refl _ _, by simp⟩

/-- A file with the content took the place of the target, and nothing is left of the temporary
file. -/
structure Placed (executable : Bool) (content : Bytes) (source target : Location)
    (before after : Tree) : Prop where
  file : ∃ mode, after.get? target = some (.file mode content) ∧
    (executable = true → mode &&& 0o111 = 0o111)
  gone : after.get? source = none
  elsewhere : ∀ other, other ≠ target → other ≠ source → after.get? other = before.get? other
  noDirectory : ∀ mode, before.get? target ≠ some (.directory mode)

/-- A directory that was in the place of the temporary file took the place of the target, where at
most a directory was. -/
structure Displaced (source target : Location) (before after : Tree) : Prop where
  was : ∃ mode, before.get? source = some (.directory mode)
  directory : ∃ mode, after.get? target = some (.directory mode)
  occupant : ∀ node, before.get? target = some node → node.isDirectory = true
  elsewhere : ∀ other, source.isPrefixOf other = false → target.isPrefixOf other = false →
    after.get? other = before.get? other

variable {old new : Name} {temporary : Bytes}

/-- A renaming within a directory moves what is there, and only a directory replaces a
directory. -/
theorem rename_ok {files after : FileSystem Handle}
    (source : files.tree.Slot temporary parent old)
    (destination : files.tree.Slot target parent new) (distinct : old ≠ new)
    (renamed : files.rename temporary target = .ok after) :
    Path.Fits temporary old ∧ Path.Fits target new ∧
      after.tree = files.tree.move (parent ++ [old]) (parent ++ [new]) ∧
      ∃ node, files.tree.get? (parent ++ [old]) = some node ∧
        ∀ occupant, files.tree.get? (parent ++ [new]) = some occupant →
          occupant.isDirectory = node.isDirectory := by
  unfold FileSystem.rename at renamed
  split at renamed
  · cases renamed
  rename_i oldPlace newPlace allowed
  obtain ⟨fits, fits', places, occupied⟩ := source.renamable_ok destination distinct allowed
  cases places
  rw [if_neg (by simpa using distinct)] at renamed
  cases renamed
  exact ⟨fits, fits', rfl, occupied⟩

/-- What is renamed has been touched at its old place only. -/
theorem moved {executable : Bool} {before middle after : Tree} {node : Node}
    (touched : Tree.Touched (parent ++ [old]) before middle) (distinct : old ≠ new)
    (found : middle.get? (parent ++ [old]) = some node)
    (replaced : ∀ occupant, middle.get? (parent ++ [new]) = some occupant →
      occupant.isDirectory = node.isDirectory)
    (bits : executable = true → node.mode &&& 0o111 = 0o111)
    (same : after = middle.move (parent ++ [old]) (parent ++ [new])) :
    (before.HasRoom (parent ++ [old]) → ∃ content,
      middle.content? (parent ++ [old]) = some content ∧
        Placed executable content (parent ++ [old]) (parent ++ [new]) before after) ∧
      ∀ mode, before.get? (parent ++ [old]) = some (.directory mode) →
        Displaced (parent ++ [old]) (parent ++ [new]) before after := by
  have nonRoot : parent ++ [new] ≠ [] := by simp
  have apart : parent ++ [new] ≠ parent ++ [old] := by simpa using distinct.symm
  constructor
  · intro room
    obtain ⟨mode, content, rfl⟩ := touched.room room node found
    have look := Tree.get?_move found rfl nonRoot
    rw [← same] at look
    refine ⟨content, Tree.content?_file found, ⟨mode, ?_, bits⟩, ?_, ?_, ?_⟩
    · rw [look, if_pos rfl]
    · rw [look, if_neg apart.symm, if_pos rfl]
    · intro other notTarget notSource
      rw [look, if_neg notTarget, if_neg notSource, touched.elsewhere other notSource]
    · intro kept directory
      rw [← touched.elsewhere _ apart] at directory
      cases replaced _ directory
  · intro mode was
    obtain ⟨kept, still⟩ := touched.ways.directory _ _ was
    obtain ⟨came, outside⟩ := Tree.get?_move_directory still nonRoot
    rw [← same] at came outside
    obtain rfl : node = .directory kept := Option.some.inj (found.symm.trans still)
    refine ⟨⟨mode, was⟩, ⟨kept, came⟩, fun occupant held => ?_, fun other notBelow beside => ?_⟩
    · rw [← touched.elsewhere _ apart] at held
      exact replaced occupant held
    have notSource : other ≠ parent ++ [old] := by
      rintro rfl
      rw [List.isPrefixOf_iff_prefix.mpr (List.prefix_refl _)] at notBelow
      cases notBelow
    rw [outside other notBelow beside, touched.elsewhere other notSource]

/-- Either the file comes into its place, or only the temporary file may differ. A directory in the
place of the temporary file is only renamed when the fetch was given. -/
theorem yields_place {executable : Bool} (sound : world.FaultsFail)
    (source : world.files.tree.Slot temporary parent old)
    (noLink : ∀ target, world.files.tree.get? (parent ++ [old]) ≠ some (.link target))
    (destination : world.files.tree.Slot target parent new) (distinct : old ≠ new)
    (fetch : Fetch) :
    world.Yields (place fetch address temporary target executable) fun outcome after =>
      match outcome with
      | .ok _ => Path.Fits target new ∧
          (fetch = .given → world.surroundings.fetcher.status.failed = false) ∧
          ((∃ content, (fetch.content world.surroundings).or
              (world.files.tree.content? (parent ++ [old])) = some content ∧
            world.files.tree.HasRoom (parent ++ [old]) ∧
            Placed executable content (parent ++ [old]) (parent ++ [new]) world.files.tree
              after.files.tree) ∨
          (fetch = .given ∧
            Displaced (parent ++ [old]) (parent ++ [new]) world.files.tree after.files.tree))
      | .error status => status.failed = true ∧
          Tree.Touched (parent ++ [old]) world.files.tree after.files.tree ∧
          (¬ Path.Fits temporary old → after.files.tree = world.files.tree) ∧
          (fetch = .download → ¬ world.files.tree.HasRoom (parent ++ [old]) →
            after.files.tree = world.files.tree) := by
  simp only [place, World.yields_bind]
  apply (Fetch.yields_run sound source noLink fetch).descends.mono
  intro fetched got reached
  obtain ⟨⟨touched, untouched, refused, success⟩, descends⟩ := reached
  split
  · rename_i failed
    simp only [World.yields_bind, World.yields_noteStatus, Program.pure_eq, World.yields_done]
    exact ⟨failed, touched, untouched, refused⟩
  rename_i went
  obtain ⟨fetches, possible, filled⟩ := success (by simpa using went)
  have gotSound := descends.faultsFail sound
  simp only [World.yields_bind]
  refine (yields_mark gotSound (source.keep touched.ways) (touched.noLink noLink)
    executable).descends.mono ?_
  intro marked ready reached
  obtain ⟨⟨more, unmarked, same, bits⟩, later⟩ := reached
  have both := touched.trans more
  have neither (long : ¬ Path.Fits temporary old) : ready.files.tree = world.files.tree :=
    (unmarked long).trans (untouched long)
  have impossible {goal : Prop} (asset : fetch = .download)
      (full : ¬ world.files.tree.HasRoom (parent ++ [old])) : goal := by
    rcases possible with room | given
    · exact absurd room full
    · cases asset.symm.trans given
  split
  · rename_i failed
    simp only [World.yields_bind, World.yields_noteStatus, Program.pure_eq, World.yields_done]
    exact ⟨failed, both, neither, impossible⟩
  rename_i executes
  simp only [World.yields_bind]
  apply World.Yields.rename (later.faultsFail gotSound)
  · intro files last renamed _ left
    simp only [Program.pure_eq, World.yields_done]
    obtain ⟨fits, fits', moves, node, found, replaced⟩ :=
      rename_ok (source.keep both.ways) (destination.keep both.ways) distinct renamed
    have kept (isExecutable : executable = true) : node.mode &&& 0o111 = 0o111 :=
      bits (by simpa using executes) isExecutable node found
    obtain ⟨whenRoom, whenDirectory⟩ := moved both distinct found replaced kept
      ((congrArg FileSystem.tree left).trans moves)
    refine ⟨fits', fetches, ?_⟩
    rcases Tree.HasRoom.or_directory noLink with room | ⟨mode, directory⟩
    · obtain ⟨content, held, placed⟩ := whenRoom room
      rw [same, filled fits room] at held
      exact .inl ⟨content, held, room, placed⟩
    · have given := possible.resolve_left fun room => room.noDirectory mode directory
      exact .inr ⟨given, whenDirectory mode directory⟩
  · intro errno last fails _ left
    simp only [World.yields_bind, World.yields_noteStatus, Program.pure_eq, World.yields_done,
      left]
    exact ⟨Status.failed_ofErrno fails, both, neither, impossible⟩

/-- An installation ends with the file in its place, or it leaves the target as it was. Unless the
removal is struck, no temporary file is left that was not there before. A download that fails changes
nothing when there was no room for the temporary file. -/
inductive Ends (fetch : Fetch) (surroundings : Surroundings) (executable spared : Bool)
    (target : Bytes) (parent : Location) (old new : Name) (before after : Tree) : Status → Prop
  | placed {content : Bytes} (fits : Path.Fits target new)
      (went : fetch = .given → surroundings.fetcher.status.failed = false)
      (fetched : (fetch.content surroundings).or (before.content? (parent ++ [old])) = some content)
      (room : before.HasRoom (parent ++ [old]))
      (placed : Placed executable content (parent ++ [old]) (parent ++ [new]) before after) :
      Ends fetch surroundings executable spared target parent old new before after .ok
  | displaced (given : fetch = .given)
      (displaced : Displaced (parent ++ [old]) (parent ++ [new]) before after) :
      Ends fetch surroundings executable spared target parent old new before after .ok
  | failed {status : Status} (fails : status.failed = true)
      (touched : Tree.Touched (parent ++ [old]) before after)
      (removed : spared = true → before.get? (parent ++ [old]) = none →
        after.get? (parent ++ [old]) = none)
      (refused : fetch = .download → ¬ before.HasRoom (parent ++ [old]) → after = before) :
      Ends fetch surroundings executable spared target parent old new before after status

theorem yields_run {executable spared : Bool} (sound : world.FaultsFail)
    (sparing : spared = true → world.Spares .unlink)
    (source : world.files.tree.Slot (Install.temporary target world.surroundings.processId) parent
      old)
    (noLink : ∀ target, world.files.tree.get? (parent ++ [old]) ≠ some (.link target))
    (destination : world.files.tree.Slot target parent new) (distinct : old ≠ new)
    (fetch : Fetch) :
    world.Yields (run fetch address target executable) fun status after =>
      Ends fetch world.surroundings executable spared target parent old new world.files.tree
        after.files.tree status := by
  simp only [run, World.yields_bind, World.yields_processId]
  have duplicated : world.Yields Program.duplicate fun _ after => after.files = world.files := by
    simp [World.strike]
  apply duplicated.descends.mono
  intro copied after reached
  obtain ⟨files, descends⟩ := reached
  rw [← files] at source noLink destination
  have afterSound := descends.faultsFail sound
  cases copied with
  | false =>
      simp only [Bool.false_eq_true, if_false, Program.pure_eq, World.yields_done, files]
      exact .failed (Status.failed_error _ _) (.refl _ _) (fun _ free => free) fun _ _ => rfl
  | true =>
      simp only [if_true, World.yields_bind]
      apply (yields_place afterSound source noLink destination distinct fetch).descends.mono
      intro outcome last reached
      obtain ⟨placed, later⟩ := reached
      rw [files, descends.surroundings] at placed
      cases outcome with
      | ok =>
          simp only [Program.pure_eq, World.yields_done]
          obtain ⟨fits, went, ⟨content, fetched, room, placed⟩ | ⟨given, displaced⟩⟩ := placed
          · exact .placed fits went fetched room placed
          · exact .displaced given displaced
      | error status =>
          obtain ⟨failed, touched, untouched, refused⟩ := placed
          rw [files] at source noLink
          simp only [World.yields_bind, Program.pure_eq, World.yields_done]
          refine (World.yields_unlink (later.faultsFail afterSound) (source.keep touched.ways)
            (touched.noLink noLink)).mono ?_
          intro reply final reached
          obtain ⟨more, unchanged, gone⟩ := reached
          refine .failed failed (touched.trans more) (fun spared free => ?_) fun asset full => ?_
          · by_cases fits : Path.Fits (temporary target world.surroundings.processId) old
            · exact gone ((later.trans descends).spares (sparing spared)) fits
                (touched.room (.of_none free))
            · rw [unchanged (.inl fits), untouched fits, free]
          · have same := refused asset full
            rw [← same] at full
            exact (unchanged (.inr full)).trans same

end Install

end Launcher
