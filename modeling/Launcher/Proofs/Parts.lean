/-
This file takes paths apart at their slashes. A path has beginnings and parts, and its last part
comes behind its last slash.
-/

import Launcher.Proofs.Directory
import Launcher.Proofs.Tree.Passage
import Mathlib.Data.List.Basic

namespace Launcher

/-! ### Pieces of a path -/

/-- A path has no slash, or it has a last one. -/
theorem Path.pieces_induction {motive : Bytes → Prop}
    (piece : ∀ text, Bytes.slash ∉ text → motive text)
    (append : ∀ front last, Bytes.slash ∉ last → motive front →
      motive (front ++ Bytes.slash :: last))
    (path : Bytes) : motive path := by
  induction length : path.length using Nat.strongRecOn generalizing path with
  | _ size inductionHypothesis =>
      by_cases among : Bytes.slash ∈ path
      · have inside : Bytes.slash ∈ path.reverse := List.mem_reverse.mpr among
        obtain ⟨last, front, shape, free⟩ := List.eq_append_cons_of_mem inside
        have whole : path = front.reverse ++ Bytes.slash :: last.reverse := by
          have turned := congrArg List.reverse shape
          simpa using turned
        rw [whole]
        refine append _ _ (by simpa using free) (inductionHypothesis front.length ?_ _ (by simp))
        rw [← length, whole]
        simp
      · exact piece path among

namespace Directory

/-- Where no slash follows, the path itself is the only beginning that is left. -/
theorem beginnings_last {path : Bytes} {start : Nat} (within : start ≤ path.length)
    (free : ∀ index, start ≤ index → path[index]? ≠ some Bytes.slash) :
    (List.range' start (path.length - start + 1)).filterMap (fun length =>
      if length = path.length ∨ path[length]? = some Bytes.slash then some (path.take length)
      else none) = [path] := by
  have inner : (List.range' start (path.length - start)).filterMap (fun length =>
      if length = path.length ∨ path[length]? = some Bytes.slash then some (path.take length)
      else none) = [] := by
    rw [List.filterMap_eq_nil_iff]
    intro length among
    obtain ⟨least, most⟩ := List.mem_range'_1.mp among
    have shorter : length ≠ path.length := by omega
    rw [if_neg (by simp [shorter, free length least])]
  have last : start + 1 * (path.length - start) = path.length := by omega
  rw [List.range'_concat, List.filterMap_append, inner, last]
  simp

theorem beginnings_piece {piece : Bytes} (free : Bytes.slash ∉ piece) (nonempty : piece ≠ []) :
    beginnings piece = [piece] := by
  have least : 1 ≤ piece.length := List.length_pos_iff.mpr nonempty
  have last := beginnings_last least fun index _ slash => free (List.mem_of_getElem? slash)
  rwa [Nat.sub_add_cancel least] at last

/-- The beginnings of a longer path are those of the shorter one and the path itself. -/
theorem beginnings_append {last : Bytes} (free : Bytes.slash ∉ last) (front : Bytes) :
    beginnings (front ++ Bytes.slash :: last) =
      beginnings front ++ [front ++ Bytes.slash :: last] := by
  have size : (front ++ Bytes.slash :: last).length = front.length + (last.length + 1) := by simp
  have noSlash (index : Nat) (least : front.length + 1 ≤ index) :
      (front ++ Bytes.slash :: last)[index]? ≠ some Bytes.slash := by
    intro slash
    rw [List.getElem?_append_right (by omega), List.getElem?_cons, if_neg (by omega)] at slash
    exact free (List.mem_of_getElem? slash)
  have behind := beginnings_last (by omega) noSlash
  have rest : (front ++ Bytes.slash :: last).length - (front.length + 1) + 1 = last.length + 1 := by
    omega
  rw [rest] at behind
  have inner : (List.range' 1 front.length).filterMap (fun length =>
      if length = (front ++ Bytes.slash :: last).length ∨
        (front ++ Bytes.slash :: last)[length]? = some Bytes.slash
      then some ((front ++ Bytes.slash :: last).take length) else none) = beginnings front := by
    refine List.filterMap_congr fun length among => ?_
    obtain ⟨_, most⟩ := List.mem_range'_1.mp among
    have shorter : length ≠ (front ++ Bytes.slash :: last).length := by omega
    have taken : (front ++ Bytes.slash :: last).take length = front.take length :=
      List.take_append_of_le_length (by omega)
    rw [taken]
    by_cases whole : length = front.length
    · simp [whole]
    · rw [List.getElem?_append_left (by omega)]
      simp only [shorter, whole, false_or]
  have split : List.range' 1 (front.length + (last.length + 1)) =
      List.range' 1 front.length ++ List.range' (front.length + 1) (last.length + 1) := by
    rw [← List.range'_append_1, Nat.add_comm 1 front.length]
  rw [beginnings, size, split, List.filterMap_append]
  rw [size] at inner behind
  rw [inner, behind]

end Directory

/-! ### Parts of a path -/

namespace Path

/-- A part of a path ends behind one of its names: it is a beginning without a slash at its end. -/
structure IsPart (part path : Bytes) : Prop extends IsBeginning part path where
  endsName : part.getLast? ≠ some Bytes.slash

variable {part path front last : Bytes}

/-- What is a part of the beginning is a part of the path. -/
theorem IsPart.append (isPart : IsPart part front) (last : Bytes) :
    IsPart part (front ++ Bytes.slash :: last) := by
  obtain ⟨rest, rfl, ends⟩ := isPart.follows
  refine ⟨⟨isPart.nonempty, rest ++ Bytes.slash :: last, by simp, .inr ?_⟩, isPart.endsName⟩
  rcases ends with rfl | slash
  · rfl
  · obtain ⟨more, rfl⟩ := List.head?_eq_some_iff.mp slash
    rfl

theorem isBeginning_self (nonempty : path ≠ []) : IsBeginning path path :=
  ⟨nonempty, [], by simp, .inl rfl⟩

theorem isPart_self (nonempty : path ≠ []) (ends : path.getLast? ≠ some Bytes.slash) :
    IsPart path path :=
  ⟨isBeginning_self nonempty, ends⟩

/-- A path that ends in a name is a part of itself. -/
theorem getLast_piece (free : Bytes.slash ∉ last) (nonempty : last ≠ []) (front : Bytes) :
    (front ++ last).getLast? ≠ some Bytes.slash := by
  rw [List.getLast?_append, List.getLast?_eq_some_getLast nonempty]
  intro same
  have ends := List.getLast_mem nonempty
  rw [Option.some.inj same] at ends
  exact free ends

theorem names_append_nil (front : Bytes) : names (front ++ [Bytes.slash]) = names front := by
  have split := Bytes.fields_append_separator Bytes.slash front []
  exact split.trans (List.append_nil _)

theorem names_append_piece (free : Bytes.slash ∉ last) (nonempty : last ≠ []) (front : Bytes) :
    names (front ++ Bytes.slash :: last) = names front ++ [last] := by
  rw [names, Bytes.fields_append_separator, Bytes.fields_of_notMem free nonempty]
  rfl

instance (name : Name) : Decidable (Enters name) :=
  decidable_of_decidable_of_iff (p := name ≠ here ∧ name ≠ parent ∧ ¬ nameLimit < name.length)
    ⟨fun parts => ⟨parts.1, parts.2.1, parts.2.2⟩,
      fun enters => ⟨enters.notHere, enters.notParent, enters.short⟩⟩

/-- A path is ordinary when it is within the limits, has no name of dots, and does not go on behind
the path of a device. -/
structure IsOrdinary (path : Bytes) : Prop where
  nonempty : path ≠ []
  short : path.length < Path.lengthLimit
  enters : ∀ name ∈ names path, Enters name
  noDevice : ∀ front rest, path = front ++ rest → rest ≠ [] → Device.ofPath front = none

theorem IsOrdinary.walked (ordinary : IsOrdinary path) (noDevice : Device.ofPath path = none)
    (begins : IsBeginning front path) : IsWalked front := by
  obtain ⟨rest, rfl, _⟩ := begins.follows
  refine ⟨begins.nonempty, ?_, ?_⟩
  · have short := ordinary.short
    rw [List.length_append] at short
    omega
  · by_cases none : rest = []
    · simpa [none] using noDevice
    · exact ordinary.noDevice front rest rfl none

end Path

namespace Device

variable {path : Bytes} {device : Device}

theorem path_of_ofPath (known : ofPath path = some device) :
    path = "/dev/null" ∨ path = "/dev/full" := by
  unfold ofPath at known
  split at known
  · rename_i same
    exact .inl same
  · split at known
    · rename_i same
      exact .inr same
    · cases known

/-- The path of a device ends in a name. -/
theorem isPart (known : ofPath path = some device) : Path.IsPart path path := by
  rcases path_of_ofPath known with rfl | rfl
  · exact Path.isPart_self (by decide) (by decide)
  · exact Path.isPart_self (by decide) (by decide)

theorem ofPath_short (short : path.length < 9) : ofPath path = none := by
  cases known : ofPath path with
  | none => rfl
  | some device =>
      rcases path_of_ofPath known with rfl | rfl
      · exact absurd short (by decide)
      · exact absurd short (by decide)

end Device

end Launcher
