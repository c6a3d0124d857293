/-
This file says that no walk looks into a file. Trees that differ in the content of files lead every
path to the same place.
-/

import Launcher.Proofs.Tree.Output

namespace Launcher

namespace Tree

/-- Two trees are the same but for the content of their files. -/
def SameButContent (first second : Tree) : Prop :=
  ∀ location, first.get? location = second.get? location ∨ ∃ mode left right,
    first.get? location = some (.file mode left) ∧ second.get? location = some (.file mode right)

namespace SameButContent

variable {first second tree : Tree} {location : Location} {mode : Mode} {old : Bytes}

theorem refl (tree : Tree) : tree.SameButContent tree := fun _ => .inl rfl

theorem put (held : tree.get? location = some (.file mode old)) (new : Bytes) :
    (tree.put location (.file mode new)).SameButContent tree := by
  have nonRoot := nonRoot_of_get? held rfl
  intro other
  rw [tree.get?_put location other _ (absurd · nonRoot)]
  split
  · rename_i same
    rw [same]
    exact .inr ⟨mode, new, old, rfl, held⟩
  · exact .inl rfl

/-- Two legs are the same, or they arrive at one file. -/
theorem leg (same : first.SameButContent second) (start : Location) (names : List Name) :
    first.leg start names = second.leg start names ∨ ∃ location mode left right,
      first.leg start names = .ok (.arrived (.taken location (.file mode left))) ∧
        second.leg start names = .ok (.arrived (.taken location (.file mode right))) := by
  induction names generalizing start with
  | nil =>
      rw [Tree.leg, Tree.leg]
      rcases same start with found | ⟨mode, left, right, foundLeft, foundRight⟩
      · exact .inl (by rw [found])
      · rw [foundLeft, foundRight]
        exact .inr ⟨start, mode, left, right, rfl, rfl⟩
  | cons name rest inductionHypothesis =>
      rw [Tree.leg, Tree.leg]
      split
      · exact inductionHypothesis start
      split
      · exact inductionHypothesis start.dropLast
      split
      · exact .inl rfl
      dsimp only
      rcases same (start ++ [name]) with found | ⟨mode, left, right, foundLeft, foundRight⟩
      · rw [found]
        rcases second.get? (start ++ [name]) with _ | ⟨_ | _ | _⟩
        · exact .inl rfl
        · exact inductionHypothesis (start ++ [name])
        · exact .inl rfl
        · exact .inl rfl
      · rw [foundLeft, foundRight]
        dsimp only
        split
        · exact .inr ⟨_, mode, left, right, rfl, rfl⟩
        · exact .inl rfl

/-- Two walks go through the same links, because only their last legs may differ. -/
theorem walk (same : first.SameButContent second) (last : LastLink) (links : Nat)
    (start : Location) (names : List Name) (asks : Bool) :
    first.walk last links start names asks = second.walk last links start names asks ∨
      ∃ location mode left right asked,
        first.walk last links start names asks =
            .ok ⟨.taken location (.file mode left), asked⟩ ∧
          second.walk last links start names asks =
            .ok ⟨.taken location (.file mode right), asked⟩ := by
  induction links generalizing start names asks with
  | zero =>
      unfold Tree.walk
      rcases same.leg start names with legs | ⟨location, mode, left, right, legLeft, legRight⟩
      · exact .inl (by rw [legs])
      · rw [legLeft, legRight]
        exact .inr ⟨location, mode, left, right, asks, rfl, rfl⟩
  | succ links inductionHypothesis =>
      unfold Tree.walk
      rcases same.leg start names with legs | ⟨location, mode, left, right, legLeft, legRight⟩
      · rw [legs]
        rcases second.leg start names with errno | ⟨place⟩ | ⟨location, target, rest⟩
        · exact .inl rfl
        · exact .inl rfl
        dsimp only
        split
        · exact .inl rfl
        split
        · exact .inl rfl
        split
        · exact .inl rfl
        · exact inductionHypothesis _ _ _
      · rw [legLeft, legRight]
        exact .inr ⟨location, mode, left, right, asks, rfl, rfl⟩

theorem resolve (same : first.SameButContent second) (last : LastLink) (path : Bytes) :
    first.resolve last path = second.resolve last path ∨
      ∃ location mode left right asked,
        first.resolve last path = .ok ⟨.taken location (.file mode left), asked⟩ ∧
          second.resolve last path = .ok ⟨.taken location (.file mode right), asked⟩ := by
  unfold Tree.resolve
  split
  · exact .inl rfl
  split
  · exact .inl rfl
  split
  · exact .inl rfl
  · exact same.walk last _ _ _ _

/-- A path has the same outlet in both trees, but the file of the outlet may have other content. -/
theorem writable (same : first.SameButContent second) (path : Bytes) :
    first.writable path = second.writable path ∨ ∃ location mode left right,
      first.writable path = .ok (.file location mode left) ∧
        second.writable path = .ok (.file location mode right) := by
  unfold Tree.writable
  rcases same.resolve .create path with
    resolved | ⟨location, mode, left, right, asked, resolvedLeft, resolvedRight⟩
  · exact .inl (by rw [resolved])
  · rw [resolvedLeft, resolvedRight]
    cases asked with
    | true => exact .inl rfl
    | false => exact .inr ⟨location, mode, left, right, rfl, rfl⟩

end SameButContent

end Tree

namespace FileSystem

variable {Handle : Type} {handle : Handle} {before after : FileSystem Handle}

/-- Work on an output changes the content of one file at most. -/
theorem Works.sameButContent (works : Works handle before after) :
    after.tree.SameButContent before.tree := by
  rcases works.tree with same | ⟨location, mode, old, new, _, held, same⟩
  · rw [same]
    exact .refl _
  · rw [same]
    exact .put held new

end FileSystem

end Launcher
