/-
This file is about trees that grow by directories. Making a directory changes nothing that a tree
holds already, so all ways through the tree are kept.
-/

import Launcher.Proofs.Tree.Slot

namespace Launcher.Tree

variable {names more : List Name} {first second third : Tree} {mode : Mode} {path : Bytes}

theorem get?_empty {location : Location} (nonRoot : location ≠ []) :
    Tree.empty.get? location = none := by
  simp [Tree.empty, Tree.get?, nonRoot.symm]

/-- Nothing of a grown tree has changed, and all that is new are directories with some of the
names. -/
def Grown (names : List Name) (before after : Tree) : Prop :=
  ∀ location, after.get? location = before.get? location ∨
    before.get? location = none ∧ ∃ parent name mode,
      name ∈ names ∧ location = parent ++ [name] ∧ after.get? location = some (.directory mode)

namespace Grown

theorem refl (names : List Name) (tree : Tree) : Grown names tree tree := fun _ => .inl rfl

theorem kept (grown : Grown names first second) {location : Location} {node : Node}
    (found : first.get? location = some node) : second.get? location = some node := by
  rcases grown location with same | ⟨free, _⟩
  · rw [same, found]
  · rw [found] at free
    cases free

/-- A location with another name is as it was. -/
theorem same_of_notMem (grown : Grown names first second) {parent : Location} {name : Name}
    (other : name ∉ names) : second.get? (parent ++ [name]) = first.get? (parent ++ [name]) := by
  rcases grown (parent ++ [name]) with same | ⟨_, _, last, _, among, shape, _⟩
  · exact same
  · have equal := (List.append_inj' shape rfl).2
    cases equal
    exact absurd among other

theorem mono (grown : Grown names first second) (subset : names ⊆ more) :
    Grown more first second := by
  intro location
  rcases grown location with same | ⟨free, parent, name, mode, among, shape, found⟩
  · exact .inl same
  · exact .inr ⟨free, parent, name, mode, subset among, shape, found⟩

theorem trans (left : Grown names first second) (right : Grown names second third) :
    Grown names first third := by
  intro location
  rcases right location with same | ⟨free, parent, name, mode, among, shape, found⟩
  · rw [same]
    exact left location
  · rcases left location with same | ⟨_, _, _, _, _, _, taken⟩
    · exact .inr ⟨same ▸ free, parent, name, mode, among, shape, found⟩
    · rw [free] at taken
      cases taken

end Grown

/-! ### Directories that are made -/

/-- A directory is made in a vacant place with the last name of its path. -/
theorem makeDirectory_ok (made : first.makeDirectory path mode = .ok second) :
    ∃ parent name, (Path.names path).getLast? = some name ∧
      (∃ asked, first.resolve .keep path = .ok ⟨.vacant (parent ++ [name]), asked⟩) ∧
      first.get? (parent ++ [name]) = none ∧
      second = first.put (parent ++ [name])
        (.directory (mode.inherited (first.parentMode (parent ++ [name])))) := by
  unfold makeDirectory at made
  split at made
  · cases made
  · rename_i location asked resolved
    cases made
    have walked := resolved
    unfold resolve at walked
    split at walked
    · cases walked
    · split at walked
      · cases walked
      split at walked
      · cases walked
      obtain ⟨parent, name, rfl, isLast⟩ := (Walks.of_walk walked).keep_vacant rfl
      exact ⟨parent, name, isLast, ⟨asked, resolved⟩, (walk_fits walked).1, rfl⟩
  · cases made

theorem makeDirectory_grown (made : first.makeDirectory path mode = .ok second) :
    Grown (Path.names path) first second := by
  obtain ⟨parent, name, isLast, _, free, rfl⟩ := makeDirectory_ok made
  intro location
  rw [get?_put _ _ _ _ (by simp)]
  split
  · rename_i same
    subst same
    exact .inr ⟨free, parent, name, _, List.mem_of_getLast? isLast, rfl, rfl⟩
  · exact .inl rfl

/-- One tree is made from another by making directories at some of the paths. -/
inductive Made (mode : Mode) (paths : List Bytes) : Tree → Tree → Prop
  | refl (tree : Tree) : Made mode paths tree tree
  | step {first second third : Tree} {path : Bytes} (among : path ∈ paths)
      (made : first.makeDirectory path mode = .ok second) (later : Made mode paths second third) :
      Made mode paths first third

theorem Made.grown {paths : List Bytes} (made : Made mode paths first second)
    (within : ∀ path ∈ paths, Path.names path ⊆ names) : Grown names first second := by
  induction made with
  | refl => exact .refl names _
  | step among made later inductionHypothesis =>
      exact ((makeDirectory_grown made).mono (within _ among)).trans inductionHypothesis

/-- Only a directory is made where nothing was. -/
theorem Made.none_or_directory {paths : List Bytes} (made : Made mode paths first second)
    {location : Location} (free : first.get? location = none) :
    second.get? location = none ∨ ∃ mode, second.get? location = some (.directory mode) := by
  have within (path : Bytes) (among : path ∈ paths) :
      Path.names path ⊆ paths.flatMap Path.names :=
    fun _ isName => List.mem_flatMap.mpr ⟨path, among, isName⟩
  rcases made.grown within location with same | ⟨_, _, _, mode, _, _, found⟩
  · exact .inl (same.trans free)
  · exact .inr ⟨mode, found⟩

theorem Made.kept {paths : List Bytes} (made : Made mode paths first second)
    {location : Location} {node : Node} (found : first.get? location = some node) :
    second.get? location = some node :=
  (made.grown fun path among _ isName => List.mem_flatMap.mpr ⟨path, among, isName⟩).kept found

theorem Made.keepsWays {paths : List Bytes} (made : Made mode paths first second) :
    first.KeepsWays second :=
  ⟨fun _ mode found => ⟨mode, made.kept found⟩, fun _ _ found => made.kept found⟩

end Launcher.Tree
