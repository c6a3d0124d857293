/-
This file is about changes beside a file. The file keeps its content and the directories above it,
and as long as no directory and no link is new, no path has come to lead to it.
-/

import Launcher.Proofs.Tree.Outlet

namespace Launcher.Tree

variable {tree before after : Tree} {location other start : Location}
  {names : List Name} {node : Node} {mode : Mode} {content path : Bytes}

/-! ### Changes beside a file -/

/-- The location keeps the content of its file, and no directory goes. -/
structure Beside (location : Location) (before after : Tree) : Prop where
  content : after.content? location = before.content? location
  directory : ∀ other mode, before.get? other = some (.directory mode) →
    ∃ mode, after.get? other = some (.directory mode)

namespace Beside

theorem refl (location : Location) (tree : Tree) : Beside location tree tree :=
  ⟨rfl, fun _ mode found => ⟨mode, found⟩⟩

/-- A directory is only replaced by a directory. -/
theorem put (distinct : other ≠ location) (fits : other = [] → node.isDirectory = true)
    (kind : ∀ mode, tree.get? other = some (.directory mode) → node.isDirectory = true) :
    Beside location tree (tree.put other node) := by
  have look (place : Location) := tree.get?_put other place node fits
  refine ⟨by rw [content?, content?, look, if_neg distinct.symm], fun place mode found => ?_⟩
  rw [look]
  split
  · rename_i same
    subst same
    cases node with
    | directory mode => exact ⟨mode, rfl⟩
    | file mode content => cases kind _ found
    | link target => cases kind _ found
  · exact ⟨mode, found⟩

theorem put_file (distinct : other ≠ location) (nonRoot : other ≠ [])
    (room : tree.HasRoom other) : Beside location tree (tree.put other (.file mode content)) :=
  put distinct (absurd · nonRoot) fun mode found => absurd found (room.noDirectory mode)

/-- Another mode leaves all contents as they are. -/
theorem put_withMode (found : tree.get? other = some node) (mode : Mode) :
    Beside location tree (tree.put other (node.withMode mode)) := by
  have look (place : Location) := tree.get?_put other place _ (fits_withMode found mode)
  constructor
  · rw [content?, content?, look]
    by_cases same : location = other
    · rw [if_pos same, same, found]
      cases node <;> rfl
    · rw [if_neg same]
  · intro place kept directory
    rw [look]
    split
    · rename_i same
      subst same
      cases found.symm.trans directory
      exact ⟨mode, rfl⟩
    · exact ⟨kept, directory⟩

theorem erase (distinct : other ≠ location)
    (noDirectory : ∀ mode, tree.get? other ≠ some (.directory mode)) :
    Beside location tree (tree.erase other) := by
  have look (place : Location) := tree.get?_erase other place (nonRoot_of_noDirectory noDirectory)
  refine ⟨by rw [content?, content?, look, if_neg distinct.symm], fun place mode found => ?_⟩
  refine ⟨mode, ?_⟩
  rw [look, if_neg, found]
  rintro rfl
  exact noDirectory mode found

/-- What is no directory moves to a place without one. -/
theorem move {source target : Location} (found : tree.get? source = some node)
    (noDirectory : node.isDirectory = false) (nonRoot : target ≠ []) (left : source ≠ location)
    (right : target ≠ location) (free : ∀ mode, tree.get? target ≠ some (.directory mode)) :
    Beside location tree (tree.move source target) := by
  have look := get?_move found noDirectory nonRoot
  refine ⟨by rw [content?, content?, look, if_neg right.symm, if_neg left.symm],
    fun place mode held => ⟨mode, ?_⟩⟩
  have notTarget : place ≠ target := by
    rintro rfl
    exact free mode held
  have notSource : place ≠ source := by
    rintro rfl
    cases found.symm.trans held
    cases noDirectory
  rw [look, if_neg notTarget, if_neg notSource, held]

end Beside

/-! ### Changes without new ways -/

/-- A file is no way. -/
theorem KeepsWays.of_put_file (nonRoot : other ≠ []) :
    (tree.put other (.file mode content)).KeepsWays tree := by
  have look (place : Location) := tree.get?_put other place (.file mode content) (absurd · nonRoot)
  constructor
  · intro place kept found
    rw [look] at found
    split at found
    · cases found
    · exact ⟨kept, found⟩
  · intro place target found
    rw [look] at found
    split at found
    · cases found
    · exact found

theorem KeepsWays.of_put_withMode (found : tree.get? other = some node) (mode : Mode) :
    (tree.put other (node.withMode mode)).KeepsWays tree := by
  have look (place : Location) := tree.get?_put other place _ (fits_withMode found mode)
  constructor
  · intro place kept held
    rw [look] at held
    split at held
    · rename_i same
      rw [same, found]
      cases node with
      | directory mode => exact ⟨mode, rfl⟩
      | file mode content => cases held
      | link target => cases held
    · exact ⟨kept, held⟩
  · intro place target held
    rw [look] at held
    split at held
    · rename_i same
      rw [same, found]
      cases node with
      | directory mode => cases held
      | file mode content => cases held
      | link target => exact held
    · exact held

theorem KeepsWays.of_erase (nonRoot : other ≠ []) : (tree.erase other).KeepsWays tree := by
  have look (place : Location) := tree.get?_erase other place nonRoot
  constructor
  · intro place mode found
    rw [look] at found
    split at found
    · cases found
    · exact ⟨mode, found⟩
  · intro place target found
    rw [look] at found
    split at found
    · cases found
    · exact found

/-- What is there without a link is found by every walk that finds it without following a last
link. -/
theorem resolve_of_keep {asks : Bool} (noLink : ∀ target, node ≠ .link target)
    (resolved : tree.resolve .keep path = .ok ⟨.taken location node, asks⟩) (last : LastLink) :
    tree.resolve last path = .ok ⟨.taken location node, asks⟩ := by
  have any {links : Nat} {start : Location} {names : List Name} {asks : Bool}
      {destination : Destination} (walks : Walks tree .keep links start names asks destination)
      (ends : destination.place = .taken location node) :
      Walks tree last links start names asks destination := by
    induction walks with
    | arrived leg => exact .arrived leg
    | kept leg keeps =>
        cases ends
        exact absurd rfl (noLink _)
    | onward leg behind inside relative later inductionHypothesis =>
        have more : _ ≠ [] := fun none => behind ⟨none, rfl⟩
        exact .onward leg (fun both => more both.1) (fun both => more both.1) relative
          (inductionHypothesis ends)
  rw [resolve_eq_walk (by simp) resolved]
  exact (any (.of_walk (walk_of_resolve (by simp) resolved)) rfl).walk_eq

/-- Without new ways a path leads nowhere that it did not lead before. -/
theorem resolve_before {held : Node} {asks : Bool} (calm : after.KeepsWays before)
    (noLink : ∀ target, node ≠ .link target) (found : before.get? location = some held)
    (notLink : ∀ target, held ≠ .link target)
    (resolved : after.resolve .keep path = .ok ⟨.taken location node, asks⟩) (last : LastLink) :
    before.resolve last path = .ok ⟨.taken location held, asks⟩ := by
  have there : (Place.taken location node).At location := rfl
  exact resolve_keep_taken calm found notLink there (by simp) (resolve_of_keep noLink resolved last)

/-! ### Directories above a location -/

/-- All places above a location are directories. -/
def Anchored (tree : Tree) (location : Location) : Prop :=
  ∀ above, above <+: location → above ≠ location →
    ∃ mode, tree.get? above = some (.directory mode)

/-- A location and all places above it are directories. -/
def Enterable (tree : Tree) (location : Location) : Prop :=
  ∀ above, above <+: location → ∃ mode, tree.get? above = some (.directory mode)

theorem Anchored.keep (anchored : before.Anchored location) (beside : Beside other before after) :
    after.Anchored location := by
  intro above isAbove distinct
  obtain ⟨mode, found⟩ := anchored above isAbove distinct
  exact beside.directory above mode found

theorem Enterable.root (tree : Tree) : tree.Enterable [] := by
  intro above isAbove
  rw [List.prefix_nil.mp isAbove]
  exact tree.get?_root

theorem Enterable.anchored (enterable : tree.Enterable location) : tree.Anchored location :=
  fun above isAbove _ => enterable above isAbove

theorem Enterable.dropLast (enterable : tree.Enterable location) :
    tree.Enterable location.dropLast :=
  fun above isAbove => enterable above (isAbove.trans (List.dropLast_prefix location))

theorem Enterable.child (enterable : tree.Enterable start) (name : Name) :
    tree.Anchored (start ++ [name]) := by
  intro above isAbove distinct
  rcases List.prefix_concat_iff.mp isAbove with same | inside
  · exact absurd same distinct
  · exact enterable above inside

theorem Anchored.enterable (anchored : tree.Anchored location)
    (found : tree.get? location = some (.directory mode)) : tree.Enterable location := by
  intro above isAbove
  by_cases same : above = location
  · exact ⟨mode, same ▸ found⟩
  · exact anchored above isAbove same

theorem Anchored.dropLast (anchored : tree.Anchored location) (nonRoot : location ≠ []) :
    tree.Enterable location.dropLast := by
  intro above isAbove
  refine anchored above (isAbove.trans (List.dropLast_prefix location)) ?_
  rintro rfl
  have shorter := isAbove.length_le
  have least := List.length_pos_iff.mpr nonRoot
  rw [List.length_dropLast] at shorter
  omega

/-- A leg that starts in a directory goes through directories. -/
def Leg.IsAnchored (tree : Tree) : Leg → Prop
  | .arrived (.taken location _) => tree.Anchored location
  | .arrived (.vacant location) => tree.Anchored location
  | .arrived (.device _) => True
  | .link location _ _ => tree.Anchored location

theorem leg_anchored {leg : Leg} (enterable : tree.Enterable start)
    (walked : tree.leg start names = .ok leg) : Leg.IsAnchored tree leg := by
  induction names generalizing start with
  | nil =>
      obtain ⟨node, found, rfl⟩ := leg_nil walked
      exact enterable.anchored
  | cons name rest inductionHypothesis =>
      cases firstStep walked with
      | here same later => exact inductionHypothesis enterable later
      | parent same later => exact inductionHypothesis enterable.dropLast later
      | directory enters found later =>
          exact inductionHypothesis ((enterable.child name).enterable found) later
      | link enters found ends =>
          rw [ends]
          exact enterable.child name
      | file enters found isLast ends =>
          rw [ends]
          exact enterable.child name
      | vacant enters free isLast ends =>
          rw [ends]
          exact enterable.child name

/-- Where a walk ends, only directories are above. -/
theorem Walks.anchored {last : LastLink} {links : Nat} {asks : Bool} {destination : Destination}
    (walks : Walks tree last links start names asks destination)
    (enterable : tree.Enterable start) (there : destination.place.At location)
    (noDevice : ∀ device, destination.place ≠ .device device) : tree.Anchored location := by
  induction walks with
  | arrived leg =>
      rename_i place
      have anchored := leg_anchored enterable leg
      cases place with
      | taken other node => exact there ▸ anchored
      | vacant other => exact there ▸ anchored
      | device device => exact absurd rfl (noDevice device)
  | kept leg keeps =>
      have anchored : tree.Anchored _ := leg_anchored enterable leg
      exact there ▸ anchored
  | onward leg behind inside relative later inductionHypothesis =>
      have anchored : tree.Anchored _ := leg_anchored enterable leg
      exact inductionHypothesis (anchored.dropLast (nonRoot_of_get? (leg_fits leg).1 rfl)) there
        noDevice

theorem Names.anchored (named : tree.Names path location content) : tree.Anchored location := by
  obtain ⟨place, there, noDevice, resolved⟩ := named.resolved
  exact (Walks.of_walk (walk_of_resolve noDevice resolved)).anchored (.root tree) there noDevice

/-! ### Changes through paths -/

/-- A mode is set on what is there, or on a device. -/
theorem setMode_put (changed : tree.setMode path mode = .ok after) :
    after = tree ∨ ∃ other node, tree.get? other = some node ∧
      after = tree.put other (node.withMode mode) := by
  unfold setMode at changed
  split at changed
  · cases changed
  · rename_i other node found
    cases changed
    obtain ⟨_, resolved⟩ := resolve_of_find found
    exact .inr ⟨other, node, walk_fits (walk_of_resolve (by simp) resolved), rfl⟩
  · cases changed
    exact .inl rfl

/-- Only what is no directory is unlinked. -/
theorem resolve_of_unlinkable (allowed : tree.unlinkable path = .ok location) :
    ∃ node, tree.resolve .keep path = .ok ⟨.taken location node, false⟩ ∧
      node.isDirectory = false ∧ tree.get? location = some node := by
  unfold unlinkable at allowed
  split at allowed
  · cases allowed
  · cases allowed
  · cases allowed
  · rename_i other node asks resolved
    split at allowed
    · cases allowed
    rename_i noDirectory
    split at allowed
    · cases allowed
    rename_i notAsked
    cases allowed
    cases asks with
    | true => exact absurd rfl notAsked
    | false =>
        exact ⟨node, resolved, by simpa using noDirectory,
          walk_fits (walk_of_resolve (by simp) resolved)⟩

/-- A renaming moves what is there, and only a directory takes the place of a directory. -/
theorem resolve_of_renamable {source target : Bytes} {old new : Location}
    (allowed : tree.renamable source target = .ok (old, new)) :
    ∃ node asks, tree.resolve .keep source = .ok ⟨.taken old node, asks⟩ ∧
      tree.get? old = some node ∧ (node.isDirectory = false → asks = false) ∧
      (old = new ∨ new ≠ [] ∧ (tree.get? new = none ∨ ∃ occupant asked,
        tree.get? new = some occupant ∧
        tree.resolve .keep target = .ok ⟨.taken new occupant, asked⟩ ∧
        (node.isDirectory = false → occupant.isDirectory = false))) := by
  unfold renamable at allowed
  split at allowed
  · cases allowed
  · cases allowed
  · cases allowed
  · cases allowed
  rename_i origin node asks place asked fromSource toTarget
  have found : tree.get? origin = some node := walk_fits (walk_of_resolve (by simp) fromSource)
  split at allowed
  · cases allowed
  rename_i noSlash
  have unasked : node.isDirectory = false → asks = false := by
    intro noDirectory
    simp only [noDirectory, Bool.not_false, Bool.true_and, Bool.or_eq_true, not_or,
      Bool.not_eq_true] at noSlash
    exact noSlash.1
  cases place with
  | device device => cases allowed
  | vacant free =>
      dsimp only at allowed
      split at allowed <;> cases allowed
      obtain ⟨none, nonRoot⟩ : Place.Fits tree (.vacant new) :=
        walk_fits (walk_of_resolve (by simp) toTarget)
      exact ⟨node, asks, fromSource, found, unasked, .inr ⟨nonRoot, .inl none⟩⟩
  | taken there occupant =>
      have held : tree.get? there = some occupant := walk_fits (walk_of_resolve (by simp) toTarget)
      dsimp only at allowed
      split at allowed
      · rename_i same
        cases allowed
        exact ⟨node, asks, fromSource, found, unasked, .inl same⟩
      rename_i distinct
      split at allowed
      · cases allowed
      split at allowed
      · cases allowed
      rename_i notAbove
      cases accepted : tree.replacementRefusal node there occupant with
      | some errno =>
          rw [accepted] at allowed
          cases allowed
      | none =>
          rw [accepted] at allowed
          cases allowed
          have nonRoot : new ≠ [] := by
            rintro rfl
            have least := List.length_pos_iff.mpr distinct
            simp [Location.below, least] at notAbove
          exact ⟨node, asks, fromSource, found, unasked, .inr ⟨nonRoot, .inr ⟨occupant, asked, held,
            toTarget, fun noDirectory => (isDirectory_of_replacement accepted).trans noDirectory⟩⟩⟩

end Launcher.Tree
