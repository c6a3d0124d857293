/-
This file is about trees in which the depth of a location tells files from directories. No link is
in such a tree, so plain paths lead straight to their locations.
-/

import Launcher.Proofs.Tree.Touch
import Launcher.Proofs.Tree.Growth

namespace Launcher

/-- The names of a straight path are the names on its way through the tree. -/
def Path.IsStraight (names : List Name) : Prop :=
  ∀ name ∈ names, name ≠ Path.here ∧ name ≠ Path.parent

instance (names : List Name) : Decidable (Path.IsStraight names) :=
  inferInstanceAs (Decidable (∀ name ∈ names, name ≠ Path.here ∧ name ≠ Path.parent))

namespace Tree

variable {tree before after : Tree} {start location : Location} {names : List Name}
  {path : Bytes} {mode : Mode} {depth : Nat}

/-! ### Straight walks -/

theorem leg_straight {leg : Leg} (noLink : ∀ location target, tree.get? location ≠ some (.link target))
    (straight : Path.IsStraight names) (walked : tree.leg start names = .ok leg) :
    ∃ place, leg = .arrived place ∧ place.At (start ++ names) := by
  induction names generalizing start with
  | nil =>
      obtain ⟨node, _, rfl⟩ := leg_nil walked
      exact ⟨_, rfl, by simp [Place.At]⟩
  | cons name rest inductionHypothesis =>
      obtain ⟨notHere, notParent⟩ := straight name List.mem_cons_self
      have further : Path.IsStraight rest := fun other among =>
        straight other (List.mem_cons_of_mem name among)
      cases firstStep walked with
      | here same later => exact absurd same notHere
      | parent same later => exact absurd same notParent
      | directory enters found later =>
          obtain ⟨place, arrived, there⟩ := inductionHypothesis further later
          rw [List.append_assoc] at there
          exact ⟨place, arrived, there⟩
      | link enters found ends => exact absurd found (noLink _ _)
      | file enters found isLast ends => exact ⟨_, ends, by simp [Place.At, isLast]⟩
      | vacant enters free isLast ends => exact ⟨_, ends, by simp [Place.At, isLast]⟩

theorem walk_straight {last : LastLink} {links : Nat} {asks : Bool} {destination : Destination}
    (noLink : ∀ location target, tree.get? location ≠ some (.link target))
    (straight : Path.IsStraight names)
    (walked : tree.walk last links start names asks = .ok destination) :
    destination.place.At (start ++ names) := by
  have apart {location : Location} {target : Bytes} {rest : List Name}
      (leg : tree.leg start names = .ok (.link location target rest)) : False :=
    noLink location target (leg_fits leg).1
  cases Walks.of_walk walked with
  | arrived leg =>
      obtain ⟨place, same, there⟩ := leg_straight noLink straight leg
      cases same
      exact there
  | kept leg keeps => exact (apart leg).elim
  | onward leg behind inside relative later => exact (apart leg).elim

theorem resolve_straight {last : LastLink} {asked : Bool} {place : Place}
    (noLink : ∀ location target, tree.get? location ≠ some (.link target))
    (straight : Path.IsStraight (Path.names path))
    (resolved : tree.resolve last path = .ok ⟨place, asked⟩) : place.At (Path.names path) := by
  unfold resolve at resolved
  split at resolved
  · cases resolved
    trivial
  split at resolved
  · cases resolved
  split at resolved
  · cases resolved
  · exact walk_straight noLink straight resolved

/-- What is found under a straight path is at the location with the names of the path. -/
theorem find_straight {node : Node}
    (noLink : ∀ location target, tree.get? location ≠ some (.link target))
    (straight : Path.IsStraight (Path.names path))
    (found : tree.find path = .ok (.taken location node)) :
    location = Path.names path ∧ tree.get? location = some node := by
  obtain ⟨asked, resolved⟩ := resolve_of_find found
  exact ⟨resolve_straight noLink straight resolved, walk_fits (walk_of_resolve (by simp) resolved)⟩

/-- Only the path of a device finds something that is not in the tree. -/
theorem find_noDevice {place : Place} (noDevice : Device.ofPath path = none)
    (found : tree.find path = .ok place) : ∃ location node, place = .taken location node := by
  unfold find at found
  split at found
  · cases found
  · cases found
  · rename_i device asked resolved
    unfold resolve at resolved
    rw [noDevice] at resolved
    dsimp only at resolved
    split at resolved
    · cases resolved
    split at resolved
    · cases resolved
    · exact (walk_fits resolved).elim
  · rename_i location node asked resolved
    split at found <;> cases found
    exact ⟨location, node, rfl⟩

/-! ### Levels -/

/-- Directories are down to the depth, and files are just below it. -/
def Levelled (depth : Nat) (tree : Tree) : Prop :=
  ∀ location node, tree.get? location = some node →
    (location.length ≤ depth ∧ ∃ mode, node = .directory mode) ∨
      (location.length = depth + 1 ∧ ∃ mode content, node = .file mode content)

namespace Levelled

theorem noLink (levelled : tree.Levelled depth) (location : Location) (target : Bytes) :
    tree.get? location ≠ some (.link target) := by
  intro found
  rcases levelled location _ found with ⟨_, _, same⟩ | ⟨_, _, _, same⟩ <;> cases same

/-- Below the depth there is room for files. -/
theorem room (levelled : tree.Levelled depth) (below : location.length = depth + 1) :
    tree.HasRoom location := by
  intro node found
  rcases levelled location node found with ⟨short, _⟩ | ⟨_, file⟩
  · omega
  · exact file

theorem of_room (levelled : before.Levelled depth) (below : location.length = depth + 1)
    (room : after.HasRoom location)
    (elsewhere : ∀ other, other ≠ location → after.get? other = before.get? other) :
    after.Levelled depth := by
  intro other node found
  by_cases same : other = location
  · rw [same] at found ⊢
    exact .inr ⟨below, room node found⟩
  · rw [elsewhere other same] at found
    exact levelled other node found

theorem empty (depth : Nat) : Tree.empty.Levelled depth := by
  intro location node found
  by_cases root : location = []
  · have directory : Tree.empty.get? [] = some (.directory 0o755) := by
      simp [Tree.empty, Tree.get?]
    rw [root, directory] at found
    cases found
    exact .inl ⟨by simp [root], _, rfl⟩
  · rw [get?_empty root] at found
    cases found

theorem makeDirectory (levelled : before.Levelled depth)
    (straight : Path.IsStraight (Path.names path)) (short : (Path.names path).length ≤ depth)
    (made : before.makeDirectory path mode = .ok after) : after.Levelled depth := by
  obtain ⟨parent, name, _, ⟨asked, resolved⟩, _, rfl⟩ := makeDirectory_ok made
  have there : parent ++ [name] = Path.names path :=
    resolve_straight levelled.noLink straight resolved
  intro location node found
  rw [get?_put _ _ _ _ (by simp)] at found
  split at found
  · rename_i same
    cases found
    refine .inl ⟨?_, _, rfl⟩
    rw [same, there]
    exact short
  · exact levelled location node found

/-- Making directories along straight paths of at most the depth keeps the levels. -/
theorem of_made {paths : List Bytes} (levelled : before.Levelled depth)
    (made : Made mode paths before after)
    (within : ∀ path ∈ paths, Path.IsStraight (Path.names path) ∧
      (Path.names path).length ≤ depth) : after.Levelled depth := by
  induction made with
  | refl => exact levelled
  | step among made later inductionHypothesis =>
      obtain ⟨straight, short⟩ := within _ among
      exact inductionHypothesis (levelled.makeDirectory straight short made)

/-- No file comes or goes while directories are made. -/
theorem same_of_made {paths : List Bytes} (levelled : after.Levelled depth)
    (made : Made mode paths before after) (below : location.length = depth + 1) :
    after.get? location = before.get? location := by
  cases held : before.get? location with
  | some node => exact made.kept held
  | none =>
      rcases made.none_or_directory held with none | ⟨mode, directory⟩
      · exact none
      · exact absurd directory ((levelled.room below).noDirectory mode)

end Levelled

end Tree

end Launcher
