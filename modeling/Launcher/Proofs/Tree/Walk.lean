/-
This file follows walks through trees. A walk to a directory can be continued from there, and it
goes the same way in every tree that keeps the directories and the links of the first one.
-/

import Launcher.FileSystem.Walk

namespace Launcher

/-- A leg ends at what the tree holds there. What is vacant has the last name of the path, and
behind a link at least one name is used up. -/
def Leg.Fits (tree : Tree) (names : List Name) : Leg → Prop
  | .arrived (.taken location node) => tree.get? location = some node
  | .arrived (.vacant location) => tree.get? location = none ∧
      ∃ parent name, location = parent ++ [name] ∧ names.getLast? = some name
  | .arrived (.device _) => False
  | .link location target rest => tree.get? location = some (.link target) ∧
      ∃ front, names = front ++ rest ∧ front ≠ []

theorem Leg.Fits.cons {tree : Tree} {names : List Name} {leg : Leg} (fits : leg.Fits tree names)
    (name : Name) : leg.Fits tree (name :: names) := by
  unfold Leg.Fits at fits ⊢
  split
  · exact fits
  · obtain ⟨free, parent, last, shape, isLast⟩ := fits
    refine ⟨free, parent, last, shape, ?_⟩
    rw [List.getLast?_cons, isLast]
    rfl
  · exact fits
  · obtain ⟨link, front, shape, _⟩ := fits
    exact ⟨link, name :: front, by simp [shape], by simp⟩

/-- A place in a tree holds its node there, or nothing when it is vacant. -/
def Place.Fits (tree : Tree) : Place → Prop
  | .taken location node => tree.get? location = some node
  | .vacant location => tree.get? location = none ∧ location ≠ []
  | .device _ => False

theorem Place.Fits.of_leg {tree : Tree} {names : List Name} {place : Place}
    (fits : (Leg.arrived place).Fits tree names) : place.Fits tree := by
  cases place with
  | taken location node => exact fits
  | vacant location =>
      obtain ⟨free, parent, name, rfl, _⟩ := fits
      exact ⟨free, by simp⟩
  | device device => exact fits

/-- A place is at the location, unless it is a device. -/
def Place.At (location : Location) : Place → Prop
  | .taken other _ => other = location
  | .vacant other => other = location
  | .device _ => True

/-- A name enters a directory when it is neither of the dots and not too long. -/
structure Path.Enters (name : Name) : Prop where
  notHere : name ≠ Path.here
  notParent : name ≠ Path.parent
  short : ¬ Path.nameLimit < name.length

namespace Tree

variable {tree before after : Tree} {start location parent : Location} {names rest : List Name}
  {name : Name} {mode : Mode} {target : Bytes} {links : Nat} {asks : Bool} {last : LastLink}

/-! ### One name of a leg -/

theorem leg_here (tree : Tree) (start : Location) (rest : List Name) :
    tree.leg start (Path.here :: rest) = tree.leg start rest := by
  rw [Tree.leg, if_pos rfl]

theorem leg_parent (tree : Tree) (start : Location) (rest : List Name) :
    tree.leg start (Path.parent :: rest) = tree.leg start.dropLast rest := by
  have notHere : Path.parent ≠ Path.here := by decide
  rw [Tree.leg, if_neg notHere, if_pos rfl]

theorem leg_directory (enters : Path.Enters name)
    (found : tree.get? (start ++ [name]) = some (.directory mode)) (rest : List Name) :
    tree.leg start (name :: rest) = tree.leg (start ++ [name]) rest := by
  simp only [Tree.leg, enters.notHere, enters.notParent, enters.short, if_false, found]

theorem leg_link (enters : Path.Enters name)
    (found : tree.get? (start ++ [name]) = some (.link target)) (rest : List Name) :
    tree.leg start (name :: rest) = .ok (.link (start ++ [name]) target rest) := by
  simp only [Tree.leg, enters.notHere, enters.notParent, enters.short, if_false, found]

/-- A last name arrives at what is there, unless that is a link. -/
theorem leg_last (enters : Path.Enters name) {node : Node}
    (found : tree.get? (start ++ [name]) = some node) (noLink : ∀ target, node ≠ .link target) :
    tree.leg start [name] = .ok (.arrived (.taken (start ++ [name]) node)) := by
  cases node with
  | directory mode => rw [leg_directory enters found, Tree.leg, found]
  | link target => exact absurd rfl (noLink target)
  | file mode content =>
      simp only [Tree.leg, enters.notHere, enters.notParent, enters.short, if_false, found, if_true]

/-- A leg goes on behind its first name, or that name is its end. -/
inductive FirstStep (tree : Tree) (start : Location) (name : Name) (rest : List Name)
    (leg : Leg) : Prop
  | here (same : name = Path.here) (later : tree.leg start rest = .ok leg)
  | parent (same : name = Path.parent) (later : tree.leg start.dropLast rest = .ok leg)
  | directory {mode : Mode} (enters : Path.Enters name)
      (found : tree.get? (start ++ [name]) = some (.directory mode))
      (later : tree.leg (start ++ [name]) rest = .ok leg)
  | link {target : Bytes} (enters : Path.Enters name)
      (found : tree.get? (start ++ [name]) = some (.link target))
      (ends : leg = .link (start ++ [name]) target rest)
  | file {mode : Mode} {content : Bytes} (enters : Path.Enters name)
      (found : tree.get? (start ++ [name]) = some (.file mode content)) (isLast : rest = [])
      (ends : leg = .arrived (.taken (start ++ [name]) (.file mode content)))
  | vacant (enters : Path.Enters name) (free : tree.get? (start ++ [name]) = none) (isLast : rest = [])
      (ends : leg = .arrived (.vacant (start ++ [name])))

theorem firstStep {leg : Leg} (walked : tree.leg start (name :: rest) = .ok leg) :
    FirstStep tree start name rest leg := by
  by_cases isHere : name = Path.here
  · rw [isHere, leg_here] at walked
    exact .here isHere walked
  by_cases isParent : name = Path.parent
  · rw [isParent, leg_parent] at walked
    exact .parent isParent walked
  simp only [Tree.leg, isHere, isParent, if_false] at walked
  split at walked
  · cases walked
  rename_i short
  cases found : tree.get? (start ++ [name]) with
  | none =>
      simp only [found] at walked
      split at walked <;> cases walked
      rename_i isLast
      exact .vacant ⟨isHere, isParent, short⟩ found isLast rfl
  | some node =>
      cases node with
      | directory mode =>
          simp only [found] at walked
          exact .directory ⟨isHere, isParent, short⟩ found walked
      | link target =>
          simp only [found] at walked
          cases walked
          exact .link ⟨isHere, isParent, short⟩ found rfl
      | file mode content =>
          simp only [found] at walked
          split at walked <;> cases walked
          rename_i isLast
          exact .file ⟨isHere, isParent, short⟩ found isLast rfl

theorem leg_nil {leg : Leg} (walked : tree.leg start [] = .ok leg) :
    ∃ node, tree.get? start = some node ∧ leg = .arrived (.taken start node) := by
  simp only [Tree.leg] at walked
  split at walked <;> cases walked
  rename_i node found
  exact ⟨node, found, rfl⟩

/-! ### Legs of a walk -/

/-- A walk arrives at the end of a leg, keeps the last link, or goes on behind a link. -/
inductive Walks (tree : Tree) (last : LastLink) :
    (links : Nat) → Location → List Name → Bool → Destination → Prop
  | arrived {links : Nat} {start : Location} {names : List Name} {asks : Bool} {place : Place}
      (leg : tree.leg start names = .ok (.arrived place)) :
      Walks tree last links start names asks ⟨place, asks⟩
  | kept {links : Nat} {start location : Location} {names : List Name} {asks : Bool}
      {target : Bytes}
      (leg : tree.leg start names = .ok (.link location target [])) (keeps : last = .keep) :
      Walks tree last links start names asks ⟨.taken location (.link target), asks⟩
  | onward {links : Nat} {start location : Location} {names rest : List Name} {asks : Bool}
      {target : Bytes} {destination : Destination}
      (leg : tree.leg start names = .ok (.link location target rest))
      (behind : ¬ (rest = [] ∧ last = .keep))
      (inside : ¬ (rest = [] ∧ last = .create ∧ asks = true))
      (relative : Path.isAbsolute target = false)
      (later : Walks tree last links location.dropLast (Path.names target ++ rest)
        (asks || (rest == [] && Path.asksDirectory target)) destination) :
      Walks tree last (links + 1) start names asks destination

theorem Walks.of_walk {destination : Destination}
    (walked : tree.walk last links start names asks = .ok destination) :
    Walks tree last links start names asks destination := by
  induction links generalizing start names asks with
  | zero =>
      rw [walk] at walked
      split at walked
      · cases walked
      · rename_i leg
        cases walked
        exact .arrived leg
      · rename_i leg
        split at walked
        · rename_i keeps
          obtain ⟨rfl, keeps⟩ := keeps
          cases walked
          exact .kept leg keeps
        · split at walked <;> cases walked
  | succ links inductionHypothesis =>
      rw [walk] at walked
      split at walked
      · cases walked
      · rename_i leg
        cases walked
        exact .arrived leg
      · rename_i leg
        split at walked
        · rename_i keeps
          obtain ⟨rfl, keeps⟩ := keeps
          cases walked
          exact .kept leg keeps
        · rename_i behind
          split at walked
          · cases walked
          · rename_i inside
            dsimp only at walked
            split at walked
            · cases walked
            · rename_i relative
              exact .onward leg behind inside (by simpa using relative)
                (inductionHypothesis walked)

theorem Walks.walk_eq {destination : Destination}
    (walks : Walks tree last links start names asks destination) :
    tree.walk last links start names asks = .ok destination := by
  induction walks with
  | arrived leg => rw [walk, leg]
  | kept leg keeps =>
      rw [walk, leg]
      simp [keeps]
  | onward leg behind inside relative later inductionHypothesis =>
      rw [walk, leg]
      simp only [behind, inside, relative, Bool.false_eq_true, if_false]
      exact inductionHypothesis

/-! ### What a walk finds -/

theorem leg_fits {leg : Leg} (walked : tree.leg start names = .ok leg) : leg.Fits tree names := by
  induction names generalizing start with
  | nil =>
      obtain ⟨node, found, rfl⟩ := leg_nil walked
      exact found
  | cons name rest inductionHypothesis =>
      cases firstStep walked with
      | here same later => exact (inductionHypothesis later).cons name
      | parent same later => exact (inductionHypothesis later).cons name
      | directory enters found later => exact (inductionHypothesis later).cons name
      | link enters found ends =>
          rw [ends]
          exact ⟨found, [name], rfl, by simp⟩
      | file enters found isLast ends =>
          rw [ends]
          exact found
      | vacant enters free isLast ends =>
          rw [ends]
          exact ⟨free, start, name, rfl, by simp [isLast]⟩

/-- Whatever a walk does with the last link, it ends at what the tree holds there. -/
theorem walk_fits {destination : Destination}
    (walked : tree.walk last links start names asks = .ok destination) :
    destination.place.Fits tree := by
  induction Walks.of_walk walked with
  | arrived leg => exact Place.Fits.of_leg (leg_fits leg)
  | kept leg keeps => exact (leg_fits leg).1
  | onward leg behind inside relative later inductionHypothesis =>
      exact inductionHypothesis later.walk_eq

/-- A walk that keeps the last link creates nothing but the last name of its path. -/
theorem Walks.keep_vacant {destination : Destination}
    (walks : Walks tree .keep links start names asks destination)
    (vacant : destination.place = .vacant location) :
    ∃ parent name, location = parent ++ [name] ∧ names.getLast? = some name := by
  induction walks with
  | arrived leg =>
      cases vacant
      exact (leg_fits leg).2
  | kept leg keeps => cases vacant
  | onward leg behind inside relative later inductionHypothesis =>
      obtain ⟨parent, name, shape, isLast⟩ := inductionHypothesis vacant
      obtain ⟨_, front, names, _⟩ := leg_fits leg
      have more : _ ≠ [] := fun none => behind ⟨none, rfl⟩
      refine ⟨parent, name, shape, ?_⟩
      simpa [names, List.getLast?_append, List.getLast?_eq_some_getLast more] using isLast

/-! ### Continued walks -/

/-- A leg that ends in a directory is a leg through it when there are more names. -/
theorem leg_append_directory
    (walked : tree.leg start names = .ok (.arrived (.taken parent (.directory mode))))
    (more : List Name) : tree.leg start (names ++ more) = tree.leg parent more := by
  induction names generalizing start with
  | nil =>
      obtain ⟨node, found, ends⟩ := leg_nil walked
      cases ends
      rfl
  | cons name rest inductionHypothesis =>
      rw [List.cons_append]
      cases firstStep walked with
      | here same later =>
          rw [same, leg_here]
          exact inductionHypothesis later
      | parent same later =>
          rw [same, leg_parent]
          exact inductionHypothesis later
      | directory enters found later =>
          rw [leg_directory enters found]
          exact inductionHypothesis later
      | link enters found ends => cases ends
      | file enters found isLast ends => cases ends
      | vacant enters free isLast ends => cases ends

/-- The names behind a link include those that are added to the path. -/
theorem leg_append_link (walked : tree.leg start names = .ok (.link location target rest))
    (more : List Name) :
    tree.leg start (names ++ more) = .ok (.link location target (rest ++ more)) := by
  induction names generalizing start with
  | nil =>
      obtain ⟨node, found, ends⟩ := leg_nil walked
      cases ends
  | cons name others inductionHypothesis =>
      rw [List.cons_append]
      cases firstStep walked with
      | here same later =>
          rw [same, leg_here]
          exact inductionHypothesis later
      | parent same later =>
          rw [same, leg_parent]
          exact inductionHypothesis later
      | directory enters found later =>
          rw [leg_directory enters found]
          exact inductionHypothesis later
      | link enters found ends =>
          cases ends
          rw [leg_link enters found]
      | file enters found isLast ends => cases ends
      | vacant enters free isLast ends => cases ends

/-- A walk to a directory goes on from there with the links that are left. -/
theorem Walks.append {destination : Destination}
    (walks : Walks tree .follow links start names asks destination)
    (ends : destination.place = .taken parent (.directory mode)) {more : List Name}
    (some : more ≠ []) : ∃ left, ∀ last asks,
      tree.walk last links start (names ++ more) asks = tree.walk last left parent more asks := by
  induction walks with
  | arrived leg =>
      rename_i links start names asks place
      cases ends
      refine ⟨links, fun last asks => ?_⟩
      rw [walk, leg_append_directory leg, walk]
  | kept leg keeps => cases keeps
  | onward leg behind inside relative later inductionHypothesis =>
      rename_i rest _ _ _
      obtain ⟨left, same⟩ := inductionHypothesis ends
      refine ⟨left, fun last asks => ?_⟩
      have further : rest ++ more ≠ [] := by simp [some]
      rw [walk, leg_append_link leg]
      simp only [further, relative, false_and, Bool.false_eq_true, if_false]
      rw [← List.append_assoc, same, beq_eq_false_iff_ne.mpr further, Bool.false_and,
        Bool.or_false]

/-! ### Kept ways -/

/-- The ways of a tree lead through its directories, whatever their modes are, and its links. -/
structure KeepsWays (before after : Tree) : Prop where
  directory : ∀ location mode, before.get? location = some (.directory mode) →
    ∃ mode, after.get? location = some (.directory mode)
  link : ∀ location target, before.get? location = some (.link target) →
    after.get? location = some (.link target)

theorem KeepsWays.refl (tree : Tree) : tree.KeepsWays tree :=
  ⟨fun _ mode found => ⟨mode, found⟩, fun _ _ found => found⟩

theorem KeepsWays.trans {first second third : Tree} (left : first.KeepsWays second)
    (right : second.KeepsWays third) : first.KeepsWays third := by
  constructor
  · intro location mode found
    obtain ⟨mode, found⟩ := left.directory location mode found
    exact right.directory location mode found
  · intro location target found
    exact right.link location target (left.link location target found)

/-- A leg arrives at the same location when the ways are kept, whatever is there now but a link. -/
theorem leg_keep_taken {place : Place} {node : Node} (ways : before.KeepsWays after)
    (held : after.get? location = some node) (noLink : ∀ target, node ≠ .link target)
    (there : place.At location) (walked : before.leg start names = .ok (.arrived place)) :
    after.leg start names = .ok (.arrived (.taken location node)) := by
  induction names generalizing start with
  | nil =>
      obtain ⟨old, found, ends⟩ := leg_nil walked
      cases ends
      cases there
      rw [Tree.leg, held]
  | cons name rest inductionHypothesis =>
      cases firstStep walked with
      | here same later =>
          rw [same, leg_here]
          exact inductionHypothesis later
      | parent same later =>
          rw [same, leg_parent]
          exact inductionHypothesis later
      | directory enters found later =>
          obtain ⟨_, still⟩ := ways.directory _ _ found
          rw [leg_directory enters still]
          exact inductionHypothesis later
      | link enters found ends => cases ends
      | file enters found isLast ends =>
          cases ends
          cases there
          rw [isLast, leg_last enters held noLink]
      | vacant enters free isLast ends =>
          cases ends
          cases there
          rw [isLast, leg_last enters held noLink]

theorem leg_keep_link (ways : before.KeepsWays after)
    (walked : before.leg start names = .ok (.link location target rest)) :
    after.leg start names = .ok (.link location target rest) := by
  induction names generalizing start with
  | nil =>
      obtain ⟨node, found, ends⟩ := leg_nil walked
      cases ends
  | cons name others inductionHypothesis =>
      cases firstStep walked with
      | here same later =>
          rw [same, leg_here]
          exact inductionHypothesis later
      | parent same later =>
          rw [same, leg_parent]
          exact inductionHypothesis later
      | directory enters found later =>
          obtain ⟨_, still⟩ := ways.directory _ _ found
          rw [leg_directory enters still]
          exact inductionHypothesis later
      | link enters found ends =>
          cases ends
          exact leg_link enters (ways.link _ _ found) rest
      | file enters found isLast ends => cases ends
      | vacant enters free isLast ends => cases ends

/-- A walk ends at the same location when the ways are kept. -/
theorem Walks.keep_taken {destination : Destination} {node : Node} (ways : before.KeepsWays after)
    (held : after.get? location = some node) (noLink : ∀ target, node ≠ .link target)
    (there : destination.place.At location)
    (walks : Walks before last links start names asks destination) :
    Walks after last links start names asks
      ⟨.taken location node, destination.asksDirectory⟩ := by
  induction walks with
  | arrived leg => exact .arrived (leg_keep_taken ways held noLink there leg)
  | kept leg keeps =>
      cases there
      have still := ways.link _ _ (leg_fits leg).1
      rw [held] at still
      exact absurd (Option.some.inj still) (noLink _)
  | onward leg behind inside relative later inductionHypothesis =>
      exact .onward (leg_keep_link ways leg) behind inside relative (inductionHypothesis there)

end Tree

end Launcher
