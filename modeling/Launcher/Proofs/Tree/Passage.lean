/-
This file is about the beginnings of a walk. A walk that goes on behind some names passes a
directory there, so it comes to nothing when they do not lead to one.
-/

import Launcher.Proofs.Tree.LastLink
import Launcher.Proofs.Tree.Refusal
import Launcher.Proofs.Tree.Whole

namespace Launcher

/-- A path is walked when it is neither empty nor too long and is not that of a device. -/
structure Path.IsWalked (path : Bytes) : Prop where
  nonempty : path ≠ []
  short : path.length < Path.lengthLimit
  noDevice : Device.ofPath path = none

namespace Tree

variable {tree before after : Tree} {location start : Location} {names more : List Name}
  {links : Nat} {last : LastLink} {asks : Bool} {node : Node} {path : Bytes} {mode : Mode}
  {errno : Errno}

theorem resolve_walked (walked : Path.IsWalked path) (tree : Tree) (last : LastLink) :
    tree.resolve last path =
      tree.walk last Path.linkLimit [] (Path.names path) (Path.asksDirectory path) := by
  rw [resolve, walked.noDevice]
  dsimp only
  rw [if_neg walked.nonempty, if_neg (Nat.not_le.mpr walked.short)]

/-! ### Asking and keeping -/

/-- Only a walk that creates files minds whether its path asks for a directory. -/
theorem Walks.asking {destination : Destination} (noCreate : last ≠ .create)
    (walks : Walks tree last links start names asks destination) (other : Bool) :
    ∃ asked, Walks tree last links start names other ⟨destination.place, asked⟩ := by
  induction walks generalizing other with
  | arrived leg => exact ⟨other, .arrived leg⟩
  | kept leg keeps => exact ⟨other, .kept leg keeps⟩
  | onward leg behind inside relative later inductionHypothesis =>
      obtain ⟨asked, walks⟩ := inductionHypothesis _
      exact ⟨asked, .onward leg behind (fun creates => noCreate creates.2.1) relative walks⟩

/-- A walk that keeps the last link ends at this link or where it would end behind it. -/
theorem Walks.keep_of_follow {destination : Destination}
    (walks : Walks tree .follow links start names asks destination) :
    Walks tree .keep links start names asks destination ∨ ∃ location target,
      Walks tree .keep links start names asks ⟨.taken location (.link target), asks⟩ := by
  induction walks with
  | arrived leg => exact .inl (.arrived leg)
  | kept leg keeps => cases keeps
  | onward leg behind inside relative later inductionHypothesis =>
      rename_i links start location names rest asks target destination
      by_cases isLast : rest = []
      · subst isLast
        exact .inr ⟨location, target, .kept leg rfl⟩
      · have same : (asks || (rest == [] && Path.asksDirectory target)) = asks := by simp [isLast]
        rw [same] at later inductionHypothesis
        have onward {destination : Destination} (kept : Walks tree .keep links
            location.dropLast (Path.names target ++ rest) asks destination) :
            Walks tree .keep (links + 1) start names asks destination :=
          .onward leg (by simp [isLast]) (by simp) relative (by rw [same]; exact kept)
        rcases inductionHypothesis with kept | ⟨other, further, kept⟩
        · exact .inl (onward kept)
        · exact .inr ⟨other, further, onward kept⟩

/-! ### Names on the way -/

/-- A leg through some names passes a directory behind them, or it ended at a link before. -/
theorem leg_through {leg : Leg} (enterable : tree.Enterable start) (further : more ≠ [])
    (walked : tree.leg start (names ++ more) = .ok leg) :
    (∃ location mode, tree.leg start names = .ok (.arrived (.taken location (.directory mode)))) ∨
      ∃ location target rest, tree.leg start names = .ok (.link location target rest) ∧
        leg = .link location target (rest ++ more) := by
  induction names generalizing start with
  | nil =>
      obtain ⟨mode, found⟩ := enterable start List.prefix_rfl
      refine .inl ⟨start, mode, ?_⟩
      rw [Tree.leg, found]
  | cons name rest inductionHypothesis =>
      cases firstStep walked with
      | here same later =>
          rw [same, leg_here]
          exact inductionHypothesis enterable later
      | parent same later =>
          rw [same, leg_parent]
          exact inductionHypothesis enterable.dropLast later
      | directory enters found later =>
          rw [leg_directory enters found]
          exact inductionHypothesis ((enterable.child name).enterable found) later
      | link enters found ends => exact .inr ⟨_, _, _, leg_link enters found rest, ends⟩
      | file enters found isLast ends => simp [further] at isLast
      | vacant enters free isLast ends => simp [further] at isLast

/-- A walk that goes on behind some names passes a directory there. -/
theorem Walks.through {destination : Destination} (enterable : tree.Enterable start)
    (further : more ≠ []) (walks : Walks tree last links start (names ++ more) asks destination) :
    ∃ location mode asked,
      Walks tree .follow links start names asks ⟨.taken location (.directory mode), asked⟩ := by
  generalize whole : names ++ more = all at walks
  induction walks generalizing names with
  | arrived leg =>
      subst whole
      rcases leg_through enterable further leg with ⟨_, _, leg⟩ | ⟨_, _, _, _, ends⟩
      · exact ⟨_, _, _, .arrived leg⟩
      · cases ends
  | kept leg keeps =>
      subst whole
      rcases leg_through enterable further leg with ⟨_, _, leg⟩ | ⟨_, _, _, _, ends⟩
      · exact ⟨_, _, _, .arrived leg⟩
      · simp only [Leg.link.injEq, List.nil_eq, List.append_eq_nil_iff] at ends
        exact absurd ends.2.2.2 further
  | onward leg behind inside relative later inductionHypothesis =>
      rename_i _ _ place _ _ asks target _
      subst whole
      have anchored : tree.Anchored _ := leg_anchored enterable leg
      have begins := anchored.dropLast (nonRoot_of_get? (leg_fits leg).1 rfl)
      rcases leg_through enterable further leg with ⟨_, _, leg⟩ | ⟨_, _, rest, before, ends⟩
      · exact ⟨_, _, _, .arrived leg⟩
      · cases ends
        obtain ⟨_, _, _, passed⟩ := inductionHypothesis begins (List.append_assoc _ _ _)
        obtain ⟨_, passed⟩ := passed.asking (by simp)
          (asks || (rest == [] && Path.asksDirectory target))
        exact ⟨_, _, _, .onward before (by simp) (by simp) relative passed⟩

/-- Behind a file there is nothing more. -/
theorem leg_file {content : Bytes} (enterable : tree.Enterable start) (further : more ≠ [])
    (walked : tree.leg start names = .ok (.arrived (.taken location (.file mode content)))) :
    tree.leg start (names ++ more) = .error .notDirectory := by
  induction names generalizing start with
  | nil =>
      obtain ⟨node, found, ends⟩ := leg_nil walked
      obtain ⟨_, directory⟩ := enterable start List.prefix_rfl
      cases ends
      cases found.symm.trans directory
  | cons name rest inductionHypothesis =>
      rw [List.cons_append]
      cases firstStep walked with
      | here same later =>
          rw [same, leg_here]
          exact inductionHypothesis enterable later
      | parent same later =>
          rw [same, leg_parent]
          exact inductionHypothesis enterable.dropLast later
      | directory enters found later =>
          rw [leg_directory enters found]
          exact inductionHypothesis ((enterable.child name).enterable found) later
      | link enters found ends => cases ends
      | file enters found isLast ends =>
          simp only [Tree.leg, enters.notHere, enters.notParent, enters.short, if_false, found,
            isLast, List.nil_append, further]
      | vacant enters free isLast ends => cases ends

theorem Walks.file {destination : Destination} {content : Bytes} (enterable : tree.Enterable start)
    (further : more ≠ []) (walks : Walks tree .follow links start names asks destination)
    (ends : destination.place = .taken location (.file mode content)) (last : LastLink)
    (asks : Bool) : tree.walk last links start (names ++ more) asks = .error .notDirectory := by
  induction walks generalizing asks with
  | arrived leg =>
      cases ends
      rw [walk, leg_file enterable further leg]
  | kept leg keeps => cases keeps
  | onward leg behind inside relative later inductionHypothesis =>
      rename_i rest _ _ _
      have anchored : tree.Anchored _ := leg_anchored enterable leg
      have begins := anchored.dropLast (nonRoot_of_get? (leg_fits leg).1 rfl)
      have more : rest ++ more ≠ [] := by simp [further]
      rw [walk, leg_append_link leg]
      simp only [more, relative, false_and, Bool.false_eq_true, if_false, ← List.append_assoc]
      exact inductionHypothesis begins ends _

/-- A leg that starts in a directory does not arrive at a link. -/
theorem leg_ne_link (enterable : tree.Enterable start)
    (walked : tree.leg start names = .ok (.arrived (.taken location node))) (target : Bytes) :
    node ≠ .link target := by
  induction names generalizing start with
  | nil =>
      obtain ⟨held, found, ends⟩ := leg_nil walked
      obtain ⟨mode, directory⟩ := enterable start List.prefix_rfl
      cases ends
      cases found.symm.trans directory
      simp
  | cons name rest inductionHypothesis =>
      cases firstStep walked with
      | here same later => exact inductionHypothesis enterable later
      | parent same later => exact inductionHypothesis enterable.dropLast later
      | directory enters found later =>
          exact inductionHypothesis ((enterable.child name).enterable found) later
      | link enters found ends => cases ends
      | file enters found isLast ends =>
          cases ends
          simp
      | vacant enters free isLast ends => cases ends

theorem Walks.follow_ne_link {destination : Destination} (enterable : tree.Enterable start)
    (walks : Walks tree .follow links start names asks destination)
    (ends : destination.place = .taken location node) (target : Bytes) : node ≠ .link target := by
  induction walks with
  | arrived leg =>
      cases ends
      exact leg_ne_link enterable leg target
  | kept leg keeps => cases keeps
  | onward leg behind inside relative later inductionHypothesis =>
      have anchored : tree.Anchored _ := leg_anchored enterable leg
      exact inductionHypothesis (anchored.dropLast (nonRoot_of_get? (leg_fits leg).1 rfl)) ends

/-! ### Directories that names lead to -/

/-- The names lead to a directory, through all links. -/
def Leads (tree : Tree) (names : List Name) (location : Location) : Prop :=
  ∃ mode asks asked,
    Walks tree .follow Path.linkLimit [] names asks ⟨.taken location (.directory mode), asked⟩

theorem Leads.root (tree : Tree) : tree.Leads [] [] := by
  obtain ⟨mode, found⟩ := tree.get?_root
  exact ⟨mode, false, false, .arrived (by rw [leg, found])⟩

theorem Leads.directory (leads : tree.Leads names location) :
    ∃ mode, tree.get? location = some (.directory mode) := by
  obtain ⟨mode, _, _, walks⟩ := leads
  exact ⟨mode, walk_fits walks.walk_eq⟩

theorem find_directory (walked : Path.IsWalked path) :
    (∃ mode, tree.find path = .ok (.taken location (.directory mode))) ↔
      tree.Leads (Path.names path) location := by
  constructor
  · rintro ⟨mode, found⟩
    obtain ⟨asked, resolved⟩ := resolve_of_find found
    exact ⟨mode, _, asked, .of_walk (walk_of_resolve (by simp) resolved)⟩
  · rintro ⟨mode, _, _, walks⟩
    obtain ⟨asked, walks⟩ := walks.asking (by simp) (Path.asksDirectory path)
    refine ⟨mode, ?_⟩
    rw [find, resolve_walked walked, walks.walk_eq]
    simp [Node.isDirectory]

/-- Names that go on behind others lead through a directory. -/
theorem Leads.through {place : Place} {asked : Bool} (further : more ≠ [])
    (walked : tree.walk last Path.linkLimit [] (names ++ more) asks = .ok ⟨place, asked⟩) :
    ∃ location, tree.Leads names location := by
  obtain ⟨location, mode, asked, walks⟩ := (Walks.of_walk walked).through (.root tree) further
  exact ⟨location, mode, asks, asked, walks⟩

/-! ### Directories that are made on the way -/

theorem refused_ne_alreadyExists
    (refused : tree.walk last links start names asks = .error errno) : errno ≠ .alreadyExists := by
  have apart : ∀ errno ∈ refusals, errno ≠ .alreadyExists := by decide
  exact apart errno (walk_refusal refused)

/-- Where something is, if only a link, no directory is made. -/
theorem makeDirectory_taken {asked : Bool}
    (taken : tree.resolve .keep path = .ok ⟨.taken location node, asked⟩) (mode : Mode) :
    tree.makeDirectory path mode = .error .alreadyExists := by
  rw [makeDirectory, taken]

theorem Leads.makeDirectory (walked : Path.IsWalked path)
    (leads : tree.Leads (Path.names path) location) (mode : Mode) :
    tree.makeDirectory path mode = .error .alreadyExists := by
  obtain ⟨_, _, _, walks⟩ := leads
  obtain ⟨_, walks⟩ := walks.asking (by simp) (Path.asksDirectory path)
  rcases walks.keep_of_follow with kept | ⟨_, _, kept⟩
  · exact makeDirectory_taken (by rw [resolve_walked walked, kept.walk_eq]) mode
  · exact makeDirectory_taken (by rw [resolve_walked walked, kept.walk_eq]) mode

/-- What the names stand for is no directory and does not lead to one. -/
structure Obstructs (tree : Tree) (names : List Name) : Prop where
  held : ∃ asks location node asked,
    Walks tree .keep Path.linkLimit [] names asks ⟨.taken location node, asked⟩
  blocked : ∀ location, ¬ tree.Leads names location

/-- On the way of an obstacle everything exists, and behind it nothing is reached. -/
theorem Obstructs.refused {front : List Name} (obstructs : tree.Obstructs front)
    (walked : Path.IsWalked path) (onWay : Path.names path <+: front ∨ front <+: Path.names path)
    (mode : Mode) :
    tree.makeDirectory path mode = .error .alreadyExists ∨
      ∃ errno more, more ≠ [] ∧ Path.names path = front ++ more ∧
        tree.walk .keep Path.linkLimit [] (front ++ more) (Path.asksDirectory path) =
          .error errno ∧ tree.makeDirectory path mode = .error errno := by
  have resolved := resolve_walked walked tree .keep
  obtain ⟨_, _, _, _, held⟩ := obstructs.held
  have same (equal : Path.names path = front) :
      tree.makeDirectory path mode = .error .alreadyExists := by
    obtain ⟨_, held⟩ := held.asking (by simp) (Path.asksDirectory path)
    rw [← equal] at held
    exact makeDirectory_taken (resolved.trans held.walk_eq) mode
  rcases onWay with ⟨more, shape⟩ | ⟨more, shape⟩
  · by_cases none : more = []
    · exact .inl (same (by simpa [none] using shape))
    · rw [← shape] at held
      obtain ⟨_, leads⟩ := Leads.through none held.walk_eq
      exact .inl (leads.makeDirectory walked mode)
  · by_cases none : more = []
    · exact .inl (same (by simpa [none] using shape.symm))
    · rw [← shape] at resolved
      cases outcome : tree.walk .keep Path.linkLimit [] (front ++ more)
          (Path.asksDirectory path) with
      | ok destination =>
          obtain ⟨location, leads⟩ := Leads.through none outcome
          exact absurd leads (obstructs.blocked location)
      | error errno =>
          exact .inr ⟨errno, more, none, shape.symm, outcome, by
            rw [makeDirectory, resolved, outcome]⟩

/-- Behind an obstacle no directory is found. -/
theorem Obstructs.blocks {front more : List Name} (obstructs : tree.Obstructs front)
    (location : Location) : ¬ tree.Leads (front ++ more) location := by
  intro leads
  by_cases none : more = []
  · rw [none, List.append_nil] at leads
    exact obstructs.blocked location leads
  · obtain ⟨_, _, _, walks⟩ := leads
    obtain ⟨passed, leads⟩ := Leads.through none walks.walk_eq
    exact obstructs.blocked passed leads

/-- A name behind a directory stands for what is in this directory. -/
theorem Leads.resolve {parent : Location} {name : Name} (leads : tree.Leads names parent)
    (walked : Path.IsWalked path) (shape : Path.names path = names ++ [name]) :
    ∃ links, tree.resolve .keep path = tree.walk .keep links parent [name] (Path.asksDirectory path) := by
  obtain ⟨_, _, _, walks⟩ := leads
  obtain ⟨links, same⟩ := walks.append rfl (List.cons_ne_nil name [])
  exact ⟨links, by rw [resolve_walked walked, shape, same]⟩

theorem Leads.child {parent : Location} {name : Name} (leads : tree.Leads names parent)
    (enters : Path.Enters name) (found : tree.get? (parent ++ [name]) = some (.directory mode)) :
    tree.Leads (names ++ [name]) (parent ++ [name]) := by
  obtain ⟨_, asks, _, walks⟩ := leads
  obtain ⟨links, same⟩ := walks.append rfl (List.cons_ne_nil name [])
  have arrives : tree.walk .follow links parent [name] asks =
      .ok ⟨.taken (parent ++ [name]) (.directory mode), asks⟩ := by
    rw [walk, leg_last enters found (by simp)]
  exact ⟨mode, asks, asks, .of_walk ((same .follow asks).trans arrives)⟩

theorem Leads.keep (ways : before.KeepsWays after) (leads : before.Leads names location) :
    after.Leads names location := by
  obtain ⟨mode, found⟩ := leads.directory
  obtain ⟨kept, still⟩ := ways.directory _ _ found
  obtain ⟨first, asks, asked, walks⟩ := leads
  have there : (Place.taken location (.directory first)).At location := rfl
  exact ⟨kept, asks, asked, walks.keep_taken ways still (by simp) there⟩

/-- Some directories on the way were made, or none were missing, and now the names lead to a
directory. -/
structure Reaches (before after : Tree) (names : List Name) (location : Location) : Prop where
  leads : after.Leads names location
  elsewhere : ∀ other, after.get? other = before.get? other ∨
    before.get? other = none ∧ other <+: location
  origin : after = before ∨ before.get? location = none

namespace Reaches

variable {parent : Location} {name : Name}

theorem root (tree : Tree) : Reaches tree tree [] [] :=
  ⟨.root tree, fun _ => .inl rfl, .inl rfl⟩

theorem kept (reaches : Reaches before after names location) {other : Location}
    (found : before.get? other = some node) : after.get? other = some node := by
  rcases reaches.elsewhere other with same | ⟨free, _⟩
  · rw [same, found]
  · cases free.symm.trans found

theorem keepsWays (reaches : Reaches before after names location) : before.KeepsWays after :=
  ⟨fun _ mode found => ⟨mode, reaches.kept found⟩, fun _ _ found => reaches.kept found⟩

/-- What is found behind a directory was there from the start. -/
theorem child_held (reaches : Reaches before after names parent) (whole : before.Whole)
    (found : after.get? (parent ++ [name]) = some node) : after = before := by
  rcases reaches.origin with same | free
  · exact same
  · rcases reaches.elsewhere (parent ++ [name]) with same | ⟨_, inside⟩
    · cases (found.symm.trans same).trans (whole.free free name)
    · have shorter := inside.length_le
      simp only [List.length_append, List.length_singleton] at shorter
      omega

theorem child_free (reaches : Reaches before after names parent)
    (free : after.get? (parent ++ [name]) = none) : before.get? (parent ++ [name]) = none := by
  rcases reaches.elsewhere (parent ++ [name]) with same | ⟨free, _⟩
  · exact same.symm.trans free
  · exact free

/-- A directory that was missing is made in the one behind which it is named. -/
theorem make (reaches : Reaches before after names parent) (enters : Path.Enters name)
    (free : after.get? (parent ++ [name]) = none) (mode : Mode) :
    Reaches before (after.put (parent ++ [name]) (.directory mode)) (names ++ [name])
      (parent ++ [name]) := by
  have look (other : Location) := after.get?_put (parent ++ [name]) other (.directory mode)
    (fun _ => rfl)
  have ways : after.KeepsWays (after.put (parent ++ [name]) (.directory mode)) := by
    have kept {other : Location} {node : Node} (found : after.get? other = some node) :
        (after.put (parent ++ [name]) (.directory mode)).get? other = some node := by
      have apart : other ≠ parent ++ [name] := by
        rintro rfl
        cases free.symm.trans found
      rw [look, if_neg apart, found]
    exact ⟨fun _ mode found => ⟨mode, kept found⟩, fun _ _ found => kept found⟩
  refine ⟨(reaches.leads.keep ways).child enters (by rw [look, if_pos rfl]), ?_, .inr ?_⟩
  · intro other
    rw [look]
    split
    · rename_i same
      subst same
      exact .inr ⟨reaches.child_free free, List.prefix_rfl⟩
    · rcases reaches.elsewhere other with same | ⟨missing, inside⟩
      · exact .inl same
      · exact .inr ⟨missing, inside.trans (List.prefix_append _ _)⟩
  · exact reaches.child_free free

/-- The next directory on the way is there, or it is made. -/
theorem step (reaches : Reaches before after names parent) (whole : before.Whole)
    (walked : Path.IsWalked path) (shape : Path.names path = names ++ [name])
    (enters : Path.Enters name)
    (fits : ∀ location node asked, before.resolve .keep path = .ok ⟨.taken location node, asked⟩ →
      ∃ location, before.Leads (Path.names path) location) (mode : Mode) :
    ∃ made location, (after.makeDirectory path mode = .ok made ∨
      after.makeDirectory path mode = .error .alreadyExists ∧ made = after) ∧
        Reaches before made (Path.names path) location := by
  obtain ⟨links, resolved⟩ := reaches.leads.resolve walked shape
  cases found : after.get? (parent ++ [name]) with
  | none =>
      have vacant : after.resolve .keep path =
          .ok ⟨.vacant (parent ++ [name]), Path.asksDirectory path⟩ := by
        rw [resolved, walk]
        simp [leg, enters.notHere, enters.notParent, enters.short, found]
      refine ⟨_, parent ++ [name], .inl (by rw [makeDirectory, vacant]), ?_⟩
      rw [shape]
      exact reaches.make enters found _
  | some node =>
      obtain rfl := reaches.child_held whole found
      have taken : ∃ asked, after.resolve .keep path =
          .ok ⟨.taken (parent ++ [name]) node, asked⟩ := by
        rw [resolved, walk]
        cases node with
        | directory mode => exact ⟨_, by rw [leg_last enters found (by simp)]⟩
        | file mode content => exact ⟨_, by rw [leg_last enters found (by simp)]⟩
        | link target => exact ⟨Path.asksDirectory path, by simp [leg_link enters found]⟩
      obtain ⟨asked, taken⟩ := taken
      obtain ⟨location, leads⟩ := fits _ _ _ taken
      exact ⟨after, location, .inr ⟨makeDirectory_taken taken mode, rfl⟩, leads,
        fun _ => .inl rfl, .inl rfl⟩

end Reaches

end Tree

end Launcher
