/-
This file is about paths that are lost. When a file takes the place of a link, the paths through the
link lead nowhere, and all others keep their slots.
-/

import Launcher.Proofs.Tree.Refusal
import Launcher.Proofs.Tree.Touch

namespace Launcher.Tree

variable {tree first second third before after : Tree} {start location parent : Location}
  {names rest : List Name} {name : Name} {path source target : Bytes} {mode : Mode}

/-- The directories stay, and a link stays or a file is in its place. -/
structure Blocks (before after : Tree) : Prop where
  directory : ∀ location mode, before.get? location = some (.directory mode) →
    ∃ mode, after.get? location = some (.directory mode)
  link : ∀ location target, before.get? location = some (.link target) →
    after.get? location = some (.link target) ∨
      ∃ mode content, after.get? location = some (.file mode content)

theorem Blocks.refl (tree : Tree) : tree.Blocks tree :=
  ⟨fun _ mode found => ⟨mode, found⟩, fun _ _ found => .inl found⟩

/-- Nothing is found through the path. -/
def Lost (tree : Tree) (path : Bytes) : Prop :=
  ∀ last, ∃ errno, tree.resolve last path = .error errno

namespace Blocks

variable (blocks : before.Blocks after)
include blocks

theorem leg_directory
    (walked : before.leg start names = .ok (.arrived (.taken parent (.directory mode)))) :
    ∃ mode, after.leg start names = .ok (.arrived (.taken parent (.directory mode))) := by
  induction names generalizing start with
  | nil =>
      obtain ⟨node, found, ends⟩ := leg_nil walked
      cases ends
      obtain ⟨kept, still⟩ := blocks.directory _ _ found
      exact ⟨kept, by rw [Tree.leg, still]⟩
  | cons name rest inductionHypothesis =>
      cases firstStep walked with
      | here same later =>
          rw [same, leg_here]
          exact inductionHypothesis later
      | parent same later =>
          rw [same, leg_parent]
          exact inductionHypothesis later
      | directory enters found later =>
          obtain ⟨kept, still⟩ := blocks.directory _ _ found
          rw [Tree.leg_directory enters still]
          exact inductionHypothesis later
      | link enters found ends => cases ends
      | file enters found isLast ends => cases ends
      | vacant enters free isLast ends => cases ends

/-- A leg to a link is kept, or there is no going on behind the link. -/
theorem leg_link (walked : before.leg start names = .ok (.link location target rest)) :
    after.leg start names = .ok (.link location target rest) ∨
      ∀ more, more ≠ [] → after.leg start (names ++ more) = .error .notDirectory := by
  induction names generalizing start with
  | nil =>
      obtain ⟨node, found, ends⟩ := leg_nil walked
      cases ends
  | cons name others inductionHypothesis =>
      simp only [List.cons_append]
      cases firstStep walked with
      | here same later =>
          simp only [same, leg_here]
          exact inductionHypothesis later
      | parent same later =>
          simp only [same, leg_parent]
          exact inductionHypothesis later
      | directory enters found later =>
          obtain ⟨kept, still⟩ := blocks.directory _ _ found
          simp only [Tree.leg_directory enters still]
          exact inductionHypothesis later
      | link enters found ends =>
          cases ends
          rcases blocks.link _ _ found with still | ⟨mode, content, blocked⟩
          · exact .inl (Tree.leg_link enters still rest)
          · refine .inr fun more some => ?_
            have behind : rest ++ more ≠ [] := by simp [some]
            simp only [Tree.leg, enters.notHere, enters.notParent, enters.short, if_false, blocked,
              behind]
      | file enters found isLast ends => cases ends
      | vacant enters free isLast ends => cases ends

/-- A walk to a directory is kept, or there is no going on from there. -/
theorem walk_directory {links : Nat} {asks : Bool} {destination : Destination}
    (walks : Walks before .follow links start names asks destination)
    (ends : destination.place = .taken parent (.directory mode)) :
    (∃ mode, after.walk .follow links start names asks =
        .ok ⟨.taken parent (.directory mode), destination.asksDirectory⟩) ∨
      ∀ last more asks, more ≠ [] →
        ∃ errno, after.walk last links start (names ++ more) asks = .error errno := by
  induction walks with
  | arrived leg =>
      cases ends
      obtain ⟨kept, still⟩ := blocks.leg_directory leg
      exact .inl ⟨kept, by rw [walk, still]⟩
  | kept leg keeps => cases keeps
  | onward leg behind inside relative later inductionHypothesis =>
      rename_i rest _ _ _
      rcases blocks.leg_link leg with still | lost
      · rcases inductionHypothesis ends with ⟨kept, walked⟩ | lost
        · refine .inl ⟨kept, ?_⟩
          rw [walk, still]
          simp only [behind, inside, relative, Bool.false_eq_true, if_false]
          exact walked
        · refine .inr fun last more asks some => ?_
          have further : rest ++ more ≠ [] := by simp [some]
          rw [walk, leg_append_link still]
          simp only [further, relative, false_and, Bool.false_eq_true, if_false]
          rw [← List.append_assoc]
          exact lost last more _ some
      · refine .inr fun last more asks some => ⟨.notDirectory, ?_⟩
        rw [walk, lost more some]

/-- A path keeps its slot, or it is lost. -/
theorem slot (slot : before.Slot path parent name) : after.Slot path parent name ∨ after.Lost path := by
  obtain ⟨names, asks, mode, asked, shape, walked⟩ := slot.way
  rcases blocks.walk_directory (.of_walk walked) rfl with ⟨kept, still⟩ | lost
  · exact .inl { slot with way := ⟨names, asks, kept, asked, shape, still⟩ }
  · refine .inr fun last => ?_
    unfold resolve
    rw [slot.noDevice, shape]
    dsimp only
    split
    · exact ⟨_, rfl⟩
    split
    · exact ⟨_, rfl⟩
    exact lost last [name] _ (by simp)

end Blocks

namespace Lost

theorem find (lost : tree.Lost path) : ∃ errno, tree.find path = .error errno := by
  obtain ⟨errno, refused⟩ := lost .follow
  exact ⟨errno, by rw [Tree.find, refused]⟩

theorem setMode (lost : tree.Lost path) (mode : Mode) :
    ∃ errno, tree.setMode path mode = .error errno := by
  obtain ⟨errno, refused⟩ := lost.find
  exact ⟨errno, by rw [Tree.setMode, refused]⟩

theorem writable (lost : tree.Lost path) : ∃ errno, tree.writable path = .error errno := by
  obtain ⟨errno, refused⟩ := lost .create
  exact ⟨errno, by rw [Tree.writable, refused]⟩

theorem unlinkable (lost : tree.Lost path) : ∃ errno, tree.unlinkable path = .error errno := by
  obtain ⟨errno, refused⟩ := lost .keep
  exact ⟨errno, by rw [Tree.unlinkable, refused]⟩

theorem renamable_source (lost : tree.Lost source) (target : Bytes) :
    ∃ errno, tree.renamable source target = .error errno := by
  obtain ⟨errno, refused⟩ := lost .keep
  exact ⟨errno, by rw [Tree.renamable, refused]⟩

theorem renamable_target (lost : tree.Lost target) (source : Bytes) :
    ∃ errno, tree.renamable source target = .error errno := by
  obtain ⟨errno, refused⟩ := lost .keep
  unfold Tree.renamable
  rw [refused]
  cases tree.resolve .keep source with
  | error first => exact ⟨first, rfl⟩
  | ok _ => exact ⟨errno, rfl⟩

end Lost

end Launcher.Tree
