/-
This file is about the last name of a path. Unless it is the name of a link, a walk that creates
files ends where a walk ends that keeps the last link.
-/

import Launcher.Proofs.Tree.Beside

namespace Launcher.Tree

variable {tree before after : Tree} {location start : Location} {names : List Name} {links : Nat}
  {last : LastLink} {asks : Bool} {node : Node} {path target : Bytes}

/-- The path names a link itself. -/
def NamesLink (tree : Tree) (path : Bytes) : Prop :=
  ∃ location target, tree.resolve .keep path = .ok ⟨.taken location (.link target), false⟩

/-- Something is there under the path, if only a link that leads nowhere. -/
def NamesNode (tree : Tree) (path : Bytes) : Prop :=
  ∃ location node asks, tree.resolve .keep path = .ok ⟨.taken location node, asks⟩

/-! ### Created files -/

/-- A walk that creates files goes behind its last link only when the path asks for no directory. -/
theorem Walks.keep_of_create {destination : Destination}
    (walks : Walks tree .create links start names asks destination) :
    Walks tree .keep links start names asks destination ∨
      asks = false ∧ ∃ location target,
        Walks tree .keep links start names asks ⟨.taken location (.link target), asks⟩ := by
  induction walks with
  | arrived leg => exact .inl (.arrived leg)
  | kept leg keeps => cases keeps
  | onward leg behind inside relative later inductionHypothesis =>
      rename_i links start location names rest asks target destination
      by_cases isLast : rest = []
      · subst isLast
        have noDirectory : asks = false := by simpa using inside
        exact .inr ⟨noDirectory, location, target, .kept leg rfl⟩
      · have same : (asks || (rest == [] && Path.asksDirectory target)) = asks := by simp [isLast]
        rw [same] at later inductionHypothesis
        have onward {destination : Destination} (kept : Walks tree .keep links
            location.dropLast (Path.names target ++ rest) asks destination) :
            Walks tree .keep (links + 1) start names asks destination :=
          .onward leg (by simp [isLast]) (by simp) relative (by rw [same]; exact kept)
        rcases inductionHypothesis with kept | ⟨noDirectory, other, further, kept⟩
        · exact .inl (onward kept)
        · exact .inr ⟨noDirectory, other, further, onward kept⟩

theorem resolve_keep_of_create {place : Place} (noDevice : ∀ device, place ≠ .device device)
    (noLink : ¬ tree.NamesLink path)
    (resolved : tree.resolve .create path = .ok ⟨place, asks⟩) :
    tree.resolve .keep path = .ok ⟨place, asks⟩ := by
  have walks := Walks.of_walk (walk_of_resolve noDevice resolved)
  rcases walks.keep_of_create with kept | ⟨noDirectory, location, target, kept⟩
  · rw [resolve_eq_walk noDevice resolved]
    exact kept.walk_eq
  · refine absurd ⟨location, target, ?_⟩ noLink
    rw [resolve_eq_walk noDevice resolved, kept.walk_eq, noDirectory]

/-! ### Devices -/

/-- Only the path of a device leads out of the tree. -/
theorem device_of_resolve {device : Device}
    (resolved : tree.resolve last path = .ok ⟨.device device, asks⟩) :
    Device.ofPath path = some device := by
  unfold resolve at resolved
  split at resolved
  · rename_i known
    cases resolved
    exact known
  split at resolved
  · cases resolved
  split at resolved
  · cases resolved
  · exact (walk_fits resolved).elim

theorem writable_device (tree : Tree) {device : Device} :
    tree.writable path = .ok (.device device) ↔ Device.ofPath path = some device := by
  constructor
  · intro named
    unfold writable at named
    split at named <;> cases named
    rename_i resolved
    exact device_of_resolve resolved
  · intro known
    simp only [writable, resolve, known]

/-- What is written behind a link is a file. -/
theorem NamesLink.noDevice (named : tree.NamesLink path) (device : Device) :
    tree.writable path ≠ .ok (.device device) := by
  intro isDevice
  obtain ⟨location, target, resolved⟩ := named
  simp only [resolve, (tree.writable_device).mp isDevice] at resolved
  cases resolved

/-! ### Kept links -/

theorem leg_keep_taken_link (ways : before.KeepsWays after)
    (walked : before.leg start names = .ok (.arrived (.taken location (.link target)))) :
    after.leg start names = .ok (.arrived (.taken location (.link target))) := by
  induction names generalizing start with
  | nil =>
      obtain ⟨node, found, ends⟩ := leg_nil walked
      cases ends
      rw [Tree.leg, ways.link _ _ found]
  | cons name rest inductionHypothesis =>
      cases firstStep walked with
      | here same later =>
          rw [same, leg_here]
          exact inductionHypothesis later
      | parent same later =>
          rw [same, leg_parent]
          exact inductionHypothesis later
      | directory enters found later =>
          obtain ⟨_, still⟩ := ways.directory _ _ found
          rw [leg_directory enters still]
          exact inductionHypothesis later
      | link enters found ends => cases ends
      | file enters found isLast ends => cases ends
      | vacant enters free isLast ends => cases ends

theorem Walks.keep_link {destination : Destination} (ways : before.KeepsWays after)
    (walks : Walks before last links start names asks destination)
    (ends : destination.place = .taken location (.link target)) :
    Walks after last links start names asks destination := by
  induction walks with
  | arrived leg =>
      cases ends
      exact .arrived (leg_keep_taken_link ways leg)
  | kept leg keeps => exact .kept (leg_keep_link ways leg) keeps
  | onward leg behind inside relative later inductionHypothesis =>
      exact .onward (leg_keep_link ways leg) behind inside relative (inductionHypothesis ends)

/-- A path names the same link when the ways are kept. -/
theorem resolve_keep_link (ways : before.KeepsWays after)
    (resolved : before.resolve last path = .ok ⟨.taken location (.link target), asks⟩) :
    after.resolve last path = .ok ⟨.taken location (.link target), asks⟩ := by
  rw [resolve_eq_walk (by simp) resolved]
  exact ((Walks.of_walk (walk_of_resolve (by simp) resolved)).keep_link ways rfl).walk_eq

/-! ### Removed nodes -/

theorem unlinkable_of_resolve (named : tree.resolve .keep path = .ok ⟨.taken location node, false⟩)
    (noDirectory : node.isDirectory = false) : tree.unlinkable path = .ok location := by
  simp [unlinkable, named, noDirectory]

/-- When what a path names is removed, the path names nothing. -/
theorem not_namesNode_erase (nonRoot : location ≠ [])
    (named : tree.resolve .keep path = .ok ⟨.taken location node, asks⟩) :
    ¬ (tree.erase location).NamesNode path := by
  rintro ⟨other, found, asked, resolved⟩
  have fewer : (tree.erase location).KeepsWays tree := .of_erase nonRoot
  have there : (tree.erase location).get? other = some found :=
    walk_fits (walk_of_resolve (by simp) resolved)
  rw [get?_erase _ _ _ nonRoot] at there
  split at there
  · cases there
  rename_i distinct
  have again : tree.resolve .keep path = .ok ⟨.taken other found, asked⟩ := by
    by_cases isLink : ∃ target, found = .link target
    · obtain ⟨target, rfl⟩ := isLink
      exact resolve_keep_link fewer resolved
    · have noLink (target : Bytes) : found ≠ .link target := fun same => isLink ⟨target, same⟩
      exact resolve_before fewer noLink there noLink resolved .keep
  rw [named] at again
  cases again
  exact distinct rfl

end Launcher.Tree
