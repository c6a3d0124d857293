/-
This file defines crowds: invocations of the launcher that install the same binary side by side. A
call of one invocation leaves the temporary files and the output streams of all others alone.
-/

import Launcher.Proofs.Decision
import Launcher.Proofs.Resolution
import Launcher.Proofs.Tree.Loss

namespace Launcher

/-! ### Places of calls -/

def Place.location? : Place → Option Location
  | .taken location _ => some location
  | .vacant location => some location
  | .device _ => none

/-- The paths of a call, and what its walks do with a last link. -/
def FileCall.walks : FileCall → List (LastLink × Bytes)
  | .inspect path => [(.follow, path)]
  | .access path => [(.follow, path)]
  | .makeDirectory path _ => [(.keep, path)]
  | .setMode path _ => [(.follow, path)]
  | .unlink path => [(.keep, path)]
  | .rename source target => [(.keep, source), (.keep, target)]
  | .openOutput path => [(.create, path)]
  | _ => []

/-- A call reaches a location when one of its paths leads there, or the output stream of the handle
does. -/
def FileCall.Reaches {Handle : Type} (files : FileSystem Handle) (handle : Handle)
    (location : Location) (call : FileCall) : Prop :=
  (∃ walk ∈ call.walks, ∃ destination, files.tree.resolve walk.1 walk.2 = .ok destination ∧
    destination.place.location? = some location) ∨
  (call.walks = [] ∧ files.target? handle = some location)

/-- An installation makes these file calls, and nothing else touches its temporary file. -/
def FileCall.Installs (temporary target : Bytes) : FileCall → Prop
  | .openOutput path => path = temporary
  | .rename source other => source = temporary ∧ other = target
  | call => call.Tends temporary

/-- The paths of an installation are the temporary file, and the binary for the renaming. -/
theorem FileCall.Installs.walk {temporary target : Bytes} {call : FileCall}
    (installs : call.Installs temporary target) {walk : LastLink × Bytes}
    (among : walk ∈ call.walks) : walk.2 = temporary ∨ walk = (.keep, target) := by
  cases call with
  | rename source other =>
      obtain ⟨rfl, rfl⟩ := installs
      simp only [walks, List.mem_cons, List.not_mem_nil, or_false] at among
      rcases among with rfl | rfl
      · exact .inl rfl
      · exact .inr rfl
  | inspect path => exact .inl ((congrArg Prod.snd (List.mem_singleton.mp among)).trans installs)
  | setMode path mode =>
      exact .inl ((congrArg Prod.snd (List.mem_singleton.mp among)).trans installs)
  | unlink path => exact .inl ((congrArg Prod.snd (List.mem_singleton.mp among)).trans installs)
  | openOutput path => exact .inl ((congrArg Prod.snd (List.mem_singleton.mp among)).trans installs)
  | access path => exact installs.elim
  | makeDirectory path mode => exact installs.elim
  | _ => cases among

namespace Tree.Slot

variable {tree : Tree} {path : Bytes} {parent : Location} {name : Name}

/-- A path leads to its slot at most. -/
theorem resolve_location (slot : tree.Slot path parent name) {last : LastLink}
    {destination : Destination}
    (kept : last = .keep ∨ ∀ target, tree.get? (parent ++ [name]) ≠ some (.link target))
    (resolved : tree.resolve last path = .ok destination) :
    destination.place.location? = some (parent ++ [name]) := by
  by_cases fits : Path.Fits path name
  · cases found : tree.get? (parent ++ [name]) with
    | none =>
        rw [slot.resolve_vacant fits found] at resolved
        cases resolved
        rfl
    | some node =>
        have noLink : last = .keep ∨ ∀ target, node ≠ .link target :=
          kept.imp_right fun none target isLink => none target (isLink ▸ found)
        rw [slot.resolve_taken fits found noLink] at resolved
        cases resolved
        rfl
  · rw [slot.resolve_too_long fits] at resolved
    cases resolved

end Tree.Slot

/-- A path that may be lost leads to its slot at most, too. -/
theorem Tree.location_of_way {tree : Tree} {path : Bytes} {parent : Location} {name : Name}
    (way : tree.Slot path parent name ∨ tree.Lost path) {last : LastLink} {destination : Destination}
    (kept : last = .keep ∨ ∀ target, tree.get? (parent ++ [name]) ≠ some (.link target))
    (resolved : tree.resolve last path = .ok destination) :
    destination.place.location? = some (parent ++ [name]) := by
  rcases way with slot | lost
  · exact slot.resolve_location kept resolved
  · obtain ⟨errno, refused⟩ := lost last
    rw [refused] at resolved
    cases resolved

/-! ### Crowds -/

/-- Each invocation has its own number, its own mask, and its own transfer. -/
structure Invocation where
  processId : Int
  mask : Mode := 0o022
  script : Transfer.Script := {}

/-- The invocations of a crowd share their files, and each has a handle for its output. At first the
directory of the cache is there, no temporary file is, and no output is open. -/
structure Crowd (Handle : Type) where
  version : Bytes
  directory : Bytes
  host : Platform
  invocations : Handle → Invocation
  files : FileSystem Handle
  parent : Location
  found : ∃ mode, files.tree.find directory = .ok (.taken parent (.directory mode))
  distinct : Function.Injective fun handle => (invocations handle).processId
  vacant : ∀ handle,
    files.tree.get? (parent ++ [host.temporaryName (invocations handle).processId]) = none
  closed : ∀ handle, files.streams handle = none

namespace Crowd

variable {Handle : Type} {crowd : Crowd Handle} {handle other : Handle}
  {files before after : FileSystem Handle}

def target (crowd : Crowd Handle) : Bytes := Resolve.target crowd.directory crowd.host

def temporary (crowd : Crowd Handle) (handle : Handle) : Bytes :=
  Install.temporary crowd.target (crowd.invocations handle).processId

/-- The entry that the binary has in the tree. -/
def destination (crowd : Crowd Handle) : Location := crowd.parent ++ [crowd.host.binaryName]

/-- The entry that the temporary file of an invocation has in the tree. -/
def spot (crowd : Crowd Handle) (handle : Handle) : Location :=
  crowd.parent ++ [crowd.host.temporaryName (crowd.invocations handle).processId]

theorem spot_injective (crowd : Crowd Handle) : Function.Injective crowd.spot := by
  intro first second same
  have names := (List.append_inj' same rfl).2
  simp only [Platform.temporaryName, List.cons.injEq, and_true] at names
  exact crowd.distinct (Install.temporary_injective _ names)

theorem spot_ne_destination (crowd : Crowd Handle) (handle : Handle) :
    crowd.spot handle ≠ crowd.destination := by
  intro same
  have names := (List.append_inj' same rfl).2
  simp only [List.cons.injEq, and_true] at names
  exact Resolve.temporaryName_ne crowd.host _ names

theorem spot_nonRoot (crowd : Crowd Handle) (handle : Handle) : crowd.spot handle ≠ [] := by
  simp [spot]

/-- What an invocation has of its own: the entry of its temporary file, and its output stream. -/
structure View where
  entry : Option Node
  stream : Option Stream

def view (crowd : Crowd Handle) (files : FileSystem Handle) (handle : Handle) : View :=
  ⟨files.tree.get? (crowd.spot handle), files.streams handle⟩

-- The binary may be a link at first, and the way to its directory may go through this link. From the
-- first renaming on, the paths of all invocations are lost then.

/-- This holds of the shared files at every moment. -/
structure Shared (crowd : Crowd Handle) (files : FileSystem Handle) : Prop where
  blocks : crowd.files.tree.Blocks files.tree
  room : ∀ handle, files.tree.HasRoom (crowd.spot handle)
  target : ∀ handle location, files.target? handle = some location → location = crowd.spot handle

theorem shared_start (crowd : Crowd Handle) : crowd.Shared crowd.files := by
  refine ⟨.refl _, fun handle => .of_none (crowd.vacant handle), fun handle location there => ?_⟩
  simp [FileSystem.target?, crowd.closed handle] at there

namespace Shared

variable (shared : crowd.Shared files)
include shared

/-- The path of a temporary file leads to its entry, or it is lost. -/
theorem source (handle : Handle) :
    files.tree.Slot (crowd.temporary handle) crowd.parent
        (crowd.host.temporaryName (crowd.invocations handle).processId) ∨
      files.tree.Lost (crowd.temporary handle) := by
  obtain ⟨mode, found⟩ := crowd.found
  have plain : Path.IsPlain crowd.host.binaryName := crowd.host.system.binaryName_plain
  have long := Install.temporary_long crowd.host.binaryName (crowd.invocations handle).processId
  have slot := Tree.slot_of_find found
    (Install.temporary_plain plain (crowd.invocations handle).processId) (by omega)
  rw [← Install.temporary_child] at slot
  exact shared.blocks.slot slot

theorem binary :
    files.tree.Slot crowd.target crowd.parent crowd.host.binaryName ∨
      files.tree.Lost crowd.target := by
  obtain ⟨mode, found⟩ := crowd.found
  exact shared.blocks.slot (Tree.slot_of_find found crowd.host.system.binaryName_plain
    crowd.host.system.binaryName_long)

/-- No call of an installation reaches the temporary file of another invocation. -/
theorem apart {call : FileCall} (installs : call.Installs (crowd.temporary handle) crowd.target)
    (distinct : other ≠ handle) : ¬ call.Reaches files handle (crowd.spot other) := by
  have own (last : LastLink) {destination : Destination}
      (resolved : files.tree.resolve last (crowd.temporary handle) = .ok destination) :
      destination.place.location? ≠ some (crowd.spot other) := by
    rw [Tree.location_of_way (shared.source handle) (.inr (shared.room handle).noLink) resolved]
    intro same
    exact distinct (crowd.spot_injective (Option.some.inj same)).symm
  have shares {destination : Destination}
      (resolved : files.tree.resolve .keep crowd.target = .ok destination) :
      destination.place.location? ≠ some (crowd.spot other) := by
    rw [Tree.location_of_way shared.binary (.inl rfl) resolved]
    intro same
    exact crowd.spot_ne_destination other (Option.some.inj same).symm
  rintro (⟨⟨last, path⟩, among, destination, resolved, there⟩ | ⟨_, there⟩)
  · rcases installs.walk among with temporary | target
    · obtain rfl : path = _ := temporary
      exact own last resolved there
    · obtain ⟨rfl, rfl⟩ := Prod.mk.inj target
      exact shares resolved there
  · exact distinct (crowd.spot_injective (shared.target handle _ there))

end Shared

/-! ### Changes of one invocation -/

/-- An invocation changed its own entry and its own stream at most. -/
structure Touches (crowd : Crowd Handle) (handle : Handle) (before after : FileSystem Handle) :
    Prop where
  touched : Tree.Touched (crowd.spot handle) before.tree after.tree
  streams : ∀ other, other ≠ handle → after.streams other = before.streams other
  target : ∀ location, after.target? handle = some location → location = crowd.spot handle

namespace Touches

theorem refl (shared : crowd.Shared files) (handle : Handle) :
    crowd.Touches handle files files :=
  ⟨.refl _ _, fun _ _ => rfl, shared.target handle⟩

theorem trans (first : crowd.Touches handle before files) (second : crowd.Touches handle files after) :
    crowd.Touches handle before after :=
  ⟨first.touched.trans second.touched,
    fun other distinct => (second.streams other distinct).trans (first.streams other distinct),
    second.target⟩

variable (touches : crowd.Touches handle before after)
include touches

theorem view (distinct : other ≠ handle) : crowd.view after other = crowd.view before other := by
  have apart : crowd.spot other ≠ crowd.spot handle := fun same =>
    distinct (crowd.spot_injective same)
  rw [Crowd.view, touches.touched.elsewhere _ apart, touches.streams other distinct, Crowd.view]

theorem destination :
    after.tree.get? crowd.destination = before.tree.get? crowd.destination :=
  touches.touched.elsewhere _ (crowd.spot_ne_destination handle).symm

theorem shared (before : crowd.Shared before) : crowd.Shared after := by
  constructor
  · constructor
    · intro location mode found
      obtain ⟨kept, still⟩ := before.blocks.directory location mode found
      exact touches.touched.ways.directory location kept still
    · intro location target found
      have apart : location ≠ crowd.spot handle := by
        rintro rfl
        cases (crowd.vacant handle).symm.trans found
      rw [touches.touched.elsewhere location apart]
      exact before.blocks.link location target found
  · intro other
    by_cases same : crowd.spot other = crowd.spot handle
    · rw [same]
      exact touches.touched.room (before.room handle)
    · intro node found
      rw [touches.touched.elsewhere _ same] at found
      exact before.room other node found
  · intro other location there
    by_cases same : other = handle
    · subst same
      exact touches.target location there
    · rw [FileSystem.target?, touches.streams other same] at there
      exact before.target other location there

end Touches

/-! ### What calls change -/

namespace Shared

variable (shared : crowd.Shared files)
include shared

theorem works (works : FileSystem.Works handle files after) :
    crowd.Touches handle files after := by
  have leads (location : Location) (there : after.target? handle = some location) :
      location = crowd.spot handle :=
    shared.target handle location (works.target location there)
  rcases works.tree with same | ⟨location, mode, old, new, there, found, same⟩
  · exact ⟨same ▸ .refl _ _, works.streams, leads⟩
  · obtain rfl := shared.target handle location there
    refine ⟨?_, works.streams, leads⟩
    rw [same]
    exact .put_file (.of_file found) (crowd.spot_nonRoot handle) mode new

/-- Only the own temporary file is unlinked. -/
theorem unlink (removed : files.unlink (crowd.temporary handle) = .ok after) :
    crowd.Touches handle files after ∧ (crowd.view after handle).entry = none := by
  rcases shared.source handle with slot | lost
  · unfold FileSystem.unlink at removed
    split at removed <;> cases removed
    rename_i location allowed
    obtain ⟨there, fits, mode, content, found⟩ :=
      (slot.unlinkable_iff (shared.room handle).noLink).mp allowed
    obtain rfl : location = crowd.spot handle := there
    have nonRoot := crowd.spot_nonRoot handle
    refine ⟨⟨.erase (.of_file found) nonRoot, fun other distinct => ?_, fun location there => ?_⟩, ?_⟩
    · refine files.relocate_streams _ fun location there => if_neg ?_
      rintro rfl
      exact distinct (crowd.spot_injective (shared.target other _ there)).symm
    · rw [FileSystem.target?_relocate, Option.bind_eq_some_iff] at there
      obtain ⟨earlier, led, moved⟩ := there
      rw [shared.target handle earlier led, if_pos rfl] at moved
      cases moved
    · exact (Tree.get?_erase _ _ _ nonRoot).trans (if_pos rfl)
  · obtain ⟨errno, refused⟩ := lost.unlinkable
    rw [FileSystem.unlink, refused] at removed
    cases removed

/-- A mode is only set on the own temporary file. -/
theorem setMode {mode : Mode} {tree : Tree}
    (changed : files.tree.setMode (crowd.temporary handle) mode = .ok tree) :
    ∃ node, files.tree.get? (crowd.spot handle) = some node ∧
      tree = files.tree.put (crowd.spot handle) (node.withMode mode) := by
  rcases shared.source handle with slot | lost
  · exact (slot.setMode_ok (shared.room handle).noLink changed).2
  · obtain ⟨errno, refused⟩ := lost.setMode mode
    rw [refused] at changed
    cases changed

/-- A renaming moves the own temporary file, and all other streams stay with their files. -/
theorem renamed (success : files.rename (crowd.temporary handle) crowd.target = .ok after) :
    ∃ mode content, files.tree.get? (crowd.spot handle) = some (.file mode content) ∧
      (∀ mode, files.tree.get? crowd.destination ≠ some (.directory mode)) ∧
      (∀ location, after.tree.get? location =
        if location = crowd.destination then some (.file mode content)
        else if location = crowd.spot handle then none else files.tree.get? location) ∧
      (∀ other, other ≠ handle → after.streams other = files.streams other) ∧
      (files.streams handle = none → after.streams handle = none) := by
  rcases shared.source handle with source | lost
  case inr =>
    obtain ⟨errno, refused⟩ := lost.renamable_source crowd.target
    rw [FileSystem.rename, refused] at success
    cases success
  rcases shared.binary with binary | lost
  case inr =>
    obtain ⟨errno, refused⟩ := lost.renamable_target (crowd.temporary handle)
    rw [FileSystem.rename, refused] at success
    cases success
  unfold FileSystem.rename at success
  split at success
  · cases success
  rename_i old new allowed
  obtain ⟨_, _, places, node, found, replaced⟩ :=
    source.renamable_ok binary (Resolve.temporaryName_ne _ _) allowed
  obtain ⟨there, isTarget⟩ := Prod.mk.inj places
  obtain rfl : old = crowd.spot handle := there
  obtain rfl : new = crowd.destination := isTarget
  rw [if_neg (crowd.spot_ne_destination handle)] at success
  cases success
  obtain ⟨mode, content, rfl⟩ := shared.room handle node found
  refine ⟨mode, content, found, fun kept directory => ?_, ?_, fun other distinct => ?_, ?_⟩
  · cases replaced _ directory
  · exact Tree.get?_move found rfl (by simp [destination])
  · refine files.relocate_streams _ fun location there => ?_
    obtain rfl := shared.target other location there
    have beside : ¬ (crowd.spot handle).isPrefixOf (crowd.spot other) = true := by
      intro inside
      have same := (List.isPrefixOf_iff_prefix.mp inside).eq_of_length (by simp [spot])
      exact distinct (crowd.spot_injective same).symm
    rw [if_neg beside, if_neg (crowd.spot_ne_destination other)]
  · intro idle
    simp [FileSystem.relocate, idle]

/-- A renaming puts the own temporary file into the place of the binary. -/
theorem rename (idle : files.streams handle = none)
    (success : files.rename (crowd.temporary handle) crowd.target = .ok after) :
    crowd.Shared after ∧ (∀ other, other ≠ handle → crowd.view after other = crowd.view files other) ∧
      crowd.view after handle = ⟨none, none⟩ ∧
      after.tree.get? crowd.destination = files.tree.get? (crowd.spot handle) := by
  obtain ⟨mode, content, found, noDirectory, look, streams, closed⟩ := shared.renamed success
  have elsewhere (location : Location) (notThere : location ≠ crowd.destination)
      (notHere : location ≠ crowd.spot handle) :
      after.tree.get? location = files.tree.get? location := by
    rw [look, if_neg notThere, if_neg notHere]
  have away := crowd.spot_ne_destination
  have apart (other : Handle) (distinct : other ≠ handle) :
      crowd.spot other ≠ crowd.spot handle := fun same => distinct (crowd.spot_injective same)
  refine ⟨⟨⟨?_, ?_⟩, ?_, ?_⟩, ?_, ?_, ?_⟩
  · intro location mode known
    obtain ⟨kept, still⟩ := shared.blocks.directory location mode known
    refine ⟨kept, ?_⟩
    rw [elsewhere, still]
    · rintro rfl
      exact noDirectory kept still
    · rintro rfl
      cases found.symm.trans still
  · intro location target known
    by_cases there : location = crowd.destination
    · exact .inr ⟨mode, content, by rw [look, if_pos there]⟩
    · have notHere : location ≠ crowd.spot handle := by
        rintro rfl
        cases (crowd.vacant handle).symm.trans known
      rw [elsewhere location there notHere]
      exact shared.blocks.link location target known
  · intro other node known
    rw [look, if_neg (away other)] at known
    split at known
    · cases known
    · exact shared.room other node known
  · intro other location there
    by_cases same : other = handle
    · simp [FileSystem.target?, same, closed idle] at there
    · rw [FileSystem.target?, streams other same] at there
      exact shared.target other location there
  · intro other distinct
    rw [view, elsewhere _ (away other) (apart other distinct), streams other distinct, view]
  · rw [view, closed idle, look, if_neg (away handle), if_pos rfl]
  · rw [look, if_pos rfl, found]

variable [DecidableEq Handle]

/-- Dealing with the own temporary file and the own stream changes nothing else. -/
theorem tends {call : FileCall} (tends : call.Tends (crowd.temporary handle)) (mask : Mode) :
    crowd.Touches handle files (files.answer handle mask call).2 := by
  cases call with
  | inspect path => exact .refl shared handle
  | outputIsRegular => exact .refl shared handle
  | setMode path mode =>
      obtain rfl : path = _ := tends
      simp only [FileSystem.answer, FileSystem.commitTree]
      cases changed : files.tree.setMode (crowd.temporary handle) mode with
      | error errno => exact .refl shared handle
      | ok tree =>
          obtain ⟨node, found, rfl⟩ := shared.setMode changed
          obtain ⟨kept, content, rfl⟩ := shared.room handle node found
          exact ⟨.put_file (.of_file found) (crowd.spot_nonRoot handle) _ _, fun _ _ => rfl,
            shared.target handle⟩
  | unlink path =>
      obtain rfl : path = _ := tends
      simp only [FileSystem.answer]
      cases removed : files.unlink (crowd.temporary handle) with
      | error errno => exact .refl shared handle
      | ok after => exact (shared.unlink removed).1
  | write bytes =>
      simp only [FileSystem.answer]
      cases written : files.write handle bytes with
      | error errno => exact .refl shared handle
      | ok after => exact shared.works (.of_write written)
  | flush =>
      simp only [FileSystem.answer]
      cases flushed : files.flush handle with
      | error errno => exact .refl shared handle
      | ok after => exact shared.works (.of_flush flushed)
  | close => exact shared.works (.of_close files handle)
  | _ => exact tends.elim

/-- A call that is refused only closes the own stream, if it does anything. -/
theorem refuse (call : FileCall) (mask : Mode) (errno : Errno) :
    crowd.Touches handle files (files.refuse handle mask errno call).2 := by
  cases call with
  | close => exact shared.works (.of_close files handle)
  | _ => exact .refl shared handle

/-- A stream that is opened writes the own temporary file from its beginning. -/
theorem openStream {mode : Mode}
    (opened : files.openStream handle (crowd.temporary handle) false mode = .ok after) :
    crowd.Touches handle files after ∧
      after.Writes files.tree handle (crowd.spot handle) [] [] := by
  rcases shared.source handle with slot | lost
  · obtain ⟨_, _, writes⟩ :=
      FileSystem.Writes.openStream slot (shared.room handle).noLink opened
    refine ⟨⟨writes.touched, fun other distinct => ?_, fun location there => ?_⟩, writes⟩
    · unfold FileSystem.openStream at opened
      split at opened <;> cases opened <;> simp [FileSystem.setStream, distinct]
    · simp only [FileSystem.target?, writes.stream, Option.bind_some, Option.some.injEq] at there
      exact there.symm
  · obtain ⟨errno, refused⟩ := lost.writable
    rw [FileSystem.openStream, refused] at opened
    cases opened

end Shared

end Crowd

end Launcher
