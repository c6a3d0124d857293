/-
This file says what marking a binary as executable does. One node gets the execute bits, or nothing
changes, and what has the bits already does not change again.
-/

import Launcher.Proofs.Conditions
import Launcher.Proofs.Run.Attempt
import Launcher.Proofs.Tree.Level
import Launcher.Proofs.Tree.Passage

namespace Launcher

/-! ### Modes and nodes -/

namespace Mode

/-- The execute bits of the others, the group and the owner are set, and all other bits stay. -/
def GainsExecution (old new : Mode) : Prop :=
  ∀ index, new.getLsbD index = (old.getLsbD index || index ∈ [0, 3, 6])

theorem gainsExecution_executable (mode : Mode) : mode.GainsExecution mode.executable := by
  have bits : ∀ index : Fin 12, (0o111 : Mode).getLsbD index = decide (index.val ∈ [0, 3, 6]) := by
    decide
  intro index
  rw [executable, BitVec.getLsbD_or]
  by_cases inside : index < 12
  · rw [bits ⟨index, inside⟩]
  · have beyond : index ∉ [0, 3, 6] := by
      simp only [List.mem_cons, List.not_mem_nil, or_false]
      omega
    rw [BitVec.getLsbD_of_ge _ index (by omega), BitVec.getLsbD_of_ge _ index (by omega)]
    simpa using beyond

/-- A mode with the execute bits has no more to gain. -/
theorem GainsExecution.executable_eq {old new : Mode} (gains : old.GainsExecution new) :
    new.executable = new := by
  apply BitVec.eq_of_getLsbD_eq
  intro index _
  rw [new.gainsExecution_executable, gains, Bool.or_assoc, Bool.or_self]

end Mode

namespace Node

/-- A file or a directory gets the execute bits. A file keeps its content. -/
inductive GainsExecution : Node → Node → Prop
  | file {old new : Mode} {content : Bytes} (bits : old.GainsExecution new) :
      GainsExecution (.file old content) (.file new content)
  | directory {old new : Mode} (bits : old.GainsExecution new) :
      GainsExecution (.directory old) (.directory new)

def executable (node : Node) : Node := node.withMode node.mode.executable

variable {node : Node}

theorem gainsExecution_executable (noLink : ∀ target, node ≠ .link target) :
    node.GainsExecution node.executable := by
  cases node with
  | directory mode => exact .directory mode.gainsExecution_executable
  | file mode content => exact .file mode.gainsExecution_executable
  | link target => exact absurd rfl (noLink target)

theorem GainsExecution.executable_eq {old new : Node} (gains : old.GainsExecution new) :
    new.executable = new := by
  cases gains with
  | file bits => exact congrArg (Node.file · _) bits.executable_eq
  | directory bits => exact congrArg Node.directory bits.executable_eq

end Node

/-! ### Trees -/

namespace Tree

variable {tree before after : Tree} {path : Bytes} {location : Location} {node : Node} {mode : Mode}

theorem get?_of_find (found : tree.find path = .ok (.taken location node)) :
    tree.get? location = some node := by
  obtain ⟨_, resolved⟩ := resolve_of_find found
  exact walk_fits (walk_of_resolve (by simp) resolved)

theorem noLink_of_find (found : tree.find path = .ok (.taken location node)) (target : Bytes) :
    node ≠ .link target := by
  obtain ⟨_, resolved⟩ := resolve_of_find found
  exact (Walks.of_walk (walk_of_resolve (by simp) resolved)).follow_ne_link (.root tree) rfl target

theorem setMode_of_find (found : tree.find path = .ok (.taken location node)) (mode : Mode) :
    tree.setMode path mode = .ok (tree.put location (node.withMode mode)) := by
  rw [setMode, found]

theorem inspect_of_find (found : tree.find path = .ok (.taken location node)) :
    tree.inspect path = .ok ⟨node.isDirectory, node.mode⟩ := by
  rw [inspect, found]
  rfl

/-- Only the node at the location gets another mode. -/
theorem get?_put_withMode (held : tree.get? location = some node) (mode : Mode) (other : Location) :
    (tree.put location (node.withMode mode)).get? other =
      if other = location then some (node.withMode mode) else tree.get? other :=
  tree.get?_put location other _ (fits_withMode held mode)

/-- No way is lost when a node gets another mode. -/
theorem keepsWays_put_withMode (held : tree.get? location = some node) (mode : Mode) :
    tree.KeepsWays (tree.put location (node.withMode mode)) := by
  constructor
  · intro other kept found
    rw [get?_put_withMode held]
    split
    · rename_i same
      subst same
      cases held.symm.trans found
      exact ⟨mode, rfl⟩
    · exact ⟨kept, found⟩
  · intro other target found
    rw [get?_put_withMode held]
    split
    · rename_i same
      subst same
      cases held.symm.trans found
      rfl
    · exact found

/-- A path goes on to find the node that got another mode. -/
theorem find_put_withMode (found : tree.find path = .ok (.taken location node)) (mode : Mode) :
    (tree.put location (node.withMode mode)).find path =
      .ok (.taken location (node.withMode mode)) := by
  have held := get?_of_find found
  have changed : (tree.put location (node.withMode mode)).get? location =
      some (node.withMode mode) := by
    rw [get?_put_withMode held, if_pos rfl]
  have noLink (target : Bytes) : node.withMode mode ≠ .link target := by
    have before := noLink_of_find found target
    cases node with
    | link other => simpa [Node.withMode] using before
    | _ => simp [Node.withMode]
  have there : (Place.taken location node).At location := rfl
  unfold find at found
  split at found
  · cases found
  · cases found
  · cases found
  · rename_i asked resolved
    split at found <;> cases found
    rename_i allowed
    have again := resolve_keep_taken (keepsWays_put_withMode held mode) changed noLink there
      (by simp) resolved
    rw [find, again]
    simp only [Node.isDirectory_withMode]
    rw [if_neg allowed]

/-- What a path finds gets the execute bits, and the path goes on to find it. Every other entry
stays, and so does every link. -/
structure GainsExecution (path : Bytes) (location : Location) (before after : Tree) : Prop where
  node : ∃ old new, old.GainsExecution new ∧
    before.find path = .ok (.taken location old) ∧ before.get? location = some old ∧
    after.find path = .ok (.taken location new) ∧ after.get? location = some new
  elsewhere : ∀ other, other ≠ location → after.get? other = before.get? other
  link : ∀ other target, before.get? other = some (.link target) →
    after.get? other = some (.link target)

theorem gainsExecution_put (found : tree.find path = .ok (.taken location node)) :
    GainsExecution path location tree (tree.put location node.executable) := by
  have held := get?_of_find found
  have changed (other : Location) := get?_put_withMode held node.mode.executable other
  constructor
  · refine ⟨node, node.executable, Node.gainsExecution_executable (noLink_of_find found), found,
      held, find_put_withMode found _, ?_⟩
    exact (changed location).trans (if_pos rfl)
  · intro other distinct
    exact (changed other).trans (if_neg distinct)
  · exact (keepsWays_put_withMode held _).link

/-- Nothing changes where a node is put that is there already. -/
theorem put_of_get? (held : tree.get? location = some node) : tree.put location node = tree := by
  have fits : location = [] → node.isDirectory = true := by
    rintro rfl
    obtain ⟨kept, root⟩ := tree.get?_root
    cases held.symm.trans root
    rfl
  ext1 other
  rw [get?_put _ _ _ _ fits]
  split
  · rename_i same
    rw [same, held]
  · rfl

/-- What a look finds in the tree gets the execute bits when the mode that it reports is set with
them. -/
theorem gainsExecution_of_setMode {found : Attributes} (noDevice : Device.ofPath path = none)
    (seen : before.inspect path = .ok found)
    (changed : before.setMode path found.mode.executable = .ok after) :
    ∃ location node, before.find path = .ok (.taken location node) ∧
      GainsExecution path location before after := by
  unfold inspect at seen
  rcases there : before.find path with errno | place <;> rw [there] at seen
  · cases seen
  obtain ⟨location, node, rfl⟩ := find_noDevice noDevice there
  cases seen
  rw [setMode_of_find there] at changed
  cases changed
  exact ⟨location, node, rfl, gainsExecution_put there⟩

/-- What a path finds with the execute bits gets no others. -/
theorem setMode_again {found : Attributes} (gains : GainsExecution path location before after)
    (seen : after.inspect path = .ok found)
    (changed : after.setMode path found.mode.executable = .ok tree) : tree = after := by
  obtain ⟨old, new, kind, _, _, finds, held⟩ := gains.node
  rw [inspect_of_find finds] at seen
  cases seen
  rw [setMode_of_find finds] at changed
  cases changed
  have same : new.withMode new.mode.executable = new := kind.executable_eq
  rw [same, put_of_get? held]

end Tree

/-! ### Calls -/

namespace World

variable {world : World} {path : Bytes} {mode : Mode}

/-- A look changes no files, and it sees what is there unless a fault refuses it. -/
theorem answerFile_inspect (world : World) (path : Bytes) :
    (world.answerFile (.inspect path)).2.files = world.files ∧
      ((∃ errno, (world.answerFile (.inspect path)).1 = .error errno) ∨
        (world.answerFile (.inspect path)).1 = world.files.tree.inspect path) := by
  rw [answerFile_eq]
  split
  · exact ⟨rfl, .inr rfl⟩
  · exact ⟨rfl, .inl ⟨_, rfl⟩⟩

/-- A mode is set in the tree, or the files stay as they are. -/
theorem answerFile_setMode (world : World) (path : Bytes) (mode : Mode) :
    (∃ errno, (world.answerFile (.setMode path mode)).1 = .error errno ∧
      (world.answerFile (.setMode path mode)).2.files = world.files) ∨
    (∃ tree, world.files.tree.setMode path mode = .ok tree ∧
      (world.answerFile (.setMode path mode)).1 = .ok () ∧
      (world.answerFile (.setMode path mode)).2.files = { world.files with tree }) := by
  rw [answerFile_eq]
  split
  · simp only [FileSystem.answer, FileSystem.commitTree, FileSystem.commit]
    cases set : world.files.tree.setMode path mode with
    | error errno => exact .inl ⟨errno, rfl, rfl⟩
    | ok tree => exact .inr ⟨tree, rfl, rfl, rfl⟩
  · exact .inl ⟨_, rfl, rfl⟩

end World

namespace Binary

open World

variable {world after : World} {path : Bytes} {status : Status}

/-- The node is looked at, and then its mode is set. -/
theorem run_makeExecutable (world : World) (path : Bytes) :
    world.run (makeExecutable (some path)) =
      match world.answerFile (.inspect path) with
      | (.error errno, after) => (some (.ofErrno errno), after)
      | (.ok found, between) =>
          match between.answerFile (.setMode path found.mode.executable) with
          | (.error errno, after) => (some (.ofErrno errno), after)
          | (.ok _, after) => (some .ok, after) := by
  simp only [makeExecutable, Program.inspect, Program.request, Program.bind_ask, Program.bind_done,
    World.run, World.answer]
  rcases world.answerFile (.inspect path) with ⟨errno | found, between⟩
  · rfl
  · simp only [Program.setMode, Program.request, Program.bind_ask, Program.bind_done, World.run,
      World.answer]
    rcases between.answerFile (.setMode path found.mode.executable) with ⟨errno | _, after⟩ <;> rfl

/-- The error number with which the look, or the change behind it, is refused. -/
inductive Refused (world : World) (path : Bytes) (errno : Errno) : Prop
  | look (refused : (world.answerFile (.inspect path)).1 = .error errno)
  | change {found : Attributes} (seen : (world.answerFile (.inspect path)).1 = .ok found)
      (refused : ((world.answerFile (.inspect path)).2.answerFile
        (.setMode path found.mode.executable)).1 = .error errno)

/-- A run is refused and changes no files, or it sets the mode of what the path finds. -/
inductive Ends (world : World) (path : Bytes) : Status → World → Prop
  | refused {errno : Errno} {after : World} (refused : Refused world path errno)
      (files : after.files = world.files) : Ends world path (.ofErrno errno) after
  | changed {tree : Tree} {found : Attributes} {after : World}
      (seen : world.files.tree.inspect path = .ok found)
      (changed : world.files.tree.setMode path found.mode.executable = .ok tree)
      (files : after.files = { world.files with tree }) : Ends world path .ok after

theorem run_ends (world : World) (path : Bytes) : ∃ status after,
    world.run (makeExecutable (some path)) = (some status, after) ∧
      Ends world path status after := by
  obtain ⟨still, seen⟩ := world.answerFile_inspect path
  rw [run_makeExecutable]
  rcases looked : world.answerFile (.inspect path) with ⟨errno | found, between⟩
  · exact ⟨_, _, rfl, .refused (.look (by rw [looked])) (by rw [← still, looked])⟩
  rw [looked] at still seen
  have there : world.files.tree.inspect path = .ok found := by
    rcases seen with ⟨errno, refused⟩ | same
    · cases refused
    · exact same.symm
  have change := between.answerFile_setMode path found.mode.executable
  dsimp only at still ⊢
  rcases asked : between.answerFile (.setMode path found.mode.executable) with ⟨reply, after⟩
  rw [asked, still] at change
  obtain ⟨errno, refused, kept⟩ | ⟨tree, changed, rfl, files⟩ := change
  · dsimp only at refused kept
    subst refused
    exact ⟨_, _, rfl, .refused (.change (by rw [looked]) (by rw [looked, asked])) kept⟩
  · exact ⟨_, _, rfl, .changed there changed files⟩

theorem Refused.number_ne_zero (sound : world.FaultsFail) {errno : Errno}
    (refused : Refused world path errno) : errno.number ≠ 0 := by
  cases refused with
  | look refused => exact answerFile_refusal sound (.inspect path) (by rw [refused]; rfl)
  | @change found _ refused =>
      have descends := world.answerFile_descends (.inspect path)
      exact answerFile_refusal (descends.faultsFail sound) (.setMode path found.mode.executable)
        (by rw [refused]; rfl)

/-- Without faults a run is only refused where the path finds nothing. -/
theorem not_refused_of_calm (calm : world.faults = []) {place : Place}
    (there : world.files.tree.find path = .ok place) (errno : Errno) :
    ¬ Refused world path errno := by
  have looked : world.answerFile (.inspect path) = (.ok place.attributes, world) := by
    rw [world.answerFile_calm calm (.inspect path)]
    simp only [FileSystem.answer, Tree.inspect, there, Except.map]
  intro refused
  cases refused with
  | look refused =>
      rw [looked] at refused
      cases refused
  | @change found _ refused =>
      have changed : ∃ tree, world.files.tree.setMode path found.mode.executable = .ok tree := by
        cases place <;> exact ⟨_, by rw [Tree.setMode, there]⟩
      obtain ⟨tree, changed⟩ := changed
      rw [looked, world.answerFile_calm calm (.setMode path found.mode.executable)] at refused
      simp only [FileSystem.answer, FileSystem.commitTree, FileSystem.commit, changed,
        Except.map] at refused
      cases refused

/-- A run that is refused answers with the error number. -/
theorem Refused.run {errno : Errno} (refused : Refused world path errno)
    (ran : world.run (makeExecutable (some path)) = (some status, after)) :
    status = .ofErrno errno := by
  rw [run_makeExecutable] at ran
  cases refused with
  | look refused =>
      have looked : world.answerFile (.inspect path) = (.error errno, _) := Prod.ext refused rfl
      rw [looked] at ran
      cases ran
      rfl
  | @change found seen refused =>
      have looked : world.answerFile (.inspect path) = (.ok found, _) := Prod.ext seen rfl
      have asked : (world.answerFile (.inspect path)).2.answerFile
          (.setMode path found.mode.executable) = (.error errno, _) := Prod.ext refused rfl
      rw [looked] at ran
      dsimp only at ran
      rw [asked] at ran
      cases ran
      rfl

/-- A run on a tree where the path finds the execute bits leaves that tree. -/
theorem run_again {before : Tree} {location : Location}
    (gains : Tree.GainsExecution path location before world.files.tree) : ∃ status after,
    world.run (makeExecutable (some path)) = (some status, after) ∧
      after.files.tree = world.files.tree ∧ (world.faults = [] → status = .ok) := by
  obtain ⟨status, after, ran, ends⟩ := run_ends world path
  refine ⟨status, after, ran, ?_⟩
  cases ends with
  | refused refused files =>
      refine ⟨congrArg FileSystem.tree files, fun calm => ?_⟩
      obtain ⟨old, new, _, _, _, there, _⟩ := gains.node
      exact absurd refused (not_refused_of_calm calm there _)
  | changed seen changed files =>
      refine ⟨?_, fun _ => rfl⟩
      rw [files]
      exact Tree.setMode_again gains seen changed

/-- A status that does not fail is the plain success, and what the path finds got the execute bits.
A status that fails is that of the call that was refused, and the tree is the old one. A second run
on the new tree changes nothing, and without faults it does not fail. -/
structure Marks (world : World) (path : Bytes) (status : Status) (after : World) : Prop where
  success : status.failed = false → status = .ok ∧
    ∃ location, Tree.GainsExecution path location world.files.tree after.files.tree
  failure : status.failed = true → after.files.tree = world.files.tree ∧
    ∃ errno, Refused world path errno ∧ status = .ofErrno errno
  refusal : ∀ errno, Refused world path errno → status = .ofErrno errno ∧ status.failed = true
  calm : world.faults = [] →
    (status.failed = false ↔ ∃ location node,
      world.files.tree.find path = .ok (.taken location node))
  again : status.failed = false → ∀ later : World, later.files.tree = after.files.tree →
    ∃ second last, later.run (makeExecutable (some path)) = (some second, last) ∧
      last.files.tree = later.files.tree ∧ (later.faults = [] → second = .ok)

theorem makeExecutable_marks (sound : world.FaultsFail) (noDevice : Device.ofPath path = none) :
    ∃ status after, world.run (makeExecutable (some path)) = (some status, after) ∧
      Marks world path status after := by
  obtain ⟨status, after, ran, ends⟩ := run_ends world path
  refine ⟨status, after, ran, ?_⟩
  have refusal (errno : Errno) (refused : Refused world path errno) :
      status = .ofErrno errno ∧ status.failed = true := by
    rw [refused.run ran]
    exact ⟨rfl, Status.failed_ofErrno (refused.number_ne_zero sound)⟩
  cases ends with
  | @refused errno _ refused files =>
      obtain ⟨_, failed⟩ := refusal errno refused
      have notWent : ¬ (Status.ofErrno errno).failed = false := by simp [failed]
      refine ⟨fun went => absurd went notWent, fun _ => ?_, refusal, fun calm => ?_,
        fun went => absurd went notWent⟩
      · exact ⟨congrArg FileSystem.tree files, errno, refused, rfl⟩
      · refine ⟨fun went => absurd went notWent, ?_⟩
        rintro ⟨location, node, there⟩
        exact absurd refused (not_refused_of_calm calm there errno)
  | @changed tree found _ seen changed files =>
      obtain ⟨location, node, there, gains⟩ :=
        Tree.gainsExecution_of_setMode noDevice seen changed
      have same : after.files.tree = tree := by rw [files]
      rw [← same] at gains
      refine ⟨fun _ => ⟨rfl, location, gains⟩, fun failed => ?_, refusal, fun _ => ?_,
        fun _ later keeps => ?_⟩
      · rw [Status.failed_ok] at failed
        cases failed
      · exact ⟨fun _ => ⟨location, node, there⟩, fun _ => Status.failed_ok⟩
      · rw [← keeps] at gains
        exact run_again gains

/-- A link leads to the only file here, and its mode can be set once. -/
def linkedWorld : World where
  files := ⟨(Tree.empty.put ["run"] (.link "tool")).put ["tool"] (.file 0o4640 "abc"),
    fun _ => none⟩
  faults := [{ operation := .setMode, errno := .accessDenied, skip := 1 }]

theorem makeExecutable_marks_link :
    linkedWorld.FaultsFail ∧ Device.ofPath "/run" = none ∧
      ∃ status after, linkedWorld.run (makeExecutable (some "/run")) = (some status, after) ∧
        Marks linkedWorld "/run" status after := by
  have sound : linkedWorld.FaultsFail := by
    simp [FaultsFail, linkedWorld, Errno.accessDenied]
  have noDevice : Device.ofPath "/run" = none := by decide
  exact ⟨sound, noDevice, makeExecutable_marks sound noDevice⟩

example : (linkedWorld.run (makeExecutable (some "/run"))).2.files.tree =
    (Tree.empty.put ["run"] (.link "tool")).put ["tool"] (.file 0o4751 "abc") := by
  decide +kernel

end Binary

end Launcher
