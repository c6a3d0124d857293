/-
This file has one rule for each file call. A call either changes the files as the file system says,
or it is refused with an error number and changes nothing.
-/

import Launcher.Proofs.Run.Yield
import Launcher.Proofs.Tree.Refusal

namespace Launcher.World

variable {world : World} {path : Bytes}

/-- Without faults the file system answers every call itself. -/
theorem answerFile_calm (calm : world.faults = []) (call : FileCall) :
    world.answerFile call =
      ((world.files.answer .output world.surroundings.mask call).1, { world with
        files := (world.files.answer .output world.surroundings.mask call).2 }) := by
  have struck : call.strike world.faults = (none, world.faults) := by
    unfold FileCall.strike
    rw [calm]
    cases call.faultPoint <;> rfl
  rw [answerFile_eq, struck]

theorem yields_inspect_calm (calm : world.faults = [])
    {goal : Except Errno Attributes → World → Prop} :
    world.Yields (Program.inspect path) goal ↔ goal (world.files.tree.inspect path) world := by
  have answered : world.answerFile (.inspect path) = (world.files.tree.inspect path, world) :=
    world.answerFile_calm calm (.inspect path)
  exact yields_request (congrArg (fun outcome => (some outcome.1, outcome.2)) answered)

theorem yields_makeDirectory_calm (calm : world.faults = []) {mode : Mode}
    {goal : Except Errno Unit → World → Prop} :
    world.Yields (Program.makeDirectory path mode) goal ↔
      match world.files.tree.makeDirectory path (mode.masked world.surroundings.mask) with
      | .ok tree => goal (.ok ()) { world with files.tree := tree }
      | .error errno => goal (.error errno) world := by
  have answered := world.answerFile_calm calm (.makeDirectory path mode)
  rw [Program.makeDirectory,
    yields_request (congrArg (fun outcome => (some outcome.1, outcome.2)) answered)]
  simp only [FileSystem.answer, FileSystem.commitTree, FileSystem.commit]
  cases world.files.tree.makeDirectory path (mode.masked world.surroundings.mask) <;> rfl

namespace Yields

variable {goal : Except Errno Unit → World → Prop}

theorem inspect (sound : world.FaultsFail) {goal : Except Errno Attributes → World → Prop}
    (found : ∀ attributes after, world.files.tree.inspect path = .ok attributes →
      after.Descends world → after.files = world.files → goal (.ok attributes) after)
    (failed : ∀ errno after, errno.number ≠ 0 →
      after.Descends world → after.files = world.files → goal (.error errno) after) :
    world.Yields (Program.inspect path) goal := by
  apply Yields.file sound
  · intro errno after fails _ descends files
    exact failed errno after fails descends files
  · intro after descends files
    cases seen : world.files.tree.inspect path with
    | ok attributes =>
        simp only [FileSystem.answer, seen] at files ⊢
        exact found attributes after seen descends files
    | error errno =>
        simp only [FileSystem.answer, seen] at files ⊢
        exact failed errno after (Tree.inspect_refusal seen) descends files

theorem makeDirectory (sound : world.FaultsFail) {mode : Mode}
    (made : ∀ tree after,
      world.files.tree.makeDirectory path (mode.masked world.surroundings.mask) = .ok tree →
      after.Descends world → after.files = { world.files with tree } → goal (.ok ()) after)
    (failed : ∀ errno after, errno.number ≠ 0 →
      after.Descends world → after.files = world.files → goal (.error errno) after) :
    world.Yields (Program.makeDirectory path mode) goal := by
  apply Yields.file sound
  · intro errno after fails _ descends files
    exact failed errno after fails descends files
  · intro after descends files
    cases changed : world.files.tree.makeDirectory path (mode.masked world.surroundings.mask) with
    | ok tree =>
        simp only [FileSystem.answer, FileSystem.commitTree, FileSystem.commit, changed,
          Except.map] at files ⊢
        exact made tree after changed descends files
    | error errno =>
        simp only [FileSystem.answer, FileSystem.commitTree, FileSystem.commit, changed,
          Except.map] at files ⊢
        exact failed errno after (Tree.makeDirectory_refusal changed) descends files

theorem setMode (sound : world.FaultsFail) {mode : Mode}
    (changed : ∀ tree after, world.files.tree.setMode path mode = .ok tree →
      after.Descends world → after.files = { world.files with tree } → goal (.ok ()) after)
    (failed : ∀ errno after, errno.number ≠ 0 →
      after.Descends world → after.files = world.files → goal (.error errno) after) :
    world.Yields (Program.setMode path mode) goal := by
  apply Yields.file sound
  · intro errno after fails _ descends files
    exact failed errno after fails descends files
  · intro after descends files
    cases set : world.files.tree.setMode path mode with
    | ok tree =>
        simp only [FileSystem.answer, FileSystem.commitTree, FileSystem.commit, set,
          Except.map] at files ⊢
        exact changed tree after set descends files
    | error errno =>
        simp only [FileSystem.answer, FileSystem.commitTree, FileSystem.commit, set,
          Except.map] at files ⊢
        exact failed errno after (Tree.setMode_refusal set) descends files

/-- An unlinking that no fault strikes only fails when there is nothing to unlink. -/
theorem unlink (sound : world.FaultsFail)
    (removed : ∀ files after, world.files.unlink path = .ok files →
      after.Descends world → after.files = files → goal (.ok ()) after)
    (failed : ∀ errno after,
      (world.Spares .unlink → ∃ refusal, world.files.tree.unlinkable path = .error refusal) →
      after.Descends world → after.files = world.files → goal (.error errno) after) :
    world.Yields (Program.unlink path) goal := by
  apply Yields.file sound
  · intro errno after _ struck descends files
    exact failed errno after (fun spared => absurd spared (struck _ rfl)) descends files
  · intro after descends files
    cases unlinked : world.files.unlink path with
    | ok changed =>
        simp only [FileSystem.answer, FileSystem.commit, unlinked] at files ⊢
        exact removed changed after unlinked descends files
    | error errno =>
        simp only [FileSystem.answer, FileSystem.commit, unlinked] at files ⊢
        refine failed errno after (fun _ => ?_) descends files
        unfold FileSystem.unlink at unlinked
        split at unlinked
        · rename_i refusal refused
          exact ⟨refusal, refused⟩
        · cases unlinked

theorem rename (sound : world.FaultsFail) {source target : Bytes}
    (renamed : ∀ files after, world.files.rename source target = .ok files →
      after.Descends world → after.files = files → goal (.ok ()) after)
    (failed : ∀ errno after, errno.number ≠ 0 →
      after.Descends world → after.files = world.files → goal (.error errno) after) :
    world.Yields (Program.rename source target) goal := by
  apply Yields.file sound
  · intro errno after fails _ descends files
    exact failed errno after fails descends files
  · intro after descends files
    cases moved : world.files.rename source target with
    | ok changed =>
        simp only [FileSystem.answer, FileSystem.commit, moved] at files ⊢
        exact renamed changed after moved descends files
    | error errno =>
        simp only [FileSystem.answer, FileSystem.commit, moved] at files ⊢
        refine failed errno after ?_ descends files
        unfold FileSystem.rename at moved
        split at moved
        · rename_i refused
          cases moved
          exact Tree.renamable_refusal refused
        · split at moved <;> cases moved

theorem openOutput (sound : world.FaultsFail)
    (opened : ∀ files after, world.files.openStream .output path false
        (Mode.masked 0o666 world.surroundings.mask) = .ok files →
      after.Descends world → after.files = files → goal (.ok ()) after)
    (failed : ∀ errno after, errno.number ≠ 0 →
      after.Descends world → after.files = world.files → goal (.error errno) after) :
    world.Yields (Program.openOutput path) goal := by
  apply Yields.file sound
  · intro errno after fails _ descends files
    exact failed errno after fails descends files
  · intro after descends files
    cases stream : world.files.openStream .output path false
        (Mode.masked 0o666 world.surroundings.mask) with
    | ok changed =>
        simp only [FileSystem.answer, FileSystem.commit, stream] at files ⊢
        exact opened changed after stream descends files
    | error errno =>
        simp only [FileSystem.answer, FileSystem.commit, stream] at files ⊢
        exact failed errno after (FileSystem.openStream_refusal stream) descends files

end Yields

end Launcher.World
