/-
This file says that neither a tree nor a file system refuses anything without an error number.
-/

import Launcher.FileSystem.Service

namespace Launcher.Tree

variable {tree : Tree} {errno : Errno}

/-- These error numbers refuse a walk. -/
def refusals : List Errno := [.noEntry, .notDirectory, .isDirectory, .nameTooLong, .tooManyLinks]

theorem number_of_refusal : ∀ errno ∈ refusals, errno.number ≠ 0 := by decide

theorem leg_refusal {start : Location} {names : List Name}
    (refused : tree.leg start names = .error errno) : errno ∈ refusals := by
  induction names generalizing start with
  | nil =>
      simp only [Tree.leg] at refused
      split at refused <;> cases refused
      decide
  | cons name rest inductionHypothesis =>
      simp only [Tree.leg] at refused
      split at refused
      · exact inductionHypothesis refused
      split at refused
      · exact inductionHypothesis refused
      split at refused
      · cases refused
        decide
      split at refused
      · split at refused <;> cases refused
        decide
      · exact inductionHypothesis refused
      · cases refused
      · split at refused <;> cases refused
        decide

theorem walk_refusal {last : LastLink} {links : Nat} {start : Location} {names : List Name}
    {asks : Bool} (refused : tree.walk last links start names asks = .error errno) :
    errno ∈ refusals := by
  induction links generalizing start names asks with
  | zero =>
      rw [walk] at refused
      split at refused
      · rename_i stopped
        cases refused
        exact leg_refusal stopped
      · cases refused
      · split at refused
        · cases refused
        · split at refused <;> cases refused <;> decide
  | succ links inductionHypothesis =>
      rw [walk] at refused
      split at refused
      · rename_i stopped
        cases refused
        exact leg_refusal stopped
      · cases refused
      · split at refused
        · cases refused
        · split at refused
          · cases refused
            decide
          · dsimp only at refused
            split at refused
            · cases refused
              decide
            · exact inductionHypothesis refused

variable {path : Bytes}

theorem resolve_refusal {last : LastLink} (refused : tree.resolve last path = .error errno) :
    errno.number ≠ 0 := by
  refine number_of_refusal errno ?_
  unfold resolve at refused
  split at refused
  · cases refused
  split at refused
  · cases refused
    decide
  split at refused
  · cases refused
    decide
  exact walk_refusal refused

theorem find_refusal (refused : tree.find path = .error errno) : errno.number ≠ 0 := by
  unfold find at refused
  split at refused
  · rename_i stopped
    cases refused
    exact resolve_refusal stopped
  · cases refused
    decide
  · cases refused
  · split at refused <;> cases refused
    decide

theorem inspect_refusal (refused : tree.inspect path = .error errno) : errno.number ≠ 0 := by
  unfold inspect at refused
  cases found : tree.find path with
  | error errno =>
      rw [found] at refused
      cases refused
      exact find_refusal found
  | ok place =>
      rw [found] at refused
      cases refused

theorem makeDirectory_refusal {mode : Mode} (refused : tree.makeDirectory path mode = .error errno) :
    errno.number ≠ 0 := by
  unfold makeDirectory at refused
  split at refused
  · rename_i stopped
    cases refused
    exact resolve_refusal stopped
  · cases refused
  · cases refused
    decide

theorem setMode_refusal {mode : Mode} (refused : tree.setMode path mode = .error errno) :
    errno.number ≠ 0 := by
  unfold setMode at refused
  split at refused
  · rename_i stopped
    cases refused
    exact find_refusal stopped
  · cases refused
  · cases refused

theorem unlinkable_refusal (refused : tree.unlinkable path = .error errno) : errno.number ≠ 0 := by
  unfold unlinkable at refused
  split at refused
  · rename_i stopped
    cases refused
    exact resolve_refusal stopped
  · cases refused
    decide
  · cases refused
    decide
  · split at refused
    · cases refused
      decide
    · split at refused <;> cases refused
      decide

theorem writable_refusal (refused : tree.writable path = .error errno) : errno.number ≠ 0 := by
  unfold writable at refused
  split at refused
  · rename_i stopped
    cases refused
    exact resolve_refusal stopped
  all_goals cases refused
  all_goals decide

theorem renamable_refusal {source target : Bytes}
    (refused : tree.renamable source target = .error errno) : errno.number ≠ 0 := by
  unfold renamable at refused
  split at refused
  · rename_i stopped
    cases refused
    exact resolve_refusal stopped
  · rename_i stopped _
    cases refused
    exact resolve_refusal stopped
  · cases refused
    decide
  · cases refused
    decide
  · split at refused
    · cases refused
      decide
    split at refused
    · cases refused
      decide
    · split at refused <;> cases refused
      decide
    · split at refused
      · cases refused
      split at refused
      · cases refused
        decide
      split at refused
      · cases refused
        decide
      split at refused
      · rename_i occupied
        cases refused
        unfold replacementRefusal at occupied
        split at occupied
        · cases occupied
          decide
        · cases occupied
          decide
        · split at occupied <;> cases occupied
          decide
        · cases occupied
      · cases refused

end Launcher.Tree

namespace Launcher

/-- The error number of a reply that refuses its call. -/
def FileCall.refusal? : {call : FileCall} → call.Reply → Option Errno
  | .inspect _, .error errno => some errno
  | .access _, .error errno => some errno
  | .makeDirectory _ _, .error errno => some errno
  | .setMode _ _, .error errno => some errno
  | .unlink _, .error errno => some errno
  | .rename _ _, .error errno => some errno
  | .openOutput _, .error errno => some errno
  | .write _, .error errno => some errno
  | .flush, .error errno => some errno
  | .close, .error errno => some errno
  | _, _ => none

namespace FileSystem

variable {Handle : Type} [DecidableEq Handle] {files : FileSystem Handle} {handle : Handle}
  {errno : Errno}

/-- A stream is only refused when its path is. -/
theorem openStream_refusal {path : Bytes} {appending : Bool} {mode : Mode}
    (refused : files.openStream handle path appending mode = .error errno) :
    errno.number ≠ 0 := by
  unfold openStream at refused
  split at refused <;> cases refused
  rename_i notWritable
  exact Tree.writable_refusal notWritable

theorem store_refusal {bytes : Bytes} (refused : files.store handle bytes = .error errno) :
    errno.number ≠ 0 := by
  unfold FileSystem.store at refused
  split at refused
  · cases refused
  dsimp only at refused
  split at refused
  · split at refused <;> cases refused
    decide
  · cases refused
  · cases refused
  · split at refused <;> cases refused

theorem flush_refusal (refused : files.flush handle = .error errno) : errno.number ≠ 0 := by
  unfold FileSystem.flush at refused
  split at refused <;> cases refused
  rename_i notStored
  exact store_refusal notStored

/-- A file system refuses nothing without an error number. -/
theorem answer_refusal {mask : Mode} (call : FileCall)
    (refused : FileCall.refusal? (files.answer handle mask call).1 = some errno) :
    errno.number ≠ 0 := by
  cases call with
  | inspect path =>
      cases seen : files.tree.inspect path <;> simp only [answer, seen] at refused <;> cases refused
      exact Tree.inspect_refusal seen
  | access path =>
      cases seen : files.tree.inspect path <;> simp only [answer, seen] at refused <;> cases refused
      exact Tree.inspect_refusal seen
  | makeDirectory path mode =>
      cases made : files.tree.makeDirectory path (mode.masked mask) <;>
        simp only [answer, commitTree, made] at refused <;> cases refused
      exact Tree.makeDirectory_refusal made
  | setMode path mode =>
      cases set : files.tree.setMode path mode <;>
        simp only [answer, commitTree, set] at refused <;> cases refused
      exact Tree.setMode_refusal set
  | unlink path =>
      cases allowed : files.tree.unlinkable path <;>
        simp only [answer, unlink, allowed] at refused <;> cases refused
      exact Tree.unlinkable_refusal allowed
  | rename source target =>
      cases allowed : files.tree.renamable source target <;>
        simp only [answer, rename, allowed] at refused
      · cases refused
        exact Tree.renamable_refusal allowed
      · split at refused <;> cases refused
  | openOutput path =>
      cases opened : files.openStream handle path false (Mode.masked 0o666 mask) <;>
        simp only [answer, opened] at refused <;> cases refused
      exact openStream_refusal opened
  | outputIsRegular => cases refused
  | write bytes =>
      simp only [answer, write] at refused
      split at refused <;> cases refused
      rename_i notStored
      exact store_refusal notStored
  | flush =>
      cases flushed : files.flush handle <;> simp only [answer, flushed] at refused <;>
        cases refused
      exact flush_refusal flushed
  | close =>
      cases flushed : files.flush handle <;> simp only [answer, close, flushed] at refused <;>
        cases refused
      exact flush_refusal flushed

end FileSystem

end Launcher
