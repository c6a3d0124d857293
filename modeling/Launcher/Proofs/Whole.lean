/-
This file says that a program never leaves anything that is not in a directory, whatever it does and
whichever faults strike.
-/

import Launcher.Proofs.Start
import Launcher.Proofs.Tree.Whole

namespace Launcher.World

variable {world : World} (whole : world.files.tree.Whole)
include whole

theorem answerFile_whole (call : FileCall) : (world.answerFile call).2.files.tree.Whole := by
  rw [answerFile_eq]
  split
  · exact FileSystem.answer_whole whole _ _ call
  · exact FileSystem.refuse_whole whole _ _ _ call

theorem answerFetch_whole (address path : Bytes) :
    (world.answerFetch address path).2.files.tree.Whole := by
  have written (content : Bytes) (mode : Mode) : (world.files.tree.attempt
      (world.files.tree.overwrite path content mode)).Whole :=
    whole.attempt fun after => whole.overwrite
  have adjusted {tree : Tree} (whole : tree.Whole) (mode : Mode) :
      (tree.attempt (tree.setMode path mode)).Whole := whole.attempt fun after => whole.setMode
  unfold answerFetch
  dsimp only
  split
  · split
    · exact whole
    · exact written _ _
  · split
    · exact adjusted whole _
    · exact adjusted (written _ _) _

/-! ### The log -/

theorem appendToLog_whole (text : Bytes) : (world.appendToLog text).files.tree.Whole := by
  unfold appendToLog
  split
  · rename_i stored storing
    exact (FileSystem.Works.of_store storing).whole whole
  · exact whole

theorem writeMessage_whole (message : Log.Message) :
    (world.writeMessage message).files.tree.Whole := by
  unfold writeMessage
  dsimp only
  split
  · split
    · have shown : (world.display (message.screenLine world.log.terminal)).files.tree.Whole := whole
      exact appendToLog_whole shown _
    · exact whole
  · exact whole

theorem writeEntry_whole (entry : Log.Entry) : (world.writeEntry entry).files.tree.Whole := by
  have written (messages : List Log.Message) :
      (messages.foldl writeMessage world).files.tree.Whole := by
    induction messages generalizing world with
    | nil => exact whole
    | cons message others inductionHypothesis =>
        exact inductionHypothesis (writeMessage_whole whole message)
  unfold writeEntry
  dsimp only
  split
  · unfold writeReading
    split <;> exact written _
  · unfold endReadings
    split <;> exact written _
  · exact written _

theorem closeLog_whole : world.closeLog.files.tree.Whole := by
  unfold closeLog
  split
  · exact appendToLog_whole whole _
  · exact whole

theorem openLogFile_whole (path : Bytes) : (world.openLogFile path).2.files.tree.Whole := by
  unfold openLogFile
  rcases struck : world.strike .openStream (some path) with ⟨refusal, after⟩
  have still : after.files.tree.Whole := by
    cases struck
    exact whole
  cases refusal with
  | some errno => exact writeEntry_whole still _
  | none =>
      dsimp only
      cases opened : after.files.openStream .log path true
          (Mode.masked 0o666 after.surroundings.mask) with
      | error errno => exact writeEntry_whole still _
      | ok files =>
          have ready : { after with files }.files.tree.Whole :=
            FileSystem.openStream_whole still opened
          exact appendToLog_whole ready _

theorem openLog_whole : world.openLog.2.files.tree.Whole := by
  have started : world.started.files.tree.Whole := closeLog_whole whole
  rw [openLog_eq]
  split
  · exact started
  split
  · exact started
  · exact openLogFile_whole started _

/-! ### Runs -/

theorem answer_whole (call : Call) : (world.answer call).2.files.tree.Whole := by
  cases call with
  | file call => exact answerFile_whole whole call
  | fetch address path => exact answerFetch_whole whole address path
  | openLog => exact openLog_whole whole
  | closeLog => exact closeLog_whole whole
  | log entry => exact writeEntry_whole whole entry
  | _ => exact whole

/-- A run in a whole tree ends in one. -/
theorem run_whole {Answer : Type} (program : Program Answer) :
    (world.run program).2.files.tree.Whole := by
  induction program generalizing world with
  | done answer => exact whole
  | ask call next inductionHypothesis =>
      have step := answer_whole whole call
      rw [run]
      rcases answered : world.answer call with ⟨_ | reply, after⟩
      · rw [answered] at step
        exact step
      · rw [answered] at step
        exact inductionHypothesis reply step

end Launcher.World
