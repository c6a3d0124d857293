/-
This file says what the start of the launcher leaves behind. The log is opened there and its
settings are read there, so the rest of a run makes calls that these settings do not reach.
-/

import Launcher.Launch
import Launcher.Proofs.Conditions
import Launcher.Proofs.Run.History

namespace Launcher

/-- The level that the settings select. -/
def Surroundings.logLevel (surroundings : Surroundings) : Level :=
  match surroundings.environment .logLevel with
  | none => .information
  | some name => .ofName name

namespace World

variable {world : World}

theorem closeLog_closed (world : World) : world.closeLog.logIsOpen = false := by
  unfold closeLog
  split
  · simp [logIsOpen, FileSystem.setStream]
  · rename_i closed
    simpa using closed

/-- The log has no file after the start, and its settings are new. -/
def started (world : World) : World :=
  { world.closeLog with
    log.level := world.surroundings.logLevel
    log.terminal := world.surroundings.terminal }

theorem started_closed (world : World) : world.started.logIsOpen = false := world.closeLog_closed

/-- The start of a closed log changes nothing but the log. -/
theorem started_alike (closed : world.logIsOpen = false) : world.started.Alike world := by
  unfold started
  rw [closeLog_of_closed closed]
  constructor <;> intros <;> rfl

/-- Opening the log reads its settings anew. The file is opened unless the log is silent. -/
theorem openLog_eq (world : World) :
    world.openLog = if world.surroundings.logLevel = .silent then
        (.make .success .configuration .canceled, world.started)
      else match world.surroundings.setting .logFile with
        | none => (.ok, world.started)
        | some path => world.started.openLogFile path := by
  have settings : world.openLog = if world.surroundings.logLevel = .silent then
      (.make .success .configuration .canceled, world.started)
    else match world.surroundings.environment .logFile with
      | none => (.ok, world.started)
      | some path => if path = [] then (.ok, world.started) else
          world.started.openLogFile path := rfl
  rw [settings]
  unfold Surroundings.setting
  rcases world.surroundings.environment .logFile with _ | _ | ⟨byte, others⟩
  · rfl
  · rfl
  · rfl

/-- While no file is asked for, opening the log opens none and does not fail. -/
theorem openLog_started (noFile : world.surroundings.setting .logFile = none) :
    world.openLog.1.failed = false ∧ world.openLog.2 = world.started := by
  have canceled : (Status.make .success .configuration .canceled).failed = false := by decide
  rw [openLog_eq, noFile]
  split
  · exact ⟨canceled, rfl⟩
  · exact ⟨Status.failed_ok, rfl⟩

end World

/-! ### Calls after the start -/

/-- After the start the log is not opened again, its settings are not read again, and the screen
is left to it. -/
def Call.IsAfterStart : Call → Prop
  | .openLog => False
  | .warn _ => False
  | .lookUp setting => setting ≠ .logLevel ∧ setting ≠ .logFile
  | _ => True

theorem Call.IsInner.afterStart {call : Call} (inner : call.IsInner) : call.IsAfterStart := by
  cases call with
  | lookUp setting => exact inner
  | openLog => exact inner
  | warn text => exact inner
  | _ => trivial

theorem Call.IsAfterStart.plain {call : Call} (afterStart : call.IsAfterStart) :
    call.IsPlain := by
  cases call with
  | lookUp setting => exact afterStart
  | openLog => exact afterStart
  | _ => trivial

namespace Verbs

variable {allowed : Call → Prop}

theorem addTokens_only (log : ∀ entry, allowed (.log entry)) (verbs : Verbs)
    (tokens : List Bytes) : (addTokens verbs tokens).Only allowed := by
  induction tokens generalizing verbs with
  | nil => trivial
  | cons token others inductionHypothesis =>
      simp only [addTokens]
      split
      · exact .bind (.request (log _)) fun _ => inductionHypothesis verbs
      · split
        · exact .bind (.request (log _)) fun _ => trivial
        · exact inductionHypothesis _

/-- Reading the verbs takes one look at their setting, one copy, and entries of the log. -/
theorem fromEnvironment_only (lookUp : allowed (.lookUp .verbs)) (duplicate : allowed .duplicate)
    (log : ∀ entry, allowed (.log entry)) (verbs : Option Verbs) :
    (fromEnvironment verbs).Only allowed := by
  cases verbs with
  | none => trivial
  | some verbs =>
      refine .bind (.request lookUp) fun list => ?_
      cases list with
      | none => trivial
      | some list =>
          refine .bind (.request duplicate) fun copied => ?_
          split
          · exact .bind (addTokens_only log _ _) fun _ => trivial
          · trivial

end Verbs

namespace HandOver

theorem run_afterStart (path : Bytes) (arguments : List (Option Bytes)) (count : Int) :
    (run path arguments count).Only Call.IsAfterStart :=
  .bind (.request trivial) fun _ => .bind (.request trivial) fun _ =>
    .bind (.request trivial) fun _ => .bind (.request trivial) fun _ => trivial

end HandOver

namespace Launch

/-- This is a run without its start. -/
def rest (arguments : List (Option Bytes)) : Program Int := do
  match ← Verbs.fromEnvironment (some {}) with
  | (status, verbs) =>
      if status.failed then fail status ("Failed to parse " ++ Setting.verbs.name)
      else obey (verbs.getD {}) arguments

theorem run_eq (arguments : List (Option Bytes)) :
    run arguments = start >>= fun _ => rest arguments := rfl

variable {world : World}

theorem start_run (noFile : world.surroundings.setting .logFile = none) :
    world.run start = (some (), world.started) := by
  obtain ⟨opened, after⟩ := World.openLog_started noFile
  rw [start, Program.openLog, World.run_request rfl, opened, after]
  rfl

theorem start_history (noFile : world.surroundings.setting .logFile = none) :
    world.history start = [.openLog] := by
  obtain ⟨opened, after⟩ := World.openLog_started noFile
  rw [start, Program.openLog, World.history_request rfl, opened]
  rfl

/-- A run goes on in the world that the start leaves. -/
theorem run_started (noFile : world.surroundings.setting .logFile = none)
    (arguments : List (Option Bytes)) :
    world.run (run arguments) = world.started.run (rest arguments) := by
  rw [run_eq, World.run_bind, start_run noFile]

theorem exit_afterStart (status : Int) : (exit status).Only Call.IsAfterStart :=
  .bind (.request trivial) fun _ => trivial

theorem fail_afterStart (status : Status) (context : Bytes) :
    (fail status context).Only Call.IsAfterStart :=
  .bind (.request trivial) fun _ => exit_afterStart failure

theorem deliver_afterStart (verbs : Verbs) (path : Bytes) (arguments : List (Option Bytes)) :
    (deliver verbs path arguments).Only Call.IsAfterStart := by
  unfold deliver
  split
  · exact .bind (.request trivial) fun _ => exit_afterStart success
  · exact .bind (HandOver.run_afterStart path arguments _) fun _ => trivial

theorem resolve_afterStart (verbs : Verbs) (arguments : List (Option Bytes)) :
    (resolve verbs arguments).Only Call.IsAfterStart := by
  refine .bind (.bind (.request trivial) fun names => ?_) fun detected => ?_
  · cases names <;> trivial
  cases detected with
  | error status => exact fail_afterStart status _
  | ok host =>
      refine .bind (.request trivial) fun _ => .bind ((Resolve.run_inner _).mono fun _ =>
        Call.IsInner.afterStart) fun outcome => ?_
      cases outcome with
      | error status => exact fail_afterStart status _
      | ok path => exact deliver_afterStart verbs path arguments

theorem obey_afterStart (verbs : Verbs) (arguments : List (Option Bytes)) :
    (obey verbs arguments).Only Call.IsAfterStart := by
  unfold obey
  split
  · exact .bind (.request trivial) fun _ => exit_afterStart success
  split
  · exact .bind (.request trivial) fun _ => exit_afterStart success
  · exact resolve_afterStart verbs arguments

theorem rest_afterStart (arguments : List (Option Bytes)) :
    (rest arguments).Only Call.IsAfterStart := by
  have lookUp : Call.IsAfterStart (.lookUp .verbs) := ⟨by decide, by decide⟩
  refine .bind (Verbs.fromEnvironment_only lookUp trivial (fun _ => trivial) _) fun outcome => ?_
  dsimp only
  split
  · exact fail_afterStart _ _
  · exact obey_afterStart _ arguments

end Launch

end Launcher
