/-
This file compares two runs that start in worlds which differ in the log, the screen, the clock and
the remembered cache directory. While no log file is in use, nobody can tell the runs apart by
anything but the screen.
-/

import Launcher.Proofs.Atomicity
import Launcher.Proofs.Start

namespace Launcher

namespace World

variable {Answer : Type} {first second : World}

/-- Two runs make the same calls, come to the same answer, and leave the same output, the same
events and the same files. -/
structure SameRun (first second : World) (program : Program Answer) : Prop where
  answer : (first.run program).1 = (second.run program).1
  calls : first.history program = second.history program
  output : (first.run program).2.transcript.output = (second.run program).2.transcript.output
  events : (first.run program).2.transcript.events = (second.run program).2.transcript.events
  files : (first.run program).2.files = (second.run program).2.files

/-- Worlds that are alike answer a call alike, and they stay alike. -/
theorem Alike.answers (alike : first.Alike second) (closed : first.logIsOpen = false) {call : Call}
    (plain : call.IsPlain) :
    (first.answer call).1 = (second.answer call).1 ∧
      (first.answer call).2.Alike (second.answer call).2 ∧
      (first.answer call).2.logIsOpen = false := by
  obtain ⟨same, after, still⟩ := alike.answer closed plain
  obtain ⟨sameToo, afterToo, _⟩ := (Alike.refl second).answer (alike.closed closed) plain
  exact ⟨same.trans sameToo.symm, after.trans afterToo.symm, still⟩

/-- The replies decide which call comes next, so alike worlds see the same calls. -/
theorem Alike.calls {program : Program Answer} (plain : program.Only Call.IsPlain)
    (alike : first.Alike second) (closed : first.logIsOpen = false) :
    first.history program = second.history program := by
  induction program generalizing first second with
  | done answer => rfl
  | ask call next inductionHypothesis =>
      obtain ⟨same, after, still⟩ := alike.answers closed plain.1
      rw [history, history]
      generalize first.answer call = firstOutcome at same after still ⊢
      generalize second.answer call = secondOutcome at same after ⊢
      obtain ⟨reply, firstAfter⟩ := firstOutcome
      obtain ⟨_, secondAfter⟩ := secondOutcome
      cases same
      cases reply with
      | none => rfl
      | some reply => exact congrArg (call :: ·) (inductionHypothesis reply (plain.2 reply) after still)

theorem Alike.sameRun (alike : first.Alike second) {program : Program Answer}
    (plain : program.Only Call.IsPlain) (closed : first.logIsOpen = false) :
    SameRun first second program := by
  obtain ⟨same, after, _⟩ := alike.run plain closed
  obtain ⟨sameToo, afterToo, _⟩ := (Alike.refl second).run plain (alike.closed closed)
  have agree := after.trans afterToo.symm
  exact ⟨same.trans sameToo.symm, alike.calls plain closed, agree.output, agree.events, agree.files⟩

/-- Runs that are the same up to a point are the same when they go on in the same way. -/
theorem SameRun.bind {First : Type} {program : Program First} {next : First → Program Answer}
    {reply : First} {firstAfter secondAfter : World}
    (firstRan : first.run program = (some reply, firstAfter))
    (secondRan : second.run program = (some reply, secondAfter))
    (calls : first.history program = second.history program)
    (same : SameRun firstAfter secondAfter (next reply)) :
    SameRun first second (program >>= next) := by
  have firstRun : first.run (program >>= next) = firstAfter.run (next reply) := by
    rw [run_bind, firstRan]
  have secondRun : second.run (program >>= next) = secondAfter.run (next reply) := by
    rw [run_bind, secondRan]
  have allCalls : first.history (program >>= next) = second.history (program >>= next) := by
    rw [history_bind firstRan, history_bind secondRan, calls, same.calls]
  constructor
  · rw [firstRun, secondRun, same.answer]
  · exact allCalls
  · rw [firstRun, secondRun, same.output]
  · rw [firstRun, secondRun, same.events]
  · rw [firstRun, secondRun, same.files]

end World

namespace Launch

variable {first second : World}

/-- The start leaves alike worlds alike, and the rest of a run is the same in both. -/
theorem run_same (alike : first.Alike second) (closed : first.logIsOpen = false)
    (firstFile : first.surroundings.setting .logFile = none)
    (secondFile : second.surroundings.setting .logFile = none)
    (arguments : List (Option Bytes)) : World.SameRun first second (run arguments) := by
  have started : first.started.Alike second.started :=
    (World.started_alike closed).trans
      (alike.trans (World.started_alike (alike.closed closed)).symm)
  have plain : (rest arguments).Only Call.IsPlain :=
    (rest_afterStart arguments).mono fun _ => Call.IsAfterStart.plain
  have opens : first.history start = second.history start := by
    rw [start_history firstFile, start_history secondFile]
  rw [run_eq]
  exact .bind (start_run firstFile) (start_run secondFile) opens
    (started.sameRun plain first.started_closed)

/-- Neither the level of the log, the terminal, the clock, the meter nor a remembered directory has
a part in what the launcher or a resolution does. -/
theorem run_indifferent {first second : World} (alike : first.Alike second)
    (closed : first.logIsOpen = false)
    (firstFile : first.surroundings.setting .logFile = none)
    (secondFile : second.surroundings.setting .logFile = none) :
    (∀ arguments, World.SameRun first second (run arguments)) ∧
      ∀ request, World.SameRun first second (Resolve.run request) ∧
        ∀ previous, (first.run (Resolve.run request)).1.map (Resolve.pathAfter previous) =
          (second.run (Resolve.run request)).1.map (Resolve.pathAfter previous) := by
  refine ⟨run_same alike closed firstFile secondFile, fun request => ?_⟩
  have same := alike.sameRun ((Resolve.run_inner request).mono fun _ => Call.IsInner.plain) closed
  exact ⟨same, fun previous => congrArg (Option.map (Resolve.pathAfter previous)) same.answer⟩

/-- This world is like `homeWorld` after some use: the log shows everything on a terminal, a meter
line is open, and a directory is remembered. -/
def usedWorld : World where
  surroundings := { Resolve.homeWorld.surroundings with
    environment := fun setting =>
      if setting = .logLevel then some "debug" else Resolve.homeWorld.surroundings.environment setting
    terminal := true }
  clock := 1800000000
  log := ⟨.silent, true, 1700000000⟩
  cacheDirectory := some "/elsewhere"

theorem homeWorld_alike : Resolve.homeWorld.Alike usedWorld := by
  have environment (setting : Setting) (notLevel : setting ≠ .logLevel) :
      Resolve.homeWorld.surroundings.environment setting =
        usedWorld.surroundings.environment setting := by
    simp [usedWorld, notLevel]
  constructor
  case environment => exact fun setting notLevel _ => environment setting notLevel
  all_goals rfl

theorem run_indifferent_usedWorld :
    (∀ arguments, World.SameRun Resolve.homeWorld usedWorld (run arguments)) ∧
      ∀ request, World.SameRun Resolve.homeWorld usedWorld (Resolve.run request) ∧
        ∀ previous,
          (Resolve.homeWorld.run (Resolve.run request)).1.map (Resolve.pathAfter previous) =
            (usedWorld.run (Resolve.run request)).1.map (Resolve.pathAfter previous) :=
  run_indifferent homeWorld_alike rfl (by decide) (by decide)

end Launch

end Launcher
