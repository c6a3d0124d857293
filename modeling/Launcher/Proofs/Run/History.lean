/-
This file records the calls of runs. The transcript of a run can be read from its calls, so a
program that makes no call of a kind leaves no trace of that kind.
-/

import Launcher.Proofs.Run.Bare

namespace Launcher

/-- These calls leave the launcher, and the transcript has one event for each of them. -/
def Call.event? : Call → Option Event
  | .fetch address path => some (.fetch address path)
  | .transfer request => some (.transfer request)
  | .execute path arguments =>
      some (.execute path ((arguments.takeWhile Option.isSome).filterMap id))
  | _ => none

/-- The text that a call writes to the output. -/
def Call.printed : Call → Bytes
  | .print text => text
  | _ => []

/-- Only an execution may end a run. -/
def Call.Returns : Call → Prop
  | .execute _ _ => False
  | _ => True

namespace World

variable {First Second : Type} {world after : World}

/-- The calls that a run makes, in their order. -/
def history {Answer : Type} (world : World) : Program Answer → List Call
  | .done _ => []
  | .ask call next => call :: match world.answer call with
      | (some reply, after) => after.history (next reply)
      | (none, _) => []

@[simp] theorem history_done (world : World) (answer : First) :
    world.history (.done answer) = [] := rfl

theorem history_request {call : Call} {reply : call.Reply}
    (answered : world.answer call = (some reply, after)) (next : call.Reply → Program First) :
    world.history (Program.request call >>= next) = call :: after.history (next reply) := by
  simp only [Program.request, Program.bind_ask, Program.bind_done, history, answered]

theorem run_request {call : Call} {reply : call.Reply}
    (answered : world.answer call = (some reply, after)) (next : call.Reply → Program First) :
    world.run (Program.request call >>= next) = after.run (next reply) := by
  simp only [Program.request, Program.bind_ask, Program.bind_done, run, answered]

theorem run_request_gone {call : Call} (gone : world.answer call = (none, after))
    (next : call.Reply → Program First) :
    world.run (Program.request call >>= next) = (none, after) := by
  simp only [Program.request, Program.bind_ask, Program.bind_done, run, gone]

/-- The calls of the second program follow those of the first one. -/
theorem history_bind {program : Program First} {answer : First}
    (ran : world.run program = (some answer, after)) (next : First → Program Second) :
    world.history (program >>= next) = world.history program ++ after.history (next answer) := by
  induction program generalizing world with
  | done answer =>
      cases ran
      rfl
  | ask call rest inductionHypothesis =>
      rcases answered : world.answer call with ⟨_ | reply, middle⟩
      · simp only [run, answered] at ran
        cases ran
      · simp only [run, answered] at ran
        simp only [Program.bind_ask, history, answered, List.cons_append, List.cons.injEq, true_and]
        exact inductionHypothesis reply ran

/-- When the first program is replaced, no more calls follow. -/
theorem history_bind_gone {program : Program First} (ran : world.run program = (none, after))
    (next : First → Program Second) :
    world.history (program >>= next) = world.history program := by
  induction program generalizing world with
  | done answer => cases ran
  | ask call rest inductionHypothesis =>
      rcases answered : world.answer call with ⟨_ | reply, middle⟩
      · simp only [Program.bind_ask, history, answered]
      · simp only [run, answered] at ran
        simp only [Program.bind_ask, history, answered, List.cons.injEq, true_and]
        exact inductionHypothesis reply ran

/-- A program that makes allowed calls only has no others in its history. -/
theorem history_only {allowed : Call → Prop} {program : Program First}
    (only : program.Only allowed) : ∀ call ∈ world.history program, allowed call := by
  induction program generalizing world with
  | done answer => simp
  | ask call next inductionHypothesis =>
      intro other among
      rw [history, List.mem_cons] at among
      rcases among with rfl | later
      · exact only.1
      · split at later
        · exact inductionHypothesis _ (only.2 _) other later
        · cases later

/-- What follows the first program is allowed when the rest makes allowed calls only. -/
theorem history_bind_only (world : World) (program : Program First) {allowed : Call → Prop}
    {next : First → Program Second} (only : ∀ answer, (next answer).Only allowed) :
    ∃ back, world.history (program >>= next) = world.history program ++ back ∧
      ∀ call ∈ back, allowed call := by
  rcases ran : world.run program with ⟨_ | answer, after⟩
  · refine ⟨[], ?_, by simp⟩
    rw [history_bind_gone ran, List.append_nil]
  · exact ⟨_, history_bind ran next, history_only (only answer)⟩

/-- What answers in the end answered in its first part. -/
theorem run_bind_ends {program : Program First} {next : First → Program Second} {answer : Second}
    (ended : world.run (program >>= next) = (some answer, after)) :
    ∃ reply middle, world.run program = (some reply, middle) ∧
      middle.run (next reply) = (some answer, after) := by
  rw [run_bind] at ended
  rcases ran : world.run program with ⟨_ | reply, middle⟩
  · rw [ran] at ended
    cases ended
  · rw [ran] at ended
    exact ⟨reply, middle, rfl, ended⟩

/-- A program that is never replaced always answers. -/
theorem run_returns (world : World) {program : Program First} (only : program.Only Call.Returns) :
    ∃ answer after, world.run program = (some answer, after) := by
  induction program generalizing world with
  | done answer => exact ⟨answer, world, rfl⟩
  | ask call next inductionHypothesis =>
      rw [run]
      split
      · exact inductionHypothesis _ _ (only.2 _)
      · rename_i gone
        have returns := only.1
        cases call with
        | execute path arguments => exact returns.elim
        | _ => cases congrArg Prod.fst gone

/-! ### Transcripts -/

/-- The events of a run, read from its calls. -/
def events (world : World) (program : Program First) : List Event :=
  (world.history program).filterMap Call.event?

theorem events_only {allowed : Call → Prop} {program : Program First}
    (only : program.Only allowed) (none : ∀ call, allowed call → call.event? = none) :
    world.events program = [] :=
  List.filterMap_eq_nil_iff.mpr fun call among => none call (history_only only call among)

theorem events_request {call : Call} {reply : call.Reply} {after : World}
    (answered : world.answer call = (some reply, after)) (next : call.Reply → Program First) :
    world.events (Program.request call >>= next) =
      call.event?.toList ++ after.events (next reply) := by
  rw [events, history_request answered, List.filterMap_cons]
  cases call.event? with
  | none => rfl
  | some event => rfl

/-- Calls without events at the end of a program add none. -/
theorem events_bind_only {allowed : Call → Prop} {program : Program First}
    {next : First → Program Second} (only : ∀ answer, (next answer).Only allowed)
    (none : ∀ call, allowed call → call.event? = none) :
    world.events (program >>= next) = world.events program := by
  obtain ⟨back, split, among⟩ := world.history_bind_only program only
  have noEvents : back.filterMap Call.event? = [] :=
    List.filterMap_eq_nil_iff.mpr fun call isBack => none call (among call isBack)
  rw [events, split, List.filterMap_append, noEvents, List.append_nil]
  rfl

theorem answerBare_transcript (world : World) (call : Call) :
    (world.answerBare call).2.transcript.events =
        world.transcript.events ++ call.event?.toList ∧
      (world.answerBare call).2.transcript.output =
        world.transcript.output ++ call.printed := by
  cases call with
  | file call =>
      have kept : (world.answerFile call).2.transcript = world.transcript := by
        rw [answerFile_eq]
        split <;> rfl
      show (world.answerFile call).2.transcript.events = _ ∧
        (world.answerFile call).2.transcript.output = _
      simp [kept, Call.event?, Call.printed]
  | fetch address path => simp [answerBare, answer, answerFetch, witness, Call.event?, Call.printed]
  | transfer request => simp [answerBare, answer, witness, Call.event?, Call.printed]
  | execute path arguments => simp [answerBare, answer, witness, Call.event?, Call.printed]
  | print text => simp [answerBare, answer, print, Call.event?, Call.printed]
  | duplicate => simp [answerBare, answer, strike, Call.event?, Call.printed]
  | _ => simp [answerBare, answer, Call.event?, Call.printed]

/-- The events and the output of a run are those of its calls, one after the other. -/
theorem run_transcript {program : Program First} (plain : program.Only Call.IsPlain)
    (closed : world.logIsOpen = false) :
    (world.run program).2.transcript.events =
        world.transcript.events ++ world.events program ∧
      (world.run program).2.transcript.output =
        world.transcript.output ++ (world.history program).flatMap Call.printed := by
  induction program generalizing world with
  | done answer => simp [run, World.events]
  | ask call next inductionHypothesis =>
      obtain ⟨_, alike, still⟩ := (Alike.refl world).answer closed plain.1
      obtain ⟨events, output⟩ := world.answerBare_transcript call
      rw [← alike.events] at events
      rw [← alike.output] at output
      rcases answered : world.answer call with ⟨_ | reply, after⟩
      · rw [answered] at events output
        simp only [run, World.events, history, answered]
        cases shown : call.event? <;> simp_all
      · rw [answered] at events output still
        obtain ⟨laterEvents, laterOutput⟩ := inductionHypothesis reply (plain.2 reply) still
        simp only [run, World.events, history, answered]
        rw [laterEvents, laterOutput, events, output]
        cases shown : call.event? <;> simp [shown, World.events]

end World

end Launcher
