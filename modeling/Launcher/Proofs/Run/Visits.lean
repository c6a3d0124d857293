/-
This file records each call of a run together with the world that it is made in. What is assumed
about the moments of a run, or shown about them, is said of its visits.
-/

import Launcher.Proofs.Run.History
import Launcher.Proofs.Run.Yield

namespace Launcher.World

variable {First Second : Type} {world after : World}

/-- The calls of a run with their worlds, in their order. -/
def visits {Answer : Type} (world : World) : Program Answer → List (World × Call)
  | .done _ => []
  | .ask call next => (world, call) :: match world.answer call with
      | (some reply, after) => after.visits (next reply)
      | (none, _) => []

@[simp] theorem visits_done (world : World) (answer : First) :
    world.visits (.done answer) = [] := rfl

theorem visits_request {call : Call} {reply : call.Reply}
    (answered : world.answer call = (some reply, after)) (next : call.Reply → Program First) :
    world.visits (Program.request call >>= next) = (world, call) :: after.visits (next reply) := by
  simp only [Program.request, Program.bind_ask, Program.bind_done, visits, answered]

theorem visits_request_gone {call : Call} (gone : world.answer call = (none, after))
    (next : call.Reply → Program First) :
    world.visits (Program.request call >>= next) = [(world, call)] := by
  simp only [Program.request, Program.bind_ask, Program.bind_done, visits, gone]

/-- The visits of the second program follow those of the first one. -/
theorem visits_bind {program : Program First} {answer : First}
    (ran : world.run program = (some answer, after)) (next : First → Program Second) :
    world.visits (program >>= next) = world.visits program ++ after.visits (next answer) := by
  induction program generalizing world with
  | done answer =>
      cases ran
      rfl
  | ask call rest inductionHypothesis =>
      rw [run] at ran
      rcases answered : world.answer call with ⟨_ | reply, middle⟩
      · rw [answered] at ran
        cases ran
      · rw [answered] at ran
        simp only [Program.bind_ask, visits, answered, List.cons_append, List.cons.injEq, true_and]
        exact inductionHypothesis reply ran

/-- Without their worlds the visits are the history. -/
theorem visits_history (world : World) (program : Program First) :
    (world.visits program).map Prod.snd = world.history program := by
  induction program generalizing world with
  | done answer => rfl
  | ask call next inductionHypothesis =>
      rw [visits, history, List.map_cons]
      rcases world.answer call with ⟨_ | reply, after⟩
      · rfl
      · exact congrArg (call :: ·) (inductionHypothesis reply after)

theorem visits_only {allowed : Call → Prop} {program : Program First}
    (only : program.Only allowed) : ∀ visit ∈ world.visits program, allowed visit.2 := by
  intro visit among
  apply history_only only
  rw [← visits_history]
  exact List.mem_map_of_mem among

/-! ### What lasts -/

/-- No call but the opening of the log reaches the surroundings or adds a fault. -/
theorem answer_descends (world : World) {call : Call} (plain : call.IsPlain) :
    (world.answer call).2.Descends world := by
  have still (files : FileSystem Channel) (log : Log.Session) (transcript : Transcript) :
      { world with files, log, transcript }.Descends world :=
    ⟨rfl, fun fault among => ⟨fault, among, rfl, rfl⟩⟩
  cases call with
  | log entry =>
      rw [answer, writeEntry_eq]
      exact still _ _ _
  | closeLog =>
      rw [answer, closeLog_eq]
      exact still _ _ _
  | openLog => exact plain.elim
  | pass seconds => exact ⟨rfl, fun fault among => ⟨fault, among, rfl, rfl⟩⟩
  | warn text => exact still _ _ _
  | keepCacheDirectory path => exact ⟨rfl, fun fault among => ⟨fault, among, rfl, rfl⟩⟩
  | _ => exact world.answerBare_descends _

theorem run_descends {program : Program First} (plain : program.Only Call.IsPlain)
    (world : World) : (world.run program).2.Descends world := by
  induction program generalizing world with
  | done answer => exact .refl world
  | ask call next inductionHypothesis =>
      have step := world.answer_descends plain.1
      rw [run]
      rcases answered : world.answer call with ⟨_ | reply, after⟩
      · rw [answered] at step
        exact step
      · rw [answered] at step
        exact (inductionHypothesis reply (plain.2 reply) after).trans step

/-- Faults that fail still do so behind a program. -/
theorem FaultsFail.run {program : Program First} {outcome : Option First}
    (sound : world.FaultsFail) (plain : program.Only Call.IsPlain)
    (ran : world.run program = (outcome, after)) : after.FaultsFail := by
  have descends := world.run_descends plain
  rw [ran] at descends
  exact descends.faultsFail sound

end Launcher.World
