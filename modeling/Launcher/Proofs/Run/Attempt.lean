/-
This file compares programs with attempts. An attempt is a chain of operations that ends at the first
one that fails, so a program that reports an attempt answers with its first failure, whatever it
does after that.
-/

import Launcher.Proofs.Run.Visits
import Launcher.Proofs.Status
import Launcher.Proofs.Tree.Refusal

namespace Launcher

variable {First Second : Type}

instance : LawfulMonad Program := .mk' Program
  (by
    intro First program
    induction program with
    | done answer => rfl
    | ask call rest inductionHypothesis => exact congrArg (Program.ask call) (funext inductionHypothesis))
  (fun _ _ => rfl) Program.bind_assoc

/-! ### Attempts -/

/-- A status that fails is an error. -/
def Status.verdict (status : Status) : Except Status Unit :=
  if status.failed then .error status else .ok ()

/-- The first operation of an attempt that fails is its last one, and gives the status. -/
abbrev Attempt (Answer : Type) : Type := ExceptT Status Program Answer

theorem Attempt.run_bind (first : Attempt First) (rest : First → Attempt Second) :
    (first >>= rest).run = first.run >>= fun outcome => match outcome with
      | .ok answer => (rest answer).run
      | .error status => pure (.error status) := by
  change first.run >>= ExceptT.bindCont rest = _
  congr 1
  funext outcome
  cases outcome <;> rfl

namespace Program

/-- The reply of the operation is judged. It gives an answer, or it is a failure with a status. -/
def judged (operation : Program First) (judge : First → Except Status Second) : Attempt Second :=
  ExceptT.mk (operation >>= fun reply => pure (judge reply))

/-- A refusal is a failure with the status of its error number. -/
def orFail (operation : Program (Except Errno First)) : Attempt First :=
  operation.judged (·.mapError Status.ofErrno)

/-- A reply of no is a failure with the status. -/
def orFailWith (operation : Program Bool) (status : Status) : Attempt Unit :=
  operation.judged fun reply => if reply then .ok () else .error status

/-- All answers of a program meet the condition, whatever the replies are. -/
def Answers (holds : First → Prop) : Program First → Prop
  | .done answer => holds answer
  | .ask _ next => ∀ reply, (next reply).Answers holds

namespace Answers

variable {holds : First → Prop} {program : Program First}

theorem bind {next : First → Program Second} {goal : Second → Prop}
    (first : program.Answers holds) (second : ∀ answer, holds answer → (next answer).Answers goal) :
    (program >>= next).Answers goal := by
  induction program with
  | done answer => exact second answer first
  | ask call rest inductionHypothesis =>
      exact fun reply => inductionHypothesis reply (first reply)

theorem mono {goal : First → Prop} (answers : program.Answers holds)
    (weaker : ∀ answer, holds answer → goal answer) : program.Answers goal := by
  induction program with
  | done answer => exact weaker answer answers
  | ask call rest inductionHypothesis =>
      exact fun reply => inductionHypothesis reply (answers reply)

/-- What the first program answers does not matter here. -/
theorem after {next : First → Program Second} {goal : Second → Prop}
    (second : ∀ answer, (next answer).Answers goal) : (program >>= next).Answers goal := by
  induction program with
  | done answer => exact second answer
  | ask call rest inductionHypothesis => exact inductionHypothesis

theorem run {world after : World} {answer : First} (answers : program.Answers holds)
    (ran : world.run program = (some answer, after)) : holds answer := by
  induction program generalizing world with
  | done answer =>
      cases ran
      exact answers
  | ask call next inductionHypothesis =>
      rw [World.run] at ran
      split at ran
      · exact inductionHypothesis _ (answers _) ran
      · cases ran

end Answers

end Program

namespace World

variable {world : World}

/-! ### Refusals -/

/-- A refused file call has the error number of a fault or of the file system. -/
theorem answerFile_refused (call : FileCall) {errno : Errno}
    (refused : FileCall.refusal? (world.answerFile call).1 = some errno) :
    (∃ point, call.faultPoint = some point ∧
        ∃ fault ∈ world.faults, fault.operation = point.1 ∧ fault.errno = errno) ∨
      FileCall.refusal? (world.files.answer .output world.surroundings.mask call).1 =
        some errno := by
  rw [answerFile_eq] at refused
  rcases struck : call.strike world.faults with ⟨_ | number, faults⟩
  · rw [struck] at refused
    exact .inr refused
  · rw [struck] at refused
    obtain ⟨point, known, fault, among, kind, rfl⟩ := FileCall.strike_some (by rw [struck])
    have same : fault.errno = errno := by
      cases call with
      | outputIsRegular => cases refused
      | _ => exact Option.some.inj refused
    exact .inl ⟨point, known, fault, among, kind, same⟩

theorem answerFile_refusal (sound : world.FaultsFail) (call : FileCall) {errno : Errno}
    (refused : FileCall.refusal? (world.answerFile call).1 = some errno) : errno.number ≠ 0 := by
  rcases answerFile_refused call refused with ⟨_, _, fault, among, _, rfl⟩ | served
  · exact sound fault among
  · exact FileSystem.answer_refusal call served

/-- The operation comes to an end, and it is not refused without an error number. -/
def Refuses (world : World) (operation : Program (Except Errno First)) : Prop :=
  ∃ reply after, world.run operation = (some reply, after) ∧
    ∀ errno, reply = .error errno → errno.number ≠ 0

section

variable (sound : world.FaultsFail)
include sound

theorem refuses_inspect (path : Bytes) : world.Refuses (Program.inspect path) :=
  ⟨_, _, rfl, fun _ refused => answerFile_refusal sound (.inspect path) (by rw [refused]; rfl)⟩

theorem refuses_setMode (path : Bytes) (mode : Mode) :
    world.Refuses (Program.setMode path mode) :=
  ⟨_, _, rfl, fun _ refused => answerFile_refusal sound (.setMode path mode) (by rw [refused]; rfl)⟩

theorem refuses_rename (source target : Bytes) : world.Refuses (Program.rename source target) :=
  ⟨_, _, rfl, fun _ refused =>
    answerFile_refusal sound (.rename source target) (by rw [refused]; rfl)⟩

theorem refuses_openOutput (path : Bytes) : world.Refuses (Program.openOutput path) :=
  ⟨_, _, rfl, fun _ refused => answerFile_refusal sound (.openOutput path) (by rw [refused]; rfl)⟩

theorem refuses_flush : world.Refuses Program.flush :=
  ⟨_, _, rfl, fun _ refused => answerFile_refusal sound .flush (by rw [refused]; rfl)⟩

theorem refuses_close : world.Refuses Program.close :=
  ⟨_, _, rfl, fun _ refused => answerFile_refusal sound .close (by rw [refused]; rfl)⟩

end

/-! ### Reports -/

theorem run_judged {Third : Type} {operation : Program First} {reply : First} {after : World}
    (ran : world.run operation = (some reply, after)) (judge : First → Except Status Second)
    (rest : Second → Attempt Third) :
    world.run (operation.judged judge >>= rest).run = after.run (match judge reply with
      | .ok answer => (rest answer).run
      | .error status => pure (.error status)) := by
  rw [Attempt.run_bind, run_bind, Program.judged, ExceptT.run_mk, run_bind, ran]
  rfl

/-- Whatever the program answers, it is the status of the first failure of the attempt. When nothing
fails, the two end in the same world. -/
def Reports (world : World) (program : Program Status) (attempt : Attempt Unit) : Prop :=
  ∀ status after, world.run program = (some status, after) →
    (status.failed = true ∧ (world.run attempt.run).1 = some (.error status)) ∨
      (status = .ok ∧ world.run attempt.run = (some (.ok ()), after))

namespace Reports

theorem ok : world.Reports (pure .ok) (pure ()) := by
  intro status after ran
  cases ran
  exact .inr ⟨rfl, rfl⟩

/-- The next operation fails, or both go on behind it. -/
theorem judged {operation : Program First} {reply : First} {after : World}
    {judge : First → Except Status Second} {next : First → Program Status}
    {rest : Second → Attempt Unit} (ran : world.run operation = (some reply, after))
    (refused : ∀ status, judge reply = .error status →
      status.failed = true ∧ (next reply).Answers (· = status))
    (went : ∀ answer, judge reply = .ok answer → after.Reports (next reply) (rest answer)) :
    world.Reports (operation >>= next) (operation.judged judge >>= rest) := by
  intro status final ended
  rw [run_bind, ran] at ended
  rw [run_judged ran]
  cases judgement : judge reply with
  | error failure =>
      obtain ⟨fails, answers⟩ := refused failure judgement
      obtain rfl : status = failure := answers.run ended
      exact .inl ⟨fails, rfl⟩
  | ok answer => exact went answer judgement status final ended

theorem orFail {operation : Program (Except Errno First)} {next : Except Errno First → Program Status}
    {rest : First → Attempt Unit} (refuses : world.Refuses operation)
    (refused : ∀ errno, (next (.error errno)).Answers (· = .ofErrno errno))
    (went : ∀ answer after, world.run operation = (some (.ok answer), after) →
      after.Reports (next (.ok answer)) (rest answer)) :
    world.Reports (operation >>= next) (operation.orFail >>= rest) := by
  obtain ⟨reply, after, ran, number⟩ := refuses
  cases reply with
  | error errno =>
      refine judged ran ?_ (by simp [Except.mapError])
      rintro status ⟨⟩
      exact ⟨Status.failed_ofErrno (number errno rfl), refused errno⟩
  | ok answer =>
      refine judged ran (by simp [Except.mapError]) ?_
      rintro other ⟨⟩
      exact went answer after ran

theorem orFailWith {operation : Program Bool} {next : Bool → Program Status}
    {rest : Unit → Attempt Unit} {status : Status} {reply : Bool} {after : World}
    (ran : world.run operation = (some reply, after)) (fails : status.failed = true)
    (refused : (next false).Answers (· = status))
    (went : reply = true → after.Reports (next true) (rest ())) :
    world.Reports (operation >>= next) (operation.orFailWith status >>= rest) := by
  cases reply with
  | false =>
      refine judged ran ?_ (by simp)
      rintro other ⟨⟩
      exact ⟨fails, refused⟩
  | true => exact judged ran (by simp) fun _ _ => went rfl

/-- A reply with a status that fails ends the attempt with that status. -/
theorem verdict {operation : Program First} {reply : First} {after : World}
    {status : First → Status} {next : First → Program Status} {rest : Unit → Attempt Unit}
    (ran : world.run operation = (some reply, after))
    (kept : (status reply).failed = true → (next reply).Answers (· = status reply))
    (went : (status reply).failed = false → after.Reports (next reply) (rest ())) :
    world.Reports (operation >>= next)
      (operation.judged (fun reply => (status reply).verdict) >>= rest) := by
  cases failed : (status reply).failed with
  | true =>
      refine judged ran ?_ (by simp [Status.verdict, failed])
      intro other same
      simp only [Status.verdict, failed, if_true, Except.error.injEq] at same
      exact same ▸ ⟨failed, kept failed⟩
  | false => exact judged ran (by simp [Status.verdict, failed]) fun _ _ => went failed

/-- A program that only looks at the world has no part in the attempt. -/
theorem look {operation : Program First} {next : First → Program Status} {reply : First}
    {attempt : Attempt Unit} (ran : world.run operation = (some reply, world))
    (later : world.Reports (next reply) attempt) : world.Reports (operation >>= next) attempt := by
  intro status after ended
  rw [run_bind, ran] at ended
  exact later status after ended

/-- The first part of a program fails for good, or the program goes on where the attempt ends. -/
theorem split {program : Program Status} {attempt : Attempt Unit} {next : Status → Program Status}
    {status : Status} {final : World} (first : world.Reports program attempt)
    (kept : ∀ status, status.failed = true → (next status).Answers (· = status))
    (ended : world.run (program >>= next) = (some status, final)) :
    (status.failed = true ∧ (world.run attempt.run).1 = some (.error status)) ∨
      ∃ after, world.run program = (some .ok, after) ∧
        world.run attempt.run = (some (.ok ()), after) ∧
        after.run (next .ok) = (some status, final) := by
  obtain ⟨middle, after, ran, ended⟩ := run_bind_ends ended
  rcases first middle after ran with ⟨fails, failure⟩ | ⟨rfl, attempted⟩
  · obtain rfl : status = middle := (kept middle fails).run ended
    exact .inl ⟨fails, failure⟩
  · exact .inr ⟨after, ran, attempted, ended⟩

/-- The program goes on when its first part succeeds, and otherwise keeps the status. -/
theorem bind {program : Program Status} {attempt : Attempt Unit} {next : Status → Program Status}
    {rest : Unit → Attempt Unit} (first : world.Reports program attempt)
    (kept : ∀ status, status.failed = true → (next status).Answers (· = status))
    (went : ∀ after, world.run program = (some .ok, after) → after.Reports (next .ok) (rest ())) :
    world.Reports (program >>= next) (attempt >>= rest) := by
  intro status final ended
  rw [Attempt.run_bind, run_bind]
  rcases first.split kept ended with ⟨fails, failure⟩ | ⟨after, ran, attempted, later⟩
  · rcases tried : world.run attempt.run with ⟨outcome, last⟩
    rw [tried] at failure
    dsimp only at failure
    subst failure
    exact .inl ⟨fails, rfl⟩
  · rw [attempted]
    exact went after ran status final later

/-- What keeps every status and does nothing behind a success has no part in the attempt. -/
theorem tail {program : Program Status} {attempt : Attempt Unit} {next : Status → Program Status}
    (first : world.Reports program attempt)
    (kept : ∀ status, status.failed = true → (next status).Answers (· = status))
    (went : next .ok = pure .ok) : world.Reports (program >>= next) attempt := by
  intro status final ended
  rcases first.split kept ended with failure | ⟨after, _, attempted, later⟩
  · exact .inl failure
  · rw [went] at later
    cases later
    exact .inr ⟨rfl, attempted⟩

section

variable {program : Program Status} {attempt : Attempt Unit} {status : Status} {after : World}
  (reports : world.Reports program attempt) (ran : world.run program = (some status, after))
include reports ran

theorem failed_iff : status.failed = false ↔ (world.run attempt.run).1 = some (.ok ()) := by
  rcases reports status after ran with ⟨failed, failure⟩ | ⟨rfl, attempted⟩
  · simp [failed, failure]
  · simp [attempted]

/-- There is only one status for a success. -/
theorem ok_of_not_failed (went : status.failed = false) : status = .ok := by
  rcases reports status after ran with ⟨failed, _⟩ | ⟨ok, _⟩
  · rw [went] at failed
    cases failed
  · exact ok

end

end Reports

end World

end Launcher
