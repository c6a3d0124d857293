/-
This file says what bare runs yield. Each call has one rule, and a rule for sequences puts them
together, so a program is followed call by call.
-/

import Launcher.Proofs.Run.Bare

namespace Launcher

/-! ### Faults -/

namespace Fault

/-- A refusal comes from a fault of the operation. -/
theorem intercept_some {operation : Operation} {path : Option Bytes} {faults : List Fault}
    {errno : Errno} (struck : (intercept operation path faults).1 = some errno) :
    ∃ fault ∈ faults, fault.operation = operation ∧ fault.errno = errno := by
  induction faults with
  | nil => cases struck
  | cons fault others inductionHypothesis =>
      have onward (struck : (intercept operation path others).1 = some errno) :
          ∃ other ∈ fault :: others, other.operation = operation ∧ other.errno = errno := by
        obtain ⟨other, among, same⟩ := inductionHypothesis struck
        exact ⟨other, List.mem_cons_of_mem fault among, same⟩
      simp only [intercept] at struck
      split at struck
      · exact onward struck
      rename_i strikes
      have matching : fault.operation = operation := by
        simp only [Fault.strikes] at strikes
        grind
      split at struck
      · exact onward struck
      · cases struck
        exact ⟨fault, by simp, matching, rfl⟩
      · exact onward struck
      · cases struck
        exact ⟨fault, by simp, matching, rfl⟩

/-- The faults that are left are old ones, with other counts at most. -/
theorem intercept_left {operation : Operation} {path : Option Bytes} {faults : List Fault}
    {fault : Fault} (left : fault ∈ (intercept operation path faults).2) :
    ∃ origin ∈ faults, origin.operation = fault.operation ∧ origin.errno = fault.errno := by
  induction faults with
  | nil => cases left
  | cons first others inductionHypothesis =>
      have later (left : fault ∈ (intercept operation path others).2) :
          ∃ origin ∈ first :: others,
            origin.operation = fault.operation ∧ origin.errno = fault.errno := by
        obtain ⟨origin, among, same⟩ := inductionHypothesis left
        exact ⟨origin, List.mem_cons_of_mem first among, same⟩
      simp only [intercept] at left
      split at left
      · rcases List.mem_cons.mp left with rfl | left
        · exact ⟨fault, by simp⟩
        · exact later left
      split at left
      · rcases List.mem_cons.mp left with rfl | left
        · exact ⟨first, by simp⟩
        · exact later left
      · exact ⟨fault, left, rfl, rfl⟩
      · rcases List.mem_cons.mp left with rfl | left
        · exact ⟨fault, by simp⟩
        · exact later left
      · rcases List.mem_cons.mp left with rfl | left
        · exact ⟨first, by simp⟩
        · exact ⟨fault, List.mem_cons_of_mem first left, rfl, rfl⟩

end Fault

namespace FileCall

variable {call : FileCall} {faults : List Fault}

theorem strike_some {errno : Errno} (struck : (call.strike faults).1 = some errno) :
    ∃ point, call.faultPoint = some point ∧
      ∃ fault ∈ faults, fault.operation = point.1 ∧ fault.errno = errno := by
  unfold strike at struck
  split at struck
  · cases struck
  · rename_i operation path known
    exact ⟨(operation, path), known, Fault.intercept_some struck⟩

theorem strike_left {fault : Fault} (left : fault ∈ (call.strike faults).2) :
    ∃ origin ∈ faults, origin.operation = fault.operation ∧ origin.errno = fault.errno := by
  unfold strike at left
  split at left
  · exact ⟨fault, left, rfl, rfl⟩
  · exact Fault.intercept_left left

end FileCall

namespace World

/-- No fault refuses a call without an error number. -/
def FaultsFail (world : World) : Prop := ∀ fault ∈ world.faults, fault.errno.number ≠ 0

/-- No fault refuses to open a file without an error number. -/
def OpeningsFail (world : World) : Prop :=
  ∀ fault ∈ world.faults, fault.operation = .openStream → fault.errno.number ≠ 0

/-- No fault is made for the operation. -/
def Spares (world : World) (operation : Operation) : Prop :=
  ∀ fault ∈ world.faults, fault.operation ≠ operation

/-- A world descends from another one when it has the same surroundings and no new faults. -/
structure Descends (after before : World) : Prop where
  surroundings : after.surroundings = before.surroundings
  faults : ∀ fault ∈ after.faults,
    ∃ origin ∈ before.faults, origin.operation = fault.operation ∧ origin.errno = fault.errno

namespace Descends

variable {first second third : World} {operation : Operation}

theorem refl (world : World) : world.Descends world :=
  ⟨rfl, fun fault among => ⟨fault, among, rfl, rfl⟩⟩

theorem trans (right : third.Descends second) (left : second.Descends first) :
    third.Descends first := by
  refine ⟨right.surroundings.trans left.surroundings, fun fault among => ?_⟩
  obtain ⟨middle, among, kind, number⟩ := right.faults fault among
  obtain ⟨origin, among, firstKind, firstNumber⟩ := left.faults middle among
  exact ⟨origin, among, firstKind.trans kind, firstNumber.trans number⟩

theorem faultsFail (descends : second.Descends first) (sound : first.FaultsFail) :
    second.FaultsFail := by
  intro fault among
  obtain ⟨origin, among, _, same⟩ := descends.faults fault among
  rw [← same]
  exact sound origin among

theorem openingsFail (descends : second.Descends first) (sound : first.OpeningsFail) :
    second.OpeningsFail := by
  intro fault among opening
  obtain ⟨origin, among, kind, same⟩ := descends.faults fault among
  rw [← same]
  exact sound origin among (kind.trans opening)

theorem spares (descends : second.Descends first) (spared : first.Spares operation) :
    second.Spares operation := by
  intro fault among
  obtain ⟨origin, among, same, _⟩ := descends.faults fault among
  rw [← same]
  exact spared origin among

end Descends

/-! ### Yields -/

variable {First Second : Type}

/-- A bare run ends with an answer and in a world that meet the goal together. -/
def Yields (world : World) (program : Program First) (goal : First → World → Prop) : Prop :=
  ∃ answer after, world.runBare program = (some answer, after) ∧ goal answer after

namespace Yields

variable {world : World} {goal : First → World → Prop}

theorem done {answer : First} (holds : goal answer world) :
    world.Yields (.done answer) goal := ⟨answer, world, rfl, holds⟩

theorem mono {other : First → World → Prop} {program : Program First}
    (yields : world.Yields program other)
    (weaker : ∀ answer after, other answer after → goal answer after) :
    world.Yields program goal := by
  obtain ⟨answer, after, ran, holds⟩ := yields
  exact ⟨answer, after, ran, weaker answer after holds⟩

/-- A bare run has one end, so what it yields it yields together. -/
theorem and {other : First → World → Prop} {program : Program First}
    (left : world.Yields program goal) (right : world.Yields program other) :
    world.Yields program fun answer after => goal answer after ∧ other answer after := by
  obtain ⟨answer, after, ran, holds⟩ := left
  obtain ⟨_, _, ranToo, holdsToo⟩ := right
  cases ran.symm.trans ranToo
  exact ⟨answer, after, ran, holds, holdsToo⟩

theorem bind {program : Program First} {next : First → Program Second}
    {middle : First → World → Prop} {goal : Second → World → Prop}
    (first : world.Yields program middle)
    (second : ∀ answer after, middle answer after → after.Yields (next answer) goal) :
    world.Yields (program >>= next) goal := by
  obtain ⟨answer, after, ran, holds⟩ := first
  obtain ⟨last, final, continued, reached⟩ := second answer after holds
  refine ⟨last, final, ?_, reached⟩
  rw [runBare_bind, ran]
  exact continued

end Yields

variable {world : World}

@[simp] theorem yields_done {answer : First} {goal : First → World → Prop} :
    world.Yields (.done answer) goal ↔ goal answer world := by
  constructor
  · intro reached
    obtain ⟨_, _, ran, holds⟩ := reached
    cases ran
    exact holds
  · exact Yields.done

@[simp] theorem yields_bind {program : Program First} {next : First → Program Second}
    {goal : Second → World → Prop} :
    world.Yields (program >>= next) goal ↔
      world.Yields program fun answer after => after.Yields (next answer) goal := by
  constructor
  · intro reached
    obtain ⟨last, final, ran, reached⟩ := reached
    rw [runBare_bind] at ran
    split at ran
    · rename_i answer after first
      exact ⟨answer, after, first, last, final, ran, reached⟩
    · cases ran
  · exact fun first => first.bind fun _ _ holds => holds

/-! ### Calls -/

/-- A call with a reply goes on with it. -/
theorem yields_request {call : Call} {reply : call.Reply} {after : World}
    {goal : call.Reply → World → Prop} (answered : world.answerBare call = (some reply, after)) :
    world.Yields (Program.request call) goal ↔ goal reply after := by
  simp only [Yields, Program.request, runBare, answered]
  constructor
  · intro reached
    obtain ⟨_, _, ran, holds⟩ := reached
    cases ran
    exact holds
  · exact fun holds => ⟨reply, after, rfl, holds⟩

@[simp] theorem yields_note {level : Level} {text : Bytes} {goal : Unit → World → Prop} :
    world.Yields (Program.note level text) goal ↔ goal () world := yields_request rfl

@[simp] theorem yields_noteStatus {level : Level} {status : Status} {context : Bytes}
    {goal : Unit → World → Prop} :
    world.Yields (Program.noteStatus level status context) goal ↔ goal () world :=
  yields_request rfl

@[simp] theorem yields_noteReading {reading : Log.Reading} {goal : Unit → World → Prop} :
    world.Yields (Program.noteReading reading) goal ↔ goal () world := yields_request rfl

@[simp] theorem yields_endReadings {goal : Unit → World → Prop} :
    world.Yields Program.endReadings goal ↔ goal () world := yields_request rfl

@[simp] theorem yields_pass {seconds : Int} {goal : Unit → World → Prop} :
    world.Yields (Program.pass seconds) goal ↔ goal () world := yields_request rfl

@[simp] theorem yields_closeLog {goal : Unit → World → Prop} :
    world.Yields Program.closeLog goal ↔ goal () world := yields_request rfl

@[simp] theorem yields_keepCacheDirectory {path : Bytes} {goal : Unit → World → Prop} :
    world.Yields (Program.keepCacheDirectory path) goal ↔ goal () world := yields_request rfl

@[simp] theorem yields_lookUp {setting : Setting} {goal : Option Bytes → World → Prop} :
    world.Yields (Program.lookUp setting) goal ↔
      goal (world.surroundings.environment setting) world := yields_request rfl

@[simp] theorem yields_passwordEntry {goal : Option Bytes → World → Prop} :
    world.Yields Program.passwordEntry goal ↔ goal world.surroundings.passwordEntry world :=
  yields_request rfl

@[simp] theorem yields_processId {goal : Int → World → Prop} :
    world.Yields Program.processId goal ↔ goal world.surroundings.processId world :=
  yields_request rfl

@[simp] theorem yields_systemNames {goal : Except Errno (Bytes × Bytes) → World → Prop} :
    world.Yields Program.systemNames goal ↔ goal world.surroundings.systemNames world :=
  yields_request rfl

@[simp] theorem yields_prepareTransfer {goal : Bool → World → Prop} :
    world.Yields Program.prepareTransfer goal ↔
      goal world.surroundings.transport.available world := yields_request rfl

@[simp] theorem yields_transfer {wanted : Transfer.Request}
    {goal : Transfer.Script → World → Prop} :
    world.Yields (Program.transfer wanted) goal ↔
      goal world.surroundings.transport (world.witness (.transfer wanted)) := yields_request rfl

@[simp] theorem yields_print {text : Bytes} {goal : Unit → World → Prop} :
    world.Yields (Program.print text) goal ↔ goal () (world.print text) := yields_request rfl

@[simp] theorem yields_fetch {address path : Bytes} {goal : Status → World → Prop} :
    world.Yields (Program.fetch address path) goal ↔
      goal (world.answerFetch address path).1 (world.answerFetch address path).2 :=
  yields_request rfl

@[simp] theorem yields_duplicate {goal : Bool → World → Prop} :
    world.Yields Program.duplicate goal ↔
      goal (world.strike .duplicate none).1.isNone (world.strike .duplicate none).2 :=
  yields_request rfl

/-- A file call is refused by a fault or served by the file system. -/
theorem Yields.file {call : FileCall} {goal : call.Reply → World → Prop}
    (sound : world.FaultsFail)
    (refused : ∀ errno after, errno.number ≠ 0 →
      (∀ point, call.faultPoint = some point → ¬ world.Spares point.1) →
      after.Descends world →
      after.files = (world.files.refuse .output world.surroundings.mask errno call).2 →
      goal (world.files.refuse .output world.surroundings.mask errno call).1 after)
    (served : ∀ after, after.Descends world →
      after.files = (world.files.answer .output world.surroundings.mask call).2 →
      goal (world.files.answer .output world.surroundings.mask call).1 after) :
    world.Yields (Program.request (.file call)) goal := by
  have answered : world.answerBare (.file call) =
      (some (world.answerFile call).1, (world.answerFile call).2) := rfl
  rw [yields_request answered, answerFile_eq]
  have descends (after : FileSystem Channel) :
      { world with files := after, faults := (call.strike world.faults).2 }.Descends world :=
    ⟨rfl, fun fault among => FileCall.strike_left among⟩
  rcases struck : call.strike world.faults with ⟨refusal, faults⟩
  rw [struck] at descends
  cases refusal with
  | none => exact served _ (descends _) rfl
  | some errno =>
      obtain ⟨point, known, fault, among, kind, rfl⟩ := FileCall.strike_some (by rw [struck])
      refine refused _ _ (sound fault among) ?_ (descends _) rfl
      intro other same spared
      rw [known] at same
      cases same
      exact spared fault among kind

/-- Surroundings last, and faults only wear out. -/
theorem answerBare_descends (world : World) (call : Call) :
    (world.answerBare call).2.Descends world := by
  cases call with
  | file call =>
      change (world.answerFile call).2.Descends world
      rw [answerFile_eq]
      have left (fault : Fault) (among : fault ∈ (call.strike world.faults).2) :=
        FileCall.strike_left among
      split <;> (rename_i struck; rw [struck] at left; exact ⟨rfl, left⟩)
  | duplicate => exact ⟨rfl, fun fault among => Fault.intercept_left among⟩
  | _ => exact ⟨rfl, fun fault among => ⟨fault, among, rfl, rfl⟩⟩

theorem runBare_descends (world : World) (program : Program First) :
    (world.runBare program).2.Descends world := by
  induction program generalizing world with
  | done answer => exact .refl world
  | ask call next inductionHypothesis =>
      have step := world.answerBare_descends call
      simp only [runBare]
      split
      · rename_i reply after answered
        rw [answered] at step
        exact (inductionHypothesis reply after).trans step
      · rename_i after answered
        rw [answered] at step
        exact step

/-- What a program yields it yields in a world that descends from the first one. -/
theorem Yields.descends {program : Program First} {goal : First → World → Prop}
    (yields : world.Yields program goal) :
    world.Yields program fun answer after => goal answer after ∧ after.Descends world := by
  obtain ⟨answer, after, ran, holds⟩ := yields
  have descends := world.runBare_descends program
  rw [ran] at descends
  exact ⟨answer, after, ran, holds, descends⟩

/-- While the log is closed, a run meets what the bare run yields, up to what is alike. -/
theorem Yields.run {program : Program First} {goal : First → World → Prop}
    (yields : world.Yields program goal) (plain : program.Only Call.IsPlain)
    (closed : world.logIsOpen = false) :
    ∃ answer after bare, world.run program = (some answer, after) ∧ after.Alike bare ∧
      after.logIsOpen = false ∧ goal answer bare := by
  obtain ⟨answer, bare, ran, holds⟩ := yields
  obtain ⟨same, alike, still⟩ := (Alike.refl world).run plain closed
  rw [ran] at same alike
  exact ⟨answer, (world.run program).2, bare, Prod.ext same rfl, alike, still, holds⟩

end World

end Launcher
