/-
This file leaves the log out of runs. While no log file is open, nothing that is logged, shown on
the screen or timed has a part in what a program does.
-/

import Launcher.Proofs.Screen

namespace Launcher

/-- A program makes allowed calls only, whatever the replies are. -/
def Program.Only {Answer : Type} (allowed : Call → Prop) : Program Answer → Prop
  | .done _ => True
  | .ask call next => allowed call ∧ ∀ reply, (next reply).Only allowed

namespace Program.Only

variable {First Second : Type} {allowed : Call → Prop}

@[simp] theorem done (answer : First) : (Program.done answer).Only allowed := trivial

theorem request {call : Call} (holds : allowed call) : (Program.request call).Only allowed :=
  ⟨holds, fun _ => trivial⟩

theorem bind {program : Program First} {next : First → Program Second}
    (first : program.Only allowed) (second : ∀ answer, (next answer).Only allowed) :
    (program >>= next).Only allowed := by
  induction program with
  | done answer => exact second answer
  | ask call rest inductionHypothesis =>
      exact ⟨first.1, fun reply => inductionHypothesis reply (first.2 reply)⟩

theorem mono {other : Call → Prop} (weaker : ∀ call, allowed call → other call)
    {program : Program First} (only : program.Only allowed) : program.Only other := by
  induction program with
  | done answer => trivial
  | ask call rest inductionHypothesis =>
      exact ⟨weaker call only.1, fun reply => inductionHypothesis reply (only.2 reply)⟩

end Program.Only

/-- The settings of the log are read by no program, and it is only opened at the start. -/
def Call.IsPlain : Call → Prop
  | .openLog => False
  | .lookUp setting => setting ≠ .logLevel ∧ setting ≠ .logFile
  | _ => True

namespace World

/-- A bare world has no log, no screen and no clock. -/
def answerBare (world : World) : (call : Call) → Option call.Reply × World
  | .log _ => (some (), world)
  | .warn _ => (some (), world)
  | .pass _ => (some (), world)
  | .openLog => (some .ok, world)
  | .closeLog => (some (), world)
  | .keepCacheDirectory _ => (some (), world)
  | call => world.answer call

def runBare {Answer : Type} (world : World) : Program Answer → Option Answer × World
  | .done answer => (some answer, world)
  | .ask call next => match world.answerBare call with
      | (some reply, world) => world.runBare (next reply)
      | (none, world) => (none, world)

theorem runBare_bind {First Second : Type} (world : World) (program : Program First)
    (next : First → Program Second) :
    world.runBare (program >>= next) =
      match world.runBare program with
      | (some answer, after) => after.runBare (next answer)
      | (none, after) => (none, after) := by
  induction program generalizing world with
  | done answer => rfl
  | ask call rest inductionHypothesis =>
      simp only [Program.bind_ask, runBare]
      split
      · rename_i reply after _
        exact inductionHypothesis reply after
      · rfl

/-- Two worlds are alike when they differ in the log, the screen, the clock and the remembered
cache directory at most. -/
structure Alike (first second : World) : Prop where
  files : first.files = second.files
  faults : first.faults = second.faults
  environment : ∀ setting, setting ≠ .logLevel → setting ≠ .logFile →
    first.surroundings.environment setting = second.surroundings.environment setting
  processId : first.surroundings.processId = second.surroundings.processId
  mask : first.surroundings.mask = second.surroundings.mask
  systemNames : first.surroundings.systemNames = second.surroundings.systemNames
  passwordEntry : first.surroundings.passwordEntry = second.surroundings.passwordEntry
  executionError : first.surroundings.executionError = second.surroundings.executionError
  transport : first.surroundings.transport = second.surroundings.transport
  fetcher : first.surroundings.fetcher = second.surroundings.fetcher
  output : first.transcript.output = second.transcript.output
  events : first.transcript.events = second.transcript.events

namespace Alike

variable {first second third : World}

theorem refl (world : World) : world.Alike world := by
  constructor <;> intros <;> rfl

theorem symm (alike : first.Alike second) : second.Alike first :=
  ⟨alike.files.symm, alike.faults.symm,
    fun setting level file => (alike.environment setting level file).symm,
    alike.processId.symm, alike.mask.symm, alike.systemNames.symm, alike.passwordEntry.symm,
    alike.executionError.symm, alike.transport.symm, alike.fetcher.symm, alike.output.symm,
    alike.events.symm⟩

theorem trans (left : first.Alike second) (right : second.Alike third) : first.Alike third :=
  ⟨left.files.trans right.files, left.faults.trans right.faults,
    fun setting level file =>
      (left.environment setting level file).trans (right.environment setting level file),
    left.processId.trans right.processId, left.mask.trans right.mask,
    left.systemNames.trans right.systemNames, left.passwordEntry.trans right.passwordEntry,
    left.executionError.trans right.executionError, left.transport.trans right.transport,
    left.fetcher.trans right.fetcher, left.output.trans right.output,
    left.events.trans right.events⟩

end Alike

end World

namespace FileSystem

variable {Handle : Type} [DecidableEq Handle] {files : FileSystem Handle} {handle other : Handle}

theorem store_streams_none (distinct : other ≠ handle) (closed : files.streams other = none)
    (bytes : Bytes) {stored : FileSystem Handle} (success : files.store handle bytes = .ok stored) :
    stored.streams other = none := by
  unfold store at success
  split at success
  · cases success
    exact closed
  · split at success
    · split at success <;> cases success
      exact closed
    · cases success
      simpa [setStream, distinct] using closed
    · cases success
      simpa [setStream, distinct] using closed
    · split at success <;> cases success <;> simpa [setStream, distinct] using closed

theorem setPending_streams_none (distinct : other ≠ handle) (closed : files.streams other = none)
    (pending : Bytes) : (files.setPending handle pending).streams other = none := by
  unfold setPending
  split
  · exact closed
  · simpa [setStream, distinct] using closed

theorem flush_streams_none (distinct : other ≠ handle) (closed : files.streams other = none)
    {flushed : FileSystem Handle} (success : files.flush handle = .ok flushed) :
    flushed.streams other = none := by
  unfold flush at success
  split at success <;> cases success
  rename_i stored storing
  exact setPending_streams_none distinct (store_streams_none distinct closed _ storing) []

theorem close_streams_none (distinct : other ≠ handle) (closed : files.streams other = none) :
    (files.close handle).2.streams other = none := by
  unfold close
  split
  · simpa [setStream, distinct] using closed
  · rename_i flushed flushing
    simpa [setStream, distinct] using flush_streams_none distinct closed flushing

/-- A call of one program opens no stream for another handle. -/
theorem answer_streams_none (distinct : other ≠ handle) (closed : files.streams other = none)
    (mask : Mode) (call : FileCall) :
    (files.answer handle mask call).2.streams other = none := by
  cases call with
  | inspect path => exact closed
  | access path => exact closed
  | makeDirectory path mode =>
      simp only [answer, commitTree]
      cases files.tree.makeDirectory path (mode.masked mask) <;> exact closed
  | setMode path mode =>
      simp only [answer, commitTree]
      cases files.tree.setMode path mode <;> exact closed
  | unlink path =>
      simp only [answer, unlink]
      cases files.tree.unlinkable path <;> simp [commit, relocate, closed]
  | rename source target =>
      simp only [answer, rename]
      cases files.tree.renamable source target with
      | error errno => exact closed
      | ok places =>
          dsimp only
          split
          · exact closed
          · simp [commit, relocate, closed]
  | openOutput path =>
      simp only [answer, openStream]
      cases files.tree.writable path with
      | error errno => exact closed
      | ok outlet => cases outlet <;> simp [commit, setStream, distinct, closed]
  | outputIsRegular => exact closed
  | write bytes =>
      simp only [answer, write]
      split
      · exact closed
      · rename_i stored storing
        exact setPending_streams_none distinct (store_streams_none distinct closed _ storing) _
  | flush =>
      simp only [answer]
      cases flushing : files.flush handle with
      | error errno => exact closed
      | ok flushed => exact flush_streams_none distinct closed flushing
  | close => exact close_streams_none distinct closed

/-- A call that a fault strikes opens no stream either. -/
theorem refuse_streams_none (distinct : other ≠ handle) (closed : files.streams other = none)
    (mask : Mode) (errno : Errno) (call : FileCall) :
    (files.refuse handle mask errno call).2.streams other = none := by
  cases call with
  | close => exact close_streams_none distinct closed
  | _ => exact closed

end FileSystem

/-- A call without a fault point goes past all faults. -/
def FileCall.strike (call : FileCall) (faults : List Fault) : Option Errno × List Fault :=
  match call.faultPoint with
  | none => (none, faults)
  | some (operation, path) => Fault.intercept operation path faults

namespace World

variable {world first second : World}

/-! ### Entries of a closed log -/

/-- An entry is at most shown. -/
theorem writeEntry_alike (closed : world.logIsOpen = false) (entry : Log.Entry) :
    (world.writeEntry entry).Alike world ∧ (world.writeEntry entry).logIsOpen = false := by
  rw [writeEntry_eq, filesAfter_of_closed closed]
  exact ⟨by constructor <;> intros <;> rfl, closed⟩

theorem closeLog_of_closed (closed : world.logIsOpen = false) : world.closeLog = world := by
  simp [closeLog, closed]

/-! ### File calls -/

/-- The call is served or refused, and the faults have counted it. -/
theorem answerFile_eq (world : World) (call : FileCall) :
    world.answerFile call =
      match call.strike world.faults with
      | (none, faults) =>
          let outcome := world.files.answer .output world.surroundings.mask call
          (outcome.1, { world with files := outcome.2, faults })
      | (some errno, faults) =>
          let outcome := world.files.refuse .output world.surroundings.mask errno call
          (outcome.1, { world with files := outcome.2, faults }) := by
  unfold World.answerFile FileCall.strike
  cases call.faultPoint with
  | none => rfl
  | some point =>
      obtain ⟨operation, path⟩ := point
      simp only [World.strike]
      rcases Fault.intercept operation path world.faults with ⟨refusal, faults⟩
      cases refusal <;> rfl

/-! ### Runs -/

theorem Alike.closed (alike : first.Alike second) (closed : first.logIsOpen = false) :
    second.logIsOpen = false := by
  simpa only [logIsOpen, alike.files] using closed

theorem Alike.answerFile (alike : first.Alike second) (call : FileCall) :
    (first.answerFile call).1 = (second.answerFile call).1 ∧
      (first.answerFile call).2.Alike (second.answerFile call).2 := by
  simp only [answerFile_eq, alike.faults]
  split <;> simp only [alike.files, alike.mask, true_and] <;>
    exact { alike with files := rfl, faults := rfl }

theorem answerFile_closed (closed : world.logIsOpen = false) (call : FileCall) :
    (world.answerFile call).2.logIsOpen = false := by
  have none : world.files.streams .log = none := by simpa [logIsOpen] using closed
  have distinct : Channel.log ≠ .output := by decide
  simp only [answerFile_eq]
  split
  · simpa [logIsOpen] using FileSystem.answer_streams_none distinct none _ call
  · simpa [logIsOpen] using FileSystem.refuse_streams_none distinct none _ _ call

theorem Alike.witness (alike : first.Alike second) (event : Event) :
    (first.witness event).Alike (second.witness event) :=
  { alike with events := by simp [World.witness, alike.events] }

theorem Alike.strike (alike : first.Alike second) (operation : Operation)
    (path : Option Bytes) :
    (first.strike operation path).1 = (second.strike operation path).1 ∧
      (first.strike operation path).2.Alike (second.strike operation path).2 := by
  simp only [World.strike, alike.faults, true_and]
  exact { alike with faults := rfl }

/-- A call is answered alike in a bare world, and the log stays closed. -/
theorem Alike.answer (alike : first.Alike second) (closed : first.logIsOpen = false)
    {call : Call} (plain : call.IsPlain) :
    (first.answer call).1 = (second.answerBare call).1 ∧
      (first.answer call).2.Alike (second.answerBare call).2 ∧
      (first.answer call).2.logIsOpen = false := by
  cases call with
  | file call =>
      obtain ⟨same, after⟩ := alike.answerFile call
      exact ⟨congrArg some same, after, answerFile_closed closed call⟩
  | lookUp setting =>
      exact ⟨congrArg some (alike.environment setting plain.1 plain.2), alike, closed⟩
  | passwordEntry => exact ⟨congrArg some alike.passwordEntry, alike, closed⟩
  | processId => exact ⟨congrArg some alike.processId, alike, closed⟩
  | systemNames => exact ⟨congrArg some alike.systemNames, alike, closed⟩
  | duplicate =>
      obtain ⟨same, after⟩ := alike.strike .duplicate none
      exact ⟨congrArg (fun refusal : Option Errno => some refusal.isNone) same, after, closed⟩
  | prepareTransfer =>
      simp only [World.answer, answerBare, alike.transport, true_and]
      exact ⟨alike, closed⟩
  | transfer request =>
      exact ⟨congrArg some alike.transport, alike.witness _, closed⟩
  | pass seconds => exact ⟨rfl, .trans (by constructor <;> intros <;> rfl) alike, closed⟩
  | fetch address path =>
      simp only [World.answer, answerBare, answerFetch, World.witness, alike.fetcher, alike.files,
        alike.mask, true_and]
      exact ⟨{ alike with files := rfl, events := by simp [alike.events] },
        by simpa [logIsOpen, alike.files] using closed⟩
  | execute path arguments => exact ⟨alike.executionError, alike.witness _, closed⟩
  | print text =>
      simp only [World.answer, answerBare, World.print, true_and]
      exact ⟨{ alike with output := by simp [alike.output] }, closed⟩
  | warn text => exact ⟨rfl, .trans (by constructor <;> intros <;> rfl) alike, closed⟩
  | openLog => exact plain.elim
  | closeLog =>
      simp only [World.answer, closeLog_of_closed closed]
      exact ⟨rfl, alike, closed⟩
  | log entry =>
      obtain ⟨quiet, still⟩ := writeEntry_alike closed entry
      exact ⟨rfl, quiet.trans alike, still⟩
  | keepCacheDirectory path =>
      exact ⟨rfl, .trans (by constructor <;> intros <;> rfl) alike, closed⟩

/-- While the log is closed, a run goes like the bare run of a world that is alike. -/
theorem Alike.run {Answer : Type} {program : Program Answer} (plain : program.Only Call.IsPlain)
    (alike : first.Alike second) (closed : first.logIsOpen = false) :
    (first.run program).1 = (second.runBare program).1 ∧
      (first.run program).2.Alike (second.runBare program).2 ∧
      (first.run program).2.logIsOpen = false := by
  induction program generalizing first second with
  | done answer => exact ⟨rfl, alike, closed⟩
  | ask call next inductionHypothesis =>
      obtain ⟨same, after, still⟩ := alike.answer closed plain.1
      simp only [World.run, runBare]
      generalize first.answer call = firstOutcome at same after still ⊢
      generalize second.answerBare call = secondOutcome at same after ⊢
      obtain ⟨reply, firstAfter⟩ := firstOutcome
      obtain ⟨_, secondAfter⟩ := secondOutcome
      cases same
      cases reply with
      | none => exact ⟨rfl, after, still⟩
      | some reply => exact inductionHypothesis reply (plain.2 reply) after still

end World

end Launcher
