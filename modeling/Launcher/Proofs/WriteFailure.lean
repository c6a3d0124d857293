/-
This file says how a download reports that its output takes no more bytes. Up to a block the bytes
wait for the flush, which says what is wrong. A whole block is refused in the middle of the transfer,
and then it is the transfer that failed.
-/

import Launcher.Proofs.Download
import Launcher.Proofs.FirstFailure
import Launcher.Proofs.Tree.LastLink

namespace Launcher

/-! ### Streams -/

namespace FileSystem

variable {Handle : Type} [DecidableEq Handle] {files after : FileSystem Handle} {handle : Handle}
  {bytes pending : Bytes} {errno : Errno}

omit [DecidableEq Handle] in
/-- The place that the stream of the handle leads to. -/
def sink? (files : FileSystem Handle) (handle : Handle) : Option Sink :=
  (files.streams handle).map Stream.sink

/-- The full device refuses all bytes but none, and nothing else refuses any. -/
theorem store_cases (files : FileSystem Handle) (handle : Handle) (bytes : Bytes) :
    (∃ after, files.store handle bytes = .ok after ∧ after.sink? handle = files.sink? handle ∧
        (files.sink? handle = some (.device .full) → bytes = [] ∧ after = files)) ∨
      (files.store handle bytes = .error .noSpace ∧ bytes ≠ [] ∧
        files.sink? handle = some (.device .full)) := by
  unfold FileSystem.store
  cases opened : files.streams handle with
  | none => exact .inl ⟨files, rfl, rfl, by simp [sink?, opened]⟩
  | some stream =>
      obtain ⟨sink, appending, position, pending⟩ := stream
      cases sink with
      | nameless => exact .inl ⟨_, rfl, by simp [sink?, setStream, opened], by simp [sink?, opened]⟩
      | file location =>
          dsimp only
          split <;> exact
            .inl ⟨_, rfl, by simp [sink?, setStream, opened], by simp [sink?, opened]⟩
      | device device =>
          cases device with
          | null =>
              exact .inl ⟨_, rfl, by simp [sink?, setStream, opened], by simp [sink?, opened]⟩
          | full =>
              dsimp only
              split
              · rename_i empty
                exact .inl ⟨files, rfl, rfl, fun _ => ⟨empty, rfl⟩⟩
              · rename_i some
                exact .inr ⟨rfl, some, by simp [sink?, opened]⟩

theorem sink?_setPending (files : FileSystem Handle) (handle : Handle) (pending : Bytes) :
    (files.setPending handle pending).sink? handle = files.sink? handle := by
  unfold FileSystem.setPending
  cases opened : files.streams handle with
  | none => rfl
  | some stream => simp [sink?, setStream, opened]

/-! ### Bytes for the full device -/

/-- Less than a block waits for the full device. -/
structure Waits (files : FileSystem Handle) (handle : Handle) (pending : Bytes) : Prop where
  sink : files.sink? handle = some (.device .full)
  held : files.pending handle = pending
  short : pending.length < Stream.blockSize

namespace Waits

variable (waits : files.Waits handle pending)
include waits

theorem setPending {later : Bytes} (short : later.length < Stream.blockSize) :
    (files.setPending handle later).Waits handle later := by
  refine ⟨(sink?_setPending files handle later).trans waits.sink, ?_, short⟩
  have sink := waits.sink
  unfold FileSystem.setPending FileSystem.pending
  cases opened : files.streams handle with
  | none => simp [sink?, opened] at sink
  | some stream => simp [setStream]

/-- Bytes wait together until they make a block. -/
theorem write_short (short : (pending ++ bytes).length < Stream.blockSize) :
    ∃ after, files.write handle bytes = .ok after ∧ after.Waits handle (pending ++ bytes) := by
  have none : (pending ++ bytes).length / Stream.blockSize * Stream.blockSize = 0 := by
    rw [Nat.div_eq_of_lt short, Nat.zero_mul]
  rcases files.store_cases handle [] with ⟨after, stored, _, still⟩ | ⟨_, some, _⟩
  · obtain ⟨_, rfl⟩ := still waits.sink
    refine ⟨_, ?_, waits.setPending short⟩
    simp only [FileSystem.write, waits.held, none, List.take_zero, List.drop_zero, stored]
  · exact absurd rfl some

/-- A whole block is refused. -/
theorem write_long (long : Stream.blockSize ≤ (pending ++ bytes).length) :
    files.write handle bytes = .error .noSpace := by
  have some : 0 < (pending ++ bytes).length / Stream.blockSize * Stream.blockSize :=
    Nat.mul_pos (Nat.div_pos long (by decide)) (by decide)
  rcases files.store_cases handle ((pending ++ bytes).take
    ((pending ++ bytes).length / Stream.blockSize * Stream.blockSize)) with
    ⟨after, stored, _, still⟩ | ⟨refused, _⟩
  · obtain ⟨empty, _⟩ := still waits.sink
    have least := Nat.lt_of_lt_of_le (by decide : 0 < Stream.blockSize) long
    rw [List.take_eq_nil_iff] at empty
    rcases empty with none | none
    · omega
    · rw [none] at least
      exact absurd least (by decide)
  · simp only [FileSystem.write, waits.held, refused]

/-- The flush is the first to be refused when less than a block was written. -/
theorem flush (some : pending ≠ []) : files.flush handle = .error .noSpace := by
  rcases files.store_cases handle pending with ⟨after, stored, _, still⟩ | ⟨refused, _⟩
  · exact absurd (still waits.sink).1 some
  · simp only [FileSystem.flush, waits.held, refused]

end Waits

/-! ### Bytes for other places -/

theorem write_ok (room : files.sink? handle ≠ some (.device .full)) (bytes : Bytes) :
    ∃ after, files.write handle bytes = .ok after ∧ after.sink? handle = files.sink? handle := by
  let whole := (files.pending handle ++ bytes).length / Stream.blockSize * Stream.blockSize
  rcases files.store_cases handle ((files.pending handle ++ bytes).take whole) with
    ⟨after, stored, same, _⟩ | ⟨_, _, full⟩
  · refine ⟨after.setPending handle ((files.pending handle ++ bytes).drop whole), ?_, ?_⟩
    · simp only [FileSystem.write]
      rw [stored]
    · rw [sink?_setPending, same]
  · exact absurd full room

theorem flush_full (refused : files.flush handle = .error errno) :
    errno = .noSpace ∧ files.sink? handle = some (.device .full) := by
  unfold FileSystem.flush at refused
  rcases files.store_cases handle (files.pending handle) with ⟨after, stored, _⟩ | ⟨full, _, sink⟩
  · rw [stored] at refused
    cases refused
  · rw [full] at refused
    cases refused
    exact ⟨rfl, sink⟩

theorem close_full (refused : (files.close handle).1 = .error errno) :
    errno = .noSpace ∧ files.sink? handle = some (.device .full) := by
  unfold FileSystem.close at refused
  cases flushed : files.flush handle with
  | error other =>
      rw [flushed] at refused
      cases refused
      exact flush_full flushed
  | ok after =>
      rw [flushed] at refused
      cases refused

theorem sink?_flush (flushed : files.flush handle = .ok after) :
    after.sink? handle = files.sink? handle := by
  unfold FileSystem.flush at flushed
  rcases files.store_cases handle (files.pending handle) with ⟨stored, storing, same, _⟩ | ⟨full, _⟩
  · rw [storing] at flushed
    cases flushed
    rw [sink?_setPending, same]
  · rw [full] at flushed
    cases flushed

theorem sink?_openStream {path : Bytes} {mode : Mode}
    (opened : files.openStream handle path false mode = .ok after) :
    (after.sink? handle = some (.device .full) ↔ Device.ofPath path = some .full) ∧
      after.pending handle = [] := by
  unfold FileSystem.openStream at opened
  cases named : files.tree.writable path with
  | error errno =>
      rw [named] at opened
      cases opened
  | ok outlet =>
      rw [named] at opened
      rw [← files.tree.writable_device, named]
      cases outlet <;> cases opened <;>
        simp [sink?, FileSystem.pending, setStream]

end FileSystem

/-! ### Transfers -/

namespace Download

variable {world : World} {address : Bytes} {pending : Bytes}

/-- Progress does not reach the files. -/
theorem run_receive_progress (world : World) (address : Bytes) (total received : Int64)
    (seconds : Int) (others : List Transfer.Event) :
    ∃ later : World, later.files = world.files ∧
      world.run (receive address (.progress total received seconds :: others)) =
        later.run (receive address others) := by
  rw [receive, Program.pass, World.run_request rfl]
  split
  · rw [Program.noteReading, World.run_request rfl]
    refine ⟨_, ?_, rfl⟩
    change (World.writeReading _ _).files = _
    unfold World.writeReading
    split <;> rfl
  · exact ⟨{ world with clock := world.clock + seconds }, rfl, rfl⟩

theorem run_receive_ok (address : Bytes) {bytes : Bytes} {files : FileSystem Channel}
    (written : world.files.write .output bytes = .ok files) (others : List Transfer.Event) :
    world.run (receive address (.data bytes :: others)) =
      ({ world with files } : World).run (receive address others) := by
  have answered : world.answer (.file (.write bytes)) = (some (.ok ()), { world with files }) := by
    simp [World.answer, World.answerFile, FileCall.faultPoint, FileSystem.answer, written,
      FileSystem.commit]
  rw [receive, Program.write, World.run_request answered]

theorem run_receive_error (address : Bytes) {bytes : Bytes} {errno : Errno}
    (refused : world.files.write .output bytes = .error errno) (others : List Transfer.Event) :
    ∃ after, world.run (receive address (.data bytes :: others)) = (some false, after) := by
  have answered : world.answer (.file (.write bytes)) =
      (some (.error errno), { world with files := world.files }) := by
    simp [World.answer, World.answerFile, FileCall.faultPoint, FileSystem.answer, refused,
      FileSystem.commit]
  rw [receive, Program.write, World.run_request answered]
  exact ⟨_, rfl⟩

/-- The full device takes data until a block is full. -/
theorem run_receive_waits (waits : world.files.Waits .output pending)
    (events : List Transfer.Event) :
    ∃ after, world.run (receive address events) =
        (some (decide ((pending ++ Transfer.received events).length < Stream.blockSize)), after) ∧
      ((pending ++ Transfer.received events).length < Stream.blockSize →
        after.files.Waits .output (pending ++ Transfer.received events)) := by
  induction events generalizing world pending with
  | nil =>
      refine ⟨world, ?_, fun _ => ?_⟩
      · simp [receive, Transfer.received, waits.short]
      · simpa [Transfer.received] using waits
  | cons event others inductionHypothesis =>
      cases event with
      | progress total received seconds =>
          obtain ⟨later, files, ran⟩ := run_receive_progress world address total received seconds others
          rw [ran]
          exact inductionHypothesis (files ▸ waits)
      | data bytes =>
          rw [Transfer.received, ← List.append_assoc]
          by_cases short : (pending ++ bytes).length < Stream.blockSize
          · obtain ⟨files, written, later⟩ := waits.write_short short
            rw [run_receive_ok address written]
            exact inductionHypothesis later
          · obtain ⟨after, ran⟩ := run_receive_error address
              (waits.write_long (Nat.le_of_not_lt short)) others
            have long : ¬ (pending ++ bytes ++ Transfer.received others).length <
                Stream.blockSize := by
              rw [List.length_append]
              omega
            exact ⟨after, by rw [ran, decide_eq_false long], fun less => absurd less long⟩

/-- Any other output takes all data. -/
theorem run_receive_room (room : world.files.sink? .output ≠ some (.device .full))
    (events : List Transfer.Event) :
    ∃ after, world.run (receive address events) = (some true, after) ∧
      after.files.sink? .output = world.files.sink? .output := by
  induction events generalizing world with
  | nil => exact ⟨world, rfl, rfl⟩
  | cons event others inductionHypothesis =>
      cases event with
      | progress total received seconds =>
          obtain ⟨later, files, ran⟩ := run_receive_progress world address total received seconds others
          rw [ran, ← files]
          exact inductionHypothesis (files ▸ room)
      | data bytes =>
          obtain ⟨files, written, same⟩ := FileSystem.write_ok room bytes
          rw [run_receive_ok address written, ← same]
          exact inductionHypothesis (same ▸ room)

/-- Data is only refused in the middle when the full device gets a whole block. -/
theorem run_receive (empty : world.files.pending .output = []) (address : Bytes)
    (events : List Transfer.Event) :
    ∃ complete after, world.run (receive address events) = (some complete, after) ∧
      (complete = false ↔ world.files.sink? .output = some (.device .full) ∧
        Stream.blockSize ≤ (Transfer.received events).length) ∧
      (complete = true → after.files.sink? .output = world.files.sink? .output ∧
        (world.files.sink? .output = some (.device .full) →
          after.files.Waits .output (Transfer.received events))) := by
  by_cases full : world.files.sink? .output = some (.device .full)
  · have waits : world.files.Waits .output [] := ⟨full, empty, by decide⟩
    obtain ⟨after, ran, held⟩ := run_receive_waits waits events
    rw [List.nil_append] at ran held
    refine ⟨_, after, ran, by simp [full], fun complete => ?_⟩
    have later := held (by simpa using complete)
    exact ⟨later.sink.trans full.symm, fun _ => later⟩
  · obtain ⟨after, ran, same⟩ := run_receive_room full events
    exact ⟨true, after, ran, by simp [full], fun _ => ⟨same, fun sink => absurd sink full⟩⟩

/-- The end of the meter does not reach the files either. -/
theorem run_carry {headers : Option (List Bytes)} {complete : Bool} {after : World}
    (ran : (world.witness (.transfer (.to address headers))).run
      (receive address world.surroundings.transport.events) = (some complete, after)) :
    ∃ last : World, last.files = after.files ∧ world.run (carry address headers) =
      (some (if complete then world.surroundings.transport.ending
        else world.surroundings.transport.ending.stopped), last) := by
  have files : (after.writeEntry .endReadings).files = after.files := by
    change (World.endReadings _).files = _
    unfold World.endReadings
    split <;> rfl
  refine ⟨after.writeEntry .endReadings, files, ?_⟩
  rw [carry, transfer, Program.bind_assoc, Program.transfer, World.run_request rfl,
    Program.bind_assoc, World.run_bind, ran]
  cases complete <;> rfl

theorem sink?_flushed (flushed : (world.answerFile .flush).1 = .ok ()) :
    (world.answerFile .flush).2.files.sink? .output = world.files.sink? .output := by
  rw [World.answerFile_eq] at flushed ⊢
  split at flushed
  · simp only [FileSystem.answer] at flushed ⊢
    cases files : world.files.flush .output with
    | error errno =>
        rw [files] at flushed
        cases flushed
    | ok stored => exact FileSystem.sink?_flush files
  · cases flushed

/-- The error number is that of a full output, or that of a fault of the flush or the close. -/
def RefusesBytes (world : World) (full : Prop) (errno : Errno) : Prop :=
  (errno = .noSpace ∧ full) ∨
    ∃ fault ∈ world.faults, (fault.operation = .flush ∨ fault.operation = .close) ∧
      fault.errno = errno

namespace RefusesBytes

variable {after : World} {full later : Prop} {errno : Errno}

theorem before (refuses : RefusesBytes after later errno) (same : later → full)
    (descends : after.Descends world) : RefusesBytes world full errno := by
  rcases refuses with ⟨space, sink⟩ | ⟨fault, among, kind, rfl⟩
  · exact .inl ⟨space, same sink⟩
  · obtain ⟨origin, among, operation, number⟩ := descends.faults fault among
    exact .inr ⟨origin, among, operation ▸ kind, number⟩

theorem number (refuses : RefusesBytes world full errno) (sound : world.FaultsFail) :
    errno.number ≠ 0 := by
  rcases refuses with ⟨rfl, _⟩ | ⟨fault, among, _, rfl⟩
  · decide
  · exact sound fault among

/-- Without a fault, only the full device is a reason not to flush and not to close. -/
theorem of_refusal {call : FileCall} (stores : call = .flush ∨ call = .close)
    (refused : FileCall.refusal? (world.answerFile call).1 = some errno) :
    RefusesBytes world (world.files.sink? .output = some (.device .full)) errno := by
  rcases World.answerFile_refused call refused with
    ⟨point, known, fault, among, kind, same⟩ | served
  · refine .inr ⟨fault, among, ?_, same⟩
    rcases stores with rfl | rfl <;> cases known
    · exact .inl kind
    · exact .inr kind
  · refine .inl ?_
    rcases stores with rfl | rfl
    · simp only [FileSystem.answer] at served
      cases flushed : world.files.flush .output with
      | error other =>
          rw [flushed] at served
          cases served
          exact FileSystem.flush_full flushed
      | ok stored =>
          rw [flushed] at served
          cases served
    · simp only [FileSystem.answer] at served
      cases closed : (world.files.close .output).1 with
      | error other =>
          rw [closed] at served
          cases served
          exact FileSystem.close_full closed
      | ok =>
          rw [closed] at served
          cases served

end RefusesBytes

/-- These operations store the bytes that are still held back. -/
def storing : Attempt Unit := do
  Program.flush.orFail
  Program.close.orFail

/-- Once all data is written, a failure is a refusal of the flush or of the close. -/
theorem storing_failure {status : Status}
    (failure : (world.run storing.run).1 = some (.error status)) :
    ∃ errno, status = .ofErrno errno ∧
      RefusesBytes world (world.files.sink? .output = some (.device .full)) errno := by
  have ran : world.run Program.flush =
      (some (world.answerFile .flush).1, (world.answerFile .flush).2) := rfl
  rw [storing, Program.orFail, World.run_judged ran] at failure
  cases flushed : (world.answerFile .flush).1 with
  | error errno =>
      rw [flushed] at failure
      cases failure
      exact ⟨errno, rfl, .of_refusal (.inl rfl) (by rw [flushed]; rfl)⟩
  | ok =>
      let after := (world.answerFile .flush).2
      have descends : after.Descends world := world.answerBare_descends (.file .flush)
      have ran : after.run Program.close =
          (some (after.answerFile .close).1, (after.answerFile .close).2) := rfl
      rw [flushed, ← bind_pure Program.close.orFail] at failure
      simp only [Except.mapError] at failure
      rw [Program.orFail, World.run_judged ran] at failure
      cases closed : (after.answerFile .close).1 with
      | ok =>
          rw [closed] at failure
          cases failure
      | error errno =>
          rw [closed] at failure
          cases failure
          have refuses : RefusesBytes after _ errno :=
            .of_refusal (.inr rfl) (by rw [closed]; rfl)
          exact ⟨errno, rfl, refuses.before (sink?_flushed flushed).symm.trans descends⟩

theorem storing_full {pending : Bytes} (waits : world.files.Waits .output pending)
    (nonempty : pending ≠ []) :
    ∃ errno, (world.run storing.run).1 = some (.error (.ofErrno errno)) := by
  have ran : world.run Program.flush =
      (some (world.answerFile .flush).1, (world.answerFile .flush).2) := rfl
  rw [storing, Program.orFail, World.run_judged ran]
  cases flushed : (world.answerFile .flush).1 with
  | error errno => exact ⟨errno, rfl⟩
  | ok =>
      rw [World.answerFile_eq] at flushed
      split at flushed
      · simp only [FileSystem.answer, waits.flush nonempty] at flushed
        cases flushed
      · cases flushed

/-- A transfer that would complete fails when its data is refused, and otherwise the bytes are still
to be stored. -/
theorem run_filling {headers : Option (List Bytes)} {complete : Bool} {after : World}
    (available : world.surroundings.transport.available = true)
    (completes : world.surroundings.transport.ending.code = 0)
    (ran : (world.witness (.transfer (.to address headers))).run
      (receive address world.surroundings.transport.events) = (some complete, after)) :
    ∃ last : World, last.files = after.files ∧ last.Descends world ∧
      (world.run (filling address headers).run).1 =
        if complete then (last.run storing.run).1
        else some (.error (.error .network .transfer)) := by
  obtain ⟨last, files, carried⟩ := run_carry ran
  have descends := world.run_descends ((carry_inner address headers).mono fun _ => Call.IsInner.plain)
  rw [carried] at descends
  refine ⟨last, files, descends, ?_⟩
  have ready : world.run Program.prepareTransfer = (some true, world) := by
    simp only [Program.prepareTransfer, Program.request, World.run, World.answer, available]
  rw [filling, Program.orFailWith, World.run_judged ready]
  simp only [if_true]
  rw [World.run_judged carried]
  cases complete with
  | false =>
      have stopped : world.surroundings.transport.ending.stopped.outcome =
          .error (.error .network .transfer) := rfl
      simp only [Bool.false_eq_true, if_false, stopped]
      rfl
  | true =>
      have went : world.surroundings.transport.ending.outcome = .ok () := by
        rw [Transfer.Ending.outcome, if_pos completes]
      simp only [if_true, went]
      rfl

/-- The transfer fails when its data is refused. Otherwise the flush or the close refuses the bytes,
or nothing does. -/
theorem run_filling_outcome (empty : world.files.pending .output = [])
    (available : world.surroundings.transport.available = true)
    (completes : world.surroundings.transport.ending.code = 0) (address : Bytes)
    (headers : Option (List Bytes)) :
    (world.files.sink? .output = some (.device .full) ∧
        Stream.blockSize ≤ (Transfer.received world.surroundings.transport.events).length ∧
        (world.run (filling address headers).run).1 =
          some (.error (.error .network .transfer))) ∨
      (¬ (world.files.sink? .output = some (.device .full) ∧
          Stream.blockSize ≤ (Transfer.received world.surroundings.transport.events).length) ∧
        (world.files.sink? .output = some (.device .full) →
          Transfer.received world.surroundings.transport.events ≠ [] →
            (world.run (filling address headers).run).1 ≠ some (.ok ())) ∧
        ∀ status, (world.run (filling address headers).run).1 = some (.error status) →
          ∃ errno, status = .ofErrno errno ∧
            RefusesBytes world (world.files.sink? .output = some (.device .full)) errno) := by
  have witnessed : (world.witness (.transfer (.to address headers))).files.pending .output = [] :=
    empty
  obtain ⟨complete, after, received, refused, held⟩ :=
    run_receive witnessed address world.surroundings.transport.events
  obtain ⟨last, files, descends, outcome⟩ := run_filling available completes received
  cases complete with
  | false =>
      obtain ⟨full, long⟩ := refused.mp rfl
      exact .inl ⟨full, long, outcome⟩
  | true =>
      obtain ⟨same, waits⟩ := held rfl
      rw [← files] at same waits
      refine .inr ⟨fun whole => absurd (refused.mpr whole) (by simp), ?_, ?_⟩
      · intro full some succeeded
        obtain ⟨errno, failure⟩ := storing_full (waits full) some
        rw [outcome, if_pos rfl, failure] at succeeded
        cases succeeded
      · intro status failure
        rw [outcome, if_pos rfl] at failure
        obtain ⟨errno, derived, refuses⟩ := storing_failure failure
        exact ⟨errno, derived, refuses.before same.symm.trans descends⟩

/-- Once its output is open, a download goes on with the bytes. -/
theorem run_attempt {path : Bytes} (opened : (world.answerFile (.openOutput path)).1 = .ok ())
    (address : Bytes) (headers : Option (List Bytes)) :
    ∃ middle : World, middle.Descends world ∧ middle.files.pending .output = [] ∧
      (middle.files.sink? .output = some (.device .full) ↔ Device.ofPath path = some .full) ∧
      (world.run (attempt address path headers).run).1 =
        (middle.run (filling address headers).run).1 := by
  have descends := world.answerBare_descends (.file (.openOutput path))
  change (world.answerFile (.openOutput path)).2.Descends world at descends
  have ran : world.run (Program.openOutput path) =
      (some (.ok ()), (world.answerFile (.openOutput path)).2) := by
    simp only [Program.openOutput, Program.request, World.run, World.answer, opened]
  rcases world.answerFile_openOutput path with ⟨stream, _⟩ | ⟨errno, refused, _⟩
  · obtain ⟨leads, empty⟩ := FileSystem.sink?_openStream stream
    refine ⟨_, descends, empty, leads, ?_⟩
    rw [attempt, Program.orFail, World.run_judged ran]
    rfl
  · cases refused.symm.trans opened

/-- The output of a download that would complete takes all bytes or says why not. A whole block for
the full device is reported as a failure of the transfer, and anything else by its error number. -/
structure ReportsBytes (world : World) (path : Bytes) (status : Status) : Prop where
  full : Device.ofPath path = some .full →
    Transfer.received world.surroundings.transport.events ≠ [] → status.failed = true
  block : Device.ofPath path = some .full →
    Stream.blockSize ≤ (Transfer.received world.surroundings.transport.events).length →
      status = .error .network .transfer
  other : status.failed = true → ¬ (Device.ofPath path = some .full ∧
      Stream.blockSize ≤ (Transfer.received world.surroundings.transport.events).length) →
    ∃ errno, status = .ofErrno errno ∧
      RefusesBytes world (Device.ofPath path = some .full) errno ∧
      (errno ≠ .badExecutable → status.category = Category.fileSystem.code.toNat ∨
        status.category = Category.system.code.toNat)

theorem file_reportsBytes {path : Bytes} (sound : world.FaultsFail)
    (opened : (world.answerFile (.openOutput path)).1 = .ok ())
    (available : world.surroundings.transport.available = true)
    (completes : world.surroundings.transport.ending.code = 0) (address : Bytes)
    (headers : Option (List Bytes)) :
    ∃ status after, world.run (file (some address) (some path) headers) = (some status, after) ∧
      ReportsBytes world path status := by
  obtain ⟨status, after, ran⟩ := world.run_returns ((file_ofResolution (some address) (some path)
    headers).mono fun _ calls => calls.inner.returns)
  refine ⟨status, after, ran, ?_⟩
  have reports := file_reports sound address path headers status after ran
  obtain ⟨middle, descends, empty, leads, filled⟩ := run_attempt opened address headers
  rw [← descends.surroundings] at available completes
  have outcome := run_filling_outcome empty available completes address headers
  rw [descends.surroundings, leads, ← filled] at outcome
  rcases outcome with ⟨full, long, failure⟩ | ⟨short, refused, derived⟩
  · have broken : status = .error .network .transfer := by
      rcases reports with ⟨_, reported⟩ | ⟨_, went⟩
      · cases failure.symm.trans reported
        rfl
      · rw [went] at failure
        cases failure
    subst broken
    exact ⟨fun _ _ => Status.failed_error _ _, fun _ _ => rfl, fun _ less => (less ⟨full, long⟩).elim⟩
  · rcases reports with ⟨failed, reported⟩ | ⟨rfl, went⟩
    · refine ⟨fun _ _ => failed, fun full long => (short ⟨full, long⟩).elim, fun _ _ => ?_⟩
      obtain ⟨errno, rfl, refuses⟩ := derived status reported
      have refuses := refuses.before id descends
      exact ⟨errno, rfl, refuses, Status.category_ofErrno (refuses.number sound)⟩
    · refine ⟨fun full some => ?_, fun full long => (short ⟨full, long⟩).elim, fun failed => ?_⟩
      · exact absurd (by rw [went]) (refused full some)
      · simp at failed

/-- The full device gets a whole block in one piece. -/
def fullWorld : World where
  surroundings := { transport := { events := [.data (List.replicate Stream.blockSize 66)] } }

theorem file_reportsBytes_fullWorld :
    ∃ status after, fullWorld.run (file (some "https://h/f") (some "/dev/full") none) =
        (some status, after) ∧
      ReportsBytes fullWorld "/dev/full" status ∧ status = .error .network .transfer := by
  have sound : fullWorld.FaultsFail := by simp [World.FaultsFail, fullWorld]
  have opened : (fullWorld.answerFile (.openOutput "/dev/full")).1 = .ok () := by rfl
  obtain ⟨status, after, ran, reports⟩ :=
    file_reportsBytes sound opened rfl rfl "https://h/f" none
  exact ⟨status, after, ran, reports, reports.block (by rfl)
    (by simp [fullWorld, Transfer.received])⟩

end Download

end Launcher
