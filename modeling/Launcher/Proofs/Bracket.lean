/-
This file says what a run of the launcher leaves in its log file. The run ends the session of the log
on every way out, and the file has what the run noted up to there.
-/

import Launcher.Proofs.Contract
import Launcher.Proofs.LoggedResolution

namespace Launcher

open World (Proceeds Notes)

variable {world : World} {location : Location} {content : Bytes}

/-! ### Closings -/

/-- A refused execution is reported. -/
def Surroundings.refusals (surroundings : Surroundings) : Call → List Log.Message
  | .execute path _ => match surroundings.executionError with
      | none => []
      | some errno =>
          [⟨.error, .launcher, "Failed to execute " ++ path ++ ": " ++ errno.message⟩]
  | _ => []

/-- An execution replaces the process when it succeeds. -/
def Call.Executes : Call → Prop
  | .execute _ _ => True
  | _ => False

namespace World

variable {Answer : Type} {program : Program Answer} {filed late : List Log.Filed} {stop : Int}

/-- The log file is closed with its content. -/
structure Rests (location : Location) (content : Bytes) (world : World) : Prop where
  closed : world.logIsOpen = false
  content : world.files.tree.content? location = some content

/-- The run files what it notes, closes the log, and notes at most refused executions after that.
Whatever is executed is executed after the closing. -/
structure Closes (location : Location) (content : Bytes) (world : World) (program : Program Answer)
    (filed late : List Log.Filed) (stop : Int) : Prop where
  notes : world.notes program = filed ++ late
  refusals : late.map Log.Filed.message =
    (world.history program).flatMap world.surroundings.refusals
  rests : (world.run program).2.Rests location
    (content ++ filed.flatMap Log.Filed.text ++ Log.endMarker stop)
  executes : ∀ visit ∈ world.visits program, visit.2.Executes → visit.1.Rests location
    (content ++ filed.flatMap Log.Filed.text ++ Log.endMarker stop)

/-- A program that avoids the log file closes it. -/
def Brackets (location : Location) (content : Bytes) (world : World) (program : Program Answer) :
    Prop :=
  world.Avoids location program → ∃ filed late stop,
    Closes location content world program filed late stop

/-- What is filed before belongs to the session. -/
theorem Brackets.bind {First : Type} {program : Program First} {next : First → Program Answer}
    (first : Proceeds location content world program fun answer content after =>
      after.Brackets location content (next answer))
    (plain : program.Only Call.IsPlain) (returns : program.Only Call.Returns) :
    world.Brackets location content (program >>= next) := by
  intro avoids
  obtain ⟨answer, after, ran⟩ := world.run_returns returns
  obtain ⟨before, later⟩ := avoids.bind ran
  obtain ⟨filed, late, stop, closes⟩ := first before answer after ran later
  have descends := world.run_descends plain
  rw [ran] at descends
  have content_eq : content ++ (world.notes program).flatMap Log.Filed.text ++
      filed.flatMap Log.Filed.text =
        content ++ (world.notes program ++ filed).flatMap Log.Filed.text := by
    rw [List.flatMap_append, List.append_assoc]
  refine ⟨world.notes program ++ filed, late, stop, ?_, ?_, ?_, ?_⟩
  · rw [notes_bind ran, closes.notes, List.append_assoc]
  · have none : (world.history program).flatMap world.surroundings.refusals = [] := by
      rw [List.flatMap_eq_nil_iff]
      intro call among
      have noExecution := history_only returns call among
      cases call with
      | execute path arguments => exact noExecution.elim
      | _ => rfl
    rw [history_bind ran, List.flatMap_append, none, closes.refusals, descends.surroundings]
    rfl
  · rw [run_bind, ran, ← content_eq]
    exact closes.rests
  · intro visit among executes
    rw [visits_bind ran] at among
    rcases List.mem_append.mp among with early | inside
    · have noExecution := visits_only returns visit early
      obtain ⟨_, call⟩ := visit
      cases call with
      | execute path arguments => exact noExecution.elim
      | _ => exact executes.elim
    · rw [← content_eq]
      exact closes.executes visit inside executes

/-- Calls that do not reach the log file come before the closing. -/
theorem Brackets.steps {First : Type} {program : Program First} {next : First → Program Answer}
    (only : program.Only fun call => call.Within FileCall.SetsUp ∧ call.IsPlain)
    (notes : world.Notes (FileSystem.Logs location) content)
    (later : ∀ answer content, ∀ after : World, after.Notes (FileSystem.Logs location) content →
      after.Descends world → after.Brackets location content (next answer)) :
    world.Brackets location content (program >>= next) := by
  have plain : program.Only Call.IsPlain := only.mono fun _ => And.right
  have within : program.Only (Call.Within FileCall.SetsUp) := only.mono fun _ => And.left
  have returns : program.Only Call.Returns := within.mono fun call within => by
    cases call with
    | execute path arguments => exact within.elim
    | _ => trivial
  exact .bind (((Proceeds.within (FileSystem.Logs.lasts location) within notes).descends
    plain).mono fun answer content after reached => later answer content after reached.1 reached.2)
      plain returns

theorem Rests.of_files {after : World} (rests : world.Rests location content)
    (same : after.files = world.files) : after.Rests location content := by
  refine ⟨?_, by rw [same]; exact rests.content⟩
  rw [logIsOpen, same]
  exact rests.closed

/-- The end marker goes to the file before it is closed. -/
theorem Notes.closeLog (notes : world.Notes (FileSystem.Logs location) content) :
    world.closeLog.Rests location (content ++ Log.endMarker world.clock) := by
  have opened : world.logIsOpen = true := notes.files.isOpen
  refine ⟨world.closeLog_closed, ?_⟩
  rw [closeLog_eq, if_pos opened]
  exact (notes.files.append (Log.endMarker world.clock)).content

/-- A message that is admitted is noted. -/
theorem noted_message {message : Log.Message} (admitted : world.log.admits message.level = true) :
    world.noted (.log (.message message)) = [⟨message, world.clock⟩] := by
  rw [noted, piecesOf, pieces, Log.Session.pieces_messages]
  simp [Log.Session.messages, admitted]

/-- The closing and an execution end the run, up to messages that are too late for the file. -/
theorem Notes.closes (notes : world.Notes (FileSystem.Logs location) content) (path : Bytes)
    (vector : List (Option Bytes)) (more : List (World × Call))
    (visited : world.visits program =
      (world, .closeLog) :: (world.closeLog, .execute path vector) :: more)
    (last : ∀ visit ∈ more, ¬ visit.2.Executes)
    (same : (world.run program).2.files = world.closeLog.files)
    (refusals : (more.flatMap fun visit => visit.1.noted visit.2).map Log.Filed.message =
      world.surroundings.refusals (.execute path vector)) :
    world.Closes location content program []
      (more.flatMap fun visit => visit.1.noted visit.2) world.clock := by
  have rests := notes.closeLog
  refine ⟨?_, ?_, ?_, ?_⟩
  · rw [World.notes, visited]
    rfl
  · have silent : (more.map Prod.snd).flatMap world.surroundings.refusals = [] := by
      simp only [List.flatMap_eq_nil_iff, List.mem_map]
      rintro call ⟨⟨moment, call⟩, among, rfl⟩
      have noExecution := last _ among
      cases call with
      | execute path arguments => exact absurd trivial noExecution
      | _ => rfl
    rw [← visits_history, visited, List.map_cons, List.map_cons, List.flatMap_cons,
      List.flatMap_cons, silent, List.append_nil, refusals]
    rfl
  · rw [List.flatMap_nil, List.append_nil]
    exact rests.of_files same
  · rw [visited, List.flatMap_nil, List.append_nil]
    intro visit among executes
    simp only [List.mem_cons] at among
    rcases among with rfl | rfl | among
    · exact executes.elim
    · exact rests
    · exact absurd executes (last visit among)

end World

namespace Launch

open Program

theorem exit_brackets (notes : world.Notes (FileSystem.Logs location) content) (status : Int) :
    world.Brackets location content (exit status) := by
  have rests := notes.closeLog
  have visited : world.visits (exit status) = [(world, .closeLog)] := rfl
  have ran : world.run (exit status) = (some status, world.closeLog) := rfl
  refine fun _ => ⟨[], [], world.clock, rfl, rfl, ?_, ?_⟩
  · rw [ran, List.flatMap_nil, List.append_nil]
    exact rests
  · intro visit among executes
    rw [visited, List.mem_singleton] at among
    rw [among] at executes
    exact executes.elim

theorem fail_brackets (notes : world.Notes (FileSystem.Logs location) content) (status : Status)
    (context : Bytes) : world.Brackets location content (fail status context) :=
  .steps (.request ⟨trivial, trivial⟩) notes fun _ _ _ notes _ => exit_brackets notes failure

theorem print_brackets (notes : world.Notes (FileSystem.Logs location) content) (text : Bytes)
    (status : Int) :
    world.Brackets location content (Program.print text >>= fun _ => exit status) :=
  .steps (.request ⟨trivial, trivial⟩) notes fun _ _ _ notes _ => exit_brackets notes status

/-- Only the message that an execution was refused comes too late for the file. -/
theorem execute_brackets (notes : world.Notes (FileSystem.Logs location) content) (path : Bytes)
    (vector : List (Option Bytes)) (status : Int) :
    world.Brackets location content (Program.closeLog >>= fun _ =>
      Program.execute path vector >>= fun errno =>
        Program.note .error ("Failed to execute " ++ path ++ ": " ++ errno.message) >>= fun _ =>
          pure status) := by
  intro _
  have closing : world.answer .closeLog = (some (), world.closeLog) := rfl
  have executing : world.closeLog.answer (.execute path vector) =
      (world.surroundings.executionError, world.closeLog.witness
        (.execute path ((vector.takeWhile Option.isSome).filterMap id))) := by
    rw [World.answer, World.closeLog_eq]
  have log : world.closeLog.log = world.log := by rw [World.closeLog_eq]
  simp only [Program.closeLog, Program.execute, Program.note]
  cases refused : world.surroundings.executionError with
  | none =>
      rw [refused] at executing
      refine ⟨[], _, world.clock, notes.closes path vector [] ?_ ?_ ?_ ?_⟩
      · rw [World.visits_request closing, World.visits_request_gone executing]
      · exact fun _ among => absurd among List.not_mem_nil
      · rw [World.run_request closing, World.run_request_gone executing]
        rfl
      · simp [Surroundings.refusals, refused]
  | some errno =>
      rw [refused] at executing
      generalize gone_eq : world.closeLog.witness _ = gone at executing
      have session : gone.log = world.log := gone_eq ▸ log
      have files : gone.files = world.closeLog.files := gone_eq ▸ rfl
      have closed : gone.logIsOpen = false := by
        rw [World.logIsOpen, files]
        exact world.closeLog_closed
      have admitted : gone.log.admits .error = true := by
        rw [session, Log.Session.admits]
        simpa using And.intro (by decide : Level.error ≠ .silent) notes.loud
      refine ⟨[], _, world.clock, notes.closes path vector [(gone, .log (.message ⟨.error,
        .launcher, "Failed to execute " ++ path ++ ": " ++ errno.message⟩))] ?_ ?_ ?_ ?_⟩
      · rw [World.visits_request closing, World.visits_request executing]
        rfl
      · intro visit among
        rw [List.mem_singleton.mp among]
        exact not_false
      · rw [World.run_request closing, World.run_request executing, World.run_request rfl,
          World.writeEntry_eq]
        exact (World.filesAfter_of_closed closed _).trans files
      · rw [List.flatMap_singleton, World.noted_message admitted]
        simp [Surroundings.refusals, refused]

theorem deliver_brackets (notes : world.Notes (FileSystem.Logs location) content) (verbs : Verbs)
    (path : Bytes) (arguments : List (Option Bytes)) :
    world.Brackets location content (deliver verbs path arguments) := by
  unfold deliver
  split
  · exact print_brackets notes _ success
  · simp only [HandOver.run, Program.bind_assoc]
    exact .steps (.request ⟨trivial, trivial⟩) notes fun _ _ _ notes _ =>
      execute_brackets notes path _ failure

theorem resolve_brackets (sound : world.OpeningsFail)
    (notes : world.Notes (FileSystem.Logs location) content) (verbs : Verbs)
    (arguments : List (Option Bytes)) :
    world.Brackets location content (resolve verbs arguments) := by
  have detects : Host.detect.Only fun call =>
      call.Within FileCall.SetsUp ∧ call.IsPlain :=
    .bind (.request ⟨trivial, trivial⟩) fun names => by cases names <;> trivial
  refine .steps detects notes fun detected _ _ notes descends => ?_
  have sound := descends.openingsFail sound
  cases detected with
  | error status => exact fail_brackets notes status _
  | ok host =>
      refine .steps (.request ⟨trivial, trivial⟩) notes fun _ _ _ notes descends => ?_
      have sound := descends.openingsFail sound
      have inner := Resolve.run_inner (some ⟨some Release.pinned, some host, .download,
        verbs.reinstall⟩)
      refine .bind ((Resolve.proceeds_run sound notes _ host _).mono
        fun outcome _ _ notes => ?_) (inner.mono fun _ => Call.IsInner.plain)
          (inner.mono fun _ => Call.IsInner.returns)
      cases outcome with
      | error status => exact fail_brackets notes status _
      | ok path => exact deliver_brackets notes verbs path arguments

theorem obey_brackets (sound : world.OpeningsFail)
    (notes : world.Notes (FileSystem.Logs location) content) (verbs : Verbs)
    (arguments : List (Option Bytes)) :
    world.Brackets location content (obey verbs arguments) := by
  unfold obey
  split
  · exact print_brackets notes Usage.text success
  split
  · exact print_brackets notes _ success
  · exact resolve_brackets sound notes verbs arguments

/-- After its start, every run closes the log. -/
theorem rest_brackets (sound : world.OpeningsFail)
    (notes : world.Notes (FileSystem.Logs location) content) (arguments : List (Option Bytes)) :
    world.Brackets location content (rest arguments) := by
  have reads : (Verbs.fromEnvironment (some {})).Only fun call =>
      call.Within FileCall.SetsUp ∧ call.IsPlain :=
    Verbs.fromEnvironment_only ⟨trivial, by decide, by decide⟩ ⟨trivial, trivial⟩
      (fun _ => ⟨trivial, trivial⟩) _
  refine .steps reads notes fun outcome _ _ notes descends => ?_
  dsimp only
  split
  · exact fail_brackets notes _ _
  · exact obey_brackets (descends.openingsFail sound) notes _ arguments

end Launch

/-! ### Openings -/

namespace World

variable {path : Bytes} {initial : Bytes}

/-- Opening the file begins a session at its end. -/
theorem openLogFile_notes (sound : world.OpeningsFail) (loud : .error ≤ world.log.level)
    (selected : world.log.level ≤ .debug) (opens : (world.openLogFile path).1.failed = false)
    (names : world.files.tree.Names path location initial) :
    (world.openLogFile path).2.Notes (FileSystem.Logs location)
        (initial ++ Log.startMarker world.clock) ∧
      (world.openLogFile path).2.Descends world ∧
      (world.openLogFile path).2.transcript = world.transcript := by
  simp only [openLogFile, strike] at opens ⊢
  rcases intercepted : Fault.intercept .openStream (some path) world.faults with
    ⟨_ | errno, faults⟩
  · obtain ⟨opened, opening, logs⟩ := FileSystem.Logs.openStream names
      (Mode.masked 0o666 world.surroundings.mask)
    simp only [opening, appendToLog_eq]
    refine ⟨⟨logs.append (Log.startMarker world.clock), loud, selected⟩, ⟨rfl, ?_⟩, trivial⟩
    intro fault left
    have inside : fault ∈ (Fault.intercept .openStream (some path) world.faults).2 :=
      intercepted ▸ left
    exact Fault.intercept_left inside
  · rw [intercepted] at opens
    obtain ⟨fault, among, kind, same⟩ := Fault.intercept_some (congrArg Prod.fst intercepted)
    have fails : errno.number ≠ 0 := same ▸ sound fault among kind
    exact absurd (Status.failed_ofErrno fails) (by simp [opens])

/-- An opening that succeeds begins a session at the end of the file. -/
theorem openLog_notes (sound : world.OpeningsFail)
    (set : world.surroundings.setting .logFile = some path)
    (loud : world.surroundings.logLevel ≠ .silent) (opens : world.openLog.1.failed = false)
    (names : world.started.files.tree.Names path location initial) :
    world.openLog.2.Notes (FileSystem.Logs location) (initial ++ Log.startMarker world.clock) ∧
      world.openLog.2.Descends world ∧
      world.openLog.2.transcript.screen = world.transcript.screen := by
  have same : world.started.faults = world.faults ∧ world.started.clock = world.clock ∧
      world.started.surroundings = world.surroundings ∧
      world.started.transcript = world.transcript := by
    rw [started, closeLog_eq]
    exact ⟨rfl, rfl, rfl, rfl⟩
  obtain ⟨faults, clock, surroundings, transcript⟩ := same
  rw [openLog_eq, if_neg loud, set] at opens ⊢
  have soundStart : world.started.OpeningsFail := by
    rw [OpeningsFail, faults]
    exact sound
  obtain ⟨notes, descends, screen⟩ := openLogFile_notes soundStart
    (Level.silent_lt loud) world.surroundings.logLevel_le opens names
  refine ⟨clock ▸ notes, descends.trans ⟨surroundings, fun fault among => ?_⟩, ?_⟩
  · exact ⟨fault, faults ▸ among, rfl, rfl⟩
  · exact congrArg Transcript.screen (screen.trans transcript)

/-- The run leaves a complete block behind the content that the file had. The block was there, and
the log was closed, before anything was executed. The messages of the run are in the block, up to
those that an execution was refused. -/
structure LeavesBlock (world : World) (arguments : List (Option Bytes)) (location : Location)
    (initial : Bytes) (block : Log.Block.Complete) : Prop where
  start : block.start = world.clock
  screen : (world.run (Launch.run arguments)).2.transcript.screen =
    world.transcript.screen ++ (world.lines (Launch.run arguments)).flatMap Log.Piece.text
  rests : (world.run (Launch.run arguments)).2.Rests location (initial ++ block.text)
  executes : ∀ visit ∈ world.visits (Launch.run arguments), visit.2.Executes →
    visit.1.Rests location (initial ++ block.text)
  entries : ∃ late, world.notes (Launch.run arguments) = block.entries ++ late ∧
    late.map Log.Filed.message =
      (world.history (Launch.run arguments)).flatMap world.surroundings.refusals

/-- A run that opens its log file leaves a block. -/
theorem leavesBlock (sound : world.OpeningsFail)
    (set : world.surroundings.setting .logFile = some path)
    (loud : world.surroundings.logLevel ≠ .silent) (opens : world.openLog.1.failed = false)
    (names : world.started.files.tree.Names path location initial)
    {arguments : List (Option Bytes)} (avoids : world.Avoids location (Launch.run arguments)) :
    ∃ block, world.LeavesBlock arguments location initial block := by
  obtain ⟨notes, descends, screen⟩ := openLog_notes sound set loud opens names
  have started : world.run Launch.start = (some (), world.openLog.2) := by
    rw [Launch.start, Program.openLog, World.run_request rfl, opens]
    rfl
  have visited : world.visits Launch.start = [(world, .openLog)] := by
    rw [Launch.start, Program.openLog, World.visits_request rfl, opens]
    rfl
  have noted : world.notes Launch.start = [] := by
    rw [World.notes, visited]
    rfl
  have calls : world.history Launch.start = [.openLog] := by
    rw [← visits_history, visited]
    rfl
  rw [Launch.run_eq] at avoids
  obtain ⟨filed, late, stop, closes⟩ :=
    Launch.rest_brackets (descends.openingsFail sound) notes arguments (avoids.bind started).2
  have text : initial ++ Log.startMarker world.clock ++ filed.flatMap Log.Filed.text ++
      Log.endMarker stop = initial ++ (⟨⟨world.clock, filed⟩, stop⟩ : Log.Block.Complete).text := by
    simp [Log.Block.Complete.text, Log.Block.text, Log.startMarker, Log.endMarker_eq]
  refine ⟨⟨⟨world.clock, filed⟩, stop⟩, rfl, ?_, ?_, ?_, late, ?_, ?_⟩
  · have later : world.lines (Launch.start >>= fun _ => Launch.rest arguments) =
        world.openLog.2.lines (Launch.rest arguments) := by
      rw [Launch.start, Program.openLog, Program.bind_assoc, lines_request rfl, opens]
      rfl
    rw [Launch.run_eq, run_bind, started, later, ← screen]
    exact run_screen (Launch.rest_afterStart arguments)
  · rw [Launch.run_eq, run_bind, started, ← text]
    exact closes.rests
  · intro visit among executes
    rw [Launch.run_eq, visits_bind started, visited] at among
    rw [← text]
    rcases List.mem_cons.mp among with rfl | later
    · exact executes.elim
    · exact closes.executes visit later executes
  · rw [Launch.run_eq, notes_bind started, noted]
    exact closes.notes
  · rw [Launch.run_eq, history_bind started, calls, ← descends.surroundings]
    exact closes.refusals

end World

namespace Launch

open World

/-- Whichever way a run ends, its log file has one more block, which was complete before anything
was executed. -/
theorem run_brackets {world : World} {path : Bytes} {location : Location} {initial : Bytes}
    (closed : world.logIsOpen = false) (sound : world.OpeningsFail)
    (set : world.surroundings.setting .logFile = some path)
    (loud : world.surroundings.logLevel ≠ .silent) (opens : world.openLog.1.failed = false)
    (names : world.files.tree.Names path location initial) {arguments : List (Option Bytes)}
    (avoids : world.Avoids location (run arguments)) :
    ∃ block, world.LeavesBlock arguments location initial block := by
  have same : world.started.files = world.files := by
    rw [started, closeLog_of_closed closed]
  exact leavesBlock sound set loud opens (same ▸ names) avoids

/-- A log file is asked for beside a home directory. -/
def filedWorld : World where
  surroundings := {
    environment := fun setting => match setting with
      | .home => some "/h"
      | .logFile => some "/log"
      | _ => none
    transport := { events := [.data "abc"] } }

theorem run_brackets_filedWorld :
    ∃ block, filedWorld.LeavesBlock [some "launcher"] ["log"] [] block :=
  run_brackets rfl (by simp [OpeningsFail, filedWorld]) rfl (by decide) (by decide +kernel)
    (.vacant (by decide +kernel)) (by decide +kernel)

/-- The messages on the screen are those of the block in the file, in the same order, and after them
the messages that an execution was refused. -/
structure FilesMessages (world : World) (arguments : List (Option Bytes)) (location : Location)
    (initial : Bytes) (block : Log.Block.Complete) : Prop where
  screen : (world.run (run arguments)).2.transcript.screen =
    world.transcript.screen ++ (world.lines (run arguments)).flatMap Log.Piece.text
  file : (world.run (run arguments)).2.files.tree.content? location = some (initial ++ block.text)
  messages : (world.lines (run arguments)).filterMap Log.Piece.message? =
    block.entries.map Log.Filed.message ++
      (world.history (run arguments)).flatMap world.surroundings.refusals

/-- Only the message that an execution was refused is missing in the file. -/
theorem run_files {world : World} {path : Bytes} {location : Location} {initial : Bytes}
    (sound : world.OpeningsFail) (set : world.surroundings.setting .logFile = some path)
    (loud : world.surroundings.logLevel ≠ .silent) (opens : world.openLog.1.failed = false)
    (names : world.started.files.tree.Names path location initial)
    {arguments : List (Option Bytes)} (avoids : world.Avoids location (run arguments)) :
    ∃ block, FilesMessages world arguments location initial block := by
  obtain ⟨block, leaves⟩ := leavesBlock sound set loud opens names avoids
  obtain ⟨late, noted, refusals⟩ := leaves.entries
  refine ⟨block, leaves.screen, leaves.rests.content, ?_⟩
  rw [← world.notes_messages, noted, List.map_append, refusals]

/-- The binary that overrides cannot be executed. -/
def refusedWorld : World where
  surroundings := {
    environment := fun setting => match setting with
      | .overridePath => some "/b"
      | .logFile => some "/log"
      | _ => none
    executionError := some .badExecutable }
  files := ⟨Tree.empty.put [("b" : Bytes)] (.file 0o755 []), fun _ => none⟩

/-- The screen has a message, and the session in the file is empty. -/
theorem run_files_refusedWorld :
    (∃ block, FilesMessages refusedWorld [some "launcher"] ["log"] [] block) ∧
      (refusedWorld.run (run [some "launcher"])).2.transcript.screen =
        "[ERROR] Failed to execute /b: Exec format error\n" ∧
      (refusedWorld.run (run [some "launcher"])).2.files.tree.content? ["log"] =
        some (Bytes.ofString ("=== Log session started at 2023-11-14 22:13:20 ===\n" ++
          "=== Log session ended at 2023-11-14 22:13:20 ===\n\n")) :=
  ⟨run_files (by simp [OpeningsFail, refusedWorld]) rfl (by decide) (by decide +kernel)
    (.vacant (by decide +kernel)) (by decide +kernel), by decide +kernel, by decide +kernel⟩

end Launch

end Launcher
