/-
This file says what a run of the launcher does for its caller: how it exits, what it writes to the
output, and when it hands over to which binary with which arguments.
-/

import Launcher.Proofs.Gates
import Launcher.Proofs.Start

namespace Launcher

/-! ### Silent calls -/

/-- A silent call writes no output and leaves no event. -/
def Call.IsSilent (call : Call) : Prop := call.IsPlain ∧ call.event? = none ∧ call.printed = []

theorem Call.IsInner.noOutput {call : Call} (inner : call.IsInner) : call.printed = [] := by
  cases call with
  | print text => exact inner.elim
  | _ => rfl

theorem Call.IsInner.noExecution {call : Call} (inner : call.IsInner) (path : Bytes)
    (arguments : List Bytes) : call.event? ≠ some (.execute path arguments) := by
  cases call with
  | execute path arguments => exact inner.elim
  | fetch address path => simp [Call.event?]
  | transfer request => simp [Call.event?]
  | _ => simp [Call.event?]

/-- Between two worlds nothing was shown, and the log stayed closed. -/
structure World.Silent (before after : World) : Prop where
  events : after.transcript.events = before.transcript.events
  output : after.transcript.output = before.transcript.output
  execution : after.surroundings.executionError = before.surroundings.executionError
  closed : after.logIsOpen = false

namespace World

variable {Answer : Type} {world : World}

/-- Nothing that a program does changes whether executions succeed. -/
theorem run_execution {program : Program Answer} (plain : program.Only Call.IsPlain)
    (closed : world.logIsOpen = false) :
    (world.run program).2.surroundings.executionError = world.surroundings.executionError := by
  obtain ⟨_, alike, _⟩ := (Alike.refl world).run plain closed
  rw [alike.executionError, (world.runBare_descends program).surroundings]

theorem writeEntry_silent (closed : world.logIsOpen = false) (entry : Log.Entry) :
    world.Silent (world.writeEntry entry) := by
  obtain ⟨alike, still⟩ := writeEntry_alike closed entry
  exact ⟨alike.events, alike.output, alike.executionError, still⟩

theorem run_silent {program : Program Answer} (silent : program.Only Call.IsSilent)
    (closed : world.logIsOpen = false) : world.Silent (world.run program).2 := by
  have plain : program.Only Call.IsPlain := silent.mono fun _ => And.left
  have events : world.events program = [] := events_only silent fun _ holds => holds.2.1
  have printed : (world.history program).flatMap Call.printed = [] :=
    List.flatMap_eq_nil_iff.mpr fun call among => (history_only silent call among).2.2
  obtain ⟨sameEvents, sameOutput⟩ := run_transcript plain closed
  rw [events, List.append_nil] at sameEvents
  rw [printed, List.append_nil] at sameOutput
  exact ⟨sameEvents, sameOutput, run_execution plain closed,
    ((Alike.refl world).run plain closed).2.2⟩

end World

namespace HandOver

/-- The arguments after the first one follow the path, in their order. -/
theorem argumentVector_eq (path : Option Bytes) (arguments : List (Option Bytes)) :
    argumentVector path arguments arguments.length = path :: arguments.tail ++ [none] := by
  have tail : (List.range' 1 ((arguments.length : Int) - 1).toNat).map
      (fun index => (arguments[index]?).join) = arguments.tail := by
    apply List.ext_getElem
    · simp
    · intro index inside within
      have bound : 1 + index < arguments.length := by
        rw [List.length_tail] at within
        omega
      simp only [List.getElem_map, List.getElem_range', List.getElem_tail]
      rw [Nat.one_mul, List.getElem?_eq_getElem bound]
      simp [Nat.add_comm]
  rw [argumentVector, tail]

variable {world : World}

/-- The texts of a vector end at the first absent one. -/
theorem takeWhile_vector (path : Bytes) (arguments : List Bytes) :
    ((some path :: (arguments.map some).tail ++ [none]).takeWhile Option.isSome).filterMap id =
      path :: arguments.tail := by
  have present : ∀ argument ∈ some path :: (arguments.map some).tail,
      argument.isSome = true := by
    intro argument among
    rw [← List.map_tail, ← List.map_cons] at among
    obtain ⟨text, _, rfl⟩ := List.mem_map.mp among
    rfl
  rw [List.takeWhile_append_of_pos present, ← List.map_tail, ← List.map_cons,
    List.filterMap_append, List.filterMap_map]
  simp

/-- The execution is the last event, and only when it is refused there is an answer. -/
theorem run_execute (closed : world.logIsOpen = false) (path : Bytes) (arguments : List Bytes) :
    ∃ after, world.run (run path (arguments.map some) (arguments.map some).length) =
        (world.surroundings.executionError.map Status.ofErrno, after) ∧
      after.transcript.output = world.transcript.output ∧
      after.transcript.events = world.transcript.events ++
        [.execute path (path :: arguments.tail)] ∧ after.logIsOpen = false := by
  have vector := argumentVector_eq (some path) (arguments.map some)
  simp only [run, vector, Program.note]
  generalize (Log.Entry.message _) = entry
  have noted := World.writeEntry_silent closed entry
  rw [World.run_request rfl, Program.closeLog, World.run_request rfl, World.closeLog_of_closed
    noted.closed, Program.execute]
  have answered : (world.writeEntry entry).answer
      (.execute path (some path :: (arguments.map some).tail ++ [none])) =
        (world.surroundings.executionError,
          (world.writeEntry entry).witness (.execute path (path :: arguments.tail))) := by
    rw [World.answer, noted.execution, takeWhile_vector]
  have events : ((world.writeEntry entry).witness
      (.execute path (path :: arguments.tail))).transcript.events = world.transcript.events ++
        [.execute path (path :: arguments.tail)] := by
    rw [World.witness, noted.events]
  cases executes : world.surroundings.executionError with
  | none =>
      rw [executes] at answered
      rw [World.run_request_gone answered]
      exact ⟨_, rfl, noted.output, events, noted.closed⟩
  | some errno =>
      rw [executes] at answered
      have still : ((world.writeEntry entry).witness
          (.execute path (path :: arguments.tail))).logIsOpen = false := noted.closed
      rw [World.run_request answered, World.run_request rfl]
      have last := World.writeEntry_silent still (.message ⟨.error, .launcher,
        "Failed to execute " ++ path ++ ": " ++ errno.message⟩)
      exact ⟨_, rfl, last.output.trans noted.output, last.events.trans events, last.closed⟩

end HandOver

/-! ### Verbs -/

namespace Verbs

open Program

theorem lookUp_silent : Call.IsSilent (.lookUp .verbs) :=
  ⟨⟨by decide, by decide⟩, rfl, rfl⟩

theorem fromEnvironment_silent (verbs : Option Verbs) :
    (fromEnvironment verbs).Only Call.IsSilent :=
  fromEnvironment_only lookUp_silent ⟨trivial, rfl, rfl⟩ (fun _ => ⟨trivial, rfl, rfl⟩) verbs

variable {world : World}

theorem yields_addTokens (verbs : Verbs) (tokens : List Bytes) :
    world.Yields (addTokens verbs tokens) fun _ _ => True := by
  induction tokens generalizing verbs with
  | nil => exact World.Yields.done trivial
  | cons token others inductionHypothesis =>
      simp only [addTokens]
      split
      · simp only [World.yields_bind, World.yields_note]
        exact inductionHypothesis verbs
      · split
        · simp only [World.yields_bind, World.yields_note, Program.pure_eq, World.yields_done]
        · exact inductionHypothesis _

/-- When the verbs cannot be read, none is in force. -/
theorem yields_fromEnvironment :
    world.Yields (fromEnvironment (some {})) fun outcome _ =>
      ∃ verbs, outcome.2 = some verbs ∧ (outcome.1.failed = true → verbs = {}) := by
  simp only [fromEnvironment, World.yields_bind, World.yields_lookUp]
  cases world.surroundings.environment .verbs with
  | none => exact World.Yields.done ⟨{}, rfl, fun _ => rfl⟩
  | some list =>
      simp only [World.yields_bind, World.yields_duplicate]
      split
      · simp only [World.yields_bind]
        apply (yields_addTokens {} _).mono
        intro verbs after _
        simp only [Program.pure_eq, World.yields_done]
        exact ⟨verbs, rfl, by simp⟩
      · simp only [Program.pure_eq, World.yields_done]
        exact ⟨{}, rfl, fun _ => rfl⟩

end Verbs

/-! ### Parts of a run -/

namespace Launch

variable {world : World}

theorem exit_run (closed : world.logIsOpen = false) (status : Int) :
    world.run (exit status) = (some status, world) := by
  rw [exit, Program.closeLog, World.run_request rfl, World.closeLog_of_closed closed]
  rfl

theorem fail_run (closed : world.logIsOpen = false) (status : Status) (context : Bytes) :
    ∃ after, world.run (fail status context) = (some failure, after) ∧ world.Silent after := by
  have silent : (fail status context).Only Call.IsSilent :=
    .bind (.request ⟨trivial, rfl, rfl⟩) fun _ => .bind (.request ⟨trivial, rfl, rfl⟩) fun _ => trivial
  exact ⟨_, rfl, World.run_silent silent closed⟩

/-- What is printed goes to the output, and the run ends there. -/
theorem print_run (closed : world.logIsOpen = false) (text : Bytes) (status : Int) :
    world.run (Program.print text >>= fun _ => exit status) =
      (some status, world.print text) := by
  have still : (world.print text).logIsOpen = false := closed
  rw [Program.print, World.run_request rfl]
  exact exit_run still status

/-- A binary is found for the verbs: the host is detected, and the pinned version is resolved for it
in a world that may only have logged the detection. -/
def Finds (parsed : World) (verbs : Verbs) (path : Bytes) : Prop :=
  ∃ (host : Platform) (noted after : World), parsed.run Host.detect = (some (.ok host), parsed) ∧
    noted.Alike parsed ∧ noted.run (Resolve.run (some ⟨some Release.pinned, some host, .download,
      verbs.reinstall⟩)) = (some (.ok path), after)

/-- Worlds that are alike find the same binary. -/
theorem Finds.resolved {parsed noted after : World} {verbs : Verbs} {path : Bytes}
    {host : Platform} {outcome : Except Status Bytes} (finds : Finds parsed verbs path)
    (closed : parsed.logIsOpen = false)
    (detected : parsed.run Host.detect = (some (.ok host), parsed)) (alike : noted.Alike parsed)
    (resolved : noted.run (Resolve.run (some ⟨some Release.pinned, some host, .download,
      verbs.reinstall⟩)) = (some outcome, after)) : outcome = .ok path := by
  obtain ⟨host', noted', after', detected', alike', resolved'⟩ := finds
  cases detected.symm.trans detected'
  have plain := (Resolve.run_inner (some ⟨some Release.pinned, some host, .download,
    verbs.reinstall⟩)).mono fun _ => Call.IsInner.plain
  have bare := (alike.run plain (alike.symm.closed closed)).1
  have bareToo := (alike'.run plain (alike'.symm.closed closed)).1
  rw [resolved] at bare
  rw [resolved'] at bareToo
  exact Option.some.inj (bare.trans bareToo.symm)

theorem Finds.unique {parsed : World} {verbs : Verbs} {path other : Bytes}
    (left : Finds parsed verbs path) (right : Finds parsed verbs other)
    (closed : parsed.logIsOpen = false) : path = other := by
  obtain ⟨host, noted, after, detected, alike, resolved⟩ := right
  exact (Except.ok.inj (left.resolved closed detected alike resolved)).symm

/-- These are the ways in which a run ends, with its answer, what it shows, and the execution that
is its last event. -/
inductive Ends (arguments : List Bytes) (status : Status) (verbs : Verbs) (parsed : World) :
    Option Int → Bytes → List Event → Prop
  | unread (failed : status.failed = true) (nothing : verbs = {}) :
      Ends arguments status verbs parsed (some failure) [] []
  | help (read : status.failed = false) (help : verbs.help = true) :
      Ends arguments status verbs parsed (some success) Usage.text []
  | version (read : status.failed = false) (noHelp : verbs.help = false)
      (version : verbs.version = true) :
      Ends arguments status verbs parsed (some success) (Release.pinned ++ "\n") []
  | missing (read : status.failed = false) (noHelp : verbs.help = false)
      (noVersion : verbs.version = false) (none : ¬ ∃ path, Finds parsed verbs path) :
      Ends arguments status verbs parsed (some failure) [] []
  | path {path : Bytes} (read : status.failed = false) (noHelp : verbs.help = false)
      (noVersion : verbs.version = false) (asked : verbs.path = true)
      (found : Finds parsed verbs path) :
      Ends arguments status verbs parsed (some success) (path ++ "\n") []
  | replaced {path : Bytes} (read : status.failed = false) (noHelp : verbs.help = false)
      (noVersion : verbs.version = false) (noPath : verbs.path = false)
      (found : Finds parsed verbs path)
      (executes : parsed.surroundings.executionError = none) :
      Ends arguments status verbs parsed none [] [.execute path (path :: arguments.tail)]
  | refused {path : Bytes} {errno : Errno} (read : status.failed = false)
      (noHelp : verbs.help = false) (noVersion : verbs.version = false)
      (noPath : verbs.path = false) (found : Finds parsed verbs path)
      (refuses : parsed.surroundings.executionError = some errno) :
      Ends arguments status verbs parsed (some failure) []
        [.execute path (path :: arguments.tail)]

/-- From one world to another the text was shown, and the last events are the executions. -/
structure Shows (before after : World) (shown : Bytes) (executed : List Event) : Prop where
  output : after.transcript.output = before.transcript.output ++ shown
  events : ∃ fetched, (∀ event ∈ fetched, ∀ path arguments, event ≠ .execute path arguments) ∧
    after.transcript.events = before.transcript.events ++ fetched ++ executed

theorem detect_run (world : World) :
    ∃ detected, world.run Host.detect = (some detected, world) := by
  rw [Host.detect, Program.systemNames, World.run_request rfl]
  split
  · exact ⟨_, rfl⟩
  · exact ⟨_, rfl⟩

variable {parsed found : World} {verbs : Verbs} {arguments : List Bytes} {status : Status}

theorem shows_of_silent (silent : parsed.Silent found) : Shows parsed found [] [] := by
  refine ⟨by rw [silent.output, List.append_nil], [], by simp, ?_⟩
  rw [silent.events, List.append_nil, List.append_nil]

/-- A resolution shows nothing on the output, and it executes nothing. -/
theorem resolution_shows (closed : parsed.logIsOpen = false) (request : Option Resolve.Request)
    {outcome : Except Status Bytes}
    (resolved : parsed.run (Resolve.run request) = (some outcome, found)) :
    Shows parsed found [] [] ∧ found.logIsOpen = false ∧
      found.surroundings.executionError = parsed.surroundings.executionError := by
  have inner := Resolve.run_inner request
  have plain : (Resolve.run request).Only Call.IsPlain := inner.mono fun _ => Call.IsInner.plain
  obtain ⟨events, output⟩ := World.run_transcript plain closed
  obtain ⟨_, _, still⟩ := (World.Alike.refl parsed).run plain closed
  have lasting := World.run_execution plain closed
  rw [resolved] at events output still lasting
  refine ⟨⟨?_, parsed.events (Resolve.run request), ?_, ?_⟩, still, lasting⟩
  · have printed : (parsed.history (Resolve.run request)).flatMap Call.printed = [] :=
      List.flatMap_eq_nil_iff.mpr fun call among => (World.history_only inner call among).noOutput
    rw [output, printed]
  · intro event among path vector isExecution
    obtain ⟨call, called, same⟩ := List.mem_filterMap.mp among
    rw [isExecution] at same
    exact (World.history_only inner call called).noExecution path vector same
  · rw [events, List.append_nil]

theorem Shows.trans {first second third : World} {shown : Bytes} {executed : List Event}
    (left : Shows first second [] []) (right : Shows second third shown executed) :
    Shows first third shown executed := by
  obtain ⟨before, quiet, start⟩ := left.events
  obtain ⟨after, quietToo, rest⟩ := right.events
  refine ⟨by rw [right.output, left.output, List.append_nil], before ++ after, ?_, ?_⟩
  · intro event among
    rcases List.mem_append.mp among with early | late
    · exact quiet event early
    · exact quietToo event late
  · rw [rest, start, List.append_nil]
    simp only [List.append_assoc]

/-- A result of a run from the world is one of the ends. -/
def EndsFrom (arguments : List Bytes) (status : Status) (verbs : Verbs) (parsed : World)
    (start : World) (result : Option Int × World) : Prop :=
  ∃ shown executed, Shows start result.2 shown executed ∧
    Ends arguments status verbs parsed result.1 shown executed

theorem EndsFrom.of_shows {first second : World} {result : Option Int × World}
    (ends : EndsFrom arguments status verbs parsed second result)
    (shows : Shows first second [] []) :
    EndsFrom arguments status verbs parsed first result := by
  obtain ⟨shown, executed, last, ends⟩ := ends
  exact ⟨shown, executed, shows.trans last, ends⟩

theorem fail_ends (closed : found.logIsOpen = false) (failed : Status) (context : Bytes)
    (ends : Ends arguments status verbs parsed (some failure) [] []) :
    EndsFrom arguments status verbs parsed found (found.run (fail failed context)) := by
  obtain ⟨after, ran, silent⟩ := fail_run closed failed context
  rw [ran]
  exact ⟨_, _, shows_of_silent silent, ends⟩

/-- What is printed is all that is shown. -/
theorem print_ends {text : Bytes} {code : Int} (closed : found.logIsOpen = false)
    (ends : Ends arguments status verbs parsed (some code) text []) :
    EndsFrom arguments status verbs parsed found
      (found.run (Program.print text >>= fun _ => exit code)) := by
  rw [print_run closed]
  refine ⟨text, [], ⟨rfl, [], by simp, ?_⟩, ends⟩
  rw [List.append_nil, List.append_nil]
  rfl

/-- A binary that is found is handed over to, or its path is shown. -/
theorem deliver_ends {path : Bytes} (closed : found.logIsOpen = false)
    (read : status.failed = false) (noHelp : verbs.help = false)
    (noVersion : verbs.version = false) (finds : Finds parsed verbs path)
    (lasting : found.surroundings.executionError = parsed.surroundings.executionError) :
    EndsFrom arguments status verbs parsed found
      (found.run (deliver verbs path (arguments.map some))) := by
  unfold deliver
  cases asked : verbs.path with
  | true => exact print_ends closed (.path read noHelp noVersion asked finds)
  | false =>
      simp only [Bool.false_eq_true, if_false]
      obtain ⟨after, executed, output, events, _⟩ := HandOver.run_execute closed path arguments
      have shows : Shows found after [] [.execute path (path :: arguments.tail)] := by
        refine ⟨by rw [output, List.append_nil], [], by simp, ?_⟩
        rw [events, List.append_nil]
      rw [World.run_bind, executed, lasting]
      cases execution : parsed.surroundings.executionError with
      | none => exact ⟨_, _, shows, .replaced read noHelp noVersion asked finds execution⟩
      | some errno => exact ⟨_, _, shows, .refused read noHelp noVersion asked finds execution⟩

theorem resolve_ends (closed : parsed.logIsOpen = false) (read : status.failed = false)
    (noHelp : verbs.help = false) (noVersion : verbs.version = false) :
    EndsFrom arguments status verbs parsed parsed
      (parsed.run (resolve verbs (arguments.map some))) := by
  obtain ⟨detected, detecting⟩ := detect_run parsed
  rw [resolve, World.run_bind, detecting]
  cases detected with
  | error failed =>
      refine fail_ends closed failed _ (.missing read noHelp noVersion ?_)
      intro reached
      obtain ⟨path, host, _, _, found, _⟩ := reached
      cases detecting.symm.trans found
  | ok host =>
      dsimp only
      rw [Program.note, World.run_request rfl]
      generalize (Log.Entry.message _) = entry
      obtain ⟨alike, still⟩ := World.writeEntry_alike closed entry
      have noted := shows_of_silent (World.writeEntry_silent closed entry)
      obtain ⟨outcome, found, resolved⟩ := (parsed.writeEntry entry).run_returns
        ((Resolve.run_inner (some ⟨some Release.pinned, some host, .download,
          verbs.reinstall⟩)).mono fun _ => Call.IsInner.returns)
      obtain ⟨quiet, foundClosed, lasting⟩ := resolution_shows still _ resolved
      rw [World.run_bind, resolved]
      apply EndsFrom.of_shows _ (noted.trans quiet)
      cases outcome with
      | error failed =>
          refine fail_ends foundClosed failed _ (.missing read noHelp noVersion ?_)
          intro reached
          obtain ⟨path, finds⟩ := reached
          cases finds.resolved closed detecting alike resolved
      | ok path =>
          exact deliver_ends foundClosed read noHelp noVersion
            ⟨host, _, found, detecting, alike, resolved⟩ (lasting.trans alike.executionError)

/-- The verbs are obeyed in their order. -/
theorem obey_ends (closed : parsed.logIsOpen = false) (read : status.failed = false) :
    EndsFrom arguments status verbs parsed parsed
      (parsed.run (obey verbs (arguments.map some))) := by
  unfold obey
  cases help : verbs.help with
  | true => exact print_ends closed (.help read help)
  | false =>
      cases version : verbs.version with
      | true => exact print_ends closed (.version read help version)
      | false => exact resolve_ends closed read help version

/-- A run reads the verbs, and then it comes to one of its ends. -/
theorem run_ends {world : World} (closed : world.logIsOpen = false)
    (noFile : world.surroundings.setting .logFile = none) (arguments : List Bytes) :
    ∃ status verbs parsed,
      (world.run start).2.run (Verbs.fromEnvironment (some {})) =
        (some (status, some verbs), parsed) ∧
      parsed.logIsOpen = false ∧
      parsed.surroundings.executionError = world.surroundings.executionError ∧
      EndsFrom arguments status verbs parsed world
        (world.run (run (arguments.map some))) := by
  have alike := World.started_alike closed
  have still := world.started_closed
  have started := start_run noFile
  have silent := Verbs.fromEnvironment_silent (some {})
  have reads : world.started.Yields (Verbs.fromEnvironment (some {})) fun outcome _ =>
      ∃ verbs, outcome.2 = some verbs ∧ (outcome.1.failed = true → verbs = {}) :=
    Verbs.yields_fromEnvironment
  obtain ⟨outcome, parsed, bare, ran, _, parsedClosed, verbs, same, nothing⟩ :=
    reads.run (silent.mono fun _ => And.left) still
  obtain ⟨status, read⟩ := outcome
  cases same
  have quiet := World.run_silent silent still
  rw [ran] at quiet
  have shows : Shows world parsed [] [] := by
    refine ⟨by rw [quiet.output, alike.output, List.append_nil], [], by simp, ?_⟩
    rw [quiet.events, alike.events, List.append_nil, List.append_nil]
  refine ⟨status, verbs, parsed, by rw [started, ran], parsedClosed,
    quiet.execution.trans alike.executionError, ?_⟩
  apply EndsFrom.of_shows _ shows
  rw [run, World.run_bind, started]
  dsimp only
  rw [World.run_bind, ran]
  cases failed : status.failed with
  | true =>
      simp only [failed, if_true]
      exact fail_ends parsedClosed status _ (.unread failed (nothing failed))
  | false =>
      simp only [failed, Bool.false_eq_true, if_false, Option.getD_some]
      exact obey_ends parsedClosed failed

/-! ### The contract -/

/-- The launcher is to hand over to the binary: the verbs could be read, none of them asks for
anything else, and the binary is found. -/
structure Launches (status : Status) (verbs : Verbs) (parsed : World) (path : Bytes) : Prop where
  read : status.failed = false
  noHelp : verbs.help = false
  noVersion : verbs.version = false
  noPath : verbs.path = false
  found : Finds parsed verbs path

/-- This is what a caller can rely on, given the verbs that were read. The exit status, the output
and the execution follow from the verbs and from the binary that is found. -/
structure Contract (world : World) (arguments : List Bytes) (status : Status) (verbs : Verbs)
    (parsed : World) (result : Option Int × World) : Prop where
  executes : ∃ fetched, (∀ event ∈ fetched, ∀ path vector, event ≠ .execute path vector) ∧
    ((∃ path, Launches status verbs parsed path ∧
      result.2.transcript.events = world.transcript.events ++ fetched ++
        [.execute path (path :: arguments.tail)]) ∨
    ((¬ ∃ path, Launches status verbs parsed path) ∧
      result.2.transcript.events = world.transcript.events ++ fetched))
  replaced_iff : result.1 = none ↔
    (∃ path, Launches status verbs parsed path) ∧ world.surroundings.executionError = none
  success_iff : result.1 = some 0 ↔ verbs.help = true ∨ verbs.version = true ∨
    (verbs.path = true ∧ ∃ path, Finds parsed verbs path)
  failure : result.1 ≠ none → result.1 ≠ some 0 → result.1 = some 1
  output : ∃ shown, result.2.transcript.output = world.transcript.output ++ shown ∧
    (verbs.help = true → shown = Usage.text) ∧
    (verbs.help = false → verbs.version = true → shown = Release.pinned ++ "\n") ∧
    (verbs.help = false → verbs.version = false → verbs.path = true →
      ∀ path, Finds parsed verbs path → shown = path ++ "\n") ∧
    (verbs.help = false → verbs.version = false →
      ¬ (verbs.path = true ∧ ∃ path, Finds parsed verbs path) → shown = [])

section

variable {answer : Option Int} {shown : Bytes} {executed : List Event}

/-- At an end there is one execution when the launcher is to hand over, and none otherwise. -/
theorem Ends.execution (ends : Ends arguments status verbs parsed answer shown executed) :
    (∃ path, Launches status verbs parsed path ∧
        executed = [.execute path (path :: arguments.tail)]) ∨
      ((¬ ∃ path, Launches status verbs parsed path) ∧ executed = []) := by
  cases ends with
  | unread failed nothing =>
      refine .inr ⟨?_, rfl⟩
      intro reached
      obtain ⟨path, launches⟩ := reached
      cases failed.symm.trans launches.read
  | help read help =>
      refine .inr ⟨?_, rfl⟩
      intro reached
      obtain ⟨path, launches⟩ := reached
      cases help.symm.trans launches.noHelp
  | version read noHelp version =>
      refine .inr ⟨?_, rfl⟩
      intro reached
      obtain ⟨path, launches⟩ := reached
      cases version.symm.trans launches.noVersion
  | missing read noHelp noVersion none =>
      refine .inr ⟨?_, rfl⟩
      intro reached
      obtain ⟨path, launches⟩ := reached
      exact none ⟨path, launches.found⟩
  | path read noHelp noVersion asked found =>
      refine .inr ⟨?_, rfl⟩
      intro reached
      obtain ⟨path, launches⟩ := reached
      cases asked.symm.trans launches.noPath
  | replaced read noHelp noVersion noPath found executes =>
      exact .inl ⟨_, ⟨read, noHelp, noVersion, noPath, found⟩, rfl⟩
  | refused read noHelp noVersion noPath found refuses =>
      exact .inl ⟨_, ⟨read, noHelp, noVersion, noPath, found⟩, rfl⟩

/-- The answer is missing exactly when an execution succeeds. -/
theorem Ends.replaced_iff (ends : Ends arguments status verbs parsed answer shown executed) :
    answer = none ↔
      (∃ path, Launches status verbs parsed path) ∧ parsed.surroundings.executionError = none := by
  have execution := ends.execution
  cases ends with
  | replaced read noHelp noVersion noPath found executes =>
      exact ⟨fun _ => ⟨⟨_, read, noHelp, noVersion, noPath, found⟩, executes⟩, fun _ => rfl⟩
  | refused read noHelp noVersion noPath found refuses => simp [refuses]
  | _ =>
      rcases execution with ⟨_, _, none⟩ | ⟨never, _⟩
      · cases none
      · exact ⟨nofun, fun both => absurd both.1 never⟩

theorem Ends.success_iff (ends : Ends arguments status verbs parsed answer shown executed) :
    answer = some success ↔ verbs.help = true ∨ verbs.version = true ∨
      (verbs.path = true ∧ ∃ path, Finds parsed verbs path) := by
  have distinct : some Launch.failure ≠ some success := by decide
  cases ends with
  | unread failed nothing => simp [distinct, nothing]
  | help read help => simp [help]
  | version read noHelp version => simp [version]
  | missing read noHelp noVersion none => simp [distinct, noHelp, noVersion, not_exists.mp none]
  | path read noHelp noVersion asked found =>
      exact ⟨fun _ => .inr (.inr ⟨asked, _, found⟩), fun _ => rfl⟩
  | replaced read noHelp noVersion noPath found executes => simp [noHelp, noVersion, noPath]
  | refused read noHelp noVersion noPath found refuses =>
      simp [distinct, noHelp, noVersion, noPath]

theorem Ends.failure (ends : Ends arguments status verbs parsed answer shown executed)
    (answered : answer ≠ none) (notSuccess : answer ≠ some success) :
    answer = some Launch.failure := by
  cases ends with
  | replaced => exact absurd rfl answered
  | help => exact absurd rfl notSuccess
  | version => exact absurd rfl notSuccess
  | path => exact absurd rfl notSuccess
  | _ => rfl

/-- What is shown depends on the verbs in their order, and on the binary that is found. -/
theorem Ends.output (ends : Ends arguments status verbs parsed answer shown executed)
    (closed : parsed.logIsOpen = false) :
    (verbs.help = true → shown = Usage.text) ∧
      (verbs.help = false → verbs.version = true → shown = Release.pinned ++ "\n") ∧
      (verbs.help = false → verbs.version = false → verbs.path = true →
        ∀ path, Finds parsed verbs path → shown = path ++ "\n") ∧
      (verbs.help = false → verbs.version = false →
        ¬ (verbs.path = true ∧ ∃ path, Finds parsed verbs path) → shown = []) := by
  cases ends with
  | unread failed nothing => simp [nothing]
  | help read help => simp [help]
  | version read noHelp version => simp [noHelp, version]
  | missing read noHelp noVersion none => simp [noHelp, noVersion, not_exists.mp none]
  | path read noHelp noVersion asked found =>
      refine ⟨by simp [noHelp], by simp [noVersion], fun _ _ _ other finds => ?_, ?_⟩
      · rw [found.unique finds closed]
      · exact fun _ _ never => absurd ⟨asked, _, found⟩ never
  | replaced read noHelp noVersion noPath found executes => simp [noHelp, noVersion, noPath]
  | refused read noHelp noVersion noPath found refuses => simp [noHelp, noVersion, noPath]

end

/-- Whatever the arguments, the verbs and the faults are, a run keeps the contract. -/
theorem run_contract {world : World} (closed : world.logIsOpen = false)
    (noFile : world.surroundings.setting .logFile = none) (arguments : List Bytes) :
    ∃ status verbs parsed,
      (world.run start).2.run (Verbs.fromEnvironment (some {})) =
        (some (status, some verbs), parsed) ∧
      Contract world arguments status verbs parsed (world.run (run (arguments.map some))) := by
  obtain ⟨status, verbs, parsed, read, stillClosed, lasting, shown, executed, shows, ends⟩ :=
    run_ends closed noFile arguments
  refine ⟨status, verbs, parsed, read, ?_, ?_, ends.success_iff, ends.failure,
    shown, shows.output, ends.output stillClosed⟩
  · obtain ⟨fetched, quiet, events⟩ := shows.events
    refine ⟨fetched, quiet, ?_⟩
    rcases ends.execution with ⟨path, launches, rfl⟩ | ⟨never, rfl⟩
    · exact .inl ⟨path, launches, events⟩
    · rw [List.append_nil] at events
      exact .inr ⟨never, events⟩
  · rw [← lasting]
    exact ends.replaced_iff

/-- A file that can be accessed is the override here, so no verb and no download is needed. -/
def overrideWorld : World where
  surroundings := {
    environment := fun setting => if setting = .overridePath then some "/b" else none }
  files := ⟨Tree.empty.put [("b" : Bytes)] (.file 0o755 []), fun _ => none⟩

def overrideArguments : List Bytes := ["launcher", "-v"]

theorem run_contract_overrideWorld :
    ∃ status verbs parsed,
      (overrideWorld.run start).2.run (Verbs.fromEnvironment (some {})) =
        (some (status, some verbs), parsed) ∧
      Contract overrideWorld overrideArguments status verbs parsed
        (overrideWorld.run (run (overrideArguments.map some))) :=
  run_contract rfl (by decide) overrideArguments

example : (overrideWorld.run (run (overrideArguments.map some))).2.transcript.events =
    [.execute "/b" ["/b", "-v"]] := by
  decide +kernel

end Launch

end Launcher
