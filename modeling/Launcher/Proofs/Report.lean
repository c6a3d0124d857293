/-
This file says that the path verb reports what would run. A run with the verb goes like the run
without it, up to the execution that it reports.
-/

import Launcher.Proofs.Contract

namespace Launcher

/-! ### Runs that do not look at the verbs -/

/-- The answer does not depend on the setting of the verbs. -/
def Call.SkipsVerbs : Call → Prop
  | .openLog => False
  | .lookUp setting => setting ≠ .verbs
  | _ => True

theorem Call.OfResolution.skipsVerbs {call : Call} (ofResolution : call.OfResolution) :
    call.SkipsVerbs := by
  have apart : ∀ setting ∈ Resolve.settings, setting ≠ .verbs := by decide
  cases call with
  | lookUp setting => exact apart setting ofResolution
  | openLog => exact ofResolution
  | _ => trivial

namespace World

variable {Answer : Type} {world : World} {call : Call}

/-- The same world with another list of verbs. -/
def withVerbs (world : World) (list : Bytes) : World :=
  { world with surroundings.environment := fun setting =>
      if setting = .verbs then some list else world.surroundings.environment setting }

theorem started_withVerbs (world : World) (list : Bytes) :
    (world.withVerbs list).started = world.started.withVerbs list := by
  unfold started
  rw [closeLog_eq, closeLog_eq]
  rfl

theorem answer_withVerbs (skips : call.SkipsVerbs) (world : World) (list : Bytes) :
    (world.withVerbs list).answer call =
      ((world.answer call).1, (world.answer call).2.withVerbs list) := by
  cases call with
  | file call =>
      have same : (world.withVerbs list).answerFile call =
          ((world.answerFile call).1, (world.answerFile call).2.withVerbs list) := by
        have faults : (world.withVerbs list).faults = world.faults := rfl
        rw [answerFile_eq, answerFile_eq, faults]
        split <;> rfl
      simp only [answer, same]
  | lookUp setting =>
      have other : (world.withVerbs list).surroundings.environment setting =
          world.surroundings.environment setting := if_neg skips
      simp only [answer, other]
  | log entry =>
      simp only [answer, writeEntry_eq]
      rfl
  | closeLog =>
      simp only [answer, closeLog_eq]
      rfl
  | openLog => exact skips.elim
  | _ => rfl

/-- A program that does not look at the verbs runs in the same way whatever they are. -/
theorem run_withVerbs {program : Program Answer} (skips : program.Only Call.SkipsVerbs)
    (world : World) (list : Bytes) :
    (world.withVerbs list).run program =
      ((world.run program).1, (world.run program).2.withVerbs list) := by
  induction program generalizing world with
  | done answer => rfl
  | ask call next inductionHypothesis =>
      rw [run, run, answer_withVerbs skips.1]
      rcases world.answer call with ⟨_ | reply, after⟩
      · rfl
      · exact inductionHypothesis reply (skips.2 reply) after

end World

/-! ### Runs that leave the files alone -/

def Call.KeepsFiles : Call → Prop
  | .file _ => False
  | .fetch _ _ => False
  | _ => True

namespace World

variable {Answer : Type} {world : World}

theorem answerBare_files {call : Call} (keeps : call.KeepsFiles) (world : World) :
    (world.answerBare call).2.files = world.files := by
  cases call with
  | file call => exact keeps.elim
  | fetch address path => exact keeps.elim
  | _ => rfl

theorem runBare_files {program : Program Answer} (keeps : program.Only Call.KeepsFiles)
    (world : World) : (world.runBare program).2.files = world.files := by
  induction program generalizing world with
  | done answer => rfl
  | ask call next inductionHypothesis =>
      have kept := answerBare_files keeps.1 world
      rw [runBare]
      rcases answered : world.answerBare call with ⟨_ | reply, after⟩
      · rw [answered] at kept
        exact kept
      · rw [answered] at kept
        exact (inductionHypothesis reply (keeps.2 reply) after).trans kept

end World

theorem HandOver.run_keepsFiles {world : World} (closed : world.logIsOpen = false) (path : Bytes)
    (arguments : List (Option Bytes)) (count : Int) :
    (world.run (run path arguments count)).2.files = world.files := by
  have plain := (run_afterStart path arguments count).mono fun _ => Call.IsAfterStart.plain
  have keeps : (run path arguments count).Only Call.KeepsFiles :=
    .bind (.request trivial) fun _ => .bind (.request trivial) fun _ =>
      .bind (.request trivial) fun _ => .bind (.request trivial) fun _ => trivial
  obtain ⟨_, alike, _⟩ := (World.Alike.refl world).run plain closed
  rw [alike.files, World.runBare_files keeps]

/-! ### Verbs that ask for nothing else -/

namespace Verbs

variable {world : World} {list : Bytes} {tokens : List Bytes}

/-- These verbs ask for something other than the binary. -/
def diversions : List Bytes := ["help", "version", "path"]

theorem ofToken_of_plain {token : Bytes} (plain : token.lower ∉ diversions) {verb : Verb}
    (read : Verb.ofToken token = some verb) : verb = .reinstall := by
  simp only [diversions, List.mem_cons, List.not_mem_nil, or_false, not_or] at plain
  simp only [Verb.ofToken, plain.1, plain.2.1, plain.2.2, if_false] at read
  split at read <;> cases read
  rfl

/-- The path verb at the end of the tokens sets its flag and no other. -/
theorem addTokens_path (plain : ∀ token ∈ tokens, token.lower ∉ diversions) (verbs : Verbs)
    (noHelp : verbs.help = false) :
    addTokens verbs (tokens ++ [("path" : Bytes)]) =
      addTokens verbs tokens >>= fun read => pure (read.set .path) := by
  induction tokens generalizing verbs with
  | nil =>
      have isPath : Verb.ofToken "path" = some .path := by decide
      have still : (verbs.set .path).help = false := noHelp
      simp [addTokens, isPath, still]
  | cons token others inductionHypothesis =>
      have later := inductionHypothesis fun other among => plain other (by simp [among])
      rw [List.cons_append, addTokens, addTokens]
      cases read : Verb.ofToken token with
      | none =>
          simp only [Program.bind_assoc]
          rw [later verbs noHelp]
      | some verb =>
          cases ofToken_of_plain (plain token (by simp)) read
          have still : (verbs.set .reinstall).help = false := noHelp
          simp only [still, Bool.false_eq_true, if_false]
          exact later _ still

/-- Without a diversion only the installation may be asked for. -/
theorem yields_plain (plain : ∀ token ∈ tokens, token.lower ∉ diversions) (again : Bool) :
    world.Yields (addTokens { reinstall := again } tokens) fun read _ =>
      ∃ again, read = { reinstall := again } := by
  induction tokens generalizing again with
  | nil => exact World.Yields.done ⟨again, rfl⟩
  | cons token others inductionHypothesis =>
      have later := inductionHypothesis fun other among => plain other (by simp [among])
      rw [addTokens]
      cases read : Verb.ofToken token with
      | none =>
          simp only [World.yields_bind, World.yields_note]
          exact later again
      | some verb =>
          cases ofToken_of_plain (plain token (by simp)) read
          exact later true

theorem addTokens_skipsVerbs (verbs : Verbs) (tokens : List Bytes) :
    (addTokens verbs tokens).Only Call.SkipsVerbs :=
  addTokens_only (fun _ => trivial) verbs tokens

/-- The list is read when there is memory for a copy of it. -/
theorem fromEnvironment_withVerbs (world : World) (verbs : Verbs) (list : Bytes) :
    (world.withVerbs list).run (fromEnvironment (some verbs)) =
      if (world.strike .duplicate none).1.isNone then
        ((world.strike .duplicate none).2.withVerbs list).run
          (addTokens verbs (list.fields separator) >>= fun read => pure (.ok, some read))
      else
        (some (.error .configuration .outOfMemory, some verbs),
          (world.strike .duplicate none).2.withVerbs list) := by
  have looked : (world.withVerbs list).answer (.lookUp .verbs) =
      (some (some list), world.withVerbs list) := rfl
  have copied : (world.withVerbs list).answer .duplicate =
      (some (world.strike .duplicate none).1.isNone,
        (world.strike .duplicate none).2.withVerbs list) := rfl
  simp only [fromEnvironment, Program.lookUp, Program.duplicate]
  rw [World.run_request looked, World.run_request copied]
  split <;> rfl

theorem fields_path (list : Bytes) :
    Bytes.fields separator (list ++ ";path") = list.fields separator ++ [("path" : Bytes)] := by
  have shape : ((";path" : Bytes)) = separator :: (("path" : Bytes)) := by decide
  have last : Bytes.fields separator "path" = [("path" : Bytes)] := by decide
  rw [shape, Bytes.fields_append_separator, last]

/-- With the path verb added, the verbs are read in the same way, and its flag is set as well. -/
theorem fromEnvironment_path (closed : world.logIsOpen = false)
    (plain : ∀ token ∈ list.fields separator, token.lower ∉ diversions) :
    ∃ status again asked, ∃ parsed : World, (status.failed = false → asked = true) ∧
      parsed.logIsOpen = false ∧
      (world.withVerbs list).run (fromEnvironment (some {})) =
        (some (status, some { reinstall := again }), parsed.withVerbs list) ∧
      (world.withVerbs (list ++ ";path")).run (fromEnvironment (some {})) =
        (some (status, some { path := asked, reinstall := again }),
          parsed.withVerbs (list ++ ";path")) := by
  have refused : (Status.error .configuration .outOfMemory).failed = true := by decide
  rw [fromEnvironment_withVerbs, fromEnvironment_withVerbs]
  have still : (world.strike .duplicate none).2.logIsOpen = false := closed
  generalize (world.strike .duplicate none).2 = copied at still
  split
  · have skips := addTokens_skipsVerbs {} (list.fields separator)
    have reads : copied.Yields (addTokens {} (list.fields separator)) fun read _ =>
        ∃ again, read = { reinstall := again } := yields_plain plain false
    obtain ⟨read, parsed, _, ran, _, parsedClosed, again, rfl⟩ :=
      reads.run (addTokens_only (fun _ => trivial) _ _) still
    have parses (list : Bytes) := World.run_withVerbs skips copied list
    rw [ran] at parses
    refine ⟨.ok, again, true, parsed, fun _ => rfl, parsedClosed, ?_, ?_⟩
    · rw [World.run_bind, parses]
      rfl
    · rw [fields_path, addTokens_path plain {} rfl, Program.bind_assoc, World.run_bind, parses]
      rfl
  · exact ⟨.error .configuration .outOfMemory, false, false, copied, by simp [refused], still,
      rfl, rfl⟩

end Verbs

/-! ### Reports -/

namespace Launch

/-- The reported run prints the path that the launched run executes, and nothing when there is no
execution. Before that both runs do the same. -/
structure Reports (before : World) (fetched executed : List Event)
    (launched reported : Option Int × World) : Prop where
  tree : reported.2.files.tree = launched.2.files.tree
  quiet : ∀ event ∈ fetched, ∀ path vector, event ≠ .execute path vector
  launches : launched.2.transcript.events = before.transcript.events ++ fetched ++ executed
  reports : reported.2.transcript.events = before.transcript.events ++ fetched
  once : executed = [] ∨ ∃ path vector, executed = [.execute path vector]
  executes_iff : ∀ path, (∃ vector, executed = [.execute path vector]) ↔
    reported.1 = some 0 ∧
      reported.2.transcript.output = before.transcript.output ++ (path ++ "\n")
  fails : executed = [] → launched.1 = some 1 ∧ reported.1 = some 1 ∧
    reported.2.transcript.output = before.transcript.output

variable {before found world : World} {fetched executed : List Event}
  {launched reported : Option Int × World} {list : Bytes}

/-- What was fetched before belongs to both runs. -/
theorem Reports.of_shows (reports : Reports found fetched executed launched reported)
    (shows : Shows before found [] []) :
    ∃ fetched, Reports before fetched executed launched reported := by
  obtain ⟨earlier, quiet, events⟩ := shows.events
  have output : found.transcript.output = before.transcript.output := by
    rw [shows.output, List.append_nil]
  rw [List.append_nil] at events
  refine ⟨earlier ++ fetched, ⟨reports.tree, ?_, ?_, ?_, reports.once, ?_, ?_⟩⟩
  · intro event among
    rcases List.mem_append.mp among with early | late
    · exact quiet event early
    · exact reports.quiet event late
  · rw [reports.launches, events]
    simp only [List.append_assoc]
  · rw [reports.reports, events, List.append_assoc]
  · rw [← output]
    exact reports.executes_iff
  · rw [← output]
    exact reports.fails

/-- Both runs fail in the same way. -/
theorem fail_reports (closed : found.logIsOpen = false) (status : Status) (context list other : Bytes) :
    Reports found [] [] ((found.withVerbs list).run (fail status context))
      ((found.withVerbs other).run (fail status context)) := by
  have skips : (fail status context).Only Call.SkipsVerbs :=
    .bind (.request trivial) fun _ => .bind (.request trivial) fun _ => trivial
  obtain ⟨after, ran, silent⟩ := fail_run closed status context
  rw [World.run_withVerbs skips, World.run_withVerbs skips, ran]
  have events : after.transcript.events = found.transcript.events ++ [] := by
    rw [silent.events, List.append_nil]
  have noSuccess : failure ≠ 0 := by decide
  exact ⟨rfl, by simp, by rw [List.append_nil]; exact events, events, .inl rfl,
    by simp [noSuccess], fun _ => ⟨rfl, rfl, silent.output⟩⟩

/-- The path that is executed without the verb is printed with it. -/
theorem deliver_reports (closed : found.logIsOpen = false) (again : Bool) (path list other : Bytes)
    (arguments : List Bytes) :
    ∃ vector, Reports found [] [.execute path vector]
      ((found.withVerbs list).run (deliver { reinstall := again } path (arguments.map some)))
      ((found.withVerbs other).run
        (deliver { path := true, reinstall := again } path (arguments.map some))) := by
  have launchedClosed : (found.withVerbs list).logIsOpen = false := closed
  have reportedClosed : (found.withVerbs other).logIsOpen = false := closed
  have reported : (found.withVerbs other).run
      (deliver { path := true, reinstall := again } path (arguments.map some)) =
        (some success, (found.withVerbs other).print (path ++ "\n")) :=
    print_run reportedClosed (path ++ "\n") success
  have files := HandOver.run_keepsFiles launchedClosed path (arguments.map some)
    (arguments.map some).length
  obtain ⟨after, ran, _, events, _⟩ := HandOver.run_execute launchedClosed path arguments
  have launched : ∃ answer, (found.withVerbs list).run
      (deliver { reinstall := again } path (arguments.map some)) = (answer, after) := by
    have handsOver : deliver { reinstall := again } path (arguments.map some) =
        HandOver.run path (arguments.map some) (arguments.map some).length >>= fun _ =>
          pure failure := rfl
    rw [handsOver, World.run_bind, ran]
    cases (found.withVerbs list).surroundings.executionError with
    | none => exact ⟨none, rfl⟩
    | some errno => exact ⟨some failure, rfl⟩
  obtain ⟨answer, launched⟩ := launched
  rw [ran] at files
  rw [launched, reported]
  refine ⟨path :: arguments.tail, ⟨?_, by simp, ?_, ?_, .inr ⟨path, _, rfl⟩, ?_, by simp⟩⟩
  · exact (congrArg FileSystem.tree files).symm
  · rw [events, List.append_nil]
    rfl
  · rw [List.append_nil]
    rfl
  · intro other
    constructor
    · intro executed
      obtain ⟨vector, same⟩ := executed
      simp only [List.cons.injEq, Event.execute.injEq, and_true] at same
      rw [same.1]
      exact ⟨rfl, rfl⟩
    · intro shown
      have text := List.append_cancel_right (List.append_cancel_left shown.2)
      exact ⟨_, by rw [text]⟩

theorem resolve_reports (closed : found.logIsOpen = false) (again : Bool) (list other : Bytes)
    (arguments : List Bytes) :
    ∃ fetched executed, Reports found fetched executed
      ((found.withVerbs list).run (resolve { reinstall := again } (arguments.map some)))
      ((found.withVerbs other).run
        (resolve { path := true, reinstall := again } (arguments.map some))) := by
  have detects : Host.detect.Only Call.SkipsVerbs := by
    refine .bind (.request trivial) fun names => ?_
    cases names <;> trivial
  obtain ⟨detected, detecting⟩ := detect_run found
  simp only [resolve]
  rw [World.run_bind, World.run_bind, World.run_withVerbs detects, World.run_withVerbs detects,
    detecting]
  cases detected with
  | error status => exact ⟨_, _, fail_reports closed status _ list other⟩
  | ok host =>
      dsimp only
      generalize entered : (Log.Entry.message ⟨.debug, .launcher, "Detected platform: " ++
        host.systemName ++ "/" ++ host.processorName⟩) = entry
      have notes (list : Bytes) : (found.withVerbs list).answer (.log entry) =
          (some (), (found.writeEntry entry).withVerbs list) :=
        World.answer_withVerbs (show Call.SkipsVerbs (.log entry) from trivial) found list
      rw [Program.note, entered, World.run_request (notes list), World.run_request (notes other)]
      obtain ⟨_, still⟩ := World.writeEntry_alike closed entry
      have noted := shows_of_silent (World.writeEntry_silent closed entry)
      generalize found.writeEntry entry = ready at still noted
      have skips := (Resolve.run_ofResolution (some ⟨some Release.pinned, some host, .download,
        again⟩)).mono fun _ => Call.OfResolution.skipsVerbs
      obtain ⟨outcome, last, resolved⟩ := ready.run_returns
        ((Resolve.run_inner (some ⟨some Release.pinned, some host, .download,
          again⟩)).mono fun _ => Call.IsInner.returns)
      obtain ⟨shows, lastClosed, _⟩ := resolution_shows still _ resolved
      rw [World.run_bind, World.run_bind, World.run_withVerbs skips, World.run_withVerbs skips,
        resolved]
      cases outcome with
      | error status =>
          obtain ⟨fetched, reports⟩ := (fail_reports lastClosed status
            ("Failed to resolve the " ++ Release.program ++ " binary") list other).of_shows
              (noted.trans shows)
          exact ⟨fetched, [], reports⟩
      | ok path =>
          obtain ⟨vector, reports⟩ := deliver_reports lastClosed again path list other arguments
          obtain ⟨fetched, reports⟩ := reports.of_shows (noted.trans shows)
          exact ⟨fetched, _, reports⟩

/-- The path verb reports what would run. -/
theorem run_reported {world : World} {list : Bytes}
    (noFile : world.surroundings.setting .logFile = none)
    (plain : ∀ token ∈ list.fields Verbs.separator, token.lower ∉ Verbs.diversions)
    (arguments : List Bytes) :
    ∃ fetched executed, Reports world fetched executed
      ((world.withVerbs list).run (run (arguments.map some)))
      ((world.withVerbs (list ++ ";path")).run (run (arguments.map some))) := by
  have noFiles (list : Bytes) :
      (world.withVerbs list).surroundings.setting .logFile = none := noFile
  obtain ⟨status, again, asked, parsed, asks, closed, launched, reported⟩ :=
    Verbs.fromEnvironment_path world.started_closed plain
  have startedClosed : (world.started.withVerbs list).logIsOpen = false := world.started_closed
  have silent := World.run_silent (Verbs.fromEnvironment_silent (some {})) startedClosed
  rw [launched] at silent
  have transcript : world.started.transcript = world.transcript := by
    rw [World.started, World.closeLog_eq]
  have shows : Shows world parsed [] [] := by
    have events : parsed.transcript.events = world.transcript.events :=
      silent.events.trans (congrArg Transcript.events transcript)
    have output : parsed.transcript.output = world.transcript.output :=
      silent.output.trans (congrArg Transcript.output transcript)
    refine ⟨by rw [output, List.append_nil], [], by simp, ?_⟩
    rw [events, List.append_nil, List.append_nil]
  rw [run_started (noFiles _), run_started (noFiles _), World.started_withVerbs,
    World.started_withVerbs, rest, World.run_bind, World.run_bind, launched, reported]
  cases failed : status.failed with
  | true =>
      simp only [failed, if_true]
      obtain ⟨fetched, reports⟩ := (fail_reports closed status
        ("Failed to parse " ++ Setting.verbs.name) list (list ++ ";path")).of_shows shows
      exact ⟨fetched, [], reports⟩
  | false =>
      simp only [failed, Bool.false_eq_true, if_false, Option.getD_some, obey, asks failed]
      obtain ⟨fetched, executed, reports⟩ :=
        resolve_reports closed again list (list ++ ";path") arguments
      obtain ⟨fetched, reports⟩ := reports.of_shows shows
      exact ⟨fetched, executed, reports⟩

/-- Unknown tokens and another installation do not stand in the way of a report. -/
def plainVerbs : Bytes := "Reinstall;;unknown"

theorem run_reported_overrideWorld :
    ∃ fetched executed, Reports overrideWorld fetched executed
      ((overrideWorld.withVerbs plainVerbs).run (run (overrideArguments.map some)))
      ((overrideWorld.withVerbs (plainVerbs ++ ";path")).run (run (overrideArguments.map some))) :=
  run_reported (by decide) (by decide) overrideArguments

example : ((overrideWorld.withVerbs (plainVerbs ++ ";path")).run
    (run (overrideArguments.map some))).2.transcript.output = "/b\n" := by
  decide +kernel

end Launch

end Launcher
