/-
This file says what the meter of a download shows. The state of the log keeps one moment for it,
which says when the last line was drawn and also whether a line is open.
-/

import Launcher.Proofs.FirstFailure
import Launcher.Proofs.Levels

namespace Launcher

/-! ### Callbacks and their marks -/

namespace Transfer

/-- A report of progress at its moment. -/
structure Callback where
  total : Int64
  received : Int64
  moment : Int

/-- The reports among the events, with the time that passes before each of them. -/
def callbacks (clock : Int) : List Event → List Callback
  | [] => []
  | .progress total received seconds :: others =>
      ⟨total, received, clock + seconds⟩ :: callbacks (clock + seconds) others
  | .data _ :: others => callbacks clock others

/-- A marked callback says whether a line was drawn for it. -/
abbrev Marked := Callback × Bool

/-- The moment of the last drawn line. -/
def lastDrawn (marks : List Marked) : Option Int :=
  ((marks.filter Prod.snd).getLast?).map fun marked => marked.1.moment

@[simp] theorem lastDrawn_nil : lastDrawn [] = none := rfl

theorem lastDrawn_cons (marked : Marked) (marks : List Marked) :
    lastDrawn (marked :: marks) =
      (lastDrawn marks).or (if marked.2 then some marked.1.moment else none) := by
  unfold lastDrawn
  cases drawn : marked.2 with
  | false => simp [drawn]
  | true => cases later : marks.filter Prod.snd <;> simp [drawn, later, List.getLast?_cons]

/-- Callbacks without a total draw nothing. With a total, the first and the last data are always
shown, and what is between them at most once in a second. -/
structure Disciplined (marks : List Marked) : Prop where
  unknown : ∀ marked ∈ marks, marked.1.total ≤ 0 → marked.2 = false
  ends : ∀ marked ∈ marks, 0 < marked.1.total →
    marked.1.received ≤ 0 ∨ marked.1.total ≤ marked.1.received → marked.2 = true
  between : ∀ front marked back, marks = front ++ marked :: back → 0 < marked.1.received →
    marked.1.received < marked.1.total →
      (marked.2 = true ↔ lastDrawn front = none ∨
        ∃ moment, lastDrawn front = some moment ∧ moment + 1 ≤ marked.1.moment)

end Transfer

namespace Log.Session

open Transfer

variable (address : Bytes) {session : Session} {callback : Callback} {others : List Callback}

/-- What the meter is told by a callback. -/
def shows (session : Session) (callback : Callback) : Bool :=
  0 < callback.total &&
    session.draws callback.moment (Download.reading address callback.total callback.received)

/-- A callback leaves its moment when it draws. -/
def see (session : Session) (callback : Callback) : Session :=
  if session.shows address callback then { session with drawnAt := callback.moment } else session

def marks (session : Session) : List Callback → List Marked
  | [] => []
  | callback :: others =>
      (callback, session.shows address callback) :: marks (session.see address callback) others

theorem marks_callbacks (session : Session) (callbacks : List Callback) :
    (session.marks address callbacks).map Prod.fst = callbacks := by
  induction callbacks generalizing session with
  | nil => rfl
  | cons callback others inductionHypothesis =>
      rw [marks, List.map_cons, inductionHypothesis]

/-- The state keeps the moment of the last drawn line, and nothing else changes. -/
theorem foldl_see (session : Session) (callbacks : List Callback) :
    callbacks.foldl (see address) session = { session with
      drawnAt := (lastDrawn (session.marks address callbacks)).getD session.drawnAt } := by
  induction callbacks generalizing session with
  | nil => rfl
  | cons callback others inductionHypothesis =>
      rw [List.foldl_cons, inductionHypothesis, marks, lastDrawn_cons]
      cases shown : session.shows address callback with
      | false => simp [see, shown]
      | true =>
          cases lastDrawn ((session.see address callback).marks address others) <;>
            simp [see, shown]

/-- The marks in front of a callback tell the state in which it is judged. -/
theorem marks_split {front back : List Marked} {marked : Marked} {callbacks : List Callback}
    (split : session.marks address callbacks = front ++ marked :: back) :
    marked.2 = Session.shows address { session with
      drawnAt := (lastDrawn front).getD session.drawnAt } marked.1 := by
  induction front generalizing session callbacks with
  | nil =>
      cases callbacks with
      | nil => cases split
      | cons callback others =>
          cases split
          rfl
  | cons first front inductionHypothesis =>
      cases callbacks with
      | nil => cases split
      | cons callback others =>
          obtain ⟨rfl, later⟩ := List.cons.inj split
          rw [inductionHypothesis later, lastDrawn_cons]
          cases shown : session.shows address callback with
          | false => simp [see, shown]
          | true => cases lastDrawn front <;> simp [see, shown]

theorem shows_of_hidden (hidden : session.showsMeter = false) (callback : Callback) :
    session.shows address callback = false := by
  simp [shows, draws, hidden]

/-- A meter that is not shown draws nothing. -/
theorem marks_hidden (hidden : session.showsMeter = false) (callbacks : List Callback) :
    ∀ marked ∈ session.marks address callbacks, marked.2 = false := by
  intro marked among
  obtain ⟨front, back, split⟩ := List.append_of_mem among
  rw [marks_split address split]
  have still : ({ session with
      drawnAt := (lastDrawn front).getD session.drawnAt } : Session).showsMeter = false := hidden
  exact shows_of_hidden address still marked.1

/-- A shown meter that starts without a line is disciplined while the clock is positive. -/
theorem marks_disciplined (shown : session.showsMeter = true) (idle : session.drawnAt = 0)
    {callbacks : List Callback} (positive : ∀ callback ∈ callbacks, 0 < callback.moment) :
    Disciplined (session.marks address callbacks) := by
  have judged {front back : List Marked} {marked : Marked}
      (split : session.marks address callbacks = front ++ marked :: back) :
      marked.2 = (decide (0 < marked.1.total) &&
        !(decide (marked.1.moment - (lastDrawn front).getD 0 < 1) &&
          decide (marked.1.received < marked.1.total) && decide (0 < marked.1.received))) := by
    have state : ({ session with drawnAt := (lastDrawn front).getD 0 } : Session).showsMeter =
        true := shown
    rw [marks_split address split, idle, shows, draws, state, Bool.true_and]
    rfl
  constructor
  · intro marked among noTotal
    obtain ⟨front, back, split⟩ := List.append_of_mem among
    have unknown : ¬ 0 < marked.1.total := Int64.not_lt.mpr noTotal
    simp [judged split, unknown]
  · intro marked among total atEnd
    obtain ⟨front, back, split⟩ := List.append_of_mem among
    rcases atEnd with first | last
    · simp [judged split, total, Int64.not_lt.mpr first]
    · simp [judged split, total, Int64.not_lt.mpr last]
  · intro front marked back split some less
    have total : 0 < marked.1.total := Int64.lt_trans some less
    have among : marked.1 ∈ callbacks := by
      rw [← marks_callbacks address session callbacks, split]
      simp
    have moment := positive marked.1 among
    rw [judged split]
    cases lastDrawn front with
    | none =>
        have late : ¬ marked.1.moment < 1 := by omega
        simp [total, late]
    | some last =>
        have late : ¬ marked.1.moment - last < 1 ↔ last + 1 ≤ marked.1.moment := by omega
        simp [total, some, less]
        omega

end Log.Session

/-! ### Calls beside the meter -/

/-- The call that an event of a transfer brings about. -/
def Transfer.Event.call : Transfer.Event → Call
  | .progress _ _ seconds => .pass seconds
  | .data bytes => .file (.write bytes)

/-- Only an event of a transfer brings about such a call. -/
def Call.ofEvent : Call → Bool
  | .pass _ => true
  | .file (.write _) => true
  | _ => false

/-- These calls of a download are for no event, and they leave the meter alone. -/
def Call.BesideMeter : Call → Prop
  | .file (.write _) => False
  | .file _ => True
  | .prepareTransfer => True
  | .transfer _ => True
  | .log (.message _) => True
  | .log (.status _ _ _ _) => True
  | _ => False

theorem Call.BesideMeter.afterStart {call : Call} (beside : call.BesideMeter) :
    call.IsAfterStart := by
  cases call with
  | openLog => exact beside.elim
  | warn text => exact beside.elim
  | lookUp setting => exact beside.elim
  | _ => trivial

theorem Call.OfFill.returns {call : Call} (ofFill : call.OfFill) : call.Returns := by
  cases call with
  | execute path arguments => exact ofFill.elim
  | _ => trivial

namespace Log

/-- A piece is a line when it is not of the meter. -/
def Piece.IsLine (piece : Piece) : Prop := ∃ message terminal, piece = .line message terminal

/-- The meter draws from the left edge on, over what it drew before. -/
def Piece.IsDrawn (piece : Piece) : Prop :=
  ∃ text : Bytes, text ≠ [] ∧ piece = .meter ("\r" ++ text)

theorem Reading.isDrawn_line (reading : Reading) : (Piece.meter reading.line).IsDrawn := by
  simp only [line, List.append_assoc]
  refine ⟨_, ?_, rfl⟩
  -- The bracket in front of the bar is always there.
  exact List.append_ne_nil_of_right_ne_nil _ (List.append_ne_nil_of_right_ne_nil _
    (List.append_ne_nil_of_left_ne_nil (by decide) _))

end Log

namespace World

variable {Answer First : Type} {world after : World} {call : Call}

/-- This is what the meter depends on. -/
structure MeterAlike (after before : World) : Prop where
  log : after.log = before.log
  clock : after.clock = before.clock
  surroundings : after.surroundings = before.surroundings

theorem answer_beside (beside : call.BesideMeter) (world : World) :
    MeterAlike (world.answer call).2 world ∧ call.ofEvent = false ∧
      ∀ piece ∈ world.piecesOf call, piece.IsLine := by
  have afterStart := beside.afterStart
  have step := world.answer_screenStep afterStart
  have surroundings := (world.answer_descends afterStart.plain).surroundings
  have lines (entry : Log.Entry) (isLine : world.pieces entry =
      ((world.log.messages entry).filter fun message => world.log.admits message.level).map
        (Log.Piece.line · world.log.terminal) ++ []) :
      ∀ piece ∈ world.pieces entry, piece.IsLine := by
    intro piece among
    rw [isLine, List.append_nil] at among
    obtain ⟨message, _, rfl⟩ := List.mem_map.mp among
    exact ⟨message, _, rfl⟩
  cases call with
  | file call =>
      refine ⟨⟨step.log, step.clock, surroundings⟩, ?_, by simp [piecesOf]⟩
      cases call with
      | write bytes => exact beside.elim
      | _ => rfl
  | log entry =>
      cases entry with
      | message message => exact ⟨⟨step.log, step.clock, surroundings⟩, rfl, lines _ rfl⟩
      | status level origin status context =>
          exact ⟨⟨step.log, step.clock, surroundings⟩, rfl, lines _ rfl⟩
      | reading reading => exact beside.elim
      | endReadings => exact beside.elim
  | prepareTransfer => exact ⟨⟨step.log, step.clock, surroundings⟩, rfl, by simp [piecesOf]⟩
  | transfer request => exact ⟨⟨step.log, step.clock, surroundings⟩, rfl, by simp [piecesOf]⟩
  | _ => exact beside.elim

theorem run_beside {program : Program Answer} (only : program.Only Call.BesideMeter)
    (world : World) :
    MeterAlike (world.run program).2 world ∧ (world.history program).filter Call.ofEvent = [] ∧
      ∀ piece ∈ world.lines program, piece.IsLine := by
  induction program generalizing world with
  | done answer => exact ⟨⟨rfl, rfl, rfl⟩, rfl, by simp [lines]⟩
  | ask call next inductionHypothesis =>
      obtain ⟨alike, noEvent, isLine⟩ := answer_beside only.1 world
      rw [run, history, lines, List.filter_cons_of_neg (by simp [noEvent])]
      generalize world.answer call = outcome at alike ⊢
      rcases outcome with ⟨_ | reply, after⟩
      · exact ⟨alike, rfl, by simpa using isLine⟩
      · obtain ⟨later, noEvents, areLines⟩ := inductionHypothesis reply (only.2 reply) after
        refine ⟨⟨later.log.trans alike.log, later.clock.trans alike.clock,
          later.surroundings.trans alike.surroundings⟩, noEvents, ?_⟩
        intro piece among
        exact (List.mem_append.mp among).elim (isLine piece) (areLines piece)

/-- The pieces of two programs follow each other as their runs do. -/
theorem lines_bind {program : Program First} {answer : First}
    (ran : world.run program = (some answer, after)) (next : First → Program Answer) :
    world.lines (program >>= next) = world.lines program ++ after.lines (next answer) := by
  induction program generalizing world with
  | done answer =>
      cases ran
      rfl
  | ask call rest inductionHypothesis =>
      rw [run] at ran
      rcases answered : world.answer call with ⟨_ | reply, middle⟩
      · rw [answered] at ran
        cases ran
      · rw [answered] at ran
        simp only [Program.bind_ask, lines, answered, List.append_assoc]
        exact congrArg _ (inductionHypothesis reply ran)

end World

/-! ### The meter of a transfer -/

namespace Download

open Transfer (Marked callbacks)

variable {world : World} {address : Bytes} {program : Program Bool} {taken : List Transfer.Event}
  {complete : Bool} {after : World}

/-- The lines that were drawn. -/
def meterLines (address : Bytes) (marks : List Marked) : List Log.Piece :=
  (marks.filter Prod.snd).map fun marked =>
    .meter (reading address marked.1.total marked.1.received).line

theorem meterLines_cons (marked : Marked) (marks : List Marked) :
    meterLines address (marked :: marks) = (if marked.2 then
      [.meter (reading address marked.1.total marked.1.received).line] else []) ++
        meterLines address marks := by
  unfold meterLines
  cases drawn : marked.2 <;> simp [drawn]

theorem isDrawn_meterLines {marks : List Marked} {piece : Log.Piece}
    (among : piece ∈ meterLines address marks) : piece.IsDrawn := by
  obtain ⟨marked, _, rfl⟩ := List.mem_map.mp among
  exact Log.Reading.isDrawn_line _

/-- The events that are taken from the transport are judged one after the other. -/
structure Receives (world : World) (address : Bytes) (program : Program Bool)
    (taken : List Transfer.Event) (complete : Bool) (after : World) : Prop where
  run : world.run program = (some complete, after)
  calls : (world.history program).filter Call.ofEvent = taken.map Transfer.Event.call
  lines : world.lines program =
    meterLines address (world.log.marks address (callbacks world.clock taken))
  log : after.log = (callbacks world.clock taken).foldl (Log.Session.see address) world.log

/-- A write leaves the meter and the clock alone. -/
theorem Receives.data {bytes : Bytes} {next : Except Errno Unit → Program Bool}
    (later : Receives (world.answerFile (.write bytes)).2 address
      (next (world.answerFile (.write bytes)).1) taken complete after) :
    Receives world address (Program.write bytes >>= next) (.data bytes :: taken) complete after := by
  have answered : world.answer (.file (.write bytes)) =
      (some (world.answerFile (.write bytes)).1, (world.answerFile (.write bytes)).2) := rfl
  constructor
  · rw [Program.write, World.run_request answered, later.run]
  · rw [Program.write, World.history_request answered]
    exact congrArg _ later.calls
  · rw [Program.write, World.lines_request answered, later.lines]
    rfl
  · exact later.log

/-- The world behind a report of progress. -/
def hear (world : World) (address : Bytes) (total received : Int64) (seconds : Int) : World :=
  let passed := { world with clock := world.clock + seconds }
  if 0 < total then passed.writeEntry (.reading (reading address total received)) else passed

theorem hear_clock (world : World) (address : Bytes) (total received : Int64) (seconds : Int) :
    (hear world address total received seconds).clock = world.clock + seconds := by
  unfold hear
  split
  · rw [World.writeEntry_eq]
  · rfl

theorem hear_log (world : World) (address : Bytes) (total received : Int64) (seconds : Int) :
    (hear world address total received seconds).log =
      world.log.see address ⟨total, received, world.clock + seconds⟩ := by
  unfold hear Log.Session.see Log.Session.shows
  split
  · rename_i known
    simp only [World.writeEntry_eq, Log.Session.afterEntry, known, decide_true, Bool.true_and]
  · rename_i unknown
    simp [unknown]

/-- The time passes, and then a line is drawn or not. -/
theorem Receives.progress {total received : Int64} {seconds : Int}
    (later : Receives (hear world address total received seconds) address program taken
      complete after) :
    Receives world address (Program.pass seconds >>= fun _ =>
      if 0 < total then
        Program.noteReading (reading address total received) >>= fun _ => program
      else program) (.progress total received seconds :: taken) complete after := by
  have passed : world.answer (.pass seconds) =
      (some (), { world with clock := world.clock + seconds }) := rfl
  have meter : world.lines (Program.pass seconds >>= fun _ =>
      if 0 < total then
        Program.noteReading (reading address total received) >>= fun _ => program
      else program) =
        (if world.log.shows address ⟨total, received, world.clock + seconds⟩ then
          [.meter (reading address total received).line] else []) ++
            (hear world address total received seconds).lines program := by
    rw [Program.pass, World.lines_request passed, Log.Session.shows]
    by_cases known : 0 < total
    · rw [if_pos known, Program.noteReading, World.lines_request rfl]
      simp only [hear, known, if_true, decide_true, Bool.true_and]
      rfl
    · rw [if_neg known]
      simp [hear, known, World.piecesOf]
  have log := hear_log world address total received seconds
  have clock := hear_clock world address total received seconds
  constructor
  · rw [Program.pass, World.run_request passed, ← later.run]
    unfold hear
    split
    · rw [Program.noteReading, World.run_request rfl]
    · rfl
  · rw [Program.pass, World.history_request passed, List.filter_cons_of_pos rfl, List.map_cons,
      ← later.calls]
    unfold hear
    split
    · rw [Program.noteReading, World.history_request rfl, List.filter_cons_of_neg Bool.false_ne_true]
      rfl
    · rfl
  · rw [meter, later.lines, log, clock, callbacks, Log.Session.marks, meterLines_cons]
  · rw [later.log, log, clock]
    rfl

theorem receive_receives (world : World) (address : Bytes) (events : List Transfer.Event) :
    ∃ taken complete after, taken <+: events ∧
      Receives world address (receive address events) taken complete after := by
  induction events generalizing world with
  | nil => exact ⟨[], true, world, List.prefix_rfl, rfl, rfl, rfl, rfl⟩
  | cons event others inductionHypothesis =>
      cases event with
      | progress total received seconds =>
          obtain ⟨taken, complete, after, front, later⟩ :=
            inductionHypothesis (hear world address total received seconds)
          exact ⟨_, complete, after, (List.prefix_cons_inj _).mpr front, .progress later⟩
      | data bytes =>
          rcases written : (world.answerFile (.write bytes)).1 with errno | ⟨⟩
          · -- Behind a write that is refused no more events are taken.
            refine ⟨[.data bytes], false, (world.answerFile (.write bytes)).2,
              (List.prefix_cons_inj _).mpr List.nil_prefix, .data ?_⟩
            rw [written]
            exact ⟨rfl, rfl, rfl, rfl⟩
          · obtain ⟨taken, complete, after, front, later⟩ :=
              inductionHypothesis (world.answerFile (.write bytes)).2
            refine ⟨_, complete, after, (List.prefix_cons_inj _).mpr front, .data ?_⟩
            rw [written]
            exact later

/-! ### The meter of a download -/

/-- The line that the meter left open is ended. -/
def ending (session : Log.Session) : List Log.Piece :=
  if session.meterOpen then [.meter "\n"] else []

def ended (session : Log.Session) : Log.Session :=
  if session.meterOpen then { session with drawnAt := 0 } else session

/-- First the meter is drawn for the events that are taken, then its line is ended, and behind it
there are messages only. -/
structure Meters {Answer : Type} (world : World) (address : Bytes) (program : Program Answer)
    (taken : List Transfer.Event) (outcome : List Log.Piece) : Prop where
  front : taken <+: world.surroundings.transport.events
  calls : (world.history program).filter Call.ofEvent = taken.map Transfer.Event.call
  lines : world.lines program =
    meterLines address (world.log.marks address (callbacks world.clock taken)) ++
      ending ((callbacks world.clock taken).foldl (Log.Session.see address) world.log) ++ outcome
  outcome : ∀ piece ∈ outcome, piece.IsLine
  log : (world.run program).2.log =
    ended ((callbacks world.clock taken).foldl (Log.Session.see address) world.log)

namespace Meters

variable {First Second : Type} {outcome : List Log.Piece}

/-- Without events nothing is drawn. -/
theorem beside {program : Program First} (only : program.Only Call.BesideMeter)
    (idle : world.log.meterOpen = false) :
    Meters world address program [] (world.lines program) := by
  obtain ⟨alike, noEvent, areLines⟩ := World.run_beside only world
  refine ⟨List.nil_prefix, noEvent, ?_, areLines, ?_⟩
  · simp [callbacks, Log.Session.marks, meterLines, ending, idle]
  · rw [alike.log]
    simp [callbacks, ended, idle]

/-- A call beside the meter may come first when it shows nothing. -/
theorem request {call : Call} {reply : call.Reply} {next : call.Reply → Program First}
    (beside : call.BesideMeter) (unseen : world.piecesOf call = [])
    (answered : world.answer call = (some reply, after))
    (later : Meters after address (next reply) taken outcome) :
    Meters world address (Program.request call >>= next) taken outcome := by
  obtain ⟨alike, noEvent, _⟩ := World.answer_beside beside world
  rw [answered] at alike
  obtain ⟨front, calls, lines, areLines, log⟩ := later
  rw [alike.log, alike.clock] at lines log
  refine ⟨alike.surroundings ▸ front, ?_, ?_, areLines, ?_⟩
  · rw [World.history_request answered, List.filter_cons_of_neg (by simp [noEvent]), calls]
  · rw [World.lines_request answered, unseen, List.nil_append, lines]
  · rw [World.run_request answered, log]

/-- Calls beside the meter may follow. -/
theorem bind {program : Program First} {next : First → Program Second} {answer : First}
    (first : Meters world address program taken outcome)
    (ran : world.run program = (some answer, after))
    (only : (next answer).Only Call.BesideMeter) :
    Meters world address (program >>= next) taken (outcome ++ after.lines (next answer)) := by
  obtain ⟨alike, noEvent, areLines⟩ := World.run_beside only after
  have log := first.log
  rw [ran] at log
  refine ⟨first.front, ?_, ?_, ?_, ?_⟩
  · rw [World.history_bind ran, List.filter_append, noEvent, List.append_nil, first.calls]
  · rw [World.lines_bind ran, first.lines, List.append_assoc]
  · intro piece among
    exact (List.mem_append.mp among).elim (first.outcome piece) (areLines piece)
  · rw [World.run_bind, ran]
    exact alike.log.trans log

end Meters

/-- A transfer is metered, and the line of the meter is ended behind it. -/
theorem carry_meters (world : World) (address : Bytes) (headers : Option (List Bytes)) :
    ∃ taken, Meters world address (carry address headers) taken [] := by
  obtain ⟨taken, complete, after, front, receives⟩ := receive_receives
    (world.witness (.transfer (.to address headers))) address world.surroundings.transport.events
  have shape : carry address headers = Program.request (.transfer (.to address headers)) >>=
      fun script => receive address script.events >>= fun complete =>
        Program.endReadings >>= fun _ =>
          pure (if complete then script.ending else script.ending.stopped) := by
    rw [carry, transfer, Program.bind_assoc]
    congr 1
    funext script
    rw [Program.bind_assoc]
    congr 1
    funext complete
    cases complete <;> rfl
  have asked : world.answer (.transfer (.to address headers)) =
      (some world.surroundings.transport, world.witness (.transfer (.to address headers))) := rfl
  have log : (world.witness (.transfer (.to address headers))).log = world.log := rfl
  have clock : (world.witness (.transfer (.to address headers))).clock = world.clock := rfl
  refine ⟨taken, front, ?_, ?_, by simp, ?_⟩
  · rw [shape, World.history_request asked, World.history_bind receives.run,
      List.filter_cons_of_neg Bool.false_ne_true, List.filter_append, receives.calls,
      Program.endReadings, World.history_request rfl, List.filter_cons_of_neg Bool.false_ne_true]
    exact List.append_nil _
  · have meter : after.piecesOf (.log .endReadings) = ending after.log := rfl
    have unseen : world.piecesOf (.transfer (.to address headers)) = [] := rfl
    rw [shape, World.lines_request asked, World.lines_bind receives.run, receives.lines,
      Program.endReadings, World.lines_request rfl, meter, receives.log, unseen]
    simp only [log, clock, List.nil_append, List.append_nil, Program.pure_eq, World.lines]
  · have last : (after.writeEntry .endReadings).log = ended after.log := by
      rw [World.writeEntry_eq]
      rfl
    rw [shape, World.run_request asked, World.run_bind, receives.run]
    dsimp only
    rw [Program.endReadings, World.run_request rfl, ← clock, ← log, ← receives.log]
    exact last

theorem settle_beside (address : Bytes) (ending : Transfer.Ending) :
    (settle address ending).Only Call.BesideMeter :=
  settle_only (fun _ => trivial) (fun _ _ _ _ => trivial) trivial address ending

theorem finish_beside (status : Status) : (finish status).Only Call.BesideMeter :=
  finish_only (fun _ _ _ _ => trivial) trivial status

theorem leave_beside (output : Bytes) (regular : Bool) (status : Status) :
    (leave output regular status).Only Call.BesideMeter := by
  unfold leave discard
  split
  · split
    · exact .bind (.bind (.request trivial) fun _ => trivial) fun _ => trivial
    · trivial
  · trivial

theorem fill_meters (idle : world.log.meterOpen = false) (address : Bytes)
    (headers : Option (List Bytes)) :
    ∃ taken outcome, Meters world address (fill address headers) taken outcome := by
  rw [fill_eq_carry]
  cases available : world.surroundings.transport.available with
  | false =>
      refine ⟨[], _, .request trivial rfl (congrArg (some · , world) available) (.beside ?_ idle)⟩
      exact .bind (.request trivial) fun _ => trivial
  | true =>
      obtain ⟨taken, meters⟩ := carry_meters world address headers
      obtain ⟨ending, after, ran⟩ := world.run_returns
        ((carry_inner address headers).mono fun _ => Call.IsInner.returns)
      refine ⟨taken, _, .request trivial rfl (congrArg (some · , world) available)
        (meters.bind ran ?_)⟩
      exact .bind (settle_beside address ending) finish_beside

/-- Whatever becomes of a download, its meter comes first and its messages follow. -/
theorem file_meters (idle : world.log.meterOpen = false) (address output : Option Bytes)
    (headers : Option (List Bytes)) :
    ∃ taken outcome,
      Meters world (address.getD []) (file address output headers) taken outcome := by
  rcases address with _ | address
  · exact ⟨[], _, .beside (show (pure _ : Program Status).Only Call.BesideMeter from trivial) idle⟩
  rcases output with _ | output
  · exact ⟨[], _, .beside (show (pure _ : Program Status).Only Call.BesideMeter from trivial) idle⟩
  rw [file_eq_fill]
  have opening : world.answer (.file (.openOutput output)) =
    (some (world.answerFile (.openOutput output)).1, (world.answerFile (.openOutput output)).2) := rfl
  have still : (world.answerFile (.openOutput output)).2.log.meterOpen = false := by
    have beside : (Call.file (.openOutput output)).BesideMeter := trivial
    exact (congrArg _ (World.answer_beside beside world).1.log).trans idle
  cases opened : (world.answerFile (.openOutput output)).1 with
  | error errno =>
      rw [opened] at opening
      exact ⟨[], _, .request trivial rfl opening (.beside trivial still)⟩
  | ok =>
      rw [opened] at opening
      obtain ⟨taken, outcome, meters⟩ :=
        fill_meters still address headers
      obtain ⟨status, after, ran⟩ := (world.answerFile (.openOutput output)).2.run_returns
        ((fill_ofFill address headers).mono fun _ => Call.OfFill.returns)
      exact ⟨taken, _, .request trivial rfl opening (.request trivial rfl rfl
        (meters.bind ran (leave_beside output _ status)))⟩

/-- One newline ends the line of a meter that drew something. -/
def newline (marks : List Marked) : List Log.Piece :=
  if (Transfer.lastDrawn marks).isSome then [.meter "\n"] else []

/-- A download draws its meter for the events that it takes from the transport, then the line is
closed, and last come the messages about the outcome. Each line is drawn from the left edge on. A
meter that is shown keeps its discipline. -/
structure KeepsMeter (world : World) (address : Bytes) (program : Program Status)
    (taken : List Transfer.Event) (marks : List Marked) (closing outcome : List Log.Piece) :
    Prop where
  front : taken <+: world.surroundings.transport.events
  calls : (world.history program).filter Call.ofEvent = taken.map Transfer.Event.call
  callbacks : marks.map Prod.fst = Transfer.callbacks world.clock taken
  lines : world.lines program = meterLines address marks ++ closing ++ outcome
  drawn : ∀ piece ∈ meterLines address marks, piece.IsDrawn
  messages : ∀ piece ∈ outcome, piece.IsLine
  screen : (world.run program).2.transcript.screen = world.transcript.screen ++
    (meterLines address marks ++ closing ++ outcome).flatMap Log.Piece.text
  shown : world.log.terminal = true → .information ≤ world.log.level →
    (∀ callback ∈ Transfer.callbacks world.clock taken, 0 < callback.moment) →
      Transfer.Disciplined marks ∧ closing = newline marks ∧
        (world.run program).2.log.drawnAt = 0
  hidden : world.log.terminal = false ∨ world.log.level < .information →
    (∀ marked ∈ marks, marked.2 = false) ∧ closing = [] ∧ (world.run program).2.log.drawnAt = 0

/-- The moment of the meter tells in the end whether a line is open, when all moments are
positive. -/
theorem open_iff (address : Bytes) {session : Log.Session} (terminal : session.terminal = true)
    (idle : session.drawnAt = 0) {callbacks : List Transfer.Callback}
    (positive : ∀ callback ∈ callbacks, 0 < callback.moment) :
    (callbacks.foldl (Log.Session.see address) session).meterOpen =
      (Transfer.lastDrawn (session.marks address callbacks)).isSome := by
  rw [Log.Session.foldl_see, Log.Session.meterOpen, idle, terminal, Bool.true_and]
  cases last : Transfer.lastDrawn (session.marks address callbacks) with
  | none => rfl
  | some moment =>
      obtain ⟨marked, drawn, rfl⟩ := Option.map_eq_some_iff.mp last
      have among := (List.mem_filter.mp (List.mem_of_getLast? drawn)).1
      have known : marked.1 ∈ callbacks := by
        rw [← Log.Session.marks_callbacks address session callbacks]
        exact List.mem_map_of_mem among
      simpa using positive marked.1 known

theorem lastDrawn_hidden {marks : List Marked} (hidden : ∀ marked ∈ marks, marked.2 = false) :
    Transfer.lastDrawn marks = none := by
  have none : marks.filter Prod.snd = [] :=
    List.filter_eq_nil_iff.mpr fun marked among => by simp [hidden marked among]
  rw [Transfer.lastDrawn, none]
  rfl

/-- A download that starts without an open line keeps its meter. -/
theorem file_keepsMeter (idle : world.log.drawnAt = 0) (address output : Option Bytes)
    (headers : Option (List Bytes)) :
    ∃ taken marks closing outcome, KeepsMeter world (address.getD [])
      (file address output headers) taken marks closing outcome := by
  have quiet : world.log.meterOpen = false := by simp [Log.Session.meterOpen, idle]
  have afterStart := (file_ofResolution address output headers).mono fun _ calls =>
    calls.inner.afterStart
  obtain ⟨taken, outcome, meters⟩ := file_meters quiet address output headers
  refine ⟨taken, _, _, outcome, meters.front, meters.calls, Log.Session.marks_callbacks _ _ _,
    meters.lines, fun _ => isDrawn_meterLines, meters.outcome, ?_, ?_, ?_⟩
  · rw [World.run_screen afterStart, meters.lines]
  · intro terminal level positive
    have shown : world.log.showsMeter = true := by simp [Log.Session.showsMeter, terminal, level]
    have isOpen := open_iff (address.getD []) terminal idle positive
    refine ⟨Log.Session.marks_disciplined _ shown idle positive, ?_, ?_⟩
    · rw [ending, isOpen, newline]
    · rw [meters.log, ended, isOpen]
      split
      · rfl
      · rename_i none
        rw [Log.Session.foldl_see, Option.not_isSome_iff_eq_none.mp none]
        exact idle
  · intro hidden
    have unshown : world.log.showsMeter = false := by
      rcases hidden with noTerminal | below
      · simp [Log.Session.showsMeter, noTerminal]
      · simp [Log.Session.showsMeter, Level.not_le.mpr below]
    have marks := Log.Session.marks_hidden (address.getD []) unshown
      (Transfer.callbacks world.clock taken)
    have still : (Transfer.callbacks world.clock taken).foldl
        (Log.Session.see (address.getD [])) world.log = world.log := by
      rw [Log.Session.foldl_see, lastDrawn_hidden marks]
      rfl
    refine ⟨marks, ?_, ?_⟩
    · simp [still, ending, quiet]
    · rw [meters.log, still, ended, quiet]
      exact idle

/-- Three reports come within one second, and only the one in the middle is left out. -/
def meterWorld : World where
  surroundings := { terminal := true, transport := { events :=
    [.progress 100 0 1, .progress 100 50 0, .progress 100 100 0] } }
  log := { terminal := true }

theorem file_keepsMeter_meterWorld :
    ∃ taken marks closing outcome, KeepsMeter meterWorld "https://h/f"
      (file (some "https://h/f") (some "/f") none) taken marks closing outcome ∧
        taken.length = 3 := by
  have idle : meterWorld.log.drawnAt = 0 := rfl
  obtain ⟨taken, marks, closing, outcome, keeps⟩ :=
    file_keepsMeter idle (some "https://h/f") (some "/f") none
  refine ⟨taken, marks, closing, outcome, keeps, ?_⟩
  have calls : (meterWorld.history (file (some "https://h/f") (some "/f") none)).filter
      Call.ofEvent = [.pass 1, .pass 0, .pass 0] := by rfl
  have same := congrArg List.length (keeps.calls.symm.trans calls)
  rwa [List.length_map] at same

end Download

end Launcher
