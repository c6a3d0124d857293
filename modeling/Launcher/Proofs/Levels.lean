/-
This file says that the selected level of the log only filters the screen. A run at the level
`debug` shows everything, and any other level leaves out what is above it.
-/

import Launcher.Proofs.Indifference
import Launcher.Proofs.Screen

namespace Launcher

namespace Level

variable {first second third : Level}

theorem le_trans (left : first ≤ second) (right : second ≤ third) : first ≤ third :=
  UInt8.le_trans left right

theorem not_lt : ¬ first < second ↔ second ≤ first := UInt8.not_lt

theorem not_le : ¬ first ≤ second ↔ second < first := UInt8.not_le

/-- Only `debug` itself is among the selected levels when it is one of them. -/
theorem debug_le_iff (selected : first ≤ debug) : debug ≤ first ↔ first = debug := by
  constructor
  · intro above
    have same : first.rank = debug.rank := UInt8.le_antisymm selected above
    exact congrArg Level.mk same
  · rintro rfl
    exact selected

theorem silent_lt (notSilent : first ≠ silent) : silent < first := by
  have notZero : first.rank ≠ 0 := fun zero => notSilent (congrArg Level.mk zero)
  exact UInt8.pos_iff_ne_zero.mpr notZero

/-- A name selects one of the levels up to `debug`. -/
theorem ofName_le (name : Bytes) : ofName name ≤ debug := by
  have all : ∀ entry ∈ names, entry.2 ≤ debug := by decide
  unfold ofName
  split
  · decide
  · cases found : names.lookup name.lower with
    | none => decide
    | some level =>
        obtain ⟨before, after, shape, _⟩ := List.lookup_eq_some_iff.mp found
        have among : (name.lower, level) ∈ names := by simp [shape]
        exact all _ among

end Level

theorem Surroundings.logLevel_le (surroundings : Surroundings) :
    surroundings.logLevel ≤ .debug := by
  unfold logLevel
  split
  · decide
  · exact Level.ofName_le _

namespace Log

/-! ### Entries at two levels -/

namespace Session

variable {dim bright : Session}

/-- A bright session shows everything. A dim one may have a lower level, and its meter is only in use
when information is shown. -/
structure Dims (dim bright : Session) : Prop where
  selected : dim.level ≤ .debug
  everything : bright.level = .debug
  terminal : dim.terminal = bright.terminal
  drawnAt : dim.drawnAt = if .information ≤ dim.level then bright.drawnAt else 0

namespace Dims

theorem admits_eq (dims : Dims dim bright) (level : Level) :
    dim.admits level = (decide (level ≤ dim.level) && bright.admits level) := by
  rw [Bool.eq_iff_iff, admits, admits, dims.everything]
  simp only [Bool.and_eq_true, decide_eq_true_eq]
  constructor
  · intro admitted
    exact ⟨admitted.2, admitted.1, Level.le_trans admitted.2 dims.selected⟩
  · intro admitted
    exact ⟨admitted.2.1, admitted.1⟩

theorem admits_debug (dims : Dims dim bright) (lower : dim.level ≠ .debug) :
    dim.admits .debug = false := by
  have above : ¬ Level.debug ≤ dim.level := fun among =>
    lower ((Level.debug_le_iff dims.selected).mp among)
  simp [admits, above]

/-- The messages of a status are not the same at two levels, but those of them are that the lower
level admits. -/
theorem statusMessages_filter (dims : Dims dim bright) (level : Level) (origin : Origin)
    (status : Status) (context : Option Bytes) :
    (dim.statusMessages level origin status context).filter (dim.admits ·.level) =
      (bright.statusMessages level origin status context).filter (dim.admits ·.level) := by
  unfold statusMessages
  rw [dims.everything]
  split
  · rfl
  · by_cases above : dim.level < level
    · -- Here the lower level shows nothing, and at `debug` the details are not admitted either.
      have hidden : dim.admits level = false := by
        simp [admits, Level.not_le.mpr above]
      rw [if_pos above]
      by_cases beyond : Level.debug < level
      · rw [if_pos beyond]
      · have lower : dim.level ≠ .debug := fun same => beyond (same ▸ above)
        simp [if_neg beyond, hidden, dims.admits_debug lower]
    · have within : ¬ Level.debug < level :=
        Level.not_lt.mpr (Level.le_trans (Level.not_lt.mp above) dims.selected)
      rw [if_neg above, if_neg within]
      by_cases same : dim.level = .debug
      · rw [if_pos same, if_pos rfl]
      · simp [if_neg same, dims.admits_debug same, List.filter_cons]

theorem messages_filter (dims : Dims dim bright) (entry : Entry) :
    (dim.messages entry).filter (dim.admits ·.level) =
      ((bright.messages entry).filter (bright.admits ·.level)).filter (·.level ≤ dim.level) := by
  have same : (dim.messages entry).filter (dim.admits ·.level) =
      (bright.messages entry).filter (dim.admits ·.level) := by
    cases entry with
    | status level origin status context =>
        exact dims.statusMessages_filter level origin status context
    | _ => rfl
  rw [same, List.filter_filter]
  exact List.filter_congr fun message _ => dims.admits_eq message.level

theorem draws_eq (dims : Dims dim bright) (moment : Int) (reading : Reading) :
    dim.draws moment reading =
      (decide (Level.information ≤ dim.level) && bright.draws moment reading) := by
  have shown : Level.information ≤ bright.level := by
    rw [dims.everything]
    decide
  simp only [draws, showsMeter, dims.terminal, dims.drawnAt, shown, decide_true, Bool.and_true]
  by_cases informed : Level.information ≤ dim.level
  · simp [informed]
  · simp [informed]

theorem meterOpen_eq (dims : Dims dim bright) :
    dim.meterOpen = (decide (Level.information ≤ dim.level) && bright.meterOpen) := by
  simp only [meterOpen, dims.terminal, dims.drawnAt]
  by_cases informed : Level.information ≤ dim.level
  · simp [informed]
  · simp [informed]

/-- A dim session shows the pieces of a bright one up to its level. -/
theorem pieces_eq (dims : Dims dim bright) (moment : Int) (entry : Entry) :
    dim.pieces moment entry =
      (bright.pieces moment entry).filter fun piece => piece.level ≤ dim.level := by
  have lines : ((dim.messages entry).filter fun message => dim.admits message.level).map
      (Piece.line · dim.terminal) =
        (((bright.messages entry).filter fun message => bright.admits message.level).map
          (Piece.line · bright.terminal)).filter fun piece => piece.level ≤ dim.level := by
    rw [dims.messages_filter, dims.terminal, List.filter_map]
    rfl
  unfold pieces
  rw [List.filter_append, lines]
  congr 1
  cases entry with
  | message message => rfl
  | status level origin status context => rfl
  | reading reading =>
      dsimp only
      rw [dims.draws_eq]
      by_cases informed : Level.information ≤ dim.level
      · cases bright.draws moment reading <;> simp [informed, Piece.level]
      · cases bright.draws moment reading <;> simp [informed, Piece.level]
  | endReadings =>
      dsimp only
      rw [dims.meterOpen_eq]
      by_cases informed : Level.information ≤ dim.level
      · cases bright.meterOpen <;> simp [informed, Piece.level]
      · cases bright.meterOpen <;> simp [informed, Piece.level]

/-- The dim session only takes the moment of a drawing over when its meter is in use. -/
theorem redrawn (dims : Dims dim bright) (moment : Int) :
    Dims (if .information ≤ dim.level then { dim with drawnAt := moment } else dim)
      { bright with drawnAt := moment } := by
  by_cases informed : Level.information ≤ dim.level
  · rw [if_pos informed]
    exact ⟨dims.selected, dims.everything, dims.terminal, (if_pos informed).symm⟩
  · rw [if_neg informed]
    have closed : dim.drawnAt = 0 := dims.drawnAt.trans (if_neg informed)
    exact ⟨dims.selected, dims.everything, dims.terminal, closed.trans (if_neg informed).symm⟩

/-- An entry leaves the sessions as they are to each other. -/
theorem afterEntry (dims : Dims dim bright) (moment : Int) (entry : Entry) :
    Dims (dim.afterEntry moment entry) (bright.afterEntry moment entry) := by
  cases entry with
  | message message => exact dims
  | status level origin status context => exact dims
  | reading reading =>
      have redrawn := dims.redrawn moment
      simp only [Session.afterEntry, dims.draws_eq]
      cases bright.draws moment reading with
      | false => simpa using dims
      | true => simpa using redrawn
  | endReadings =>
      have redrawn := dims.redrawn 0
      simp only [Session.afterEntry, dims.meterOpen_eq]
      cases bright.meterOpen with
      | false => simpa using dims
      | true => simpa using redrawn

end Dims

theorem afterEntry_level (session : Session) (moment : Int) (entry : Entry) :
    (session.afterEntry moment entry).level = session.level := by
  unfold afterEntry
  cases entry with
  | reading reading => dsimp only; split <;> rfl
  | endReadings => dsimp only; split <;> rfl
  | _ => rfl

/-- No piece is silent, and at `debug` every piece has a level that can be selected. -/
theorem pieces_level (everything : bright.level = .debug) {moment : Int} {entry : Entry}
    {piece : Piece} (among : piece ∈ bright.pieces moment entry) :
    .silent < piece.level ∧ piece.level ≤ .debug := by
  unfold pieces at among
  rcases List.mem_append.mp among with isLine | isMeter
  · obtain ⟨message, shown, rfl⟩ := List.mem_map.mp isLine
    have admitted := (List.mem_filter.mp shown).2
    rw [admits, everything] at admitted
    simp only [Bool.and_eq_true, decide_eq_true_eq] at admitted
    exact ⟨Level.silent_lt admitted.1, admitted.2⟩
  · have meter : piece.level = .information := by
      cases entry with
      | reading reading =>
          dsimp only at isMeter
          split at isMeter
          · rw [List.mem_singleton.mp isMeter]
            rfl
          · cases isMeter
      | endReadings =>
          dsimp only at isMeter
          split at isMeter
          · rw [List.mem_singleton.mp isMeter]
            rfl
          · cases isMeter
      | _ => cases isMeter
    rw [meter]
    decide

end Session

end Log

/-! ### Runs at two levels -/

namespace World

variable {Answer : Type} {world dim bright : World}

/-- Only an entry of the log shows something after the start. -/
def piecesOf (world : World) : Call → List Log.Piece
  | .log entry => world.pieces entry
  | _ => []

/-- The pieces that a run shows, in their order. -/
def lines (world : World) : Program Answer → List Log.Piece
  | .done _ => []
  | .ask call next => world.piecesOf call ++ match world.answer call with
      | (some reply, after) => after.lines (next reply)
      | (none, _) => []

theorem lines_request {First : Type} {call : Call} {reply : call.Reply} {after : World}
    (answered : world.answer call = (some reply, after)) (next : call.Reply → Program First) :
    world.lines (Program.request call >>= next) = world.piecesOf call ++ after.lines (next reply) := by
  simp only [Program.request, Program.bind_ask, Program.bind_done, lines, answered]

def logAfter (world : World) : Call → Log.Session
  | .log entry => world.log.afterEntry world.clock entry
  | _ => world.log

def clockAfter (world : World) : Call → Int
  | .pass seconds => world.clock + seconds
  | _ => world.clock

/-- This is what a call does to the screen, the log and the clock. -/
structure ScreenStep (world : World) (call : Call) (after : World) : Prop where
  screen : after.transcript.screen =
    world.transcript.screen ++ (world.piecesOf call).flatMap Log.Piece.text
  log : after.log = world.logAfter call
  clock : after.clock = world.clockAfter call

theorem answer_screenStep (world : World) {call : Call} (afterStart : call.IsAfterStart) :
    world.ScreenStep call (world.answer call).2 := by
  cases call with
  | log entry =>
      rw [answer, writeEntry_eq]
      exact ⟨rfl, rfl, rfl⟩
  | file call =>
      have kept : (world.answerFile call).2.transcript = world.transcript ∧
          (world.answerFile call).2.log = world.log ∧
          (world.answerFile call).2.clock = world.clock := by
        rw [answerFile_eq]
        split <;> exact ⟨rfl, rfl, rfl⟩
      exact ⟨screen_still (congrArg Transcript.screen kept.1), kept.2.1, kept.2.2⟩
  | closeLog =>
      rw [answer, closeLog_eq]
      exact ⟨screen_still rfl, rfl, rfl⟩
  | openLog => exact afterStart.elim
  | warn text => exact afterStart.elim
  | _ => exact ⟨screen_still rfl, rfl, rfl⟩

theorem ScreenStep.level {call : Call} {after : World} (step : world.ScreenStep call after) :
    after.log.level = world.log.level := by
  rw [step.log]
  cases call with
  | log entry => exact world.log.afterEntry_level world.clock entry
  | _ => rfl

/-- A run shows its lines. -/
theorem run_screen {program : Program Answer} (afterStart : program.Only Call.IsAfterStart) :
    (world.run program).2.transcript.screen =
      world.transcript.screen ++ (world.lines program).flatMap Log.Piece.text := by
  induction program generalizing world with
  | done answer => simp [lines]
  | ask call next inductionHypothesis =>
      have step := world.answer_screenStep afterStart.1
      rw [World.run, lines, List.flatMap_append, ← List.append_assoc, ← step.screen]
      rcases world.answer call with ⟨_ | reply, after⟩
      · simp
      · exact inductionHypothesis reply (afterStart.2 reply)

/-- No line is silent, and at `debug` every line has a level that can be selected. -/
theorem lines_level {program : Program Answer} (afterStart : program.Only Call.IsAfterStart)
    (everything : world.log.level = .debug) :
    ∀ piece ∈ world.lines program, .silent < piece.level ∧ piece.level ≤ .debug := by
  induction program generalizing world with
  | done answer => simp [lines]
  | ask call next inductionHypothesis =>
      have step := world.answer_screenStep afterStart.1
      intro piece among
      rw [lines, List.mem_append] at among
      rcases among with first | later
      · cases call with
        | log entry => exact Log.Session.pieces_level everything first
        | _ => cases first
      · split at later
        · rename_i reply after answered
          rw [answered] at step
          exact inductionHypothesis reply (afterStart.2 reply) (step.level.trans everything)
            piece later
        · cases later

/-- Two worlds are alike, and their logs differ in the selected level. -/
structure Dims (dim bright : World) : Prop where
  alike : dim.Alike bright
  closed : dim.logIsOpen = false
  sessions : Log.Session.Dims dim.log bright.log
  clock : dim.clock = bright.clock

namespace Dims

theorem piecesOf_eq (dims : Dims dim bright) (call : Call) :
    dim.piecesOf call = (bright.piecesOf call).filter fun piece => piece.level ≤ dim.log.level := by
  cases call with
  | log entry =>
      have same := dims.sessions.pieces_eq dim.clock entry
      rw [dims.clock] at same
      rw [piecesOf, piecesOf, pieces, pieces, dims.clock, same]
  | _ => rfl

/-- A call is answered in the same way, and the worlds stay as they are to each other. -/
theorem answer (dims : Dims dim bright) {call : Call} (afterStart : call.IsAfterStart) :
    (dim.answer call).1 = (bright.answer call).1 ∧
      Dims (dim.answer call).2 (bright.answer call).2 := by
  obtain ⟨same, alike, closed⟩ := dims.alike.answers dims.closed afterStart.plain
  have dimStep := dim.answer_screenStep afterStart
  have brightStep := bright.answer_screenStep afterStart
  refine ⟨same, alike, closed, ?_, ?_⟩
  · rw [dimStep.log, brightStep.log]
    cases call with
    | log entry =>
        rw [logAfter, logAfter, dims.clock]
        exact dims.sessions.afterEntry bright.clock entry
    | _ => exact dims.sessions
  · rw [dimStep.clock, brightStep.clock]
    cases call with
    | pass seconds => exact congrArg (· + seconds) dims.clock
    | _ => exact dims.clock

/-- The dim run has the lines of the bright run up to its level. -/
theorem lines_eq {program : Program Answer} (dims : Dims dim bright)
    (afterStart : program.Only Call.IsAfterStart) :
    dim.lines program =
      (bright.lines program).filter fun piece => piece.level ≤ dim.log.level := by
  induction program generalizing dim bright with
  | done answer => rfl
  | ask call next inductionHypothesis =>
      obtain ⟨same, after⟩ := dims.answer afterStart.1
      have level := (dim.answer_screenStep afterStart.1).level
      rw [lines, lines, List.filter_append, dims.piecesOf_eq]
      generalize dim.answer call = dimOutcome at same after level ⊢
      generalize bright.answer call = brightOutcome at same after ⊢
      obtain ⟨reply, dimAfter⟩ := dimOutcome
      obtain ⟨_, brightAfter⟩ := brightOutcome
      cases same
      cases reply with
      | none => rfl
      | some reply =>
          have later := inductionHypothesis reply after (afterStart.2 reply)
          rw [level] at later
          exact congrArg _ later

end Dims

/-- The same world with another setting for the level of the log. -/
def withLogLevel (world : World) (name : Option Bytes) : World :=
  { world with surroundings.environment := fun setting =>
      if setting = .logLevel then name else world.surroundings.environment setting }

/-- Only the level of the log depends on its setting. -/
theorem started_withLogLevel (world : World) (name : Option Bytes) :
    (world.withLogLevel name).started = { world.started with
      surroundings := (world.withLogLevel name).surroundings
      log.level := (world.withLogLevel name).surroundings.logLevel } := by
  unfold started
  rw [closeLog_eq, closeLog_eq]
  rfl

/-- At the setting `debug` the log shows everything. -/
def brightest (world : World) : World := (world.withLogLevel (some "debug")).started

theorem brightest_level (world : World) : world.brightest.log.level = .debug := by
  rw [brightest, started_withLogLevel]
  show (world.withLogLevel (some "debug")).surroundings.logLevel = .debug
  have named : Level.ofName "debug" = .debug := by decide
  exact named

/-- While no meter line is open, the level of the log is all that its setting changes. -/
theorem started_dims (idle : world.log.drawnAt = 0) (name : Option Bytes) :
    Dims (world.withLogLevel name).started world.brightest := by
  have still : world.started.log.drawnAt = 0 := by
    rw [started, closeLog_eq]
    exact idle
  constructor
  · rw [brightest, started_withLogLevel, started_withLogLevel]
    constructor
    case environment =>
      intro setting notLevel _
      simp [withLogLevel, notLevel]
    all_goals rfl
  · exact started_closed _
  · have everything := world.brightest_level
    rw [brightest, started_withLogLevel] at everything ⊢
    rw [started_withLogLevel]
    constructor
    · exact Surroundings.logLevel_le _
    · exact everything
    · rfl
    · simp [still]
  · rw [brightest, started_withLogLevel, started_withLogLevel]

end World

namespace Launch

/-- There is one list of lines for all levels, and a run shows those that its level admits. A silent
run shows nothing. -/
theorem screen_filtered {world : World} (noFile : world.surroundings.setting .logFile = none)
    (idle : world.log.drawnAt = 0) (arguments : List (Option Bytes)) :
    ∃ lines : List Log.Piece,
      (∀ piece ∈ lines, .silent < piece.level ∧ piece.level ≤ .debug) ∧
      ∀ name : Option Bytes,
        let chosen := world.withLogLevel name
        let shown := (chosen.run (run arguments)).2.transcript.screen
        shown = world.transcript.screen ++ (lines.filter fun piece =>
            piece.level ≤ chosen.surroundings.logLevel).flatMap Log.Piece.text ∧
          (chosen.surroundings.logLevel = .silent → shown = world.transcript.screen) := by
  have afterStart := rest_afterStart arguments
  have levels := World.lines_level afterStart world.brightest_level
  refine ⟨world.brightest.lines (rest arguments), levels, fun name => ?_⟩
  intro chosen shown
  have chosenFile : chosen.surroundings.setting .logFile = none := noFile
  have filtered : shown = world.transcript.screen ++
      ((world.brightest.lines (rest arguments)).filter fun piece =>
        piece.level ≤ chosen.surroundings.logLevel).flatMap Log.Piece.text := by
    have started : chosen.started.transcript.screen = world.transcript.screen := by
      rw [World.started, World.closeLog_eq]
      rfl
    have screen := chosen.started.run_screen afterStart
    rw [← run_started chosenFile, (World.started_dims idle name).lines_eq afterStart,
      started] at screen
    exact screen
  refine ⟨filtered, fun silent => ?_⟩
  have none : ((world.brightest.lines (rest arguments)).filter fun piece =>
      piece.level ≤ chosen.surroundings.logLevel) = [] := by
    rw [List.filter_eq_nil_iff, silent]
    intro piece among
    simpa using Level.not_le.mpr (levels piece among).1
  rw [filtered, none, List.flatMap_nil, List.append_nil]

/-- A run in a home directory is quiet or loud, as its setting says. -/
theorem screen_filtered_homeWorld :
    ∃ lines : List Log.Piece,
      (∀ piece ∈ lines, .silent < piece.level ∧ piece.level ≤ .debug) ∧
      ∀ name : Option Bytes,
        let chosen := Resolve.homeWorld.withLogLevel name
        let shown := (chosen.run (run [some "launcher"])).2.transcript.screen
        shown = Resolve.homeWorld.transcript.screen ++ (lines.filter fun piece =>
            piece.level ≤ chosen.surroundings.logLevel).flatMap Log.Piece.text ∧
          (chosen.surroundings.logLevel = .silent →
            shown = Resolve.homeWorld.transcript.screen) :=
  screen_filtered (by decide) rfl [some "launcher"]

end Launch

end Launcher
