/-
This file says what the log admits. Its level is always one that can be selected, what is above the
level is not written, and what is written reads the tables of the levels within their bounds.
-/

import Launcher.Proofs.Journal
import Launcher.Proofs.Restart

namespace Launcher

/-! ### Readings within the tables -/

namespace Level

variable {level : Level}

theorem mem_of_le (selected : level ≤ debug) :
    level ∈ [silent, error, warning, information, debug] := by
  have bound : level.rank ≤ 4 := selected
  have ranks : level.rank = 0 ∨ level.rank = 1 ∨ level.rank = 2 ∨ level.rank = 3 ∨
      level.rank = 4 := by grind
  rcases ranks with rank | rank | rank | rank | rank
  all_goals rw [show level = ⟨level.rank⟩ from rfl, rank]; decide

/-- The label is read only if the table has the rank. -/
def labelChecked (level : Level) : Option Bytes := labels[level.rank.toNat]?

def colourChecked (level : Level) : Option Bytes := colours[level.rank.toNat]?

/-- Only a tag for a terminal reads the colours. -/
def tagChecked (level : Level) (terminal : Bool) : Option Bytes := do
  let label ← level.labelChecked
  let bracketed : Bytes := "[" ++ label ++ "]"
  if terminal then
    let colour ← level.colourChecked
    some (colour ++ bracketed ++ plain ++ " ")
  else some (bracketed ++ " ")

theorem rank_lt (known : level ≤ progress) : level.rank.toNat < 6 := by
  have bound := UInt8.le_iff_toNat_le.mp known
  exact Nat.lt_succ_of_le bound

theorem labelChecked_eq (known : level ≤ progress) : level.labelChecked = some level.label := by
  have inside : level.rank.toNat < labels.length := rank_lt known
  rw [labelChecked, label, List.getD_eq_getElem?_getD, List.getElem?_eq_getElem inside]
  rfl

theorem colourChecked_eq (known : level ≤ progress) : level.colourChecked = some level.colour := by
  have inside : level.rank.toNat < colours.length := rank_lt known
  rw [colourChecked, colour, List.getD_eq_getElem?_getD, List.getElem?_eq_getElem inside]
  rfl

theorem tagChecked_eq (known : level ≤ progress) (terminal : Bool) :
    level.tagChecked terminal = some (level.tag terminal) := by
  unfold tagChecked tag
  rw [labelChecked_eq known, colourChecked_eq known]
  cases terminal <;> rfl

end Level

namespace Log

/-- These are the texts of a message, if the tables have the rank of its level. -/
def Message.screenLineChecked (message : Message) (terminal : Bool) : Option Bytes :=
  (message.level.tagChecked terminal).map fun tag => tag ++ message.text ++ "\n"

def Message.fileEntryChecked (message : Message) (moment : Int) : Option Bytes :=
  message.level.labelChecked.map fun label =>
    "[" ++ label ++ "] " ++ Calendar.stamp moment ++ " " ++ message.origin.text ++ ": " ++
      message.text ++ "\n"

def Reading.lineChecked (reading : Reading) : Option Bytes :=
  (Level.progress.tagChecked true).map fun tag =>
    "\r" ++ tag ++ reading.operation.fitRight 20 ++ " [" ++
      bar reading.percentage ++ "] " ++
      Bytes.padLeft 3 32 (Bytes.ofInt (Decimal.toWord reading.percentage)) ++ "%" ++ reading.sizes

namespace Session

variable {session : Session} {level : Level} {origin : Origin} {status : Status}
  {context : Option Bytes}

theorem admits_iff (session : Session) (level : Level) :
    session.admits level = true ↔ level ≠ .silent ∧ level ≤ session.level := by
  simp [admits]

/-- A status that is not silent is shown up to the level, if it fails or is for everything. -/
theorem admits_status_iff (loud : level ≠ .silent) :
    (∃ message ∈ session.statusMessages level origin status context,
        session.admits message.level = true) ↔
      level ≤ session.level ∧ (status.failed = true ∨ .debug ≤ level) := by
  unfold statusMessages
  split
  · rename_i hidden
    simp only [Bool.and_eq_true, Bool.not_eq_true', decide_eq_true_eq] at hidden
    simp [hidden.1, Level.not_le.mpr hidden.2]
  · rename_i shown
    split
    · rename_i above
      simp [Level.not_le.mpr above]
    · rename_i within
      refine iff_of_true ⟨_, List.mem_cons_self, ?_⟩ ?_
      · exact (session.admits_iff level).mpr ⟨loud, Level.not_lt.mp within⟩
      · refine ⟨Level.not_lt.mp within, ?_⟩
        simp only [Bool.and_eq_true, Bool.not_eq_true', decide_eq_true_eq] at shown
        cases failed : status.failed with
        | true => exact .inl rfl
        | false => exact .inr (Level.not_lt.mp fun below => shown ⟨failed, below⟩)

/-- Of a silent status only the details are ever shown. -/
theorem statusMessages_silent (session : Session) (origin : Origin) (status : Status)
    (context : Option Bytes) : session.statusMessages .silent origin status context =
      if status.failed = true then ⟨.silent, origin, summary status context⟩ ::
        if session.level = .debug then [⟨.debug, origin, details status⟩] else []
      else [] := by
  have below : Level.silent < .debug := by decide
  have least : ¬ session.level < .silent := Level.not_lt.mpr UInt8.zero_le
  unfold statusMessages
  rw [if_neg least]
  cases status.failed <;> simp [below]

end Session

theorem Message.screenLineChecked_eq {message : Message} (known : message.level ≤ .progress)
    (terminal : Bool) :
    message.screenLineChecked terminal = some (message.screenLine terminal) := by
  rw [screenLineChecked, Level.tagChecked_eq known]
  rfl

theorem Message.fileEntryChecked_eq {message : Message} (known : message.level ≤ .progress)
    (moment : Int) : message.fileEntryChecked moment = some (message.fileEntry moment) := by
  rw [fileEntryChecked, Level.labelChecked_eq known]
  rfl

theorem Reading.lineChecked_eq (reading : Reading) : reading.lineChecked = some reading.line := by
  rw [lineChecked, Level.tagChecked_eq (by decide)]
  rfl

end Log

namespace World

variable {world after : World}

/-- Checked writing writes the same, as long as no table is read beyond its end. -/
def writeMessageChecked (world : World) (message : Log.Message) : Option World :=
  if world.log.admits message.level then do
    let line ← message.screenLineChecked world.log.terminal
    let shown := world.display line
    if shown.logIsOpen && message.level ≠ .progress then
      let entry ← message.fileEntryChecked world.clock
      some (shown.appendToLog entry)
    else some shown
  else some world

def writeReadingChecked (world : World) (reading : Log.Reading) : Option World :=
  if world.log.draws world.clock reading then do
    let line ← reading.lineChecked
    some { world.display line with log.drawnAt := world.clock }
  else some world

def writeEntryChecked (world : World) (entry : Log.Entry) : Option World := do
  let written ← (world.log.messages entry).foldlM writeMessageChecked world
  match entry with
  | .reading reading => written.writeReadingChecked reading
  | .endReadings => some written.endReadings
  | _ => some written

def openLogFileChecked (world : World) (path : Bytes) : Option World :=
  match world.logOutlet path with
  | .error errno => (world.strike .openStream (some path)).2.writeEntryChecked
      (.status .warning .launcher (.ofErrno errno) (some "Failed to open log file"))
  | .ok _ => some (world.openLogFile path).2

def openLogChecked (world : World) : Option World :=
  if world.surroundings.logLevel = .silent then some world.started
  else match world.surroundings.setting .logFile with
    | none => some world.started
    | some path => world.started.openLogFileChecked path

def useChecked (world : World) : Log.Use → Option World
  | .openLog => world.openLogChecked
  | .write entry => world.writeEntryChecked entry
  | use => some (world.use use)

theorem writeMessageChecked_eq (selected : world.log.level ≤ .debug) (message : Log.Message) :
    world.writeMessageChecked message = some (world.writeMessage message) := by
  unfold writeMessageChecked writeMessage
  split
  · rename_i admitted
    have known : message.level ≤ .progress := by
      simp only [Log.Session.admits, Bool.and_eq_true, decide_eq_true_eq] at admitted
      exact Level.le_trans (Level.le_trans admitted.2 selected) (by decide)
    rw [Log.Message.screenLineChecked_eq known, Log.Message.fileEntryChecked_eq known]
    dsimp only [Option.bind_eq_bind, Option.bind_some]
    split <;> rfl
  · rfl

theorem writeMessage_log (world : World) (message : Log.Message) :
    (world.writeMessage message).log = world.log := by
  rw [writeMessage_eq]
  split <;> rfl

/-- Every message of an entry is written at the same level. -/
theorem writeMessagesChecked_eq (selected : world.log.level ≤ .debug)
    (messages : List Log.Message) :
    messages.foldlM writeMessageChecked world = some (messages.foldl writeMessage world) := by
  induction messages generalizing world with
  | nil => rfl
  | cons message others inductionHypothesis =>
      have still : (world.writeMessage message).log.level ≤ .debug := by
        rwa [writeMessage_log]
      rw [List.foldlM_cons, writeMessageChecked_eq selected, List.foldl_cons]
      exact inductionHypothesis still

theorem writeReadingChecked_eq (world : World) (reading : Log.Reading) :
    world.writeReadingChecked reading = some (world.writeReading reading) := by
  unfold writeReadingChecked writeReading
  rw [reading.lineChecked_eq]
  split <;> rfl

theorem writeEntryChecked_eq (selected : world.log.level ≤ .debug) (entry : Log.Entry) :
    world.writeEntryChecked entry = some (world.writeEntry entry) := by
  unfold writeEntryChecked writeEntry
  rw [writeMessagesChecked_eq selected]
  cases entry with
  | reading reading => exact writeReadingChecked_eq _ reading
  | _ => rfl

theorem started_level (world : World) : world.started.log.level ≤ .debug := by
  rw [started_log]
  exact world.surroundings.logLevel_le

theorem openLogFileChecked_eq (selected : world.log.level ≤ .debug) (path : Bytes) :
    world.openLogFileChecked path = some (world.openLogFile path).2 := by
  unfold openLogFileChecked
  split
  · rename_i errno refused
    have struck : (world.strike .openStream (some path)).2.log.level ≤ .debug := selected
    rw [openLogFile_eq, writeEntryChecked_eq struck]
    simp only [refused]
  · rfl

/-- Opening the log sets the level before it can report anything. -/
theorem openLogChecked_eq (world : World) : world.openLogChecked = some world.openLog.2 := by
  unfold openLogChecked
  rw [openLog_eq]
  split
  · rfl
  rcases world.surroundings.setting .logFile with _ | path
  · rfl
  · exact openLogFileChecked_eq world.started_level path

theorem useChecked_eq (selected : world.log.level ≤ .debug) (use : Log.Use) :
    world.useChecked use = some (world.use use) := by
  cases use with
  | openLog => exact world.openLogChecked_eq
  | write entry => exact writeEntryChecked_eq selected entry
  | _ => rfl

/-! ### Reached levels -/

/-- A use leaves a level that can be selected, whatever byte it gives for one. -/
theorem use_level (selected : world.log.level ≤ .debug) (use : Log.Use) :
    (world.use use).log.level ≤ .debug := by
  cases use with
  | openLog =>
      obtain ⟨_, _, log⟩ := world.openLog_reopens.determined
      rw [World.use, log]
      exact world.surroundings.logLevel_le
  | closeLog =>
      rw [World.use, closeLog_eq]
      exact selected
  | selectLevel level =>
      rw [World.use, selectLevel, Log.Session.select]
      split
      · assumption
      · exact selected
  | write entry =>
      rw [World.use, writeEntry_eq]
      exact (world.log.afterEntry_level world.clock entry).symm ▸ selected
  | nameLevel name => exact selected
  | setTerminal terminal => exact selected
  | setClock moment => exact selected

/-- These worlds are reached when the log is used, and anything else happens around it. -/
inductive Reached : World → Prop
  | fresh {world : World} (log : world.log = {}) : Reached world
  | use {world : World} (reached : Reached world) (use : Log.Use) : Reached (world.use use)
  | around {world after : World} (reached : Reached world) (log : after.log = world.log) :
      Reached after

theorem Reached.selected (reached : world.Reached) : world.log.level ≤ .debug := by
  induction reached with
  | fresh log =>
      rw [log]
      decide
  | use _ use inductionHypothesis => exact use_level inductionHypothesis use
  | around _ log inductionHypothesis => rwa [log]

theorem Reached.answer (reached : world.Reached) (call : Call) :
    (world.answer call).2.Reached := by
  cases call with
  | openLog => exact reached.use .openLog
  | closeLog => exact reached.use .closeLog
  | log entry => exact reached.use (.write entry)
  | file call =>
      refine reached.around ?_
      rw [World.answer, answerFile_eq]
      split <;> rfl
  | _ => exact reached.around rfl

/-- A program uses the log by its calls, so its run ends in a world that can be reached. -/
theorem Reached.run {Answer : Type} (reached : world.Reached) (program : Program Answer) :
    (world.run program).2.Reached := by
  induction program generalizing world with
  | done answer => exact reached
  | ask call next inductionHypothesis =>
      have step := reached.answer call
      rw [World.run]
      generalize world.answer call = outcome at step ⊢
      rcases outcome with ⟨_ | reply, after⟩
      · exact step
      · exact inductionHypothesis reply step

/-! ### What is written -/

theorem screenLine_ne_nil (message : Log.Message) (terminal : Bool) :
    message.screenLine terminal ≠ [] := List.append_ne_nil_of_right_ne_nil _ (by decide)

/-- Messages are written when one of them is admitted, and otherwise nothing changes. -/
theorem writeMessages_ne_iff (world : World) (messages : List Log.Message) :
    messages.foldl writeMessage world ≠ world ↔
      ∃ message ∈ messages, world.log.admits message.level = true := by
  have nonempty : (∃ message ∈ messages, world.log.admits message.level = true) ↔
      (messages.filter fun message => world.log.admits message.level) ≠ [] := by
    simp [List.filter_eq_nil_iff]
  rw [writeMessages_eq, nonempty]
  dsimp only
  generalize (messages.filter fun message => world.log.admits message.level) = admitted
  cases admitted with
  | nil => simp [filesAfter, filings]
  | cons message others =>
      refine iff_of_true (fun same => ?_) (by simp)
      -- The screen would be as long as before.
      have screen := congrArg (fun written : World => written.transcript.screen) same
      simp [screenLine_ne_nil] at screen

/-- The level is one that can be selected. Messages are written up to the level, and so is a status
unless it is a success below `debug`. Of a silent status nothing is written but the details, at the
level `debug` and if it fails. No use of the log reads a table beyond its end. -/
structure AdmitsByLevel (world : World) : Prop where
  selected : world.log.level ∈
    ([.silent, .error, .warning, .information, .debug] : List Level)
  message : ∀ message, world.writeEntry (.message message) ≠ world ↔
    message.level ≠ .silent ∧ message.level ≤ world.log.level
  status : ∀ level origin status context, level ≠ .silent →
    (world.writeEntry (.status level origin status context) ≠ world ↔
      level ≤ world.log.level ∧ (status.failed = true ∨ .debug ≤ level))
  silentStatus : ∀ origin status context,
    world.writeEntry (.status .silent origin status context) =
      if status.failed = true ∧ world.log.level = .debug then
        world.writeEntry (.message ⟨.debug, origin, Log.details status⟩)
      else world
  inBounds : ∀ use, world.useChecked use = some (world.use use)

theorem reached_admitsByLevel (reached : world.Reached) : world.AdmitsByLevel := by
  have selected := reached.selected
  refine ⟨Level.mem_of_le selected, ?message, ?status, ?silentStatus, useChecked_eq selected⟩
  case message =>
    intro message
    have written := world.writeMessages_ne_iff [message]
    simp only [List.mem_singleton, exists_eq_left] at written
    exact written.trans (world.log.admits_iff message.level)
  case status =>
    intro level origin status context loud
    have written := world.writeMessages_ne_iff
      (world.log.statusMessages level origin status context)
    exact written.trans (Log.Session.admits_status_iff loud)
  case silentStatus =>
    intro origin status context
    have summary : world.writeMessage ⟨.silent, origin, Log.summary status context⟩ = world := by
      rw [writeMessage_eq, if_neg (by simp [Log.Session.admits])]
    simp only [writeEntry, Log.Session.messages, world.log.statusMessages_silent]
    by_cases failed : status.failed = true
    · by_cases everything : world.log.level = .debug
      · simp [failed, everything, summary]
      · simp [failed, everything, summary]
    · simp [failed]

/-- The byte after the last level is not selected, and `debug` is. -/
theorem reached_admitsByLevel_selected :
    ((({} : World).use (.selectLevel .progress)).use (.selectLevel .debug)).AdmitsByLevel :=
  reached_admitsByLevel
    (((Reached.fresh rfl).use (.selectLevel .progress)).use (.selectLevel .debug))

-- If a level beyond the tables could be selected, it would be looked for there.
example : (({ log := { level := ⟨6⟩ } } : World).writeEntryChecked
    (.message ⟨⟨6⟩, .launcher, "a"⟩)).isNone = true := by
  decide +kernel

example : (({ log := { level := .debug } } : World).writeEntry
    (.status .silent .launcher (.error .runtime .canceled) none)).transcript.screen =
      "[DEBUG]   Details: Severity=3, Category=4, Code=0x000C\n" := by
  decide +kernel

end World

end Launcher
