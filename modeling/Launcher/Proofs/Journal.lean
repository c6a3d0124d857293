/-
This file says what the log file holds. It is a journal of sessions, and its entries are the messages
that were on the screen while the log was open.
-/

import Launcher.Proofs.Levels
import Launcher.Proofs.Tree.Outlet

namespace Launcher

namespace Log

/-! ### Journals -/

/-- A message is filed at a moment. -/
structure Filed where
  message : Message
  moment : Int

def Filed.text (filed : Filed) : Bytes := filed.message.fileEntry filed.moment

/-- A block begins with a marker, and its entries follow. -/
structure Block where
  start : Int
  entries : List Filed

def Block.text (block : Block) : Bytes :=
  "=== Log session started at " ++ Calendar.stamp block.start ++ " ===\n" ++
    block.entries.flatMap Filed.text

/-- A marker and a blank line complete a block. -/
structure Block.Complete extends Block where
  stop : Int

def Block.Complete.text (block : Block.Complete) : Bytes :=
  block.toBlock.text ++
    ("=== Log session ended at " ++ Calendar.stamp block.stop ++ " ===\n" ++ "\n")

theorem endMarker_eq (moment : Int) : endMarker moment =
    "=== Log session ended at " ++ Calendar.stamp moment ++ " ===\n" ++ "\n" := by
  have blank : ((" ===\n\n" : Bytes)) = " ===\n" ++ "\n" := by decide
  rw [endMarker, blank, ← List.append_assoc]

/-- Only the last block of a journal may be without its end. -/
structure Journal where
  past : List Block.Complete := []
  current : Option Block := none

namespace Journal

def isOpen (journal : Journal) : Bool := journal.current.isSome

def text (journal : Journal) : Bytes :=
  journal.past.flatMap Block.Complete.text ++ (journal.current.map Block.text).getD []

def entries (journal : Journal) : List Filed :=
  journal.past.flatMap (fun block => block.entries) ++ (journal.current.map Block.entries).getD []

def close (journal : Journal) (moment : Int) : Journal :=
  match journal.current with
  | none => journal
  | some block => ⟨journal.past ++ [⟨block, moment⟩], none⟩

/-- A new block ends the one before. -/
def begin (journal : Journal) (moment : Int) : Journal :=
  { journal.close moment with current := some ⟨moment, []⟩ }

/-- Nothing is filed outside of a block. -/
def file (journal : Journal) (filed : List Filed) : Journal :=
  { journal with
    current := journal.current.map fun block => { block with entries := block.entries ++ filed } }

variable {journal : Journal}

theorem isOpen_close (journal : Journal) (moment : Int) : (journal.close moment).isOpen = false := by
  unfold close isOpen
  cases current : journal.current with
  | none => simp [current]
  | some block => simp

theorem text_close (journal : Journal) (moment : Int) : (journal.close moment).text =
    journal.text ++ if journal.isOpen then endMarker moment else [] := by
  unfold close isOpen
  cases current : journal.current with
  | none => simp [text, current]
  | some block => simp [text, current, Block.Complete.text, endMarker_eq]

theorem entries_close (journal : Journal) (moment : Int) :
    (journal.close moment).entries = journal.entries := by
  unfold close
  cases current : journal.current with
  | none => simp
  | some block => simp [entries, current]

theorem current_of_closed (closed : journal.isOpen = false) : journal.current = none := by
  simpa [isOpen] using closed

/-- A block that begins adds its marker. -/
theorem text_start (closed : journal.isOpen = false) (moment : Int) :
    ({ journal with current := some ⟨moment, []⟩ } : Journal).text =
      journal.text ++ startMarker moment := by
  simp [text, current_of_closed closed, Block.text, startMarker]

theorem entries_begin (journal : Journal) (moment : Int) :
    (journal.begin moment).entries = journal.entries := by
  have none := current_of_closed (journal.isOpen_close moment)
  rw [← journal.entries_close moment]
  simp [begin, entries, none]

theorem isOpen_file (journal : Journal) (filed : List Filed) :
    (journal.file filed).isOpen = journal.isOpen := by
  simp [file, isOpen]

theorem text_file (opened : journal.isOpen = true) (filed : List Filed) :
    (journal.file filed).text = journal.text ++ filed.flatMap Filed.text := by
  obtain ⟨block, current⟩ := Option.isSome_iff_exists.mp opened
  simp [file, text, current, Block.text]

theorem entries_file (opened : journal.isOpen = true) (filed : List Filed) :
    (journal.file filed).entries = journal.entries ++ filed := by
  obtain ⟨block, current⟩ := Option.isSome_iff_exists.mp opened
  simp [file, entries, current]

theorem file_of_closed (closed : journal.isOpen = false) (filed : List Filed) :
    journal.file filed = journal := by
  have none := current_of_closed closed
  obtain ⟨past, _⟩ := journal
  cases none
  rfl

end Journal

/-! ### Uses of a log -/

/-- A log is used, or the settings, the terminal or the clock change around it. -/
inductive Use where
  | openLog
  | closeLog
  | selectLevel (level : Level)
  | write (entry : Entry)
  | nameLevel (name : Option Bytes)
  | setTerminal (terminal : Bool)
  | setClock (moment : Int)

end Log

namespace World

def use (world : World) : Log.Use → World
  | .openLog => world.openLog.2
  | .closeLog => world.closeLog
  | .selectLevel level => world.selectLevel level
  | .write entry => world.writeEntry entry
  | .nameLevel name => world.withLogLevel name
  | .setTerminal terminal => { world with surroundings.terminal := terminal }
  | .setClock moment => { world with clock := moment }

/-- What a use shows on the screen. -/
def shownBy (world : World) : Log.Use → List Log.Piece
  | .write entry => world.pieces entry
  | _ => []

/-- The messages on the screen are filed while the log is open. -/
def filedBy (world : World) (use : Log.Use) : List Log.Filed :=
  if world.logIsOpen then
    ((world.shownBy use).filterMap Log.Piece.message?).map (Log.Filed.mk · world.clock)
  else []

/-- A session begins when the log is opened and is not silent. -/
def record (world : World) (journal : Log.Journal) : Log.Use → Log.Journal
  | .openLog =>
      if world.surroundings.logLevel = .silent then journal.close world.clock
      else journal.begin world.clock
  | .closeLog => journal.close world.clock
  | .write entry => journal.file (world.filedBy (.write entry))
  | _ => journal

def useAll (world : World) (uses : List Log.Use) : World := uses.foldl use world

def shown (world : World) : List Log.Use → List Log.Piece
  | [] => []
  | use :: others => world.shownBy use ++ (world.use use).shown others

def filed (world : World) : List Log.Use → List Log.Filed
  | [] => []
  | use :: others => world.filedBy use ++ (world.use use).filed others

def recordAll (world : World) (journal : Log.Journal) : List Log.Use → Log.Journal
  | [] => journal
  | use :: others => (world.use use).recordAll (world.record journal use) others

end World

/-! ### The file of an open log -/

namespace FileSystem

variable {base : Tree} {path : Bytes} {location : Location} {content : Bytes}
  {files : FileSystem Channel}

/-- The log is closed, and the path names a file with the content. -/
structure Rests (base : Tree) (path : Bytes) (location : Location) (content : Bytes)
    (files : FileSystem Channel) : Prop where
  names : files.tree.Names path location content
  elsewhere : ∀ other, other ≠ location → files.tree.get? other = base.get? other
  stream : files.streams .log = none

/-- The log appends to the file that the path names. -/
structure Appends (base : Tree) (path : Bytes) (location : Location) (content : Bytes)
    (files : FileSystem Channel) : Prop where
  names : ∃ mode, files.tree.writable path = .ok (.file location mode content)
  elsewhere : ∀ other, other ≠ location → files.tree.get? other = base.get? other
  stream : ∃ position pending,
    files.streams .log = some ⟨.file location, true, position, pending⟩

/-- Writing the file changes no other place. -/
theorem elsewhere_put {tree : Tree} (names : tree.Names path location content) {mode : Mode}
    {latest : Bytes}
    (elsewhere : ∀ other, other ≠ location → tree.get? other = base.get? other) :
    ∀ other, other ≠ location →
      (tree.put location (.file mode latest)).get? other = base.get? other := by
  intro other distinct
  rw [(Tree.Touched.put_file names.room names.nonRoot mode latest).elsewhere other distinct,
    elsewhere other distinct]

theorem Appends.append (appends : files.Appends base path location content) (text : Bytes) :
    (files.append text).Appends base path location (content ++ text) := by
  obtain ⟨mode, named⟩ := appends.names
  obtain ⟨position, pending, stream⟩ := appends.stream
  have held := Tree.get?_of_writable named
  have names : files.tree.Names path location content := .file named
  have stored : files.append text = { files.setStream .log
      (some ⟨.file location, true, position + text.length, pending⟩) with
        tree := files.tree.put location (.file mode (content ++ text)) } := by
    simp [FileSystem.append, store, stream, held, Stream.overlay]
  rw [stored]
  exact ⟨⟨mode, names.writable_put mode _⟩, elsewhere_put names appends.elsewhere,
    position + text.length, pending, by simp [setStream]⟩

/-- A file that rests can be opened for appending. -/
theorem Rests.openStream (rests : files.Rests base path location content) (mode : Mode) :
    ∃ opened, files.openStream .log path true mode = .ok opened ∧
      opened.Appends base path location content := by
  have opens (kept : Mode) : ({ files with
      tree := files.tree.put location (.file kept content) }.setStream .log
        (some ⟨.file location, true, 0, []⟩)).Appends base path location content :=
    ⟨⟨kept, rests.names.writable_put kept content⟩, elsewhere_put rests.names rests.elsewhere,
      0, [], by simp [setStream]⟩
  unfold FileSystem.openStream
  have names := rests.names
  cases names with
  | vacant named =>
      rw [named]
      exact ⟨_, rfl, opens mode⟩
  | file named =>
      rw [named]
      exact ⟨_, rfl, opens _⟩

theorem Appends.stop (appends : files.Appends base path location content) :
    (files.setStream .log none).Rests base path location content := by
  obtain ⟨mode, named⟩ := appends.names
  exact ⟨.file named, appends.elsewhere, by simp [setStream]⟩

/-- What lasts while texts are appended lasts while messages are, in their order. -/
theorem holds_appendAll (holds : Bytes → FileSystem Channel → Prop)
    (append : ∀ {content files}, holds content files → ∀ text,
      holds (content ++ text) (files.append text))
    (before : holds content files) (moment : Int) (messages : List Log.Message) :
    holds (content ++ messages.flatMap (·.fileEntry moment))
      (messages.foldl (fun files message => files.append (message.fileEntry moment)) files) := by
  induction messages generalizing files content with
  | nil => simpa using before
  | cons message others inductionHypothesis =>
      have later := inductionHypothesis (append before (message.fileEntry moment))
      rw [List.append_assoc] at later
      exact later

/-- The entries of the messages are appended in their order. -/
theorem Appends.appendAll (appends : files.Appends base path location content) (moment : Int)
    (messages : List Log.Message) :
    (messages.foldl (fun files message => files.append (message.fileEntry moment)) files).Appends
      base path location (content ++ messages.flatMap (·.fileEntry moment)) :=
  holds_appendAll (fun content files => files.Appends base path location content)
    (fun before text => before.append text) appends moment messages

/-- The file is open or it rests. -/
def Keeps (files : FileSystem Channel) (base : Tree) (path : Bytes) (location : Location)
    (content : Bytes) : (isOpen : Bool) → Prop
  | true => files.Appends base path location content
  | false => files.Rests base path location content

theorem Keeps.isOpen {isOpen : Bool} (keeps : files.Keeps base path location content isOpen) :
    (files.streams .log).isSome = isOpen := by
  cases isOpen with
  | true =>
      obtain ⟨position, pending, stream⟩ := keeps.stream
      rw [stream]
      rfl
  | false => rw [keeps.stream, Option.isSome_none]

theorem Keeps.names {isOpen : Bool} (keeps : files.Keeps base path location content isOpen) :
    files.tree.Names path location content := by
  cases isOpen with
  | true =>
      obtain ⟨mode, named⟩ := Appends.names keeps
      exact .file named
  | false => exact Rests.names keeps

theorem Keeps.elsewhere {isOpen : Bool} (keeps : files.Keeps base path location content isOpen) :
    ∀ other, other ≠ location → files.tree.get? other = base.get? other := by
  cases isOpen with
  | true => exact Appends.elsewhere keeps
  | false => exact Rests.elsewhere keeps

end FileSystem

/-! ### What one use does -/

namespace World

variable {base : Tree} {path : Bytes} {location : Location} {initial : Bytes}
  {journal : Log.Journal} {world : World}

/-- While the log can be used, no message on the screen is progress. -/
theorem level_of_shown (selected : world.log.level ≤ .debug) {entry : Log.Entry}
    {message : Log.Message} (shown : message ∈ (world.pieces entry).filterMap Log.Piece.message?) :
    message.level ≤ .debug := by
  rw [pieces, Log.Session.pieces_messages] at shown
  have admitted := (List.mem_filter.mp shown).2
  simp only [Log.Session.admits, Bool.and_eq_true, decide_eq_true_eq] at admitted
  exact Level.le_trans admitted.2 selected

/-- All messages on the screen are filed while the log is open. -/
theorem filings_eq (selected : world.log.level ≤ .debug) (opened : world.logIsOpen = true)
    (entry : Log.Entry) :
    world.filings ((world.pieces entry).filterMap Log.Piece.message?) =
      (world.pieces entry).filterMap Log.Piece.message? := by
  rw [filings, opened, if_pos rfl, List.filter_eq_self]
  intro message shown
  have level := level_of_shown selected shown
  have beyond : ¬ Level.progress ≤ Level.debug := by decide
  simp only [decide_eq_true_eq]
  rintro same
  exact beyond (same ▸ level)

/-- The file has the journal after what it had at first, and the log can be used. -/
structure Journals (base : Tree) (path : Bytes) (location : Location) (initial : Bytes)
    (journal : Log.Journal) (world : World) : Prop where
  files : world.files.Keeps base path location (initial ++ journal.text) journal.isOpen
  selected : world.log.level ≤ .debug
  noFaults : world.faults = []
  named : world.surroundings.environment .logFile = some path

namespace Journals

theorem isOpen (journals : world.Journals base path location initial journal) :
    world.logIsOpen = journal.isOpen := journals.files.isOpen

theorem closeLog (journals : world.Journals base path location initial journal) :
    world.closeLog.Journals base path location initial (journal.close world.clock) := by
  rw [closeLog_eq]
  refine ⟨?_, journals.selected, journals.noFaults, journals.named⟩
  have files := journals.files
  rw [journals.isOpen, journal.isOpen_close, journal.text_close]
  cases opened : journal.isOpen with
  | true =>
      rw [opened] at files
      have ended := (FileSystem.Appends.append files (Log.endMarker world.clock)).stop
      rw [List.append_assoc] at ended
      exact ended
  | false =>
      rw [opened] at files
      simpa using files

theorem started (journals : world.Journals base path location initial journal) :
    world.started.Journals base path location initial (journal.close world.clock) := by
  have closed := journals.closeLog
  exact ⟨closed.files, world.surroundings.logLevel_le, closed.noFaults, closed.named⟩

/-- Nothing stands in the way of opening the file of a closed log. -/
theorem openLogFile (journals : world.Journals base path location initial journal)
    (closed : journal.isOpen = false) :
    (world.openLogFile path).2.Journals base path location initial
        { journal with current := some ⟨world.clock, []⟩ } ∧
      (world.openLogFile path).2.transcript = world.transcript := by
  have calm : world.strike .openStream (some path) = (none, world) := by
    rw [strike, journals.noFaults, Fault.intercept, ← journals.noFaults]
  have rests := journals.files
  rw [closed] at rests
  obtain ⟨opened, opening, appends⟩ := FileSystem.Rests.openStream rests
    (Mode.masked 0o666 world.surroundings.mask)
  have ran : world.openLogFile path = (.ok, { world with
      files := opened.append (Log.startMarker world.clock) }) := by
    simp only [World.openLogFile, calm, opening, appendToLog_eq]
  rw [ran]
  refine ⟨⟨?_, journals.selected, journals.noFaults, journals.named⟩, rfl⟩
  rw [Log.Journal.text_start closed, ← List.append_assoc]
  exact appends.append (Log.startMarker world.clock)

theorem openLog (journals : world.Journals base path location initial journal) :
    world.openLog.2.Journals base path location initial (world.record journal .openLog) ∧
      world.openLog.2.transcript = world.transcript := by
  have started := journals.started
  have same : world.started.transcript = world.transcript := by
    rw [World.started, closeLog_eq]
  have clock : world.started.clock = world.clock := by
    rw [World.started, closeLog_eq]
  have set : world.surroundings.setting .logFile = some path := by
    have nonempty := journals.files.names.nonempty
    rw [Surroundings.setting, journals.named]
    simp [nonempty]
  rw [openLog_eq, set, record]
  split
  · exact ⟨started, same⟩
  · obtain ⟨opened, kept⟩ := started.openLogFile (journal.isOpen_close world.clock)
    rw [clock] at opened
    exact ⟨opened, kept.trans same⟩

theorem writeEntry (journals : world.Journals base path location initial journal)
    (entry : Log.Entry) :
    (world.writeEntry entry).Journals base path location initial
      (world.record journal (.write entry)) := by
  have files := journals.files
  rw [writeEntry_eq]
  refine ⟨?_, ?_, journals.noFaults, journals.named⟩
  · rw [record, Log.Journal.isOpen_file]
    cases opened : journal.isOpen with
    | true =>
        rw [opened] at files
        have appended := FileSystem.Appends.appendAll files world.clock
          ((world.pieces entry).filterMap Log.Piece.message?)
        rw [filesAfter, filings_eq journals.selected (journals.isOpen.trans opened), Log.Journal.text_file opened, filedBy,
          journals.isOpen, opened, if_pos rfl, ← List.append_assoc, List.flatMap_map]
        exact appended
    | false =>
        rw [opened] at files
        rw [Log.Journal.file_of_closed opened, filesAfter_of_closed (journals.isOpen.trans opened)]
        exact files
  · have level := world.log.afterEntry_level world.clock entry
    rw [level]
    exact journals.selected

/-- A use keeps the journal, and it shows its pieces. -/
theorem use (journals : world.Journals base path location initial journal) (use : Log.Use) :
    (world.use use).Journals base path location initial (world.record journal use) ∧
      (world.use use).transcript.screen =
        world.transcript.screen ++ (world.shownBy use).flatMap Log.Piece.text := by
  cases use with
  | openLog =>
      obtain ⟨opened, same⟩ := journals.openLog
      exact ⟨opened, screen_still (congrArg Transcript.screen same)⟩
  | closeLog =>
      have same : world.closeLog.transcript = world.transcript := by rw [closeLog_eq]
      exact ⟨journals.closeLog, screen_still (congrArg Transcript.screen same)⟩
  | selectLevel level =>
      refine ⟨⟨journals.files, ?_, journals.noFaults, journals.named⟩, screen_still rfl⟩
      show (world.log.select level).level ≤ .debug
      unfold Log.Session.select
      split
      · rename_i within
        exact within
      · exact journals.selected
  | write entry =>
      refine ⟨journals.writeEntry entry, ?_⟩
      rw [World.use, writeEntry_eq]
      rfl
  | _ =>
      exact ⟨⟨journals.files, journals.selected, journals.noFaults, journals.named⟩,
        screen_still rfl⟩

/-- A use files what it shows while the log is open. -/
theorem entries_record (journals : world.Journals base path location initial journal)
    (use : Log.Use) :
    (world.record journal use).entries = journal.entries ++ world.filedBy use := by
  have nothing : world.shownBy use = [] → world.filedBy use = [] := by
    intro hidden
    simp [filedBy, hidden]
  cases use with
  | openLog =>
      rw [nothing rfl, List.append_nil, record]
      split
      · exact journal.entries_close world.clock
      · exact journal.entries_begin world.clock
  | closeLog => rw [nothing rfl, List.append_nil, record, journal.entries_close]
  | write entry =>
      rw [record]
      cases opened : journal.isOpen with
      | true => exact Log.Journal.entries_file opened _
      | false =>
          rw [Log.Journal.file_of_closed opened, filedBy, journals.isOpen, opened]
          simp
  | _ =>
      rw [nothing rfl, List.append_nil]
      rfl

theorem noProgress (journals : world.Journals base path location initial journal) {use : Log.Use}
    {filed : Log.Filed} (among : filed ∈ world.filedBy use) : filed.message.level ≤ .debug := by
  unfold filedBy at among
  split at among
  · obtain ⟨message, shown, rfl⟩ := List.mem_map.mp among
    cases use with
    | write entry => exact level_of_shown journals.selected shown
    | _ => cases shown
  · cases among

/-! ### Whole histories -/

/-- What one use keeps is kept by any number of them. -/
theorem useAll (journals : world.Journals base path location initial journal)
    (uses : List Log.Use) :
    (world.useAll uses).Journals base path location initial (world.recordAll journal uses) ∧
      (world.useAll uses).transcript.screen =
        world.transcript.screen ++ (world.shown uses).flatMap Log.Piece.text ∧
      (world.recordAll journal uses).entries = journal.entries ++ world.filed uses ∧
      ∀ filed ∈ world.filed uses, filed.message.level ≤ .debug := by
  induction uses generalizing world journal with
  | nil =>
      refine ⟨journals, ?_, ?_, by simp [World.filed]⟩
      · simp [World.useAll, shown]
      · simp [recordAll, World.filed]
  | cons use others inductionHypothesis =>
      obtain ⟨kept, screen⟩ := journals.use use
      obtain ⟨last, screens, entries, levels⟩ := inductionHypothesis kept
      refine ⟨last, ?_, ?_, ?_⟩
      · rw [shown, List.flatMap_append, ← List.append_assoc, ← screen]
        exact screens
      · rw [World.filed, ← List.append_assoc, ← journals.entries_record use]
        exact entries
      · intro filed among
        rcases List.mem_append.mp among with first | later
        · exact journals.noProgress first
        · exact levels filed later

end Journals

end World

namespace Log

/-- The last name of a file is what follows its last slash, or the whole text without one. -/
structure IsLastName (file name : Bytes) : Prop where
  noSlash : Bytes.slash ∉ name
  ends : name = file ∨ ∃ folder, file = folder ++ [Bytes.slash] ++ name

theorem isLastName_afterLast (file : Bytes) : IsLastName file (file.afterLast Bytes.slash) := by
  have whole : (file.reverse.dropWhile (· != Bytes.slash)).reverse ++
      file.afterLast Bytes.slash = file := by
    rw [Bytes.afterLast, ← List.reverse_append, List.takeWhile_append_dropWhile,
      List.reverse_reverse]
  have noSlash : Bytes.slash ∉ file.afterLast Bytes.slash := by
    intro among
    have kept := List.all_eq_true.mp List.all_takeWhile _ (List.mem_reverse.mp among)
    simp at kept
  refine ⟨noSlash, ?_⟩
  have first := List.head?_dropWhile_not (· != Bytes.slash) file.reverse
  cases rest : file.reverse.dropWhile (· != Bytes.slash) with
  | nil =>
      rw [rest] at whole
      exact .inl whole
  | cons byte others =>
      rw [rest] at whole first
      have isSlash : byte = Bytes.slash := by simpa using first
      rw [List.reverse_cons, isSlash] at whole
      exact .inr ⟨others.reverse, whole.symm⟩

end Log

namespace World

variable {world : World} {path : Bytes} {location : Location} {initial : Bytes}

/-- The file is its first content and then the journal, which is open exactly when the log is. The
entries of the journal are the messages that the screen showed while the log was open, and none of
them is progress. An entry has the line of its caller and the last name of the file. -/
structure KeepsJournal (path : Bytes) (location : Location) (initial : Bytes) (world : World)
    (uses : List Log.Use) : Prop where
  screen : (world.useAll uses).transcript.screen =
    world.transcript.screen ++ (world.shown uses).flatMap Log.Piece.text
  file : (world.useAll uses).files.tree.Names path location
    (initial ++ (world.recordAll {} uses).text)
  elsewhere : ∀ other, other ≠ location →
    (world.useAll uses).files.tree.get? other = world.files.tree.get? other
  isOpen : (world.useAll uses).logIsOpen = (world.recordAll {} uses).isOpen
  entries : (world.recordAll {} uses).entries = world.filed uses
  levels : ∀ filed ∈ world.filed uses, filed.message.level ≤ .debug
  origins : ∀ filed ∈ world.filed uses, ∀ file line, filed.message.origin = .caller file line →
    ∃ name, Log.IsLastName file name ∧ filed.text =
      "[" ++ filed.message.level.label ++ "] " ++ Calendar.stamp filed.moment ++ " " ++
        (name ++ ":" ++ Bytes.ofInt line) ++ ": " ++ filed.message.text ++ "\n"

/-- However a log is used, its file is a journal of what the screen showed. -/
theorem useAll_keepsJournal {world : World} {path : Bytes} {location : Location} {initial : Bytes}
    (closed : world.logIsOpen = false) (selected : world.log.level ≤ .debug)
    (noFaults : world.faults = []) (named : world.surroundings.environment .logFile = some path)
    (names : world.files.tree.Names path location initial) (uses : List Log.Use) :
    world.KeepsJournal path location initial uses := by
  have stream : world.files.streams .log = none := by simpa [logIsOpen] using closed
  have rests : world.files.Rests world.files.tree path location initial :=
    ⟨names, fun _ _ => rfl, stream⟩
  have journals : world.Journals world.files.tree path location initial {} := by
    refine ⟨?_, selected, noFaults, named⟩
    have empty : initial ++ ({} : Log.Journal).text = initial := List.append_nil initial
    rw [empty]
    exact rests
  obtain ⟨last, screen, entries, levels⟩ := journals.useAll uses
  refine ⟨screen, last.files.names, last.files.elsewhere, last.isOpen, entries, levels, ?_⟩
  intro filed _ file line called
  refine ⟨_, Log.isLastName_afterLast file, ?_⟩
  rw [Log.Filed.text, Log.Message.fileEntry, called]
  rfl

/-- A log file is asked for in an otherwise empty tree. -/
def loggedWorld : World where
  surroundings := {
    environment := fun setting => if setting = .logFile then some "/log" else none }

def loggedUses : List Log.Use :=
  [.openLog, .write (.message ⟨.error, .caller "src/main" 7, "first"⟩), .closeLog,
    .write (.message ⟨.error, .caller "src/main" 8, "second"⟩), .setClock 1700000060, .openLog]

theorem useAll_keepsJournal_loggedWorld :
    loggedWorld.KeepsJournal "/log" ["log"] [] loggedUses :=
  useAll_keepsJournal rfl (by decide) rfl rfl (.vacant (by decide +kernel)) loggedUses

example : (loggedWorld.useAll loggedUses).files.tree.content? ["log"] = some (Bytes.ofString
    ("=== Log session started at 2023-11-14 22:13:20 ===\n" ++
    "[ERROR] 2023-11-14 22:13:20 main:7: first\n" ++
    "=== Log session ended at 2023-11-14 22:13:20 ===\n\n" ++
    "=== Log session started at 2023-11-14 22:14:20 ===\n")) := by
  decide +kernel

end World

end Launcher
