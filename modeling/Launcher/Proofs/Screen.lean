/-
This file says what an entry of the log does. It is shown on the screen piece by piece, and while
the log is open the messages among the pieces are appended to the file.
-/

import Launcher.World
import Mathlib.Data.List.Induction

namespace Launcher

namespace Log

/-- A piece of the screen is the line of a message, or a part of the meter. -/
inductive Piece where
  | line (message : Message) (terminal : Bool)
  | meter (text : Bytes)

namespace Piece

def text : Piece → Bytes
  | .line message terminal => message.screenLine terminal
  | .meter text => text

/-- The meter counts as information. -/
def level : Piece → Level
  | .line message _ => message.level
  | .meter _ => .information

def message? : Piece → Option Message
  | .line message _ => some message
  | .meter _ => none

@[simp] theorem message?_line (message : Message) (terminal : Bool) :
    (line message terminal).message? = some message := rfl

@[simp] theorem message?_meter (text : Bytes) : (meter text).message? = none := rfl

@[simp] theorem text_line (message : Message) (terminal : Bool) :
    (line message terminal).text = message.screenLine terminal := rfl

@[simp] theorem text_meter (text : Bytes) : (meter text).text = text := rfl

end Piece

namespace Session

/-- The messages of an entry are shown when they are admitted, and a meter when it is drawn. -/
def pieces (session : Session) (moment : Int) (entry : Entry) : List Piece :=
  ((session.messages entry).filter fun message => session.admits message.level).map
      (Piece.line · session.terminal) ++
    match entry with
    | .reading reading => if session.draws moment reading then [.meter reading.line] else []
    | .endReadings => if session.meterOpen then [.meter "\n"] else []
    | _ => []

/-- Only the meter leaves something in the state. -/
def afterEntry (session : Session) (moment : Int) : Entry → Session
  | .reading reading =>
      if session.draws moment reading then { session with drawnAt := moment } else session
  | .endReadings => if session.meterOpen then { session with drawnAt := 0 } else session
  | _ => session

/-- The messages among the pieces are the admitted ones. -/
theorem pieces_messages (session : Session) (moment : Int) (entry : Entry) :
    (session.pieces moment entry).filterMap Piece.message? =
      (session.messages entry).filter fun message => session.admits message.level := by
  have lines : (((session.messages entry).filter fun message =>
      session.admits message.level).map (Piece.line · session.terminal)).filterMap
        Piece.message? =
      (session.messages entry).filter fun message => session.admits message.level := by
    rw [List.filterMap_map]
    exact List.filterMap_some
  unfold pieces
  rw [List.filterMap_append, lines]
  cases entry with
  | reading reading => dsimp only; split <;> simp
  | endReadings => dsimp only; split <;> simp
  | _ => simp

end Session

end Log

namespace FileSystem

variable {files : FileSystem Channel}

/-- The log takes the text, or it goes on without it. -/
def append (files : FileSystem Channel) (text : Bytes) : FileSystem Channel :=
  match files.store .log text with
  | .ok stored => stored
  | .error _ => files

/-- A stream stays open when it stores something. -/
theorem append_streams (files : FileSystem Channel) (text : Bytes) :
    ((files.append text).streams .log).isSome = (files.streams .log).isSome := by
  unfold append store
  cases opened : files.streams .log with
  | none => simp [opened]
  | some stream =>
      rcases stream with ⟨location | device | _, appending, position, pending⟩
      · dsimp only
        cases files.tree.get? location with
        | none => simp [setStream]
        | some node => cases node <;> simp [setStream]
      · cases device with
        | null => simp [setStream]
        | full =>
            by_cases empty : text = []
            · simp [empty, opened]
            · simp [empty, opened]
      · simp [setStream]

end FileSystem

namespace World

variable {world : World}

theorem appendToLog_eq (world : World) (text : Bytes) :
    world.appendToLog text = { world with files := world.files.append text } := by
  unfold appendToLog FileSystem.append
  cases world.files.store .log text <;> rfl

/-- Closing the log changes the files and nothing else. -/
theorem closeLog_eq (world : World) :
    world.closeLog = { world with
      files := if world.logIsOpen then
          (world.files.append (Log.endMarker world.clock)).setStream .log none
        else world.files } := by
  unfold closeLog
  split
  · rw [appendToLog_eq]
  · rfl

/-- Without pieces the screen stays as it was. -/
theorem screen_still {after : World} (same : after.transcript.screen = world.transcript.screen) :
    after.transcript.screen =
      world.transcript.screen ++ ([] : List Log.Piece).flatMap Log.Piece.text := by
  rw [same, List.flatMap_nil, List.append_nil]

def pieces (world : World) (entry : Log.Entry) : List Log.Piece :=
  world.log.pieces world.clock entry

/-- The messages that go to the file when they are shown. Progress never does. -/
def filings (world : World) (messages : List Log.Message) : List Log.Message :=
  if world.logIsOpen then messages.filter fun message => message.level ≠ .progress else []

/-- The files after the messages were appended one by one. -/
def filesAfter (world : World) (messages : List Log.Message) : FileSystem Channel :=
  (world.filings messages).foldl
    (fun files message => files.append (message.fileEntry world.clock)) world.files

theorem filesAfter_of_closed (closed : world.logIsOpen = false) (messages : List Log.Message) :
    world.filesAfter messages = world.files := by
  rw [filesAfter, filings, closed]
  rfl

theorem writeMessage_eq (world : World) (message : Log.Message) :
    world.writeMessage message = if world.log.admits message.level then
      { world with
        files := world.filesAfter [message]
        transcript.screen := world.transcript.screen ++ message.screenLine world.log.terminal }
      else world := by
  unfold writeMessage filesAfter filings
  split
  · have same : (world.display (message.screenLine world.log.terminal)).logIsOpen =
        world.logIsOpen := rfl
    simp only [same]
    cases world.logIsOpen with
    | false => rfl
    | true =>
        by_cases progress : message.level = .progress
        · simp [progress, display]
        · simp [progress, display, appendToLog_eq]
  · rfl

/-- The log stays open, or closed, while messages are appended to its file. -/
theorem filesAfter_streams (world : World) (messages : List Log.Message) :
    ((world.filesAfter messages).streams .log).isSome = world.logIsOpen := by
  unfold filesAfter logIsOpen
  generalize world.filings messages = filed
  induction filed using List.reverseRecOn with
  | nil => rfl
  | append_singleton others message inductionHypothesis =>
      rw [List.foldl_append, List.foldl_cons, List.foldl_nil, FileSystem.append_streams]
      exact inductionHypothesis

/-- More messages are appended to the files that the first ones left. -/
theorem filesAfter_append (world : World) {later : World} (first second : List Log.Message)
    (files : later.files = world.filesAfter first) (clock : later.clock = world.clock) :
    later.filesAfter second = world.filesAfter (first ++ second) := by
  have same : later.logIsOpen = world.logIsOpen := by
    rw [logIsOpen, files, filesAfter_streams]
  have filed : world.filings (first ++ second) = world.filings first ++ world.filings second := by
    unfold filings
    cases world.logIsOpen <;> simp
  have filedLater : later.filings second = world.filings second := by
    rw [filings, filings, same]
  rw [filesAfter, filesAfter, filed, filedLater, clock, files, List.foldl_append]
  rfl

/-- Messages are written one after the other, those that are admitted. -/
theorem writeMessages_eq (world : World) (messages : List Log.Message) :
    messages.foldl writeMessage world =
      let admitted := messages.filter fun message => world.log.admits message.level
      { world with
        files := world.filesAfter admitted
        transcript.screen := world.transcript.screen ++
          admitted.flatMap (·.screenLine world.log.terminal) } := by
  induction messages generalizing world with
  | nil => simp [filesAfter, filings]
  | cons message others inductionHypothesis =>
      rw [List.foldl_cons, writeMessage_eq]
      by_cases admitted : world.log.admits message.level = true
      · rw [if_pos admitted, inductionHypothesis]
        simp only [admitted, List.filter_cons_of_pos, List.flatMap_cons, List.append_assoc]
        congr 1
        exact world.filesAfter_append [message] _ rfl rfl
      · rw [if_neg admitted, inductionHypothesis, List.filter_cons_of_neg (by simpa using admitted)]

/-- An entry changes the screen, the files and the state of the meter, and nothing else. -/
theorem writeEntry_eq (world : World) (entry : Log.Entry) :
    world.writeEntry entry = { world with
      files := world.filesAfter ((world.pieces entry).filterMap Log.Piece.message?)
      log := world.log.afterEntry world.clock entry
      transcript.screen := world.transcript.screen ++
        (world.pieces entry).flatMap Log.Piece.text } := by
  have shown := world.writeMessages_eq (world.log.messages entry)
  have messages : (world.pieces entry).filterMap Log.Piece.message? = _ :=
    world.log.pieces_messages world.clock entry
  unfold writeEntry
  rw [shown, messages]
  simp only [pieces, Log.Session.pieces, List.flatMap_append, List.flatMap_map]
  cases entry with
  | message message => simp [Log.Session.afterEntry]
  | status level origin status context => simp [Log.Session.afterEntry]
  | reading reading =>
      simp only [writeReading, Log.Session.afterEntry, Log.Session.messages, List.filter_nil]
      split
      · simp [display]
      · simp
  | endReadings =>
      simp only [endReadings, Log.Session.afterEntry, Log.Session.messages, List.filter_nil]
      split
      · simp [display]
      · simp

end World

end Launcher
