/-
This file defines the world that programs run in: what surrounds the launcher, its own lasting
state, and what it has written so far. It answers one call at a time.
-/

import Launcher.Fault
import Launcher.FileSystem.Edit
import Launcher.FileSystem.Service
import Launcher.Log.Session

namespace Launcher

/-- The launcher has a log stream and one output stream. -/
inductive Channel where
  | log | output
  deriving DecidableEq

/-- A fetcher stands in for the download: it may write a file and set its mode, and it answers
with a status. -/
structure Fetcher where
  status : Status := .ok
  content : Option Bytes := none
  mode : Option Mode := none
  deriving DecidableEq

/-- Nothing that a program does changes its surroundings. -/
structure Surroundings where
  environment : Environment := fun _ => none
  processId : Int := 4242
  terminal : Bool := false
  mask : Mode := 0o022
  systemNames : Except Errno (Bytes × Bytes) := .ok ("Linux", "x86_64")
  /-- The home directory of the password entry, when there is an entry with one. -/
  passwordEntry : Option Bytes := none
  /-- Without an error number an execution succeeds. -/
  executionError : Option Errno := none
  transport : Transfer.Script := {}
  fetcher : Fetcher := {}

/-- These are the calls that leave the launcher. -/
inductive Event where
  | fetch (address path : Bytes)
  | transfer (request : Transfer.Request)
  | execute (path : Bytes) (arguments : List Bytes)
  deriving DecidableEq

/-- The transcript is everything that a program shows to the outside, apart from files. -/
structure Transcript where
  output : Bytes := []
  screen : Bytes := []
  events : List Event := []
  deriving DecidableEq

structure World where
  surroundings : Surroundings := {}
  files : FileSystem Channel := ⟨.empty, fun _ => none⟩
  clock : Int := 1700000000
  faults : List Fault := []
  log : Log.Session := {}
  cacheDirectory : Option Bytes := none
  transcript : Transcript := {}

namespace World

def display (world : World) (text : Bytes) : World :=
  { world with transcript.screen := world.transcript.screen ++ text }

def print (world : World) (text : Bytes) : World :=
  { world with transcript.output := world.transcript.output ++ text }

def witness (world : World) (event : Event) : World :=
  { world with transcript.events := world.transcript.events ++ [event] }

/-- The reply is the refusal of the first fault that strikes. -/
def strike (world : World) (operation : Operation) (path : Option Bytes) :
    Option Errno × World :=
  let outcome := Fault.intercept operation path world.faults
  (outcome.1, { world with faults := outcome.2 })

/-- A fault comes before the file system. -/
def answerFile (world : World) (call : FileCall) : call.Reply × World :=
  let mask := world.surroundings.mask
  match call.faultPoint with
  | none =>
      let outcome := world.files.answer .output mask call
      (outcome.1, { world with files := outcome.2 })
  | some (operation, path) =>
      match world.strike operation path with
      | (none, world) =>
          let outcome := world.files.answer .output mask call
          (outcome.1, { world with files := outcome.2 })
      | (some errno, world) =>
          let outcome := world.files.refuse .output mask errno call
          (outcome.1, { world with files := outcome.2 })

def logIsOpen (world : World) : Bool := (world.files.streams .log).isSome

/-- The file takes the text at once, and a refusal goes unnoticed. -/
def appendToLog (world : World) (text : Bytes) : World :=
  match world.files.store .log text with
  | .ok files => { world with files }
  | .error _ => world

/-- A message that is admitted goes to the screen, and to the file unless it is progress. -/
def writeMessage (world : World) (message : Log.Message) : World :=
  if world.log.admits message.level then
    let shown := world.display (message.screenLine world.log.terminal)
    if shown.logIsOpen && message.level ≠ .progress then
      shown.appendToLog (message.fileEntry world.clock)
    else shown
  else world

def writeReading (world : World) (reading : Log.Reading) : World :=
  if world.log.draws world.clock reading then
    { world.display reading.line with log.drawnAt := world.clock }
  else world

/-- A line that the meter left open is ended. -/
def endReadings (world : World) : World :=
  if world.log.meterOpen then { world.display "\n" with log.drawnAt := 0 } else world

def writeEntry (world : World) (entry : Log.Entry) : World :=
  let written := (world.log.messages entry).foldl writeMessage world
  match entry with
  | .reading reading => written.writeReading reading
  | .endReadings => written.endReadings
  | _ => written

def closeLog (world : World) : World :=
  if world.logIsOpen then
    let ended := world.appendToLog (Log.endMarker world.clock)
    { ended with files := ended.files.setStream .log none }
  else world

def selectLevel (world : World) (level : Level) : World :=
  { world with log := world.log.select level }

/-- The file of the log is opened for appending. -/
def openLogFile (world : World) (path : Bytes) : Status × World :=
  let outcome : Except Errno (FileSystem Channel) × World :=
    match world.strike .openStream (some path) with
    | (some errno, world) => (.error errno, world)
    | (none, world) =>
        (world.files.openStream .log path true
          (Mode.masked 0o666 world.surroundings.mask), world)
  match outcome with
  | (.ok files, world) =>
      (.ok, { world with files }.appendToLog (Log.startMarker world.clock))
  | (.error errno, world) =>
      let status := Status.ofErrno errno
      (status, world.writeEntry
        (.status .warning .launcher status (some "Failed to open log file")))

/-- A silent log opens no file, and says so by a status that does not fail. -/
def openLog (world : World) : Status × World :=
  let closed := world.closeLog
  let environment := world.surroundings.environment
  let level := match environment .logLevel with
    | none => Level.information
    | some name => Level.ofName name
  let selected := { closed with
    log.level := level
    log.terminal := world.surroundings.terminal }
  if level = .silent then (.make .success .configuration .canceled, selected)
  else match environment .logFile with
    | none => (.ok, selected)
    | some path => if path = [] then (.ok, selected) else selected.openLogFile path

/-- A fetcher does what it does without faults. -/
def answerFetch (world : World) (address path : Bytes) : Status × World :=
  let world := world.witness (.fetch address path)
  let fetcher := world.surroundings.fetcher
  let written := match fetcher.content with
    | none => world.files.tree
    | some content => world.files.tree.attempt
        (world.files.tree.overwrite path content (Mode.masked 0o666 world.surroundings.mask))
  let adjusted := match fetcher.mode with
    | none => written
    | some mode => written.attempt (written.setMode path mode)
  (fetcher.status, { world with files.tree := adjusted })

/-- There is no reply to an execution that succeeds, because the program is gone. -/
def answer (world : World) : (call : Call) → Option call.Reply × World
  | .file call =>
      let outcome := world.answerFile call
      (some outcome.1, outcome.2)
  | .lookUp setting => (some (world.surroundings.environment setting), world)
  | .passwordEntry => (some world.surroundings.passwordEntry, world)
  | .processId => (some world.surroundings.processId, world)
  | .systemNames => (some world.surroundings.systemNames, world)
  | .duplicate =>
      let outcome := world.strike .duplicate none
      (some outcome.1.isNone, outcome.2)
  | .prepareTransfer => (some world.surroundings.transport.available, world)
  | .transfer request =>
      (some world.surroundings.transport, world.witness (.transfer request))
  | .pass seconds => (some (), { world with clock := world.clock + seconds })
  | .fetch address path =>
      let outcome := world.answerFetch address path
      (some outcome.1, outcome.2)
  | .execute path arguments =>
      (world.surroundings.executionError,
        world.witness (.execute path ((arguments.takeWhile Option.isSome).filterMap id)))
  | .print text => (some (), world.print text)
  | .warn text => (some (), world.display text)
  | .openLog =>
      let outcome := world.openLog
      (some outcome.1, outcome.2)
  | .closeLog => (some (), world.closeLog)
  | .log entry => (some (), world.writeEntry entry)
  | .keepCacheDirectory path => (some (), { world with cacheDirectory := some path })

/-- A run ends with the answer of the program, or without one when the program was replaced. -/
def run {Answer : Type} (world : World) : Program Answer → Option Answer × World
  | .done answer => (some answer, world)
  | .ask call next => match world.answer call with
      | (some reply, world) => world.run (next reply)
      | (none, world) => (none, world)

@[simp] theorem run_done {Answer : Type} (world : World) (answer : Answer) :
    world.run (.done answer) = (some answer, world) := rfl

/-- A run goes on in the world that the first program leaves, unless that program was replaced. -/
theorem run_bind {First Second : Type} (world : World) (program : Program First)
    (next : First → Program Second) :
    world.run (program >>= next) =
      match world.run program with
      | (some answer, after) => after.run (next answer)
      | (none, after) => (none, after) := by
  induction program generalizing world with
  | done answer => rfl
  | ask call rest inductionHypothesis =>
      simp only [Program.bind_ask, run]
      split
      · rename_i reply after _
        exact inductionHypothesis reply after
      · rfl

end World

end Launcher
