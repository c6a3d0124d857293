/-
This file defines programs as trees of calls. A program has no effect of its own; what a call does
and answers is decided by the world that runs it.
-/

import Launcher.FileSystem.Walk
import Launcher.Log.Entry
import Launcher.Setting
import Launcher.Transfer

namespace Launcher

/-- A file call works on the tree by path, or on the one output stream of the program. -/
inductive FileCall where
  | inspect (path : Bytes)
  | access (path : Bytes)
  | makeDirectory (path : Bytes) (mode : Mode)
  | setMode (path : Bytes) (mode : Mode)
  | unlink (path : Bytes)
  | rename (source target : Bytes)
  | openOutput (path : Bytes)
  | outputIsRegular
  | write (bytes : Bytes)
  | flush
  | close
  deriving DecidableEq

/-- A call that can be refused answers with the error number of the refusal. -/
abbrev FileCall.Reply : FileCall → Type
  | .inspect _ => Except Errno Attributes
  | .outputIsRegular => Bool
  | _ => Except Errno Unit

inductive Call where
  | file (call : FileCall)
  | lookUp (setting : Setting)
  | passwordEntry
  | processId
  | systemNames
  | duplicate
  | prepareTransfer
  | transfer (request : Transfer.Request)
  | pass (seconds : Int)
  | fetch (address path : Bytes)
  | execute (path : Bytes) (arguments : List (Option Bytes))
  | print (text : Bytes)
  | warn (text : Bytes)
  | openLog
  | closeLog
  | log (entry : Log.Entry)
  | keepCacheDirectory (path : Bytes)

/-- A call for execution only answers when it fails. -/
abbrev Call.Reply : Call → Type
  | .file call => call.Reply
  | .lookUp _ => Option Bytes
  | .passwordEntry => Option Bytes
  | .processId => Int
  | .systemNames => Except Errno (Bytes × Bytes)
  | .duplicate => Bool
  | .prepareTransfer => Bool
  | .transfer _ => Transfer.Script
  | .pass _ => Unit
  | .fetch _ _ => Status
  | .execute _ _ => Errno
  | .print _ => Unit
  | .warn _ => Unit
  | .openLog => Status
  | .closeLog => Unit
  | .log _ => Unit
  | .keepCacheDirectory _ => Unit

/-- A program is finished with an answer, or makes a call and goes on with the reply. -/
inductive Program (Answer : Type) where
  | done (answer : Answer)
  | ask (call : Call) (next : call.Reply → Program Answer)

namespace Program

variable {First Second : Type}

def bind (program : Program First) (next : First → Program Second) : Program Second :=
  match program with
  | .done answer => next answer
  | .ask call rest => .ask call fun reply => (rest reply).bind next

instance : Monad Program where
  pure := .done
  bind := bind

@[simp] theorem pure_eq (answer : First) : (pure answer : Program First) = .done answer := rfl

@[simp] theorem bind_done (answer : First) (next : First → Program Second) :
    (Program.done answer >>= next) = next answer := rfl

@[simp] theorem bind_ask (call : Call) (rest : call.Reply → Program First)
    (next : First → Program Second) :
    (Program.ask call rest >>= next) = .ask call fun reply => rest reply >>= next := rfl

theorem bind_assoc {Third : Type} (program : Program First) (next : First → Program Second)
    (last : Second → Program Third) :
    (program >>= next) >>= last = program >>= fun answer => next answer >>= last := by
  induction program with
  | done answer => rfl
  | ask call rest inductionHypothesis =>
      simp only [bind_ask]
      congr 1
      funext reply
      exact inductionHypothesis reply

/-- This program makes one call and answers with the reply. -/
def request (call : Call) : Program call.Reply := .ask call .done

def inspect (path : Bytes) : Program (Except Errno Attributes) := request (.file (.inspect path))

def access (path : Bytes) : Program (Except Errno Unit) := request (.file (.access path))

def makeDirectory (path : Bytes) (mode : Mode) : Program (Except Errno Unit) :=
  request (.file (.makeDirectory path mode))

def setMode (path : Bytes) (mode : Mode) : Program (Except Errno Unit) :=
  request (.file (.setMode path mode))

def unlink (path : Bytes) : Program (Except Errno Unit) := request (.file (.unlink path))

def rename (source target : Bytes) : Program (Except Errno Unit) :=
  request (.file (.rename source target))

def openOutput (path : Bytes) : Program (Except Errno Unit) := request (.file (.openOutput path))

def outputIsRegular : Program Bool := request (.file .outputIsRegular)

def write (bytes : Bytes) : Program (Except Errno Unit) := request (.file (.write bytes))

def flush : Program (Except Errno Unit) := request (.file .flush)

def close : Program (Except Errno Unit) := request (.file .close)

def lookUp (setting : Setting) : Program (Option Bytes) := request (.lookUp setting)

def passwordEntry : Program (Option Bytes) := request .passwordEntry

def processId : Program Int := request .processId

def systemNames : Program (Except Errno (Bytes × Bytes)) := request .systemNames

/-- The reply says whether there was memory for a copy. -/
def duplicate : Program Bool := request .duplicate

def prepareTransfer : Program Bool := request .prepareTransfer

def transfer (wanted : Transfer.Request) : Program Transfer.Script := request (.transfer wanted)

def pass (seconds : Int) : Program Unit := request (.pass seconds)

def fetch (address path : Bytes) : Program Status := request (.fetch address path)

def execute (path : Bytes) (arguments : List (Option Bytes)) : Program Errno :=
  request (.execute path arguments)

def print (text : Bytes) : Program Unit := request (.print text)

/-- A warning goes to the screen whatever the level of the log is. -/
def warn (text : Bytes) : Program Unit := request (.warn text)

def openLog : Program Status := request .openLog

def closeLog : Program Unit := request .closeLog

def note (level : Level) (text : Bytes) : Program Unit :=
  request (.log (.message ⟨level, .launcher, text⟩))

def noteStatus (level : Level) (status : Status) (context : Bytes) : Program Unit :=
  request (.log (.status level .launcher status (some context)))

def noteReading (reading : Log.Reading) : Program Unit := request (.log (.reading reading))

def endReadings : Program Unit := request (.log .endReadings)

def keepCacheDirectory (path : Bytes) : Program Unit := request (.keepCacheDirectory path)

end Program

end Launcher
