/-
This file names the error numbers of the operating system that the launcher meets.
-/

import Launcher.Errno.Texts

namespace Launcher

/-- An error number says why the operating system refused a call. -/
structure Errno where
  number : Int
  deriving DecidableEq

namespace Errno

def notPermitted : Errno := ⟨1⟩
def noEntry : Errno := ⟨2⟩
def inputOutput : Errno := ⟨5⟩
def badExecutable : Errno := ⟨8⟩
def outOfMemory : Errno := ⟨12⟩
def accessDenied : Errno := ⟨13⟩
def badAddress : Errno := ⟨14⟩
def busy : Errno := ⟨16⟩
def alreadyExists : Errno := ⟨17⟩
def crossDevice : Errno := ⟨18⟩
def notDirectory : Errno := ⟨20⟩
def isDirectory : Errno := ⟨21⟩
def invalidArgument : Errno := ⟨22⟩
def textBusy : Errno := ⟨26⟩
def noSpace : Errno := ⟨28⟩
def readOnly : Errno := ⟨30⟩
def nameTooLong : Errno := ⟨36⟩
def notImplemented : Errno := ⟨38⟩
def directoryNotEmpty : Errno := ⟨39⟩
def tooManyLinks : Errno := ⟨40⟩
def notSupported : Errno := ⟨95⟩
def timedOut : Errno := ⟨110⟩

/-- A number without a text of its own is reported by its value. -/
def message (errno : Errno) : Bytes :=
  match texts.lookup errno.number with
  | some text => text
  | none => "Unknown error " ++ Bytes.ofInt errno.number

end Errno

end Launcher
