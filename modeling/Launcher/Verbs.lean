/-
This file reads the verbs that control the launcher. The command line belongs to the launched
program, so the verbs come from the environment.
-/

import Launcher.Program

namespace Launcher

/-- A verb is in force when its flag is set. -/
structure Verbs where
  version : Bool := false
  help : Bool := false
  path : Bool := false
  reinstall : Bool := false
  deriving DecidableEq

inductive Verb where
  | version | help | path | reinstall
  deriving DecidableEq

namespace Verb

/-- The letter case of a verb does not matter. -/
def ofToken (token : Bytes) : Option Verb :=
  let name := token.lower
  if name = "version" then some .version
  else if name = "help" then some .help
  else if name = "path" then some .path
  else if name = "reinstall" then some .reinstall
  else none

end Verb

namespace Verbs

def set (verbs : Verbs) : Verb → Verbs
  | .version => { verbs with version := true }
  | .help => { verbs with help := true }
  | .path => { verbs with path := true }
  | .reinstall => { verbs with reinstall := true }

/-- An empty token and absent verbs are no error, and change nothing. -/
def add (verbs : Option Verbs) (token : Bytes) : Status × Option Verbs :=
  match verbs with
  | none => (.ok, none)
  | some verbs =>
      if token = [] then (.ok, some verbs)
      else match Verb.ofToken token with
        | some verb => (.ok, some (verbs.set verb))
        | none => (.make .warning .configuration .unknown, some verbs)

/-- The byte separates the tokens of a list. -/
def separator : UInt8 := 59

/-- A token that is no verb is reported and skipped. The reading stops after a verb once help is
asked for. -/
def addTokens (verbs : Verbs) : List Bytes → Program Verbs
  | [] => pure verbs
  | token :: others =>
      match Verb.ofToken token with
      | none => do
          Program.note .information ("Unknown " ++ Setting.verbs.name ++ " token: " ++ token)
          addTokens verbs others
      | some verb =>
          let verbs := verbs.set verb
          if verbs.help then do
            Program.note .debug "Returning early, got help token"
            pure verbs
          else addTokens verbs others

/-- The list is copied before it is read, and only when it is there. -/
def fromEnvironment (verbs : Option Verbs) : Program (Status × Option Verbs) :=
  match verbs with
  | none => pure (.error .configuration .invalidArgument, none)
  | some verbs => do
      match ← Program.lookUp .verbs with
      | none => pure (.ok, some verbs)
      | some list =>
          if ← Program.duplicate then
            let verbs ← addTokens verbs (list.fields separator)
            pure (.ok, some verbs)
          else pure (.error .configuration .outOfMemory, some verbs)

end Verbs

end Launcher
