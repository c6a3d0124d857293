/-
This file is the launcher itself: it reads the verbs, resolves the binary, and hands over to it.
-/

import Launcher.HandOver
import Launcher.Host
import Launcher.Resolve
import Launcher.Usage
import Launcher.Verbs

namespace Launcher.Launch

/-- The exit status of a run that did what was asked for. -/
def success : Int := 0

def failure : Int := 1

/-- The log is closed at the end of every run that is not handed over. -/
def exit (status : Int) : Program Int := do
  Program.closeLog
  pure status

def fail (status : Status) (context : Bytes) : Program Int := do
  Program.noteStatus .error status context
  exit failure

/-- A binary is handed over to unless only its path is asked for. -/
def deliver (verbs : Verbs) (path : Bytes) (arguments : List (Option Bytes)) : Program Int :=
  if verbs.path then do
    Program.print (path ++ "\n")
    exit success
  else do
    let _ ← HandOver.run path arguments arguments.length
    pure failure

/-- A resolution uses the pinned version and the host that was detected. -/
def resolve (verbs : Verbs) (arguments : List (Option Bytes)) : Program Int := do
  match ← Host.detect with
  | .error status => fail status "Failed to detect the host platform"
  | .ok host =>
      Program.note .debug
        ("Detected platform: " ++ host.systemName ++ "/" ++ host.processorName)
      match ← Resolve.run (some ⟨some Release.pinned, some host, .download, verbs.reinstall⟩) with
      | .error status => fail status ("Failed to resolve the " ++ Release.program ++ " binary")
      | .ok path => deliver verbs path arguments

/-- Help comes before the version, and both come before any resolution. -/
def obey (verbs : Verbs) (arguments : List (Option Bytes)) : Program Int :=
  if verbs.help then do
    Program.print Usage.text
    exit success
  else if verbs.version then do
    Program.print (Release.pinned ++ "\n")
    exit success
  else resolve verbs arguments

/-- A log that cannot be opened is only worth a warning. -/
def start : Program Unit := do
  let opened ← Program.openLog
  if opened.failed then
    Program.warn ("Warning: Failed to initialize logging to file: " ++ opened.message ++ "\n")
  else pure ()

/-- The answer is the exit status, unless the process is replaced. -/
def run (arguments : List (Option Bytes)) : Program Int := do
  start
  match ← Verbs.fromEnvironment (some {}) with
  | (status, verbs) =>
      if status.failed then fail status ("Failed to parse " ++ Setting.verbs.name)
      else obey (verbs.getD {}) arguments

end Launcher.Launch
