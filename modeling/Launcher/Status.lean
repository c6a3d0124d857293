/-
This file defines status words, which pack the severity, the category and the code of an outcome.
-/

import Launcher.Errno

namespace Launcher

/-- A status is one word: a failure bit, four bits of severity, eleven of category and sixteen of
code. -/
structure Status where
  word : BitVec 32
  deriving DecidableEq

inductive Severity where
  | success | information | warning | error
  deriving DecidableEq

inductive Category where
  | general | system | fileSystem | network | runtime | configuration | platform
  deriving DecidableEq

inductive Cause where
  | unknown | invalidArgument | outOfMemory | fileNotFound | accessDenied | alreadyExists
  | notSupported | inputOutput | timeout | notReady | notFound | canceled | busy | network
  | parsing | notDirectory | downloadDisabled | httpStatus | transfer
  deriving DecidableEq

def Severity.code : Severity → BitVec 32
  | .success => 0
  | .information => 1
  | .warning => 2
  | .error => 3

def Category.code : Category → BitVec 32
  | .general => 0
  | .system => 1
  | .fileSystem => 2
  | .network => 3
  | .runtime => 4
  | .configuration => 5
  | .platform => 6

def Cause.code : Cause → BitVec 32
  | .unknown => 1
  | .invalidArgument => 2
  | .outOfMemory => 3
  | .fileNotFound => 4
  | .accessDenied => 5
  | .alreadyExists => 6
  | .notSupported => 7
  | .inputOutput => 8
  | .timeout => 9
  | .notReady => 10
  | .notFound => 11
  | .canceled => 12
  | .busy => 13
  | .network => 14
  | .parsing => 15
  | .notDirectory => 16
  | .downloadDisabled => 100
  | .httpStatus => 101
  | .transfer => 404

namespace Status

/-- The failure bit is set from the severity of a warning on, compared as a signed number. -/
def pack (severity category code : BitVec 32) : Status :=
  ⟨(if Severity.warning.code.sle severity then 0x80000000#32 else 0#32) |||
    severity <<< 27 ||| category <<< 16 ||| (code &&& 0xFFFF#32)⟩

def make (severity : Severity) (category : Category) (cause : Cause) : Status :=
  pack severity.code category.code cause.code

def error (category : Category) (cause : Cause) : Status := make .error category cause

def ok : Status := ⟨0⟩

/-- A status fails exactly when its word is negative. -/
def failed (status : Status) : Bool := status.word.msb

def severity (status : Status) : Nat := (status.word.extractLsb' 27 4).toNat

def category (status : Status) : Nat := (status.word.extractLsb' 16 11).toNat

def code (status : Status) : Nat := (status.word.extractLsb' 0 16).toNat

/-- The codes that have a text, with the text of each. -/
def texts : List (Cause × Bytes) :=
  [(.unknown, "Unknown error"),
    (.invalidArgument, "Invalid argument"),
    (.outOfMemory, "Out of memory"),
    (.fileNotFound, "File not found"),
    (.accessDenied, "Access denied"),
    (.alreadyExists, "Already exists"),
    (.notSupported, "Not supported"),
    (.inputOutput, "I/O error"),
    (.timeout, "Operation timed out"),
    (.notReady, "Not ready"),
    (.notFound, "Not found"),
    (.canceled, "Operation canceled"),
    (.busy, "Resource busy"),
    (.network, "Network error"),
    (.parsing, "Parse error"),
    (.notDirectory, "Not a directory"),
    (.downloadDisabled, "Binary unavailable and downloads are disabled"),
    (.httpStatus, "Server returned an error status"),
    (.transfer, "Transfer failed")]

/-- A status that does not fail and has severity zero reads as success, whatever its code. -/
def message (status : Status) : Bytes :=
  if !status.failed && status.severity == 0 then "Success"
  else if status.code == Cause.notSupported.code.toNat &&
      status.category == Category.platform.code.toNat then "Unsupported platform"
  else match texts.find? fun entry => entry.1.code.toNat == status.code with
    | some entry => entry.2
    | none => "Unrecognized result"

/-- The error numbers that have a cause of their own; every other one is an unknown system error. -/
def causes : List (Errno × Category × Cause) :=
  [(.noEntry, .fileSystem, .fileNotFound),
    (.accessDenied, .fileSystem, .accessDenied),
    (.notPermitted, .fileSystem, .accessDenied),
    (.readOnly, .fileSystem, .accessDenied),
    (.alreadyExists, .fileSystem, .alreadyExists),
    (.notDirectory, .fileSystem, .notDirectory),
    (.inputOutput, .fileSystem, .inputOutput),
    (.noSpace, .fileSystem, .inputOutput),
    (.crossDevice, .fileSystem, .inputOutput),
    (.outOfMemory, .system, .outOfMemory),
    (.invalidArgument, .system, .invalidArgument),
    (.notImplemented, .system, .notSupported),
    (.notSupported, .system, .notSupported),
    (.timedOut, .system, .timeout),
    (.busy, .system, .busy),
    (.textBusy, .system, .busy),
    (.badExecutable, .runtime, .notSupported)]

/-- The error number zero stands for no error. -/
def ofErrno (errno : Errno) : Status :=
  if errno.number = 0 then ok
  else match causes.lookup errno with
    | some (category, cause) => error category cause
    | none => error .system .unknown

end Status

end Launcher
