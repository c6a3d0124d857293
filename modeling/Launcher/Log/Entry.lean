/-
This file defines what can be logged, and the texts of the messages and of the file entries.
-/

import Launcher.Calendar
import Launcher.Log.Level
import Launcher.Status

namespace Launcher.Log

/-- The launcher marks its own messages, and a caller gives a file name and a line number. -/
inductive Origin where
  | launcher
  | caller (file : Bytes) (line : Int)
  deriving DecidableEq

/-- Only the part of the file name after its last slash is written. -/
def Origin.text : Origin → Bytes
  | .launcher => "@"
  | .caller file line => file.afterLast Bytes.slash ++ ":" ++ Bytes.ofInt line

/-- A message has one level and one text, wherever it is written. -/
structure Message where
  level : Level
  origin : Origin
  text : Bytes
  deriving DecidableEq

namespace Message

/-- On the screen a message is one line after its tag. -/
def screenLine (message : Message) (terminal : Bool) : Bytes :=
  message.level.tag terminal ++ message.text ++ "\n"

/-- In the file the entry also has the moment and the origin. -/
def fileEntry (message : Message) (moment : Int) : Bytes :=
  "[" ++ message.level.label ++ "] " ++ Calendar.stamp moment ++ " " ++ message.origin.text ++
    ": " ++ message.text ++ "\n"

end Message

def startMarker (moment : Int) : Bytes :=
  "=== Log session started at " ++ Calendar.stamp moment ++ " ===\n"

/-- A blank line follows the marker that ends a session. -/
def endMarker (moment : Int) : Bytes :=
  "=== Log session ended at " ++ Calendar.stamp moment ++ " ===\n\n"

/-- The summary of a status starts with its context, when there is one. -/
def summary (status : Status) (context : Option Bytes) : Bytes :=
  let opening : Bytes := match context with
    | none => "Result"
    | some context => if context = [] then "Result" else context
  opening ++ ": " ++ status.message ++ " (0x" ++ Bytes.ofHex 8 status.word.toNat ++ ")"

/-- The details give the three parts of a status. -/
def details (status : Status) : Bytes :=
  "  Details: Severity=" ++ Bytes.ofNat status.severity ++
    ", Category=" ++ Bytes.ofNat status.category ++
    ", Code=0x" ++ Bytes.ofHex 4 status.code

/-- A reading of the transfer meter. -/
structure Reading where
  operation : Bytes
  percentage : Float
  received : Int64
  total : Int64

/-- An entry is what a part of the program hands to the log. -/
inductive Entry where
  | message (message : Message)
  | status (level : Level) (origin : Origin) (status : Status) (context : Option Bytes)
  | reading (reading : Reading)
  | endReadings

end Launcher.Log
