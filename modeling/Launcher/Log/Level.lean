/-
This file defines the levels of log messages, with their names, labels and colours.
-/

import Launcher.Bytes

namespace Launcher

/-- Any byte may be given as a level, and only the ranks up to `debug` can be selected. -/
structure Level where
  rank : UInt8
  deriving DecidableEq

namespace Level

def silent : Level := ⟨0⟩
def error : Level := ⟨1⟩
def warning : Level := ⟨2⟩
def information : Level := ⟨3⟩
def debug : Level := ⟨4⟩
def progress : Level := ⟨5⟩

instance : LE Level := ⟨fun first second => first.rank ≤ second.rank⟩

instance : LT Level := ⟨fun first second => first.rank < second.rank⟩

instance (first second : Level) : Decidable (first ≤ second) :=
  inferInstanceAs (Decidable (first.rank ≤ second.rank))

instance (first second : Level) : Decidable (first < second) :=
  inferInstanceAs (Decidable (first.rank < second.rank))

/-- The names that select a level. -/
def names : List (Bytes × Level) :=
  [("none", silent), ("error", error), ("warn", warning), ("info", information), ("debug", debug)]

/-- The longest name has this many bytes. -/
def nameLimit : Nat := 5

/-- The letter case of a name does not matter, and every other text selects `information`. -/
def ofName (name : Bytes) : Level :=
  if nameLimit < name.length then information
  else (names.lookup name.lower).getD information

/-- The labels of all levels, by rank. -/
def labels : List Bytes := ["", "ERROR", "WARN", "INFO", "DEBUG", "DOWN"]

/-- The colours of all levels, by rank. -/
def colours : List Bytes :=
  ["", "\x1b[31m", "\x1b[33m", "\x1b[32m", "\x1b[34m", "\x1b[36m"]

def label (level : Level) : Bytes := labels.getD level.rank.toNat []

def colour (level : Level) : Bytes := colours.getD level.rank.toNat []

def plain : Bytes := "\x1b[0m"

/-- A tag stands before a message on the screen, and only a terminal gets colours. -/
def tag (level : Level) (terminal : Bool) : Bytes :=
  let bracketed := "[" ++ level.label ++ "]"
  (if terminal then level.colour ++ bracketed ++ plain else bracketed) ++ " "

end Level

end Launcher
