/-
This file draws the transfer meter, a line of the terminal that is drawn over itself.
-/

import Launcher.Decimal
import Launcher.Log.Entry

namespace Launcher.Log

namespace Reading

def barWidth : Nat := 30

/-- The bar ends in an arrow head, unless it is full. -/
def bar (percentage : Float) : Bytes :=
  let filled := Decimal.toWord (percentage / 100.0 * 30.0)
  (List.range barWidth).map fun index =>
    if Int.ofNat index < filled then 61 else if Int.ofNat index = filled then 62 else 32

/-- The unit grows by a factor of 1024 while the total has that many, up to the last unit. -/
def scale (received total : Float) : List Bytes → Bytes → Bytes
  | [], unit => sizes received total unit
  | larger :: others, unit =>
      if 1024.0 ≤ total then scale (received / 1024.0) (total / 1024.0) others larger
      else sizes received total unit
where
  sizes (received total : Float) (unit : Bytes) : Bytes :=
    " (" ++ Decimal.onePlace received ++ "/" ++ Decimal.onePlace total ++ " " ++ unit ++ ")"

/-- The sizes are left out when the total is not known. -/
def sizes (reading : Reading) : Bytes :=
  if 0 < reading.total then
    scale reading.received.toFloat reading.total.toFloat ["KB", "MB", "GB"] "B"
  else []

/-- The line begins with a carriage return and has no end. -/
def line (reading : Reading) : Bytes :=
  "\r" ++ Level.progress.tag true ++ reading.operation.fitRight 20 ++ " [" ++
    bar reading.percentage ++ "] " ++
    Bytes.padLeft 3 32 (Bytes.ofInt (Decimal.toWord reading.percentage)) ++ "%" ++ reading.sizes

end Reading

end Launcher.Log
