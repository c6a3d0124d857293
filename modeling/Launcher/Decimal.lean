/-
This file writes floating-point numbers with one decimal place, and cuts them to whole numbers.
-/

import Launcher.Bytes

namespace Launcher.Decimal

/-- A quotient is rounded to the nearest number, and a tie goes to the even one. -/
def roundQuotient (numerator denominator : Nat) : Nat :=
  let quotient := numerator / denominator
  let twice := 2 * (numerator % denominator)
  if denominator < twice ∨ (twice = denominator ∧ quotient % 2 = 1) then quotient + 1 else quotient

/-- A finite number is its significand times a power of two, counted from the smallest one. -/
def significand (bits : Nat) : Nat :=
  let fraction := bits % Nat.pow 2 52
  if bits / Nat.pow 2 52 % Nat.pow 2 11 = 0 then fraction else fraction + Nat.pow 2 52

def exponent (bits : Nat) : Nat := bits / Nat.pow 2 52 % Nat.pow 2 11 - 1

/-- The magnitude in tenths is rounded from the exact binary value. -/
def tenths (bits : Nat) : Nat :=
  roundQuotient (significand bits * 10 * Nat.pow 2 (exponent bits)) (Nat.pow 2 1074)

/-- The sign is written also before a number that rounds to zero. -/
def onePlace (number : Float) : Bytes :=
  let bits := number.toBits.toNat
  let tenths := tenths bits
  (if bits / Nat.pow 2 63 = 1 then ("-" : Bytes) else []) ++ Bytes.ofNat (tenths / 10) ++ "." ++
    Bytes.ofNat (tenths % 10)

/-- The fraction is cut off, and a number that does not fit becomes the least word. -/
def toWord (number : Float) : Int :=
  if -2147483649.0 < number && number < 2147483648.0 then number.toInt32.toInt else -2147483648

end Launcher.Decimal
