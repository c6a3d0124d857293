/-
This file defines texts as lists of bytes, with the operations that names, paths and messages need.
-/

namespace Launcher

/-- A text is a list of bytes, so a name need not be valid in any encoding. -/
abbrev Bytes := List UInt8

namespace Bytes

/-- A literal stands for the bytes of its encoding. -/
def ofString (literal : String) : Bytes := literal.toByteArray.data.toList

instance : Coe String Bytes := ⟨ofString⟩

/-- The byte separates the names of a path. -/
def slash : UInt8 := 47

/-- Only the letters of ASCII have a lower case; every other byte stays. -/
def lowerByte (byte : UInt8) : UInt8 :=
  if 65 ≤ byte ∧ byte ≤ 90 then byte + 32 else byte

def lower (text : Bytes) : Bytes := text.map lowerByte

/-- The pieces between separators include the empty ones. -/
def splitOn (separator : UInt8) : Bytes → List Bytes
  | [] => [[]]
  | byte :: rest =>
      if byte = separator then [] :: splitOn separator rest
      else match splitOn separator rest with
        | [] => [[byte]]
        | piece :: others => (byte :: piece) :: others

/-- The fields are the maximal runs of bytes other than the separator. -/
def fields (separator : UInt8) (text : Bytes) : List Bytes :=
  (splitOn separator text).filter fun piece => !piece.isEmpty

/-- This is the part after the last separator, or the whole text when there is none. -/
def afterLast (separator : UInt8) (text : Bytes) : Bytes :=
  (text.reverse.takeWhile fun byte => byte != separator).reverse

/-- The text is cut to the width and then filled with blanks. -/
def fitRight (width : Nat) (text : Bytes) : Bytes :=
  text.take width ++ List.replicate (width - text.length) 32

/-- The text is filled on the left up to the width and never cut. -/
def padLeft (width : Nat) (fill : UInt8) (text : Bytes) : Bytes :=
  List.replicate (width - text.length) fill ++ text

/-- This joins the texts with the separator between neighbours. -/
def intercalate (separator : Bytes) : List Bytes → Bytes
  | [] => []
  | [text] => text
  | text :: others => text ++ separator ++ intercalate separator others

def ofNat (number : Nat) : Bytes := (Nat.toDigits 10 number).map Char.toUInt8

def ofInt : Int → Bytes
  | .ofNat number => ofNat number
  | .negSucc number => "-" ++ ofNat (number + 1)

/-- The digits above nine are capital letters, and zeros fill the width. -/
def ofHex (width number : Nat) : Bytes :=
  padLeft width 48 ((Nat.toDigits 16 number).map fun digit => digit.toUpper.toUInt8)

end Bytes

end Launcher
