/-
This file splits path texts into names. A location is a path without links, from the root down.
-/

import Launcher.Bytes

namespace Launcher

abbrev Name := Bytes

/-- The names lead from the root down to the place, so the root itself has no names. -/
abbrev Location := List Name

namespace Path

def here : Name := "."

def parent : Name := ".."

/-- Repeated slashes count once. -/
def names (text : Bytes) : List Name := text.fields Bytes.slash

def isAbsolute (text : Bytes) : Bool := text.head? == some Bytes.slash

/-- A path that ends in a slash asks for a directory. -/
def asksDirectory (text : Bytes) : Bool := text.getLast? == some Bytes.slash

/-- A path text has fewer bytes than this. -/
def lengthLimit : Nat := 4096

/-- A name has at most this many bytes. -/
def nameLimit : Nat := 255

/-- A walk follows at most this many links. -/
def linkLimit : Nat := 40

end Path

/-- One device drops what it is given, the other refuses it. -/
inductive Device where
  | null | full
  deriving DecidableEq

/-- A path names a device by its exact text, whatever the tree holds. -/
def Device.ofPath (path : Bytes) : Option Device :=
  if path = "/dev/null" then some .null
  else if path = "/dev/full" then some .full
  else none

/-- The written form of a location starts every name with a slash. -/
def Location.text (location : Location) : Bytes :=
  location.flatMap fun name => Bytes.slash :: name

/-- A location is below another when it extends it by at least one name. -/
def Location.below (top location : Location) : Bool :=
  top.isPrefixOf location && top.length < location.length

end Launcher
