/-
This file finds the places where binaries are kept: the override and the cache of a version.
-/

import Launcher.Binary
import Launcher.Directory
import Launcher.Release

namespace Launcher.Cache

/-- The environment names the home directory, or else the password entry does. -/
def home : Program (Option Bytes) := do
  match ← Program.lookUp .home with
  | some (byte :: rest) => pure (some (byte :: rest))
  | _ =>
      match ← Program.passwordEntry with
      | some (byte :: rest) => pure (some (byte :: rest))
      | _ => pure none

/-- Each version has a directory of its own in the home directory. -/
def directory (home version : Bytes) : Bytes :=
  home ++ "/." ++ Release.program ++ "/bin/" ++ version

/-- The directory of a version is made when it is missing, and remembered when it is there. -/
def setUp (version : Option Bytes) : Program (Except Status Bytes) :=
  match version with
  | none => pure (.error (.error .configuration .invalidArgument))
  | some version =>
      if version = [] then pure (.error (.error .configuration .invalidArgument))
      else do
        match ← home with
        | none =>
            Program.note .error "Could not determine the home directory"
            pure (.error (.error .configuration .notFound))
        | some home =>
            let path := directory home version
            let status ← Directory.ensure (some path)
            if status.failed then
              Program.noteStatus .error status "Failed to create the cache directory"
              Program.note .error ("Attempted directory: " ++ path)
              pure (.error status)
            else
              Program.keepCacheDirectory path
              pure (.ok path)

/-- An override that does not exist is ignored. -/
def overridePath : Program (Option Bytes) := do
  match ← Program.lookUp .overridePath with
  | some (byte :: rest) =>
      let path := byte :: rest
      if ← Binary.isThere (some path) then pure (some path)
      else
        Program.note .debug
          (Setting.overridePath.name ++ " is set to " ++ path ++
            ", which doesn't exist; ignoring it")
        pure none
  | _ => pure none

/-- Only these texts forbid downloads, and their letter case matters. -/
def refusals : List Bytes := ["1", "true", "TRUE"]

def downloadsDisabled : Program Bool := do
  match ← Program.lookUp .skipDownload with
  | none => pure false
  | some value => pure (refusals.contains value)

end Launcher.Cache
