/-
This file resolves a version to the path of a binary, and installs the binary when it is missing.
-/

import Launcher.Cache
import Launcher.Install
import Launcher.Platform

namespace Launcher.Resolve

/-- A request names the version and the host, the fetch to use, and whether a binary that is
cached is to be installed again. -/
structure Request where
  version : Option Bytes := none
  host : Option Platform := none
  fetch : Fetch := .download
  reinstall : Bool := false
  deriving DecidableEq

/-- The binary has its usual name in the directory of its version. -/
def target (directory : Bytes) (host : Platform) : Bytes := directory ++ "/" ++ host.binaryName

/-- The answer is the path that the binary now has. -/
def install (version target : Bytes) (host : Platform) (fetch : Fetch) :
    Program (Except Status Bytes) := do
  if ← Cache.downloadsDisabled then
    Program.note .error (Release.program ++ " binary not found at " ++ target ++
      " and downloads are disabled (" ++ Setting.skipDownload.name ++ ")")
    pure (.error (.error .runtime .downloadDisabled))
  else
    match host.asset with
    | .error status =>
        Program.note .error
          ("Unsupported platform: " ++ host.systemName ++ "/" ++ host.processorName)
        Program.note .information ("Supported: " ++ Build.supported)
        pure (.error status)
    | .ok asset =>
        let address := Release.assetAddress version asset
        Program.note .information ("Downloading DeepSeek CLI v" ++ version ++ "...")
        Program.note .debug ("Fetching " ++ address)
        let status ← Install.run fetch address target (host.system ≠ .windows)
        if status.failed then pure (.error status)
        else
          Program.note .information ("Installed to " ++ target)
          pure (.ok target)

/-- A binary in the cache is used as it is, unless it is to be installed again. -/
def fromCache (version directory : Bytes) (host : Platform) (fetch : Fetch) (reinstall : Bool) :
    Program (Except Status Bytes) := do
  let target := target directory host
  if ← Binary.isThere (some target) then
    if reinstall then
      Program.note .information ("Reinstalling " ++ target)
      install version target host fetch
    else
      Program.note .debug ("Using cached binary: " ++ target)
      pure (.ok target)
  else install version target host fetch

/-- The override comes first, then the cache, then the installation. -/
def run (request : Option Request) : Program (Except Status Bytes) :=
  match request with
  | some ⟨some version, some host, fetch, reinstall⟩ => do
      match ← Cache.overridePath with
      | some path =>
          Program.note .debug ("Using " ++ Setting.overridePath.name ++ ": " ++ path)
          pure (.ok path)
      | none =>
          match ← Cache.setUp (some version) with
          | .error status => pure (.error status)
          | .ok directory => fromCache version directory host fetch reinstall
  | _ => pure (.error (.error .general .invalidArgument))

end Launcher.Resolve
