/-
This file installs a binary: it is fetched to a temporary file and then renamed into place.
-/

import Launcher.Binary
import Launcher.Download

namespace Launcher

/-- A binary is fetched by the download of released assets, or by a fetcher that was given. -/
inductive Fetch where
  | download | given
  deriving DecidableEq

def Fetch.run (fetch : Fetch) (address path : Bytes) : Program Status :=
  match fetch with
  | .download => Download.asset (some address) (some path)
  | .given => Program.fetch address path

namespace Install

/-- The number of the process keeps the temporary files of different processes apart. -/
def temporary (target : Bytes) (processId : Int) : Bytes :=
  target ++ "." ++ Bytes.ofInt processId ++ ".tmp"

/-- The execute bits are left alone where the system has none. -/
def mark (temporary : Bytes) (executable : Bool) : Program Status :=
  if executable then Binary.makeExecutable (some temporary) else pure .ok

/-- The file is only renamed when everything before went well. An error carries the status that
ends the installation, and then the temporary file is still to be removed. -/
def place (fetch : Fetch) (address temporary target : Bytes) (executable : Bool) :
    Program (Except Status Unit) := do
  let fetched ← fetch.run address temporary
  if fetched.failed then
    Program.noteStatus .error fetched ("Failed to download the " ++ Release.program ++ " binary")
    pure (.error fetched)
  else
    let marked ← mark temporary executable
    if marked.failed then
      Program.noteStatus .error marked "Failed to set executable permissions"
      pure (.error marked)
    else
      match ← Program.rename temporary target with
      | .ok _ => pure (.ok ())
      | .error errno =>
          let status := Status.ofErrno errno
          Program.noteStatus .error status "Failed to move the downloaded binary into place"
          pure (.error status)

/-- Nothing is left of the temporary file when the binary does not come into place. -/
def run (fetch : Fetch) (address target : Bytes) (executable : Bool) : Program Status := do
  let temporary := temporary target (← Program.processId)
  if ← Program.duplicate then
    match ← place fetch address temporary target executable with
    | .ok _ => pure .ok
    | .error status =>
        let _ ← Program.unlink temporary
        pure status
  else pure (.error .general .outOfMemory)

end Install

end Launcher
