/-
This file downloads a file from an address to a path.
-/

import Launcher.Program
import Launcher.Release

namespace Launcher.Download

/-- The meter shows the last part of the address. -/
def operation (address : Bytes) : Bytes := address.afterLast Bytes.slash

def reading (address : Bytes) (total received : Int64) : Log.Reading :=
  ⟨operation address, received.toFloat * 100.0 / total.toFloat, received, total⟩

/-- Progress without a known total is not shown. The answer says whether all data was written. -/
def receive (address : Bytes) : List Transfer.Event → Program Bool
  | [] => pure true
  | .progress total received seconds :: others => do
      Program.pass seconds
      if 0 < total then
        Program.noteReading (reading address total received)
        receive address others
      else receive address others
  | .data bytes :: others => do
      match ← Program.write bytes with
      | .ok _ => receive address others
      | .error _ => pure false

def transfer (address : Bytes) (headers : Option (List Bytes)) : Program Transfer.Ending := do
  let script ← Program.transfer (.to address headers)
  if ← receive address script.events then pure script.ending
  else pure script.ending.stopped

/-- Data is only known to be written when the flush and the close succeed. -/
def settle (address : Bytes) (ending : Transfer.Ending) : Program Status := do
  if ending.status.failed then
    Program.note .error ("Failed to download " ++ address ++ ": " ++ ending.cause)
    pure ending.status
  else
    match ← Program.flush with
    | .ok _ => pure ending.status
    | .error errno =>
        let status := Status.ofErrno errno
        Program.noteStatus .error status "Failed to write downloaded data"
        pure status

/-- A failure of the close counts only when nothing failed before. -/
def finish (status : Status) : Program Status := do
  match ← Program.close with
  | .ok _ => pure status
  | .error errno =>
      if status.failed then pure status
      else
        let status := Status.ofErrno errno
        Program.noteStatus .error status "Failed to finish writing downloaded data"
        pure status

/-- Only a regular file is removed, never a device. -/
def discard (path : Bytes) (regular : Bool) : Program Unit :=
  if regular then do
    let _ ← Program.unlink path
    pure ()
  else pure ()

/-- The output is removed again when the download fails after it was opened. -/
def file (address output : Option Bytes) (headers : Option (List Bytes)) : Program Status :=
  match address, output with
  | some address, some output => do
      match ← Program.openOutput output with
      | .error errno => pure (.ofErrno errno)
      | .ok _ =>
          let regular ← Program.outputIsRegular
          if ← Program.prepareTransfer then
            let ending ← transfer address headers
            Program.endReadings
            let settled ← settle address ending
            let status ← finish settled
            if status.failed then
              discard output regular
              pure status
            else pure status
          else
            let _ ← Program.close
            discard output regular
            pure (.error .network .outOfMemory)
  | _, _ => pure (.error .network .invalidArgument)

/-- A released asset is asked for under the name of the launcher. -/
def asset (address output : Option Bytes) : Program Status :=
  file address output (some [Release.userAgent])

end Launcher.Download
