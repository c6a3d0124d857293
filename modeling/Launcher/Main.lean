/-
This file is the command line. It runs the launcher on the settings that it finds, in a world
whose file tree is empty and whose transport is not available.
-/

import Launcher.Launch
import Launcher.World

namespace Launcher.CommandLine

/-- The settings are read once, before the launcher starts. -/
def readSettings : List Setting → IO Environment
  | [] => return fun _ => none
  | setting :: others => do
      let known ← readSettings others
      let value ← IO.getEnv ((String.fromUTF8? ⟨setting.name.toArray⟩).getD "")
      return fun other => if other = setting then value.map Bytes.ofString else known other

def settings : List Setting :=
  [.home, .overridePath, .skipDownload, .verbs, .logLevel, .logFile]

def put (stream : IO.FS.Stream) (text : Bytes) : IO Unit := do
  stream.write ⟨text.toArray⟩
  stream.flush

end Launcher.CommandLine

open Launcher in
def main (arguments : List String) : IO UInt32 := do
  let environment ← CommandLine.readSettings CommandLine.settings
  let transport : Transfer.Script := { available := false }
  let start : World := { surroundings := { environment, transport } }
  let given := ("launcher" :: arguments).map fun argument => some (Bytes.ofString argument)
  let (answer, world) := start.run (Launch.run given)
  CommandLine.put (← IO.getStdout) world.transcript.output
  CommandLine.put (← IO.getStderr) world.transcript.screen
  return (answer.getD 0).toNat.toUInt32
