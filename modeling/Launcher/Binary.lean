/-
This file looks for binaries and marks them as executable.
-/

import Launcher.FileSystem.Change
import Launcher.Program

namespace Launcher.Binary

/-- Every failure of the access check counts as absence. -/
def isThere (path : Option Bytes) : Program Bool :=
  match path with
  | none => pure false
  | some path => do
      match ← Program.access path with
      | .ok _ => pure true
      | .error _ => pure false

/-- All execute bits are added to the mode that is found. An absent path is no address at all. -/
def makeExecutable (path : Option Bytes) : Program Status :=
  match path with
  | none => pure (.ofErrno .badAddress)
  | some path => do
      match ← Program.inspect path with
      | .error errno => pure (.ofErrno errno)
      | .ok found =>
          match ← Program.setMode path found.mode.executable with
          | .error errno => pure (.ofErrno errno)
          | .ok _ => pure .ok

end Launcher.Binary
