/-
This file finds out which platform the launcher runs on.
-/

import Launcher.Platform
import Launcher.Program

namespace Launcher.Host

/-- The names of the system and of the processor describe the host. -/
def detect : Program (Except Status Platform) := do
  match ← Program.systemNames with
  | .error errno => pure (.error (.ofErrno errno))
  | .ok (systemName, processorName) =>
      pure (.ok (.ofNames (some systemName) (some processorName)))

end Launcher.Host
