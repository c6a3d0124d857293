/-
This file hands the process over to a binary.
-/

import Launcher.Program

namespace Launcher.HandOver

/-- The arguments after the first one follow the path of the binary, and an absent argument ends
the list. -/
def argumentVector (path : Option Bytes) (arguments : List (Option Bytes)) (count : Int) :
    List (Option Bytes) :=
  path :: (List.range' 1 (count - 1).toNat).map (fun index => (arguments[index]?).join) ++ [none]

/-- The log is closed before the process is replaced. The answer is the status of a failure. -/
def run (path : Bytes) (arguments : List (Option Bytes)) (count : Int) : Program Status := do
  let vector := argumentVector (some path) arguments count
  Program.note .debug ("Executing " ++ path ++ " with " ++ Bytes.ofNat (vector.length - 2) ++
    " forwarded argument(s)")
  Program.closeLog
  let errno ← Program.execute path vector
  Program.note .error ("Failed to execute " ++ path ++ ": " ++ errno.message)
  pure (.ofErrno errno)

end Launcher.HandOver
