/-
This file defines faults, which make calls fail that would otherwise go through.
-/

import Launcher.Program

namespace Launcher

/-- These are the operations that a fault can strike. -/
inductive Operation where
  | inspect | access | makeDirectory | setMode | unlink | rename | openStream | flush | close
  | duplicate
  deriving DecidableEq

/-- A fault lets some matching calls through, then strikes a number of times or for ever. -/
structure Fault where
  operation : Operation
  path : Option Bytes := none
  errno : Errno
  skip : Nat := 0
  times : Option Nat := none
  deriving DecidableEq

namespace Fault

/-- A fault without a path matches every path. -/
def strikes (fault : Fault) (operation : Operation) (path : Option Bytes) : Bool :=
  fault.operation = operation && (fault.path = none || fault.path = path)

/-- The first fault that strikes refuses the call, and the faults behind it do not notice the call.
A fault in front of it that lets the call through counts it. -/
def intercept (operation : Operation) (path : Option Bytes) :
    List Fault → Option Errno × List Fault
  | [] => (none, [])
  | fault :: others =>
      let onward (fault : Fault) :=
        let outcome := intercept operation path others
        (outcome.1, fault :: outcome.2)
      if !fault.strikes operation path then onward fault
      else match fault.skip, fault.times with
        | skip + 1, _ => onward { fault with skip }
        | 0, none => (some fault.errno, fault :: others)
        | 0, some 0 => onward fault
        | 0, some (times + 1) => (some fault.errno, { fault with times := some times } :: others)

end Fault

namespace FileCall

/-- A renaming is known by its old name, and the calls on the output have no path. -/
def faultPoint : FileCall → Option (Operation × Option Bytes)
  | .inspect path => some (.inspect, some path)
  | .access path => some (.access, some path)
  | .makeDirectory path _ => some (.makeDirectory, some path)
  | .setMode path _ => some (.setMode, some path)
  | .unlink path => some (.unlink, some path)
  | .rename source _ => some (.rename, some source)
  | .openOutput path => some (.openStream, some path)
  | .outputIsRegular => none
  | .write _ => none
  | .flush => some (.flush, none)
  | .close => some (.close, none)

end FileCall

end Launcher
