/-
This file makes directories together with the missing directories on the way.
-/

import Launcher.Program

namespace Launcher.Directory

/-- A beginning of a path is not empty, and it ends before a slash or at the end of the path. The
shortest beginning comes first, and the path itself comes last. -/
def beginnings (path : Bytes) : List Bytes :=
  (List.range' 1 path.length).filterMap fun length =>
    if length = path.length ∨ path[length]? = some Bytes.slash then some (path.take length)
    else none

/-- Something that exists already is no failure, because another process may have made it. -/
def makeAll : List Bytes → Program (Option Status)
  | [] => pure none
  | path :: others => do
      match ← Program.makeDirectory path 0o755 with
      | .ok _ => makeAll others
      | .error errno =>
          if errno = .alreadyExists then makeAll others
          else
            Program.note .debug ("mkdir " ++ path ++ " failed: " ++ errno.message)
            pure (some (.ofErrno errno))

/-- What is found must be a directory. -/
def check : Except Errno Attributes → Status
  | .ok found => if found.isDirectory then .ok else .error .fileSystem .notDirectory
  | .error errno => .ofErrno errno

/-- A path that is found is left as it is; otherwise all missing directories on the way are made,
and the last look decides. -/
def ensure (path : Option Bytes) : Program Status :=
  match path with
  | none => pure (.error .fileSystem .invalidArgument)
  | some path =>
      if path = [] then pure (.error .fileSystem .invalidArgument)
      else do
        match ← Program.inspect path with
        | .ok found => pure (check (.ok found))
        | .error _ =>
            match ← makeAll (beginnings path) with
            | some status => pure status
            | none => return check (← Program.inspect path)

end Launcher.Directory
