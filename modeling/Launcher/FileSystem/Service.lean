/-
This file answers the file calls of one program on a file system that others may share.
-/

import Launcher.FileSystem.Stream
import Launcher.Program

namespace Launcher.FileSystem

variable {Handle : Type} [DecidableEq Handle]

omit [DecidableEq Handle] in
/-- A change that is refused leaves the file system as it is. -/
def commit (files : FileSystem Handle) (changed : Except Errno (FileSystem Handle)) :
    Except Errno Unit × FileSystem Handle :=
  match changed with
  | .ok changed => (.ok (), changed)
  | .error errno => (.error errno, files)

omit [DecidableEq Handle] in
def commitTree (files : FileSystem Handle) (changed : Except Errno Tree) :
    Except Errno Unit × FileSystem Handle :=
  files.commit (changed.map fun tree => { files with tree })

/-- The handle is the output stream of the calling program, and the mask is its own. -/
def answer (files : FileSystem Handle) (handle : Handle) (mask : Mode) :
    (call : FileCall) → call.Reply × FileSystem Handle
  | .inspect path => (files.tree.inspect path, files)
  | .access path => ((files.tree.inspect path).map fun _ => (), files)
  | .makeDirectory path mode =>
      files.commitTree (files.tree.makeDirectory path (mode.masked mask))
  | .setMode path mode => files.commitTree (files.tree.setMode path mode)
  | .unlink path => files.commit (files.unlink path)
  | .rename source target => files.commit (files.rename source target)
  | .openOutput path =>
      files.commit (files.openStream handle path false (Mode.masked 0o666 mask))
  | .outputIsRegular => (files.isRegular handle, files)
  | .write bytes => files.commit (files.write handle bytes)
  | .flush => files.commit (files.flush handle)
  | .close => files.close handle

/-- A call that a fault strikes does nothing, except that a close still closes. -/
def refuse (files : FileSystem Handle) (handle : Handle) (mask : Mode) (errno : Errno) :
    (call : FileCall) → call.Reply × FileSystem Handle
  | .inspect _ => (.error errno, files)
  | .access _ => (.error errno, files)
  | .makeDirectory _ _ => (.error errno, files)
  | .setMode _ _ => (.error errno, files)
  | .unlink _ => (.error errno, files)
  | .rename _ _ => (.error errno, files)
  | .openOutput _ => (.error errno, files)
  | .outputIsRegular => files.answer handle mask .outputIsRegular
  | .write _ => (.error errno, files)
  | .flush => (.error errno, files)
  | .close => (.error errno, (files.close handle).2)

end Launcher.FileSystem
