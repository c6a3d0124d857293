/-
This file defines the changes of a tree that go through a path text. A change that is refused
leaves no new tree.
-/

import Launcher.FileSystem.Walk

namespace Launcher

namespace Mode

/-- A mask takes access bits away and no others. -/
def masked (mode mask : Mode) : Mode := mode &&& ~~~(mask &&& 0o777)

theorem masked_eq {mode : Mode} (plain : mode &&& 0o777 = mode) (mask : Mode) :
    mode.masked mask = mode &&& ~~~mask := by
  rw [masked, ← plain]
  ext bit
  simp only [BitVec.getElem_and, BitVec.getElem_not]
  cases mode[bit] <;> cases mask[bit] <;> simp

/-- This bit of a directory passes on its group. -/
def passesGroup : Mode := 0o2000

/-- A new directory inherits the bit that passes on the group, whatever the mask takes away. -/
def inherited (mode parent : Mode) : Mode := mode ||| (parent &&& passesGroup)

/-- Owner, group and others may all execute. -/
def executable (mode : Mode) : Mode := mode ||| 0o111

end Mode

/-- An outlet takes the bytes that are written to a path. -/
inductive Outlet where
  | file (location : Location) (mode : Mode) (content : Bytes)
  | device (device : Device)
  | vacant (location : Location)
  deriving DecidableEq

namespace Tree

/-- The mode of the directory that a location is in. -/
def parentMode (tree : Tree) (location : Location) : Mode :=
  match tree.get? location.dropLast with
  | some node => node.mode
  | none => 0

/-- A directory is made only where nothing is, not even a link that leads nowhere. -/
def makeDirectory (tree : Tree) (path : Bytes) (mode : Mode) : Except Errno Tree :=
  match tree.resolve .keep path with
  | .error errno => .error errno
  | .ok ⟨.vacant location, _⟩ =>
      .ok (tree.put location (.directory (mode.inherited (tree.parentMode location))))
  | .ok _ => .error .alreadyExists

/-- Devices accept a mode and ignore it. -/
def setMode (tree : Tree) (path : Bytes) (mode : Mode) : Except Errno Tree :=
  match tree.find path with
  | .error errno => .error errno
  | .ok (.taken location node) => .ok (tree.put location (node.withMode mode))
  | .ok _ => .ok tree

/-- Only what is no directory can be unlinked, and a link is unlinked itself. -/
def unlinkable (tree : Tree) (path : Bytes) : Except Errno Location :=
  match tree.resolve .keep path with
  | .error errno => .error errno
  | .ok ⟨.vacant _, _⟩ => .error .noEntry
  | .ok ⟨.device _, _⟩ => .error .busy
  | .ok ⟨.taken location node, asksDirectory⟩ =>
      if node.isDirectory then .error .isDirectory
      else if asksDirectory then .error .notDirectory
      else .ok location

/-- A directory may only replace an empty directory, and any other node no directory at all. -/
def replacementRefusal (tree : Tree) (node : Node) (target : Location) (occupant : Node) :
    Option Errno :=
  match node.isDirectory, occupant.isDirectory with
  | true, false => some .notDirectory
  | false, true => some .isDirectory
  | true, true => if (tree.below target).isEmpty then none else some .directoryNotEmpty
  | false, false => none

/-- A renaming leads from the place of the source to the place of the target. It renames links
themselves, and it moves no directory into itself. -/
def renamable (tree : Tree) (source target : Bytes) : Except Errno (Location × Location) :=
  match tree.resolve .keep source, tree.resolve .keep target with
  | .error errno, _ => .error errno
  | _, .error errno => .error errno
  | .ok ⟨.vacant _, _⟩, _ => .error .noEntry
  | .ok ⟨.device _, _⟩, _ => .error .busy
  | .ok ⟨.taken old node, oldAsks⟩, .ok ⟨place, newAsks⟩ =>
      if !node.isDirectory && (oldAsks || newAsks) then .error .notDirectory
      else match place with
        | .device _ => .error .busy
        | .vacant new => if old.below new then .error .invalidArgument else .ok (old, new)
        | .taken new occupant =>
            if old = new then .ok (old, new)
            else if old.below new then .error .invalidArgument
            else if new.below old then .error .directoryNotEmpty
            else match tree.replacementRefusal node new occupant with
              | some errno => .error errno
              | none => .ok (old, new)

/-- A path can be opened for writing when a file, a device or nothing is there. -/
def writable (tree : Tree) (path : Bytes) : Except Errno Outlet :=
  match tree.resolve .create path with
  | .error errno => .error errno
  | .ok ⟨.device device, _⟩ => .ok (.device device)
  | .ok ⟨_, true⟩ => .error .isDirectory
  | .ok ⟨.vacant location, _⟩ => .ok (.vacant location)
  | .ok ⟨.taken location (.file mode content), _⟩ => .ok (.file location mode content)
  | .ok ⟨.taken _ (.link _), _⟩ => .error .tooManyLinks
  | .ok ⟨.taken _ (.directory _), _⟩ => .error .isDirectory

/-- This writes a whole file, and a new one gets the mode. -/
def overwrite (tree : Tree) (path content : Bytes) (mode : Mode) : Except Errno Tree :=
  match tree.writable path with
  | .error errno => .error errno
  | .ok (.device _) => .ok tree
  | .ok (.file location kept _) => .ok (tree.put location (.file kept content))
  | .ok (.vacant location) => .ok (tree.put location (.file mode content))

end Tree

end Launcher
