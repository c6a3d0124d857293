/-
This file defines a file system as a tree with open output streams. A stream follows its file when
the file is renamed, and it writes nowhere once the file is gone.
-/

import Launcher.FileSystem.Change

namespace Launcher

/-- A stream leads to a file of the tree, to a device, or to a file that has no name any more. -/
inductive Sink where
  | file (location : Location)
  | device (device : Device)
  | nameless
  deriving DecidableEq

/-- The pending bytes of a stream are written, but not yet stored. -/
structure Stream where
  sink : Sink
  appending : Bool
  position : Nat
  pending : Bytes
  deriving DecidableEq

namespace Stream

/-- Bytes are stored in blocks of this size, and the rest waits. -/
def blockSize : Nat := 4096

/-- An appending stream stores at the end, any other one at its position. A gap is filled with
zeros. -/
def overlay (stream : Stream) (content bytes : Bytes) : Bytes :=
  if stream.appending then content ++ bytes
  else (content ++ List.replicate (stream.position - content.length) 0).take stream.position ++
    bytes ++ content.drop (stream.position + bytes.length)

/-- The stream leads to the new location of its file, if the file still has one. -/
def redirect (relocate : Location → Option Location) (stream : Stream) : Stream :=
  match stream.sink with
  | .file location => match relocate location with
      | some other => { stream with sink := .file other }
      | none => { stream with sink := .nameless }
  | _ => stream

end Stream

/-- Each handle stands for at most one open stream. -/
structure FileSystem (Handle : Type) where
  tree : Tree
  streams : Handle → Option Stream

namespace FileSystem

variable {Handle : Type} [DecidableEq Handle]

def setStream (files : FileSystem Handle) (handle : Handle) (stream : Option Stream) :
    FileSystem Handle :=
  { files with streams := fun other => if other = handle then stream else files.streams other }

omit [DecidableEq Handle] in
/-- This replaces the tree and takes all streams along to the new locations of their files. -/
def relocate (files : FileSystem Handle) (tree : Tree)
    (relocation : Location → Option Location) : FileSystem Handle :=
  ⟨tree, fun handle => (files.streams handle).map (Stream.redirect relocation)⟩

/-- An existing file is emptied unless the stream appends to it. -/
def openStream (files : FileSystem Handle) (handle : Handle) (path : Bytes) (appending : Bool)
    (mode : Mode) : Except Errno (FileSystem Handle) :=
  match files.tree.writable path with
  | .error errno => .error errno
  | .ok (.device device) =>
      .ok (files.setStream handle (some ⟨.device device, appending, 0, []⟩))
  | .ok (.file location kept content) =>
      let tree := files.tree.put location (.file kept (if appending then content else []))
      .ok ({ files with tree := tree }.setStream handle (some ⟨.file location, appending, 0, []⟩))
  | .ok (.vacant location) =>
      let tree := files.tree.put location (.file mode [])
      .ok ({ files with tree := tree }.setStream handle (some ⟨.file location, appending, 0, []⟩))

/-- Only the full device refuses bytes, and it has nothing to refuse when there are none. -/
def store (files : FileSystem Handle) (handle : Handle) (bytes : Bytes) :
    Except Errno (FileSystem Handle) :=
  match files.streams handle with
  | none => .ok files
  | some stream =>
      let after := files.setStream handle
        (some { stream with position := stream.position + bytes.length })
      match stream.sink with
      | .device .full => if bytes = [] then .ok files else .error .noSpace
      | .device .null => .ok after
      | .nameless => .ok after
      | .file location => match files.tree.get? location with
          | some (.file mode content) =>
              .ok { after with
                tree := files.tree.put location (.file mode (stream.overlay content bytes)) }
          | _ => .ok after

def setPending (files : FileSystem Handle) (handle : Handle) (pending : Bytes) :
    FileSystem Handle :=
  match files.streams handle with
  | none => files
  | some stream => files.setStream handle (some { stream with pending := pending })

def pending (files : FileSystem Handle) (handle : Handle) : Bytes :=
  match files.streams handle with
  | none => []
  | some stream => stream.pending

/-- Whole blocks are stored at once, and the rest stays pending. -/
def write (files : FileSystem Handle) (handle : Handle) (bytes : Bytes) :
    Except Errno (FileSystem Handle) :=
  let pending := files.pending handle ++ bytes
  let whole := pending.length / Stream.blockSize * Stream.blockSize
  match files.store handle (pending.take whole) with
  | .error errno => .error errno
  | .ok files => .ok (files.setPending handle (pending.drop whole))

/-- All pending bytes are stored. -/
def flush (files : FileSystem Handle) (handle : Handle) : Except Errno (FileSystem Handle) :=
  match files.store handle (files.pending handle) with
  | .error errno => .error errno
  | .ok files => .ok (files.setPending handle [])

/-- The stream is gone afterwards, also when its pending bytes could not be stored. -/
def close (files : FileSystem Handle) (handle : Handle) :
    Except Errno Unit × FileSystem Handle :=
  match files.flush handle with
  | .error errno => (.error errno, files.setStream handle none)
  | .ok files => (.ok (), files.setStream handle none)

/-- A file that was opened is regular unless it is a device. -/
def isRegular (files : FileSystem Handle) (handle : Handle) : Bool :=
  match files.streams handle with
  | some ⟨.file _, _, _, _⟩ => true
  | some ⟨.nameless, _, _, _⟩ => true
  | _ => false

def unlink (files : FileSystem Handle) (path : Bytes) : Except Errno (FileSystem Handle) :=
  match files.tree.unlinkable path with
  | .error errno => .error errno
  | .ok location =>
      .ok (files.relocate (files.tree.erase location) fun other =>
        if other = location then none else some other)

/-- A stream of the replaced file loses its file, and a stream of a moved file moves with it. -/
def rename (files : FileSystem Handle) (source target : Bytes) :
    Except Errno (FileSystem Handle) :=
  match files.tree.renamable source target with
  | .error errno => .error errno
  | .ok (old, new) =>
      if old = new then .ok files
      else .ok (files.relocate (files.tree.move old new) fun other =>
        if old.isPrefixOf other then some (new ++ other.drop old.length)
        else if other = new then none
        else some other)

/-- This removes a location with everything below it. -/
def prune (files : FileSystem Handle) (location : Location) : FileSystem Handle :=
  files.relocate (files.tree.prune location) fun other =>
    if location.isPrefixOf other then none else some other

end FileSystem

end Launcher
