/-
This file defines edits, which prepare a file system from outside. An edit that is impossible does
nothing.
-/

import Launcher.FileSystem.Stream

namespace Launcher

inductive Edit where
  | directory (path : Bytes) (mode : Mode)
  | file (path content : Bytes) (mode : Mode)
  | link (path target : Bytes)
  | remove (path : Bytes)
  | setMode (path : Bytes) (mode : Mode)
  deriving DecidableEq

def Edit.path : Edit → Bytes
  | .directory path _ => path
  | .file path _ _ => path
  | .link path _ => path
  | .remove path => path
  | .setMode path _ => path

namespace Tree

/-- A change that is refused leaves the tree as it is. -/
def attempt (tree : Tree) (changed : Except Errno Tree) : Tree :=
  match changed with
  | .ok changed => changed
  | .error _ => tree

/-- The proper beginnings of a path, the shortest first. -/
def ancestors (path : Bytes) : List Bytes :=
  let names := Path.names path
  (List.range (names.length - 1)).map fun count => Location.text (names.take (count + 1))

/-- Missing parents are made with the usual mode. -/
def makeParents (tree : Tree) (path : Bytes) : Tree :=
  (ancestors path).foldl
    (fun tree parent => tree.attempt (tree.makeDirectory parent 0o755)) tree

/-- The mode is set whether or not the directory is new. -/
def plantDirectory (tree : Tree) (path : Bytes) (mode : Mode) : Tree :=
  let made := tree.attempt (tree.makeDirectory path mode)
  made.attempt (made.setMode path mode)

/-- A file that exists is emptied first and gets the new mode. -/
def plantFile (tree : Tree) (path content : Bytes) (mode : Mode) : Tree :=
  match tree.overwrite path content mode with
  | .ok written => written.attempt (written.setMode path mode)
  | .error _ => tree

def plantLink (tree : Tree) (path target : Bytes) : Tree :=
  match tree.resolve .keep path with
  | .ok ⟨.vacant location, false⟩ =>
      if target = [] ∨ Path.lengthLimit ≤ target.length then tree
      else tree.put location (.link target)
  | _ => tree

end Tree

namespace FileSystem

variable {Handle : Type}

/-- Every edit makes the missing parents of its path first. A link is removed itself, and a
directory with all that is in it. -/
def edit (files : FileSystem Handle) (edit : Edit) : FileSystem Handle :=
  let tree := files.tree.makeParents edit.path
  match edit with
  | .directory path mode => { files with tree := tree.plantDirectory path mode }
  | .file path content mode => { files with tree := tree.plantFile path content mode }
  | .link path target => { files with tree := tree.plantLink path target }
  | .setMode path mode => { files with tree := tree.attempt (tree.setMode path mode) }
  | .remove path => match tree.resolve .keep path with
      | .ok ⟨.taken location _, _⟩ => { files with tree }.prune location
      | _ => { files with tree }

end FileSystem

end Launcher
