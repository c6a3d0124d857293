/-
This file resolves path texts to places of a tree, through the links on the way.
-/

import Launcher.Errno
import Launcher.FileSystem.Tree

namespace Launcher

/-- A place of a tree holds a node, or is free in a directory that exists. A device is outside
of the tree. -/
inductive Place where
  | taken (location : Location) (node : Node)
  | vacant (location : Location)
  | device (device : Device)
  deriving DecidableEq

/-- A leg is the part of a walk up to its end or up to the first link. -/
inductive Leg where
  | arrived (place : Place)
  | link (location : Location) (target : Bytes) (rest : List Name)
  deriving DecidableEq

/-- This says what a walk does with a link under its last name. A walk that creates files also
refuses to go through a last link whose path asks for a directory. -/
inductive LastLink where
  | keep | follow | create
  deriving DecidableEq

/-- A destination is the place where a walk ends, with the mark of a trailing slash. -/
structure Destination where
  place : Place
  asksDirectory : Bool
  deriving DecidableEq

namespace Tree

/-- A name that is missing may only be the last one, and only directories have names inside. -/
def leg (tree : Tree) (start : Location) : List Name → Except Errno Leg
  | [] => match tree.get? start with
      | some node => .ok (.arrived (.taken start node))
      | none => .error .noEntry
  | name :: rest =>
      if name = Path.here then tree.leg start rest
      else if name = Path.parent then tree.leg start.dropLast rest
      else if Path.nameLimit < name.length then .error .nameTooLong
      else
        let location := start ++ [name]
        match tree.get? location with
        | none => if rest = [] then .ok (.arrived (.vacant location)) else .error .noEntry
        | some (.directory _) => tree.leg location rest
        | some (.link target) => .ok (.link location target rest)
        | some node =>
            if rest = [] then .ok (.arrived (.taken location node)) else .error .notDirectory

/-- The walk goes on behind a link from the directory of the link. An absolute target lies outside
of the tree, and nothing is known to be there. -/
def walk (tree : Tree) (last : LastLink) :
    (links : Nat) → Location → List Name → Bool → Except Errno Destination
  | links, start, names, asksDirectory =>
      match tree.leg start names with
      | .error errno => .error errno
      | .ok (.arrived place) => .ok ⟨place, asksDirectory⟩
      | .ok (.link location target rest) =>
          if rest = [] ∧ last = .keep then .ok ⟨.taken location (.link target), asksDirectory⟩
          else if rest = [] ∧ last = .create ∧ asksDirectory = true then .error .isDirectory
          else match links with
            | 0 => .error .tooManyLinks
            | links + 1 =>
                if Path.isAbsolute target then .error .noEntry
                else
                  tree.walk last links location.dropLast (Path.names target ++ rest)
                    (asksDirectory || (rest == [] && Path.asksDirectory target))

/-- A walk starts at the root, which is also the working directory. -/
def resolve (tree : Tree) (last : LastLink) (path : Bytes) : Except Errno Destination :=
  match Device.ofPath path with
  | some device => .ok ⟨.device device, false⟩
  | none =>
      if path = [] then .error .noEntry
      else if Path.lengthLimit ≤ path.length then .error .nameTooLong
      else tree.walk last Path.linkLimit [] (Path.names path) (Path.asksDirectory path)

/-- What is found under a path is behind all links. A path that asks for a directory finds nothing
else. -/
def find (tree : Tree) (path : Bytes) : Except Errno Place :=
  match tree.resolve .follow path with
  | .error errno => .error errno
  | .ok ⟨.vacant _, _⟩ => .error .noEntry
  | .ok ⟨.device device, _⟩ => .ok (.device device)
  | .ok ⟨.taken location node, asksDirectory⟩ =>
      if asksDirectory && !node.isDirectory then .error .notDirectory
      else .ok (.taken location node)

end Tree

/-- These attributes are reported for what is found under a path. -/
structure Attributes where
  isDirectory : Bool
  mode : Mode
  deriving DecidableEq

/-- Only what is found has attributes of its own. -/
def Place.attributes : Place → Attributes
  | .taken _ node => ⟨node.isDirectory, node.mode⟩
  | .vacant _ => ⟨false, 0⟩
  | .device _ => ⟨false, 0o666⟩

namespace Tree

def inspect (tree : Tree) (path : Bytes) : Except Errno Attributes :=
  (tree.find path).map Place.attributes

end Tree

end Launcher
