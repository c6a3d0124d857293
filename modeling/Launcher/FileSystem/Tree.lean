/-
This file defines file trees as finite maps from locations to nodes, with one look-up equation for
each change.
-/

import Std.Data.ExtTreeMap
import Launcher.FileSystem.Path

namespace Launcher

/-- A mode is the nine access bits and the three special bits above them. -/
abbrev Mode := BitVec 12

inductive Node where
  | directory (mode : Mode)
  | file (mode : Mode) (content : Bytes)
  | link (target : Bytes)
  deriving DecidableEq

namespace Node

def isDirectory : Node → Bool
  | .directory _ => true
  | _ => false

/-- The mode of a link is never used, because it is always that of the target that counts. -/
def mode : Node → Mode
  | .directory mode => mode
  | .file mode _ => mode
  | .link _ => 0

/-- A link keeps no mode. -/
def withMode (node : Node) (mode : Mode) : Node :=
  match node with
  | .directory _ => .directory mode
  | .file _ content => .file mode content
  | .link target => .link target

@[simp] theorem isDirectory_withMode (node : Node) (mode : Mode) :
    (node.withMode mode).isDirectory = node.isDirectory := by
  cases node <;> rfl

end Node

/-- The root of a tree is always a directory. -/
structure Tree where
  entries : Std.ExtTreeMap Location Node
  rooted : (entries[([] : Location)]?.any Node.isDirectory) = true
  deriving DecidableEq

namespace Tree

def get? (tree : Tree) (location : Location) : Option Node := tree.entries[location]?

/-- An empty tree has its root and nothing else. -/
def empty : Tree :=
  ⟨(∅ : Std.ExtTreeMap Location Node).insert [] (.directory 0o755), by simp [Node.isDirectory]⟩

/-- This writes one entry and leaves every other one. Only a directory can become the root. -/
def put (tree : Tree) (location : Location) (node : Node) : Tree :=
  if fits : location = [] → node.isDirectory = true then
    ⟨tree.entries.insert location node, by
      by_cases isRoot : location = []
      · simp [isRoot, fits isRoot]
      · simp [Std.ExtTreeMap.getElem?_insert, isRoot, tree.rooted]⟩
  else tree

/-- The root cannot be removed. -/
def erase (tree : Tree) (location : Location) : Tree :=
  if isRoot : location = [] then tree
  else ⟨tree.entries.erase location, by
    simp [Std.ExtTreeMap.getElem?_erase, isRoot, tree.rooted]⟩

/-- This removes a location with everything below it, except for the root itself. -/
def prune (tree : Tree) (top : Location) : Tree :=
  ⟨tree.entries.filter fun location _ => location = [] || !top.isPrefixOf location, by
    have rooted := tree.rooted
    cases found : tree.entries[([] : Location)]? with
    | none => simp [found] at rooted
    | some node =>
        simpa [Std.ExtTreeMap.getElem?_filter', found] using rooted⟩

/-- The entries below a location, from the top down. -/
def below (tree : Tree) (top : Location) : List (Location × Node) :=
  tree.entries.toList.filter fun entry => top.below entry.1

/-- A directory takes everything below it along; any other node moves alone. -/
def move (tree : Tree) (source target : Location) : Tree :=
  match tree.get? source with
  | none => tree
  | some (.directory mode) =>
      (tree.below source).foldl
        (fun moved entry => moved.put (target ++ entry.1.drop source.length) entry.2)
        (((tree.prune source).prune target).put target (.directory mode))
  | some node => (tree.erase source).put target node

/-- A listing names a directory before what is in it, and orders the names of a directory by
their bytes. The root itself is not named. -/
def listing (tree : Tree) : List (Location × Node) := tree.below []

@[ext]
theorem ext {first second : Tree}
    (same : ∀ location, first.get? location = second.get? location) : first = second := by
  obtain ⟨firstEntries, firstRooted⟩ := first
  obtain ⟨secondEntries, secondRooted⟩ := second
  have entries : firstEntries = secondEntries := Std.ExtTreeMap.ext_getElem? same
  subst entries
  rfl

theorem get?_root (tree : Tree) : ∃ mode, tree.get? [] = some (.directory mode) := by
  have rooted := tree.rooted
  unfold get?
  cases found : tree.entries[([] : Location)]? with
  | none => simp [found] at rooted
  | some node => cases node <;> simp_all [Node.isDirectory]

theorem get?_put (tree : Tree) (location other : Location) (node : Node)
    (fits : location = [] → node.isDirectory = true) :
    (tree.put location node).get? other =
      if other = location then some node else tree.get? other := by
  rw [put, dif_pos fits]
  by_cases same : other = location
  · simp [same, get?]
  · simp [same, get?, Std.ExtTreeMap.getElem?_insert, Ne.symm same]

theorem get?_prune (tree : Tree) (top other : Location) (nonRoot : other ≠ []) :
    (tree.prune top).get? other =
      if top.isPrefixOf other then none else tree.get? other := by
  cases below : top.isPrefixOf other <;> cases found : tree.entries[other]? <;>
    simp [prune, get?, nonRoot, below, found]

theorem get?_erase (tree : Tree) (location other : Location) (nonRoot : location ≠ []) :
    (tree.erase location).get? other =
      if other = location then none else tree.get? other := by
  by_cases same : other = location
  · simp [same, erase, get?, nonRoot]
  · simp [same, erase, get?, nonRoot, Std.ExtTreeMap.getElem?_erase, Ne.symm same]

end Tree

end Launcher
