/-
This file is about the slots of a tree: the entry that the last name of a path stands for. The
slot of a path stays the same while the ways of the tree are kept.
-/

import Launcher.FileSystem.Change
import Launcher.Proofs.Tree.Walk

namespace Launcher

/-! ### Names of paths -/

namespace Bytes

theorem splitOn_ne_nil (separator : UInt8) (text : Bytes) : splitOn separator text ≠ [] := by
  induction text with
  | nil => simp [splitOn]
  | cons byte rest inductionHypothesis =>
      simp only [splitOn]
      split
      · simp
      · split <;> simp

theorem splitOn_append_separator (separator : UInt8) (text rest : Bytes) :
    splitOn separator (text ++ separator :: rest) =
      splitOn separator text ++ splitOn separator rest := by
  induction text with
  | nil => simp [splitOn]
  | cons byte text inductionHypothesis =>
      simp only [List.cons_append, splitOn, inductionHypothesis]
      split
      · rfl
      · cases pieces : splitOn separator text with
        | nil => exact absurd pieces (splitOn_ne_nil separator text)
        | cons piece others => rfl

theorem splitOn_of_notMem {separator : UInt8} {text : Bytes} (free : separator ∉ text) :
    splitOn separator text = [text] := by
  induction text with
  | nil => rfl
  | cons byte rest inductionHypothesis =>
      simp only [List.mem_cons, not_or] at free
      simp only [splitOn, inductionHypothesis free.2]
      rw [if_neg (fun same => free.1 same.symm)]

theorem fields_append_separator (separator : UInt8) (text rest : Bytes) :
    fields separator (text ++ separator :: rest) =
      fields separator text ++ fields separator rest := by
  simp [fields, splitOn_append_separator]

theorem fields_of_notMem {separator : UInt8} {text : Bytes} (free : separator ∉ text)
    (some : text ≠ []) : fields separator text = [text] := by
  simp [fields, splitOn_of_notMem free, some]

end Bytes

/-- A name is plain when it stands for itself in a path. -/
structure Path.IsPlain (name : Name) : Prop where
  nonempty : name ≠ []
  noSlash : Bytes.slash ∉ name
  notHere : name ≠ Path.here
  notParent : name ≠ Path.parent

instance (name : Name) : Decidable (Path.IsPlain name) :=
  decidable_of_decidable_of_iff (p := name ≠ [] ∧ Bytes.slash ∉ name ∧ name ≠ Path.here ∧
    name ≠ Path.parent)
    ⟨fun parts => ⟨parts.1, parts.2.1, parts.2.2.1, parts.2.2.2⟩,
      fun plain => ⟨plain.nonempty, plain.noSlash, plain.notHere, plain.notParent⟩⟩

theorem Path.names_child {name : Name} (plain : Path.IsPlain name) (directory : Bytes) :
    Path.names (directory ++ "/" ++ name) = Path.names directory ++ [name] := by
  have shape : directory ++ (("/" : Bytes)) ++ name = directory ++ Bytes.slash :: name := by
    simp [show (("/" : Bytes)) = [Bytes.slash] from rfl]
  rw [shape, Path.names, Bytes.fields_append_separator,
    Bytes.fields_of_notMem plain.noSlash plain.nonempty]
  rfl

theorem Path.asksDirectory_child {name : Name} (plain : Path.IsPlain name) (directory : Bytes) :
    Path.asksDirectory (directory ++ "/" ++ name) = false := by
  have ends : (directory ++ (("/" : Bytes)) ++ name).getLast? = name.getLast? := by
    simp [List.getLast?_append, List.getLast?_eq_some_getLast plain.nonempty]
  rw [Path.asksDirectory, ends, List.getLast?_eq_some_getLast plain.nonempty, beq_eq_false_iff_ne]
  intro same
  have last := List.getLast_mem plain.nonempty
  rw [Option.some.inj same] at last
  exact plain.noSlash last

/-! ### Slots -/

/-- The slot of a path is the entry `name` of the directory `parent`, whatever is there. -/
structure Tree.Slot (tree : Tree) (path : Bytes) (parent : Location) (name : Name) : Prop where
  noDevice : Device.ofPath path = none
  noSlash : Path.asksDirectory path = false
  notHere : name ≠ Path.here
  notParent : name ≠ Path.parent
  way : ∃ names asks mode asked, Path.names path = names ++ [name] ∧
    tree.walk .follow Path.linkLimit [] names asks = .ok ⟨.taken parent (.directory mode), asked⟩

/-- A path and its last name are within the limits. -/
def Path.Fits (path : Bytes) (name : Name) : Prop :=
  path.length < Path.lengthLimit ∧ name.length ≤ Path.nameLimit

namespace Tree.Slot

variable {tree before after : Tree} {path : Bytes} {parent : Location} {name : Name}

theorem keep (slot : before.Slot path parent name) (ways : before.KeepsWays after) :
    after.Slot path parent name := by
  obtain ⟨names, asks, mode, asked, shape, walked⟩ := slot.way
  obtain ⟨kept, still⟩ := ways.directory _ _ (walk_fits walked)
  have there : (Place.taken parent (.directory mode)).At parent := rfl
  have walks := (Walks.of_walk walked).keep_taken ways still (by simp) there
  exact { slot with way := ⟨names, asks, kept, asked, shape, walks.walk_eq⟩ }

theorem resolve_eq (slot : tree.Slot path parent name) (short : path.length < Path.lengthLimit)
    (last : LastLink) : ∃ links, tree.resolve last path = tree.walk last links parent [name] false := by
  obtain ⟨names, asks, mode, asked, shape, walked⟩ := slot.way
  obtain ⟨links, same⟩ := (Walks.of_walk walked).append rfl (List.cons_ne_nil name [])
  have nonempty : path ≠ [] := by
    intro empty
    rw [empty] at shape
    simp [Path.names, Bytes.fields, Bytes.splitOn] at shape
  refine ⟨links, ?_⟩
  simp only [resolve, slot.noDevice]
  rw [if_neg nonempty, if_neg (by omega), shape, slot.noSlash, same]

theorem resolve_vacant (slot : tree.Slot path parent name) (fits : Path.Fits path name)
    (free : tree.get? (parent ++ [name]) = none) (last : LastLink) :
    tree.resolve last path = .ok ⟨.vacant (parent ++ [name]), false⟩ := by
  obtain ⟨links, same⟩ := slot.resolve_eq fits.1 last
  rw [same, walk]
  simp [Tree.leg, slot.notHere, slot.notParent, Nat.not_lt.mpr fits.2, free]

/-- A link in a slot is only found by a walk that keeps it. -/
theorem resolve_taken (slot : tree.Slot path parent name) (fits : Path.Fits path name)
    {node : Node} (found : tree.get? (parent ++ [name]) = some node) {last : LastLink}
    (kept : last = .keep ∨ ∀ target, node ≠ .link target) :
    tree.resolve last path = .ok ⟨.taken (parent ++ [name]) node, false⟩ := by
  obtain ⟨links, same⟩ := slot.resolve_eq fits.1 last
  rw [same, walk]
  cases node with
  | link target =>
      have keep : last = .keep := kept.resolve_right fun never => never target rfl
      simp [Tree.leg, slot.notHere, slot.notParent, Nat.not_lt.mpr fits.2, found, keep]
  | directory mode => simp [Tree.leg, slot.notHere, slot.notParent, Nat.not_lt.mpr fits.2, found]
  | file mode content => simp [Tree.leg, slot.notHere, slot.notParent, Nat.not_lt.mpr fits.2, found]

/-- Nothing is done through a path that is too long. -/
theorem resolve_too_long (slot : tree.Slot path parent name) (long : ¬ Path.Fits path name)
    (last : LastLink) : tree.resolve last path = .error .nameTooLong := by
  by_cases short : path.length < Path.lengthLimit
  · obtain ⟨links, same⟩ := slot.resolve_eq short last
    have beyond : Path.nameLimit < name.length := by
      simp only [Path.Fits, short, true_and] at long
      omega
    rw [same, walk]
    simp [Tree.leg, slot.notHere, slot.notParent, beyond]
  · obtain ⟨names, asks, mode, asked, shape, walked⟩ := slot.way
    have nonempty : path ≠ [] := by
      intro empty
      rw [empty] at shape
      simp [Path.names, Bytes.fields, Bytes.splitOn] at shape
    simp only [resolve, slot.noDevice]
    rw [if_neg nonempty, if_pos (by omega)]

/-! ### What paths with slots find -/

theorem find_vacant (slot : tree.Slot path parent name) (free : tree.get? (parent ++ [name]) = none) :
    ∃ errno, tree.find path = .error errno ∧ errno.number ≠ 0 := by
  by_cases fits : Path.Fits path name
  · exact ⟨.noEntry, by rw [find, slot.resolve_vacant fits free], by decide⟩
  · exact ⟨.nameTooLong, by rw [find, slot.resolve_too_long fits], by decide⟩

theorem find_taken (slot : tree.Slot path parent name) (fits : Path.Fits path name) {node : Node}
    (found : tree.get? (parent ++ [name]) = some node) (noLink : ∀ target, node ≠ .link target) :
    tree.find path = .ok (.taken (parent ++ [name]) node) := by
  rw [find, slot.resolve_taken fits found (.inr noLink)]
  rfl

theorem find_too_long (slot : tree.Slot path parent name) (long : ¬ Path.Fits path name) :
    tree.find path = .error .nameTooLong := by
  rw [find, slot.resolve_too_long long]

theorem writable_vacant (slot : tree.Slot path parent name) (fits : Path.Fits path name)
    (free : tree.get? (parent ++ [name]) = none) :
    tree.writable path = .ok (.vacant (parent ++ [name])) := by
  rw [writable, slot.resolve_vacant fits free]

theorem writable_file (slot : tree.Slot path parent name) (fits : Path.Fits path name)
    {mode : Mode} {content : Bytes}
    (found : tree.get? (parent ++ [name]) = some (.file mode content)) :
    tree.writable path = .ok (.file (parent ++ [name]) mode content) := by
  rw [writable, slot.resolve_taken fits found (.inr (by simp))]

theorem writable_directory (slot : tree.Slot path parent name) (fits : Path.Fits path name)
    {mode : Mode} (found : tree.get? (parent ++ [name]) = some (.directory mode)) :
    tree.writable path = .error .isDirectory := by
  rw [writable, slot.resolve_taken fits found (.inr (by simp))]

theorem writable_too_long (slot : tree.Slot path parent name) (long : ¬ Path.Fits path name) :
    tree.writable path = .error .nameTooLong := by
  rw [writable, slot.resolve_too_long long]

theorem unlinkable_taken (slot : tree.Slot path parent name) (fits : Path.Fits path name)
    {node : Node} (found : tree.get? (parent ++ [name]) = some node)
    (noDirectory : node.isDirectory = false) : tree.unlinkable path = .ok (parent ++ [name]) := by
  rw [unlinkable, slot.resolve_taken fits found (.inl rfl)]
  simp [noDirectory]

/-- Nothing but what is there and is no directory can be unlinked. -/
theorem unlinkable_fails (slot : tree.Slot path parent name)
    (none : ∀ node, tree.get? (parent ++ [name]) = some node → node.isDirectory = true) :
    ∃ errno, tree.unlinkable path = .error errno := by
  by_cases fits : Path.Fits path name
  · cases found : tree.get? (parent ++ [name]) with
    | none => exact ⟨.noEntry, by rw [unlinkable, slot.resolve_vacant fits found]⟩
    | some node =>
        refine ⟨.isDirectory, ?_⟩
        rw [unlinkable, slot.resolve_taken fits found (.inl rfl)]
        simp [none node found]
  · exact ⟨.nameTooLong, by rw [unlinkable, slot.resolve_too_long fits]⟩

end Tree.Slot

/-! ### Slots of children -/

/-- The written devices are the only children of `/dev` that have no slot. -/
theorem Device.ofPath_child {name : Name} (plain : Path.IsPlain name) (long : 4 < name.length)
    (directory : Bytes) : Device.ofPath (directory ++ "/" ++ name) = none := by
  have names := Path.names_child plain directory
  unfold Device.ofPath
  split
  · rename_i same
    rw [same, show Path.names "/dev/null" = [("dev" : Bytes)] ++ [("null" : Bytes)] from by decide] at names
    have last := (List.append_inj' names rfl).2
    simp only [List.cons.injEq, and_true] at last
    rw [← last] at long
    exact absurd long (by decide)
  · split
    · rename_i same
      rw [same, show Path.names "/dev/full" = [("dev" : Bytes)] ++ [("full" : Bytes)] from by decide]
        at names
      have last := (List.append_inj' names rfl).2
      simp only [List.cons.injEq, and_true] at last
      rw [← last] at long
      exact absurd long (by decide)
    · rfl

namespace Tree

variable {tree : Tree} {path : Bytes} {location : Location} {node : Node}

theorem resolve_of_find (found : tree.find path = .ok (.taken location node)) :
    ∃ asked, tree.resolve .follow path = .ok ⟨.taken location node, asked⟩ := by
  unfold find at found
  split at found
  · cases found
  · cases found
  · cases found
  · rename_i other held asked resolved
    split at found <;> cases found
    exact ⟨asked, resolved⟩

/-- What is not a device is found by a walk. -/
theorem walk_of_resolve {last : LastLink} {place : Place} {asked : Bool}
    (noDevice : ∀ device, place ≠ .device device)
    (resolved : tree.resolve last path = .ok ⟨place, asked⟩) :
    tree.walk last Path.linkLimit [] (Path.names path) (Path.asksDirectory path) =
      .ok ⟨place, asked⟩ := by
  unfold resolve at resolved
  split at resolved
  · cases resolved
    exact absurd rfl (noDevice _)
  · split at resolved
    · cases resolved
    · split at resolved
      · cases resolved
      · exact resolved

/-- A path that leads into one tree is walked in every tree. -/
theorem resolve_eq_walk {last : LastLink} {place : Place} {asked : Bool}
    (noDevice : ∀ device, place ≠ .device device)
    (resolved : tree.resolve last path = .ok ⟨place, asked⟩) (other : Tree) (kept : LastLink) :
    other.resolve kept path =
      other.walk kept Path.linkLimit [] (Path.names path) (Path.asksDirectory path) := by
  unfold resolve at resolved ⊢
  split at resolved
  · cases resolved
    exact absurd rfl (noDevice _)
  split at resolved
  · cases resolved
  split at resolved
  · cases resolved
  rename_i nonempty short
  rw [if_neg nonempty, if_neg short]

/-- A directory that is found has a slot for every name but those of the devices. -/
theorem slot_of_find {parent : Location} {mode : Mode}
    (found : tree.find path = .ok (.taken parent (.directory mode))) {name : Name}
    (plain : Path.IsPlain name) (long : 4 < name.length) :
    tree.Slot (path ++ "/" ++ name) parent name := by
  obtain ⟨asked, resolved⟩ := resolve_of_find found
  exact ⟨Device.ofPath_child plain long path, Path.asksDirectory_child plain path,
    plain.notHere, plain.notParent, Path.names path, Path.asksDirectory path, mode, asked,
    Path.names_child plain path, walk_of_resolve (by simp) resolved⟩

/-- A path leads to the same location when the ways are kept, whatever is there now but a link. -/
theorem resolve_keep_taken {before after : Tree} {last : LastLink} {place : Place} {asked : Bool}
    (ways : before.KeepsWays after) (held : after.get? location = some node)
    (noLink : ∀ target, node ≠ .link target) (there : place.At location)
    (noDevice : ∀ device, place ≠ .device device)
    (resolved : before.resolve last path = .ok ⟨place, asked⟩) :
    after.resolve last path = .ok ⟨.taken location node, asked⟩ := by
  rw [resolve_eq_walk noDevice resolved]
  exact ((Walks.of_walk (walk_of_resolve noDevice resolved)).keep_taken ways held noLink
    there).walk_eq

/-- A directory is found at the same place when the ways are kept. -/
theorem find_keep_directory {after : Tree} (ways : tree.KeepsWays after) {parent : Location}
    {mode : Mode} (found : tree.find path = .ok (.taken parent (.directory mode))) :
    ∃ mode, after.find path = .ok (.taken parent (.directory mode)) := by
  obtain ⟨asked, resolved⟩ := resolve_of_find found
  obtain ⟨kept, still⟩ := ways.directory _ _ (walk_fits (walk_of_resolve (by simp) resolved))
  have there : (Place.taken parent (.directory mode)).At parent := rfl
  have again := resolve_keep_taken ways still (by simp) there (by simp) resolved
  refine ⟨kept, ?_⟩
  rw [find, again]
  simp [Node.isDirectory]

end Tree

end Launcher
