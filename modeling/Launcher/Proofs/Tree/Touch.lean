/-
This file is about changes at one location of a tree. The slots of a tree stay where they are while
only a file comes, changes or goes there.
-/

import Launcher.FileSystem.Edit
import Launcher.Proofs.Tree.Slot

namespace Launcher.Tree

variable {tree first second third before after : Tree} {location parent : Location}
  {name old new : Name} {path source target : Bytes} {mode : Mode} {content : Bytes}

/-- Where no directory is, there is not the root. -/
theorem nonRoot_of_noDirectory (noDirectory : ∀ mode, tree.get? location ≠ some (.directory mode)) :
    location ≠ [] := by
  rintro rfl
  obtain ⟨mode, root⟩ := tree.get?_root
  exact noDirectory mode root

theorem nonRoot_of_get? {node : Node} (found : tree.get? location = some node)
    (noDirectory : node.isDirectory = false) : location ≠ [] := by
  rintro rfl
  obtain ⟨mode, root⟩ := tree.get?_root
  cases found.symm.trans root
  cases noDirectory

/-- The root stays a directory under a new mode. -/
theorem fits_withMode {node : Node} (found : tree.get? location = some node) (mode : Mode)
    (isRoot : location = []) : (node.withMode mode).isDirectory = true := by
  subst isRoot
  obtain ⟨kept, root⟩ := tree.get?_root
  cases found.symm.trans root
  rfl

theorem get?_put_self (nonRoot : location ≠ []) (node : Node) :
    (tree.put location node).get? location = some node := by
  rw [get?_put _ _ _ _ (absurd · nonRoot), if_pos rfl]

/-- Only the later of two nodes at a location counts. -/
theorem put_put (nonRoot : location ≠ []) (first second : Node) :
    (tree.put location first).put location second = tree.put location second := by
  ext1 other
  simp only [get?_put _ _ _ _ (absurd · nonRoot)]
  split <;> rfl

theorem erase_put (nonRoot : location ≠ []) (node : Node) :
    (tree.put location node).erase location = tree.erase location := by
  ext1 other
  simp only [get?_erase _ _ _ nonRoot, get?_put _ _ _ _ (absurd · nonRoot)]
  split <;> rfl

/-- A directory is only replaced by a directory, and anything else by what is none. -/
theorem isDirectory_of_replacement {node occupant : Node}
    (accepted : tree.replacementRefusal node location occupant = none) :
    occupant.isDirectory = node.isDirectory := by
  unfold replacementRefusal at accepted
  split at accepted
  · cases accepted
  · cases accepted
  · rename_i moved replaced
    rw [moved, replaced]
  · rename_i moved replaced
    rw [moved, replaced]

/-- A location has room for a file when it holds a file or nothing. -/
def HasRoom (tree : Tree) (location : Location) : Prop :=
  ∀ node, tree.get? location = some node → ∃ mode content, node = .file mode content

theorem HasRoom.of_none (free : tree.get? location = none) : tree.HasRoom location := by
  intro node found
  rw [free] at found
  cases found

theorem HasRoom.of_file (found : tree.get? location = some (.file mode content)) :
    tree.HasRoom location := by
  intro node same
  rw [found] at same
  cases same
  exact ⟨mode, content, rfl⟩

/-- Where there is room, there is neither a link nor a directory. -/
theorem HasRoom.noLink (room : tree.HasRoom location) (target : Bytes) :
    tree.get? location ≠ some (.link target) := by
  intro found
  obtain ⟨_, _, same⟩ := room _ found
  cases same

theorem HasRoom.noDirectory (room : tree.HasRoom location) (mode : Mode) :
    tree.get? location ≠ some (.directory mode) := by
  intro found
  obtain ⟨_, _, same⟩ := room _ found
  cases same

/-- Without a link there is room or a directory. -/
theorem HasRoom.or_directory (noLink : ∀ target, tree.get? location ≠ some (.link target)) :
    tree.HasRoom location ∨ ∃ mode, tree.get? location = some (.directory mode) := by
  cases found : tree.get? location with
  | none => exact .inl (.of_none found)
  | some node =>
      cases node with
      | directory mode => exact .inr ⟨mode, rfl⟩
      | file mode content => exact .inl (.of_file found)
      | link target => exact absurd found (noLink target)

/-- The content of a file, if there is a file at the location. -/
def content? (tree : Tree) (location : Location) : Option Bytes :=
  match tree.get? location with
  | some (.file _ content) => some content
  | _ => none

theorem content?_file (found : tree.get? location = some (.file mode content)) :
    tree.content? location = some content := by
  rw [content?, found]

theorem file_of_content (held : tree.content? location = some content) :
    ∃ mode, tree.get? location = some (.file mode content) := by
  cases found : tree.get? location with
  | none => simp [content?, found] at held
  | some node =>
      cases node with
      | directory mode => simp [content?, found] at held
      | link target => simp [content?, found] at held
      | file mode latest =>
          simp only [content?, found, Option.some.injEq] at held
          exact ⟨mode, by rw [held]⟩

/-- Only the one location may differ, and neither a way through the tree nor the room for a file
is lost there. -/
structure Touched (location : Location) (before after : Tree) : Prop where
  elsewhere : ∀ other, other ≠ location → after.get? other = before.get? other
  ways : before.KeepsWays after
  room : before.HasRoom location → after.HasRoom location

namespace Touched

theorem refl (location : Location) (tree : Tree) : Touched location tree tree :=
  ⟨fun _ _ => rfl, .refl tree, id⟩

theorem trans (left : Touched location first second) (right : Touched location second third) :
    Touched location first third := by
  refine ⟨?_, left.ways.trans right.ways, right.room ∘ left.room⟩
  intro other distinct
  rw [right.elsewhere other distinct, left.elsewhere other distinct]

/-- No link comes to the location. -/
theorem noLink (touched : Touched location before after)
    (noLink : ∀ target, before.get? location ≠ some (.link target)) (target : Bytes) :
    after.get? location ≠ some (.link target) := by
  rcases HasRoom.or_directory noLink with room | ⟨mode, found⟩
  · exact (touched.room room).noLink target
  · obtain ⟨kept, still⟩ := touched.ways.directory _ _ found
    simp [still]

/-- Where there is room, nothing is lost that ways lead through. -/
theorem of_room (room : before.HasRoom location) (left : after.HasRoom location)
    (elsewhere : ∀ other, other ≠ location → after.get? other = before.get? other) :
    Touched location before after := by
  refine ⟨elsewhere, ⟨?_, ?_⟩, fun _ => left⟩
  · intro other mode found
    refine ⟨mode, ?_⟩
    rw [elsewhere other, found]
    rintro rfl
    exact room.noDirectory mode found
  · intro other target found
    rw [elsewhere other, found]
    rintro rfl
    exact room.noLink target found

theorem put_file (room : tree.HasRoom location) (nonRoot : location ≠ []) (mode : Mode)
    (content : Bytes) : Touched location tree (tree.put location (.file mode content)) := by
  have look (other : Location) := tree.get?_put location other (.file mode content) (absurd · nonRoot)
  have held : (tree.put location (.file mode content)).get? location =
      some (.file mode content) := by
    rw [look, if_pos rfl]
  refine of_room room (.of_file held) fun other distinct => ?_
  rw [look, if_neg distinct]

theorem put_directory (found : tree.get? location = some (.directory mode)) (other : Mode) :
    Touched location tree (tree.put location (.directory other)) := by
  have look (place : Location) := tree.get?_put location place (.directory other) (fun _ => rfl)
  refine ⟨fun place distinct => by rw [look, if_neg distinct], ⟨?_, ?_⟩, ?_⟩
  · intro place kept held
    rw [look]
    split
    · exact ⟨other, rfl⟩
    · exact ⟨kept, held⟩
  · intro place target held
    rw [look, if_neg, held]
    rintro rfl
    rw [found] at held
    cases held
  · intro room
    exact absurd found (room.noDirectory mode)

theorem erase (room : tree.HasRoom location) (nonRoot : location ≠ []) :
    Touched location tree (tree.erase location) := by
  have look (other : Location) := tree.get?_erase location other nonRoot
  refine of_room room (.of_none ?_) ?_
  · rw [look, if_pos rfl]
  · intro other distinct
    rw [look, if_neg distinct]

end Touched

namespace Slot

/-- A path can be opened for writing in a slot with room, unless the path is too long. -/
theorem writable_cases (slot : tree.Slot path parent name)
    (noLink : ∀ target, tree.get? (parent ++ [name]) ≠ some (.link target)) :
    (∃ errno, tree.writable path = .error errno ∧
      ((∃ mode, tree.get? (parent ++ [name]) = some (.directory mode)) ∨ ¬ Path.Fits path name)) ∨
    (Path.Fits path name ∧ tree.HasRoom (parent ++ [name]) ∧
      (tree.writable path = .ok (.vacant (parent ++ [name])) ∨
        ∃ mode content, tree.writable path = .ok (.file (parent ++ [name]) mode content))) := by
  by_cases fits : Path.Fits path name
  · cases found : tree.get? (parent ++ [name]) with
    | none => exact .inr ⟨fits, .of_none found, .inl (slot.writable_vacant fits found)⟩
    | some node =>
        cases node with
        | directory mode =>
            exact .inl ⟨.isDirectory, slot.writable_directory fits found, .inl ⟨mode, rfl⟩⟩
        | file mode content =>
            exact .inr ⟨fits, .of_file found, .inr ⟨mode, content, slot.writable_file fits found⟩⟩
        | link target => exact absurd found (noLink target)
  · exact .inl ⟨.nameTooLong, slot.writable_too_long fits, .inr fits⟩

/-- A mode is only set on a node that is there. -/
theorem setMode_ok (slot : tree.Slot path parent name)
    (noLink : ∀ target, tree.get? (parent ++ [name]) ≠ some (.link target))
    (changed : tree.setMode path mode = .ok after) :
    Path.Fits path name ∧ ∃ node, tree.get? (parent ++ [name]) = some node ∧
      after = tree.put (parent ++ [name]) (node.withMode mode) := by
  unfold setMode at changed
  by_cases fits : Path.Fits path name
  · refine ⟨fits, ?_⟩
    cases found : tree.get? (parent ++ [name]) with
    | none =>
        obtain ⟨errno, missing, _⟩ := slot.find_vacant found
        rw [missing] at changed
        cases changed
    | some node =>
        have noTarget (target : Bytes) : node ≠ .link target := by
          rintro rfl
          exact noLink target found
        rw [slot.find_taken fits found noTarget] at changed
        cases changed
        exact ⟨node, rfl, rfl⟩
  · rw [slot.find_too_long fits] at changed
    cases changed

/-- An attempt to overwrite writes the whole file, if there is room for one. -/
theorem attempt_overwrite (slot : tree.Slot path parent name)
    (noLink : ∀ target, tree.get? (parent ++ [name]) ≠ some (.link target)) (content : Bytes)
    (mode : Mode) :
    Touched (parent ++ [name]) tree (tree.attempt (tree.overwrite path content mode)) ∧
      (¬ Path.Fits path name → tree.attempt (tree.overwrite path content mode) = tree) ∧
      (Path.Fits path name → tree.HasRoom (parent ++ [name]) →
        (tree.attempt (tree.overwrite path content mode)).content? (parent ++ [name]) =
          some content) := by
  have nonRoot : parent ++ [name] ≠ [] := by simp
  have filled (kept : Mode) :
      (tree.put (parent ++ [name]) (.file kept content)).content? (parent ++ [name]) =
        some content := by
    exact content?_file (get?_put_self nonRoot _)
  unfold overwrite
  rcases slot.writable_cases noLink with ⟨errno, refused, why⟩ | ⟨fits, room, free | ⟨kept, old, held⟩⟩
  · rw [refused]
    refine ⟨.refl _ _, fun _ => rfl, fun fits room => ?_⟩
    rcases why with ⟨mode, directory⟩ | long
    · exact absurd directory (room.noDirectory mode)
    · exact absurd fits long
  · rw [free]
    exact ⟨.put_file room nonRoot mode content, fun long => absurd fits long, fun _ _ => filled mode⟩
  · rw [held]
    exact ⟨.put_file room nonRoot kept content, fun long => absurd fits long, fun _ _ => filled kept⟩

/-- A new mode leaves the content as it is. -/
theorem put_withMode {node : Node} (found : tree.get? (parent ++ [name]) = some node)
    (noLink : ∀ target, node ≠ .link target) (mode : Mode) :
    Touched (parent ++ [name]) tree (tree.put (parent ++ [name]) (node.withMode mode)) ∧
      (tree.put (parent ++ [name]) (node.withMode mode)).content? (parent ++ [name]) =
        tree.content? (parent ++ [name]) := by
  have nonRoot : parent ++ [name] ≠ [] := by simp
  simp only [content?, get?_put _ _ _ _ (absurd · nonRoot), if_true, found]
  cases node with
  | directory kept => exact ⟨.put_directory found mode, rfl⟩
  | file kept content => exact ⟨.put_file (.of_file found) nonRoot mode content, rfl⟩
  | link target => exact absurd rfl (noLink target)

theorem attempt_setMode (slot : tree.Slot path parent name)
    (noLink : ∀ target, tree.get? (parent ++ [name]) ≠ some (.link target)) (mode : Mode) :
    Touched (parent ++ [name]) tree (tree.attempt (tree.setMode path mode)) ∧
      (¬ Path.Fits path name → tree.attempt (tree.setMode path mode) = tree) ∧
      (tree.attempt (tree.setMode path mode)).content? (parent ++ [name]) =
        tree.content? (parent ++ [name]) := by
  cases changed : tree.setMode path mode with
  | error errno => exact ⟨.refl _ _, fun _ => rfl, rfl⟩
  | ok after =>
      obtain ⟨fits, node, found, rfl⟩ := slot.setMode_ok noLink changed
      obtain ⟨touched, same⟩ := put_withMode found
        (fun target isLink => noLink target (isLink ▸ found)) mode
      exact ⟨touched, fun long => absurd fits long, same⟩

/-- Only a file can be unlinked in a slot without a link. -/
theorem unlinkable_iff (slot : tree.Slot path parent name)
    (noLink : ∀ target, tree.get? (parent ++ [name]) ≠ some (.link target)) :
    tree.unlinkable path = .ok location ↔ location = parent ++ [name] ∧ Path.Fits path name ∧
      ∃ mode content, tree.get? (parent ++ [name]) = some (.file mode content) := by
  constructor
  · intro allowed
    by_cases fits : Path.Fits path name
    · by_cases isFile : ∃ mode content, tree.get? (parent ++ [name]) = some (.file mode content)
      · obtain ⟨mode, content, found⟩ := isFile
        rw [slot.unlinkable_taken fits found rfl] at allowed
        cases allowed
        exact ⟨rfl, fits, mode, content, found⟩
      · obtain ⟨errno, refused⟩ := slot.unlinkable_fails (fun node found => by
          cases node with
          | directory mode => rfl
          | file mode content => exact absurd ⟨mode, content, found⟩ isFile
          | link target => exact absurd found (noLink target))
        rw [refused] at allowed
        cases allowed
    · rw [unlinkable, slot.resolve_too_long fits] at allowed
      cases allowed
  · intro reached
    obtain ⟨rfl, fits, mode, content, found⟩ := reached
    exact slot.unlinkable_taken fits found rfl

/-- A renaming from one slot to another of the same directory moves what is there, and only a
directory may replace a directory. -/
theorem renamable_ok {places : Location × Location} (sourceSlot : tree.Slot source parent old)
    (targetSlot : tree.Slot target parent new) (distinct : old ≠ new)
    (allowed : tree.renamable source target = .ok places) :
    Path.Fits source old ∧ Path.Fits target new ∧ places = (parent ++ [old], parent ++ [new]) ∧
      ∃ node, tree.get? (parent ++ [old]) = some node ∧
        ∀ occupant, tree.get? (parent ++ [new]) = some occupant →
          occupant.isDirectory = node.isDirectory := by
  have apart : parent ++ [old] ≠ parent ++ [new] := by simpa using distinct
  have beside : Location.below (parent ++ [old]) (parent ++ [new]) = false := by
    simp [Location.below]
  have beside' : Location.below (parent ++ [new]) (parent ++ [old]) = false := by
    simp [Location.below]
  by_cases fits : Path.Fits source old
  · by_cases fits' : Path.Fits target new
    · refine ⟨fits, fits', ?_⟩
      cases found : tree.get? (parent ++ [old]) with
      | none =>
          unfold renamable at allowed
          rw [sourceSlot.resolve_vacant fits found] at allowed
          cases there : tree.get? (parent ++ [new]) with
          | none =>
              rw [targetSlot.resolve_vacant fits' there] at allowed
              cases allowed
          | some occupant =>
              rw [targetSlot.resolve_taken fits' there (.inl rfl)] at allowed
              cases allowed
      | some node =>
          unfold renamable at allowed
          rw [sourceSlot.resolve_taken fits found (.inl rfl)] at allowed
          cases there : tree.get? (parent ++ [new]) with
          | none =>
              rw [targetSlot.resolve_vacant fits' there] at allowed
              simp only [Bool.or_self, Bool.and_false, Bool.false_eq_true, if_false, beside] at allowed
              cases allowed
              exact ⟨rfl, node, rfl, by simp⟩
          | some occupant =>
              rw [targetSlot.resolve_taken fits' there (.inl rfl)] at allowed
              simp only [Bool.or_self, Bool.and_false, Bool.false_eq_true, if_false, beside,
                beside', if_neg apart] at allowed
              split at allowed <;> cases allowed
              rename_i accepted
              refine ⟨rfl, node, rfl, ?_⟩
              rintro other same
              cases same
              exact isDirectory_of_replacement accepted
    · unfold renamable at allowed
      rw [targetSlot.resolve_too_long fits'] at allowed
      split at allowed <;> simp_all
  · unfold renamable at allowed
    rw [sourceSlot.resolve_too_long fits] at allowed
    cases allowed

end Slot

/-- A node that is no directory moves alone. -/
theorem get?_move {node : Node} {source target : Location} (found : tree.get? source = some node)
    (noDirectory : node.isDirectory = false) (nonRoot : target ≠ []) (other : Location) :
    (tree.move source target).get? other =
      if other = target then some node else if other = source then none else tree.get? other := by
  have isRoot : source ≠ [] := nonRoot_of_get? found noDirectory
  have moved : tree.move source target = (tree.erase source).put target node := by
    unfold move
    rw [found]
    cases node with
    | directory mode => cases noDirectory
    | file mode content => rfl
    | link target => rfl
  rw [moved, get?_put _ _ _ _ (absurd · nonRoot), get?_erase _ _ _ isRoot]

/-! ### Directories that move -/

theorem get?_prune_root (tree : Tree) (top : Location) : (tree.prune top).get? [] = tree.get? [] := by
  cases found : tree.entries[([] : Location)]? <;> simp [prune, get?, found]

/-- What is neither at nor below the removed location stays. -/
theorem get?_prune_outside {top other : Location} (outside : top.isPrefixOf other = false) :
    (tree.prune top).get? other = tree.get? other := by
  by_cases isRoot : other = []
  · rw [isRoot, get?_prune_root]
  · rw [get?_prune _ _ _ isRoot, outside]
    rfl

/-- Entries that are put elsewhere leave a location as it is. -/
theorem get?_foldl_put {entries : List (Location × Node)} {place : Location × Node → Location}
    {other : Location} (apart : ∀ entry ∈ entries, place entry ≠ other ∧ place entry ≠ []) :
    (entries.foldl (fun moved entry => moved.put (place entry) entry.2) tree).get? other =
      tree.get? other := by
  induction entries generalizing tree with
  | nil => rfl
  | cons entry others inductionHypothesis =>
      obtain ⟨distinct, nonRoot⟩ := apart entry (by simp)
      rw [List.foldl_cons, inductionHypothesis fun later among => apart later (by simp [among]),
        get?_put _ _ _ _ (absurd · nonRoot), if_neg distinct.symm]

/-- A directory comes to its target, and what is outside of both places stays. -/
theorem get?_move_directory {source target : Location}
    (found : tree.get? source = some (.directory mode)) (nonRoot : target ≠ []) :
    (tree.move source target).get? target = some (.directory mode) ∧
      ∀ other, source.isPrefixOf other = false → target.isPrefixOf other = false →
        (tree.move source target).get? other = tree.get? other := by
  have placed (entry : Location × Node) (among : entry ∈ tree.below source) :
      target ++ entry.1.drop source.length ≠ target ∧ target ++ entry.1.drop source.length ≠ [] := by
    simp only [below, Location.below, List.mem_filter, Bool.and_eq_true, decide_eq_true_eq] at among
    obtain ⟨_, _, longer⟩ := among
    have some : entry.1.drop source.length ≠ [] := by
      rw [ne_eq, List.drop_eq_nil_iff]
      omega
    exact ⟨by simpa using some, by simp [nonRoot]⟩
  unfold move
  rw [found]
  constructor
  · rw [get?_foldl_put placed, get?_put _ _ _ _ (fun _ => rfl), if_pos rfl]
  · intro other outside beside
    have distinct : other ≠ target := by
      rintro rfl
      rw [List.isPrefixOf_iff_prefix.mpr (List.prefix_refl _)] at beside
      cases beside
    rw [get?_foldl_put, get?_put _ _ _ _ (fun _ => rfl), if_neg distinct, get?_prune_outside beside,
      get?_prune_outside outside]
    intro entry among
    refine ⟨?_, (placed entry among).2⟩
    rintro rfl
    rw [List.isPrefixOf_iff_prefix.mpr (List.prefix_append _ _)] at beside
    cases beside

end Launcher.Tree
