/-
This file is about whole trees, in which everything is in a directory. Every change of a file system
leaves its tree whole.
-/

import Launcher.FileSystem.Edit
import Launcher.Proofs.Tree.Beside
import Launcher.Proofs.Tree.Growth
import Launcher.Proofs.Tree.Output
import Mathlib.Data.List.Induction

namespace Launcher

namespace Tree

variable {tree after : Tree} {location place : Location} {name : Name} {node : Node} {mode : Mode}
  {path content : Bytes}

/-- Everything in a whole tree is in a directory. -/
def Whole (tree : Tree) : Prop := ∀ location name node,
  tree.get? (location ++ [name]) = some node → ∃ mode, tree.get? location = some (.directory mode)

theorem whole_empty : Tree.empty.Whole := by
  intro location name node found
  rw [get?_empty (by simp)] at found
  cases found

/-- A place that only has directories above is in a directory. -/
theorem Anchored.parent {parent : Location} (anchored : tree.Anchored (parent ++ [name])) :
    ∃ mode, tree.get? parent = some (.directory mode) :=
  anchored parent (List.prefix_append _ _) (by simp)

theorem isPrefixOf_of_outside {top : Location} (outside : ¬ top <+: location) :
    top.isPrefixOf location = false := by
  rwa [← Bool.not_eq_true, List.isPrefixOf_iff_prefix]

namespace Whole

theorem free (whole : tree.Whole) (free : tree.get? location = none) (name : Name) :
    tree.get? (location ++ [name]) = none := by
  cases found : tree.get? (location ++ [name]) with
  | none => rfl
  | some node =>
      obtain ⟨mode, directory⟩ := whole _ _ _ found
      cases free.symm.trans directory

/-- All places above a place that is taken are directories. -/
theorem anchored (whole : tree.Whole) (held : tree.get? location = some node) :
    tree.Anchored location := by
  induction location using List.reverseRecOn generalizing node with
  | nil => exact (Enterable.root tree).anchored
  | append_singleton parent name inductionHypothesis =>
      obtain ⟨mode, directory⟩ := whole parent name node held
      exact ((inductionHypothesis directory).enterable directory).child name

/-! ### Changes of one place -/

/-- What is put into a directory may be anything, but a directory stays one. -/
theorem put (whole : tree.Whole) (fits : place = [] → node.isDirectory = true)
    (anchored : tree.Anchored place)
    (kind : ∀ mode, tree.get? place = some (.directory mode) → node.isDirectory = true) :
    (tree.put place node).Whole := by
  have look (other : Location) := tree.get?_put place other node fits
  intro location name held found
  have above : ∃ mode, tree.get? location = some (.directory mode) := by
    rw [look] at found
    split at found
    · rename_i same
      subst same
      exact anchored.parent
    · exact whole location name held found
  obtain ⟨mode, directory⟩ := above
  rw [look]
  split
  · rename_i same
    subst same
    cases node with
    | directory other => exact ⟨other, rfl⟩
    | file other content => cases kind mode directory
    | link target => cases kind mode directory
  · exact ⟨mode, directory⟩

/-- Another mode or content changes nothing about directories. -/
theorem put_taken (whole : tree.Whole) {old : Node} (held : tree.get? place = some old)
    (same : node.isDirectory = old.isDirectory) : (tree.put place node).Whole := by
  refine whole.put ?_ (whole.anchored held) ?_
  · rintro rfl
    obtain ⟨mode, root⟩ := tree.get?_root
    cases held.symm.trans root
    exact same
  · intro mode directory
    cases held.symm.trans directory
    exact same

theorem put_vacant (whole : tree.Whole) (anchored : tree.Anchored place)
    (free : tree.get? place = none) : (tree.put place node).Whole := by
  refine whole.put ?_ anchored fun mode directory => ?_
  · rintro rfl
    obtain ⟨mode, root⟩ := tree.get?_root
    cases free.symm.trans root
  · cases free.symm.trans directory

theorem erase (whole : tree.Whole)
    (noDirectory : ∀ mode, tree.get? place ≠ some (.directory mode)) :
    (tree.erase place).Whole := by
  have look (other : Location) :=
    tree.get?_erase place other (nonRoot_of_noDirectory noDirectory)
  intro location name node found
  rw [look] at found
  split at found
  · cases found
  obtain ⟨mode, directory⟩ := whole location name node found
  refine ⟨mode, ?_⟩
  rw [look, if_neg, directory]
  rintro rfl
  exact noDirectory mode directory

/-! ### Changes of whole directories -/

theorem prune (whole : tree.Whole) (top : Location) : (tree.prune top).Whole := by
  intro location name node found
  rw [get?_prune _ _ _ (by simp)] at found
  cases inside : top.isPrefixOf (location ++ [name]) with
  | true =>
      rw [inside] at found
      cases found
  | false =>
      rw [inside] at found
      obtain ⟨mode, directory⟩ := whole location name node found
      have outside : ¬ top <+: location := fun above => by
        rw [List.isPrefixOf_iff_prefix.mpr (above.trans (List.prefix_append _ _))] at inside
        cases inside
      exact ⟨mode, by rw [get?_prune_outside (isPrefixOf_of_outside outside), directory]⟩

end Whole

/-! ### Directories that take everything along -/

/-- An entry is at its place in the end when entries with the same place agree. -/
theorem get?_foldl_put_mem {entries : List (Location × Node)}
    {place : Location × Node → Location} {entry : Location × Node} (among : entry ∈ entries)
    (nonRoot : ∀ other ∈ entries, place other ≠ [])
    (agree : ∀ other ∈ entries, place other = place entry → other.2 = entry.2) :
    (entries.foldl (fun moved entry => moved.put (place entry) entry.2) tree).get? (place entry) =
      some entry.2 := by
  induction entries using List.reverseRecOn with
  | nil => cases among
  | append_singleton front last inductionHypothesis =>
      rw [List.foldl_append, List.foldl_cons, List.foldl_nil,
        get?_put _ _ _ _ (absurd · (nonRoot last (by simp)))]
      split
      · rename_i same
        rw [agree last (by simp) same.symm]
      · rename_i distinct
        refine inductionHypothesis ?_ (fun other isOther => nonRoot other (by simp [isOther]))
          (fun other isOther => agree other (by simp [isOther]))
        refine (List.mem_append.mp among).resolve_right fun isLast => distinct ?_
        rw [List.mem_singleton.mp isLast]

theorem mem_below {top : Location} {entry : Location × Node} : entry ∈ tree.below top ↔
    tree.get? entry.1 = some entry.2 ∧ ∃ rest, rest ≠ [] ∧ entry.1 = top ++ rest := by
  obtain ⟨location, node⟩ := entry
  simp only [below, Location.below, List.mem_filter, Bool.and_eq_true, decide_eq_true_eq,
    List.isPrefixOf_iff_prefix, get?, Std.ExtTreeMap.mem_toList_iff_getElem?_eq_some]
  refine and_congr_right fun _ => ⟨?_, ?_⟩
  · rintro ⟨⟨rest, shape⟩, longer⟩
    refine ⟨rest, ?_, shape.symm⟩
    rintro rfl
    simp [← shape] at longer
  · rintro ⟨rest, inside, shape⟩
    have least := List.length_pos_iff.mpr inside
    rw [shape, List.length_append]
    exact ⟨List.prefix_append _ _, by omega⟩

section Move

variable {source target : Location} (found : tree.get? source = some (.directory mode))
  (nonRoot : target ≠ [])
include found nonRoot

/-- What is in a directory comes to the target with it. -/
theorem get?_move_inside {rest : Location} (inside : rest ≠ []) :
    (tree.move source target).get? (target ++ rest) = tree.get? (source ++ rest) := by
  have origin {entry : Location × Node} (among : entry ∈ tree.below source)
      (same : target ++ entry.1.drop source.length = target ++ rest) : entry.1 = source ++ rest := by
    obtain ⟨_, more, _, shape⟩ := mem_below.mp among
    rw [shape, List.drop_left] at same
    rw [shape, List.append_cancel_left same]
  unfold move
  rw [found]
  cases held : tree.get? (source ++ rest) with
  | some node =>
      have among : (source ++ rest, node) ∈ tree.below source :=
        mem_below.mpr ⟨held, rest, inside, rfl⟩
      have there : target ++ (source ++ rest, node).1.drop source.length = target ++ rest := by
        rw [List.drop_left]
      rw [← there]
      refine get?_foldl_put_mem among (fun _ _ => by simp [nonRoot]) fun other isOther same => ?_
      have placed := (mem_below.mp isOther).1
      rw [origin isOther (same.trans there), held] at placed
      exact (Option.some.inj placed).symm
  | none =>
      rw [get?_foldl_put, get?_put _ _ _ _ (fun _ => rfl), if_neg (by simp [inside]),
        get?_prune _ _ _ (by simp [nonRoot]), if_pos (by simp)]
      intro entry among
      refine ⟨fun same => ?_, by simp [nonRoot]⟩
      have placed := (mem_below.mp among).1
      rw [origin among same, held] at placed
      cases placed

/-- Nothing stays where the directory was. -/
theorem get?_move_gone {rest : Location} (apart : ¬ target <+: source ++ rest)
    (isTop : source ≠ []) : (tree.move source target).get? (source ++ rest) = none := by
  have outside := isPrefixOf_of_outside apart
  unfold move
  rw [found]
  dsimp only
  rw [get?_foldl_put, get?_put _ _ _ _ (fun _ => rfl), if_neg, get?_prune_outside outside,
    get?_prune _ _ _ (by simp [isTop]), if_pos (by simp)]
  · intro same
    rw [same] at apart
    exact apart List.prefix_rfl
  · intro entry among
    refine ⟨fun same => ?_, by simp [nonRoot]⟩
    rw [← same] at apart
    exact apart (List.prefix_append _ _)

end Move

namespace Whole

variable {source target : Location}

/-- A node that is no directory moves to a place without one. -/
theorem move_alone (whole : tree.Whole) (held : tree.get? source = some node)
    (noDirectory : node.isDirectory = false) (anchored : tree.Anchored target)
    (nonRoot : target ≠ []) (room : ∀ mode, tree.get? target ≠ some (.directory mode)) :
    (tree.move source target).Whole := by
  have look := get?_move held noDirectory nonRoot
  intro location name other found
  have above : ∃ mode, tree.get? location = some (.directory mode) := by
    rw [look] at found
    split at found
    · rename_i same
      rw [← same] at anchored
      exact anchored.parent
    · split at found
      · cases found
      · exact whole location name other found
  obtain ⟨mode, directory⟩ := above
  have notTarget : location ≠ target := by
    rintro rfl
    exact room mode directory
  have notSource : location ≠ source := by
    rintro rfl
    cases held.symm.trans directory
    cases noDirectory
  exact ⟨mode, by rw [look, if_neg notTarget, if_neg notSource, directory]⟩

/-- A directory moves with everything in it, but not into itself. -/
theorem move_directory (whole : tree.Whole) (held : tree.get? source = some (.directory mode))
    (anchored : tree.Anchored target) (nonRoot : target ≠ []) (apart : ¬ source <+: target) :
    (tree.move source target).Whole := by
  have isTop : source ≠ [] := by
    rintro rfl
    exact apart List.nil_prefix
  obtain ⟨arrived, outside⟩ := get?_move_directory held nonRoot
  have elsewhere (other : Location) (notSource : ¬ source <+: other)
      (notTarget : ¬ target <+: other) : (tree.move source target).get? other = tree.get? other :=
    outside other (isPrefixOf_of_outside notSource) (isPrefixOf_of_outside notTarget)
  have upward {top location : Location} {name : Name} (inside : top <+: location) :
      top <+: location ++ [name] := inside.trans (List.prefix_append _ _)
  intro location name node found
  by_cases inTarget : target <+: location ++ [name]
  · obtain ⟨rest, shape⟩ := inTarget
    rcases List.eq_nil_or_concat rest with rfl | ⟨front, last, rfl⟩
    · -- The directory is itself in a directory, which does not move.
      rw [List.append_nil] at shape
      subst shape
      obtain ⟨kept, directory⟩ := anchored.parent
      have beside : ¬ location ++ [name] <+: location := fun inside =>
        absurd inside.length_le (by simp)
      have still := elsewhere location (fun inside => apart (upward inside)) beside
      exact ⟨kept, still.trans directory⟩
    · rw [List.concat_eq_append, ← List.append_assoc] at shape
      obtain ⟨rfl, same⟩ := List.append_inj' shape rfl
      cases same
      rw [List.append_assoc, get?_move_inside held nonRoot (by simp), ← List.append_assoc] at found
      obtain ⟨kept, directory⟩ := whole _ _ _ found
      by_cases empty : front = []
      · exact ⟨mode, by rw [empty, List.append_nil, arrived]⟩
      · exact ⟨kept, by rw [get?_move_inside held nonRoot empty, directory]⟩
  by_cases inSource : source <+: location ++ [name]
  · obtain ⟨rest, shape⟩ := inSource
    rw [← shape] at found inTarget
    cases (get?_move_gone held nonRoot inTarget isTop).symm.trans found
  · rw [elsewhere _ inSource inTarget] at found
    obtain ⟨kept, directory⟩ := whole location name node found
    have still := elsewhere location (fun inside => inSource (upward inside))
      (fun inside => inTarget (upward inside))
    exact ⟨kept, still.trans directory⟩

end Whole

/-! ### Changes through paths -/

/-- A renaming leads into a directory, but not into the one that is renamed. -/
theorem target_of_renamable {source target : Bytes} {old new : Location}
    (allowed : tree.renamable source target = .ok (old, new)) :
    tree.Anchored new ∧ (old ≠ new → ¬ old <+: new) := by
  have apart (notBelow : old.below new = false) (distinct : old ≠ new) : ¬ old <+: new := by
    intro inside
    have longer : old.length < new.length :=
      Nat.lt_of_le_of_ne inside.length_le fun same => distinct (inside.eq_of_length same)
    simp [Location.below, List.isPrefixOf_iff_prefix.mpr inside, longer] at notBelow
  have anchored {place : Place} {asked : Bool}
      (resolved : tree.resolve .keep target = .ok ⟨place, asked⟩) (there : place.At new)
      (noDevice : ∀ device, place ≠ .device device) : tree.Anchored new :=
    (Walks.of_walk (walk_of_resolve noDevice resolved)).anchored (.root tree) there noDevice
  unfold renamable at allowed
  split at allowed
  · cases allowed
  · cases allowed
  · cases allowed
  · cases allowed
  rename_i place asked _ toTarget
  split at allowed
  · cases allowed
  cases place with
  | device device => cases allowed
  | vacant free =>
      dsimp only at allowed
      split at allowed <;> cases allowed
      rename_i notBelow
      exact ⟨anchored toTarget rfl (by simp), apart (by simpa using notBelow)⟩
  | taken there occupant =>
      dsimp only at allowed
      split at allowed
      · rename_i same
        cases allowed
        exact ⟨anchored toTarget rfl (by simp), fun distinct => absurd same distinct⟩
      split at allowed
      · cases allowed
      rename_i notBelow
      split at allowed
      · cases allowed
      split at allowed <;> cases allowed
      exact ⟨anchored toTarget rfl (by simp), apart (by simpa using notBelow)⟩

/-- A node that is no directory only takes the place of another one. -/
theorem noDirectory_of_room {target : Bytes} (alone : node.isDirectory = false)
    (room : tree.get? location = none ∨ ∃ occupant asked, tree.get? location = some occupant ∧
      tree.resolve .keep target = .ok ⟨.taken location occupant, asked⟩ ∧
      (node.isDirectory = false → occupant.isDirectory = false)) (mode : Mode) :
    tree.get? location ≠ some (.directory mode) := by
  intro directory
  rcases room with free | ⟨occupant, _, held, _, kind⟩
  · cases free.symm.trans directory
  · cases held.symm.trans directory
    cases kind alone

namespace Whole

theorem makeDirectory (whole : tree.Whole) (made : tree.makeDirectory path mode = .ok after) :
    after.Whole := by
  obtain ⟨parent, name, _, ⟨asked, resolved⟩, free, rfl⟩ := makeDirectory_ok made
  have there : (Place.vacant (parent ++ [name])).At (parent ++ [name]) := rfl
  have walks := Walks.of_walk (walk_of_resolve (by simp) resolved)
  exact whole.put_vacant (walks.anchored (.root tree) there (by simp)) free

theorem setMode (whole : tree.Whole) (changed : tree.setMode path mode = .ok after) :
    after.Whole := by
  rcases setMode_put changed with rfl | ⟨other, node, held, rfl⟩
  · exact whole
  · exact whole.put_taken held (Node.isDirectory_withMode node mode)

/-- A file is written where a file or nothing is. -/
theorem put_named (whole : tree.Whole) (named : tree.Names path location content) (mode : Mode)
    (latest : Bytes) : (tree.put location (.file mode latest)).Whole :=
  whole.put (absurd · named.nonRoot) named.anchored fun other directory =>
    absurd directory (named.room.noDirectory other)

theorem overwrite (whole : tree.Whole) (written : tree.overwrite path content mode = .ok after) :
    after.Whole := by
  unfold Tree.overwrite at written
  split at written <;> cases written
  · exact whole
  · rename_i named
    exact whole.put_named (.file named) _ _
  · rename_i named
    exact whole.put_named (.vacant named) _ _

theorem attempt (whole : tree.Whole) {changed : Except Errno Tree}
    (kept : ∀ after, changed = .ok after → after.Whole) : (tree.attempt changed).Whole := by
  unfold Tree.attempt
  split
  · exact kept _ rfl
  · exact whole

end Whole

end Tree

namespace FileSystem

variable {Handle : Type} [DecidableEq Handle] {files after : FileSystem Handle} {handle : Handle}
  {path : Bytes} {mode : Mode}

omit [DecidableEq Handle] in
theorem unlink_whole (whole : files.tree.Whole) (removed : files.unlink path = .ok after) :
    after.tree.Whole := by
  unfold FileSystem.unlink at removed
  split at removed <;> cases removed
  rename_i location allowed
  obtain ⟨node, _, noDirectory, held⟩ := Tree.resolve_of_unlinkable allowed
  refine whole.erase fun mode directory => ?_
  cases held.symm.trans directory
  cases noDirectory

omit [DecidableEq Handle] in
theorem rename_whole {source target : Bytes} (whole : files.tree.Whole)
    (renamed : files.rename source target = .ok after) : after.tree.Whole := by
  unfold FileSystem.rename at renamed
  split at renamed
  · cases renamed
  rename_i old new allowed
  split at renamed <;> cases renamed
  · exact whole
  rename_i distinct
  obtain ⟨node, _, _, held, _, same | ⟨nonRoot, room⟩⟩ := Tree.resolve_of_renamable allowed
  · exact absurd same distinct
  obtain ⟨anchored, apart⟩ := Tree.target_of_renamable allowed
  cases node with
  | directory mode => exact whole.move_directory held anchored nonRoot (apart distinct)
  | file mode content =>
      exact whole.move_alone held rfl anchored nonRoot (Tree.noDirectory_of_room rfl room)
  | link target => exact whole.move_alone held rfl anchored nonRoot (Tree.noDirectory_of_room rfl room)

theorem openStream_whole (whole : files.tree.Whole) {appending : Bool}
    (opened : files.openStream handle path appending mode = .ok after) : after.tree.Whole := by
  unfold openStream at opened
  split at opened <;> cases opened
  · exact whole
  · rename_i named
    exact whole.put_named (.file named) _ _
  · rename_i named
    exact whole.put_named (.vacant named) _ _

omit [DecidableEq Handle] in
theorem Works.whole (works : Works handle files after) (whole : files.tree.Whole) :
    after.tree.Whole := by
  rcases works.tree with same | ⟨location, mode, old, new, _, held, same⟩
  · rw [same]
    exact whole
  · rw [same]
    exact whole.put_taken held rfl

omit [DecidableEq Handle] in
theorem commit_whole (whole : files.tree.Whole) {changed : Except Errno (FileSystem Handle)}
    (kept : ∀ after, changed = .ok after → after.tree.Whole) : (files.commit changed).2.tree.Whole := by
  unfold commit
  split
  · exact kept _ rfl
  · exact whole

/-- No call of a program leaves anything that is not in a directory. -/
theorem answer_whole (whole : files.tree.Whole) (handle : Handle) (mask : Mode) (call : FileCall) :
    (files.answer handle mask call).2.tree.Whole := by
  have commitTree {changed : Except Errno Tree}
      (kept : ∀ tree, changed = .ok tree → tree.Whole) : (files.commitTree changed).2.tree.Whole := by
    refine commit_whole whole fun after committed => ?_
    cases changed with
    | error errno => cases committed
    | ok tree =>
        cases committed
        exact kept tree rfl
  cases call with
  | inspect path => exact whole
  | access path => exact whole
  | makeDirectory path mode => exact commitTree fun tree => whole.makeDirectory
  | setMode path mode => exact commitTree fun tree => whole.setMode
  | unlink path => exact commit_whole whole fun after => unlink_whole whole
  | rename source target => exact commit_whole whole fun after => rename_whole whole
  | openOutput path => exact commit_whole whole fun after => openStream_whole whole
  | _ =>
      refine Works.whole (Works.answer files handle mask ?_) whole
      trivial

/-- A refusal changes nothing but the stream that a close gives up. -/
theorem refuse_whole (whole : files.tree.Whole) (handle : Handle) (mask : Mode) (errno : Errno)
    (call : FileCall) : (files.refuse handle mask errno call).2.tree.Whole := by
  cases call with
  | close => exact (Works.of_close files handle).whole whole
  | _ => exact whole

end FileSystem

/-! ### Edits -/

namespace Tree.Whole

variable {tree : Tree} (whole : tree.Whole)
include whole

theorem makeParents (path : Bytes) : (tree.makeParents path).Whole := by
  unfold Tree.makeParents
  induction ancestors path generalizing tree with
  | nil => exact whole
  | cons parent others inductionHypothesis =>
      exact inductionHypothesis (whole.attempt fun after => whole.makeDirectory)

theorem plantDirectory (path : Bytes) (mode : Mode) : (tree.plantDirectory path mode).Whole := by
  have made : (tree.attempt (tree.makeDirectory path mode)).Whole :=
    whole.attempt fun after => whole.makeDirectory
  exact made.attempt fun after => made.setMode

theorem plantFile (path content : Bytes) (mode : Mode) :
    (tree.plantFile path content mode).Whole := by
  unfold Tree.plantFile
  split
  · rename_i written done
    have kept := whole.overwrite done
    exact kept.attempt fun after => kept.setMode
  · exact whole

theorem plantLink (path target : Bytes) : (tree.plantLink path target).Whole := by
  unfold Tree.plantLink
  split
  · rename_i location resolved
    split
    · exact whole
    · have there : (Place.vacant location).At location := rfl
      have walked := walk_of_resolve (by simp) resolved
      have anchored := (Walks.of_walk walked).anchored (.root tree) there (by simp)
      obtain ⟨free, _⟩ : Place.Fits tree (.vacant location) := walk_fits walked
      exact whole.put_vacant anchored free
  · exact whole

end Tree.Whole

/-- An edit from outside leaves the tree whole, too. -/
theorem FileSystem.edit_whole {Handle : Type} {files : FileSystem Handle}
    (whole : files.tree.Whole) (edit : Edit) : (files.edit edit).tree.Whole := by
  have ready := whole.makeParents edit.path
  cases edit with
  | directory path mode => exact ready.plantDirectory path mode
  | file path content mode => exact ready.plantFile path content mode
  | link path target => exact ready.plantLink path target
  | setMode path mode => exact ready.attempt fun after => ready.setMode
  | remove path =>
      unfold FileSystem.edit
      dsimp only
      split
      · exact ready.prune _
      · exact ready

end Launcher
