/-
This file says that a resolution is atomic. A failure leaves every entry of the tree as it was, and
a success replaces the binary as a whole or changes no entry at all.
-/

import Launcher.Proofs.Resolution

namespace Launcher

namespace Tree

/-- A directory that was made at the location may have another mode since, and every other entry is as
it was made. -/
structure Remoded (location : Location) (before made after : Tree) : Prop where
  new : before.get? location = none
  was : ∃ mode, made.get? location = some (.directory mode)
  remains : ∃ mode, after.get? location = some (.directory mode)
  elsewhere : ∀ other, other ≠ location → after.get? other = made.get? other

/-- A regular file with the content is at the location, where no directory was, and every other
entry is as it was. -/
structure Replaced (executable : Bool) (content : Bytes) (location : Location)
    (before after : Tree) : Prop where
  file : ∃ mode, after.get? location = some (.file mode content) ∧
    (executable = true → mode &&& 0o111 = 0o111)
  elsewhere : ∀ other, other ≠ location → after.get? other = before.get? other
  noDirectory : ∀ mode, before.get? location ≠ some (.directory mode)

end Tree

namespace Resolve

/-- A caller keeps the path that it had unless there is a new one. -/
def pathAfter (previous : Bytes) : Except Status Bytes → Bytes
  | .ok path => path
  | .error _ => previous

/-- This is what a resolution may leave in the tree. When it fails, directories were made and nothing
else was done. When it succeeds, at most the binary was replaced as well. Only a fetch that is given
meets a directory that the set-up made in the place of the temporary file. A failure may then leave
this directory with another mode, and a success may move it into the place of the binary. -/
def Leaves (world : World) (request : Option Request) (outcome : Except Status Bytes)
    (after : Tree) : Prop :=
  let directory := cachePath world.surroundings request
  ∃ made, Tree.Made (Mode.masked 0o755 world.surroundings.mask) (Directory.beginnings directory)
      world.files.tree made ∧
    match outcome with
    | .error status => status.failed = true ∧
        (∀ previous, pathAfter previous outcome = previous) ∧
        (after = made ∨ ∃ version host reinstall parent mode,
          request = some ⟨some version, some host, .given, reinstall⟩ ∧
          made.find directory = .ok (.taken parent (.directory mode)) ∧
          Tree.Remoded (parent ++ [host.temporaryName world.surroundings.processId])
            world.files.tree made after)
    | .ok path => after = made ∨ ∃ version host fetch reinstall parent mode,
        request = some ⟨some version, some host, fetch, reinstall⟩ ∧
        path = target directory host ∧
        made.find directory = .ok (.taken parent (.directory mode)) ∧
        ((∃ content, fetch.content world.surroundings = some content ∧
          Tree.Replaced (host.system ≠ .windows) content (parent ++ [host.binaryName]) made
            after) ∨
        (fetch = .given ∧ Install.Displaced
          (parent ++ [host.temporaryName world.surroundings.processId])
          (parent ++ [host.binaryName]) made after))

section

variable {world : World} {request : Option Request} {status : Status} {after : Tree}
  {location : Location} {node : Node}

/-- After a failure every entry that was there is as it was. -/
theorem Leaves.kept (leaves : Leaves world request (.error status) after)
    (found : world.files.tree.get? location = some node) : after.get? location = some node := by
  obtain ⟨made, making, _, _, rfl | ⟨_, host, _, parent, _, _, _, remoded⟩⟩ := leaves
  · exact making.kept found
  · have apart : location ≠ parent ++ [host.temporaryName world.surroundings.processId] := by
      rintro rfl
      cases found.symm.trans remoded.new
    rw [remoded.elsewhere location apart, making.kept found]

/-- After a failure only directories are new. -/
theorem Leaves.added (leaves : Leaves world request (.error status) after)
    (free : world.files.tree.get? location = none) (found : after.get? location = some node) :
    node.isDirectory = true := by
  obtain ⟨made, making, _, _, same⟩ := leaves
  have isDirectory (held : made.get? location = some node) : node.isDirectory = true := by
    rcases making.none_or_directory free with none | ⟨mode, directory⟩
    · cases held.symm.trans none
    · cases held.symm.trans directory
      rfl
  rcases same with rfl | ⟨_, host, _, parent, _, _, _, remoded⟩
  · exact isDirectory found
  by_cases place : location = parent ++ [host.temporaryName world.surroundings.processId]
  · subst place
    obtain ⟨mode, directory⟩ := remoded.remains
    cases found.symm.trans directory
    rfl
  · exact isDirectory ((remoded.elsewhere location place).symm.trans found)

end

/-- A resolution always ends, and in a tree that has no temporary file it is atomic. -/
theorem run_atomic {world : World} (closed : world.logIsOpen = false) (sound : world.FaultsFail)
    (spared : world.Spares .unlink) (request : Option Request)
    (fresh : ∀ host, request.bind Request.host = some host → ∀ parent, world.files.tree.get?
      (parent ++ [host.temporaryName world.surroundings.processId]) = none) :
    ∃ outcome after, world.run (run request) = (some outcome, after) ∧
      Leaves world request outcome after.files.tree := by
  obtain ⟨outcome, after, bare, ran, alike, _, concludes⟩ :=
    (yields_run true sound closed (fun _ => spared) request
      fun host _ parent _ isHost _ _ => .of_none (fresh host isHost parent)).run
      ((run_inner request).mono fun _ => Call.IsInner.plain) closed
  refine ⟨outcome, after, ran, ?_⟩
  rw [← congrArg FileSystem.tree alike.files] at concludes
  unfold Leaves
  cases concludes with
  | settled decides same =>
      have made := decides.made sound closed
      rw [← same] at made
      cases outcome with
      | error status => exact ⟨_, made, decides.failed, fun _ => rfl, .inl rfl⟩
      | ok path => exact ⟨_, made, .inl rfl⟩
  | installed asked decides found ends =>
      rename_i version address host fetch reinstall middle parent mode status
      have made := decides.made sound closed
      have free := fresh host (by rw [asked]; rfl) parent
      cases ends with
      | placed fits went fetched room placed =>
          rename_i content
          have none : middle.files.tree.get?
              (parent ++ [host.temporaryName world.surroundings.processId]) = none := by
            rcases made.none_or_directory free with none | ⟨mode, directory⟩
            · exact none
            · exact absurd directory (room.noDirectory mode)
          have unread : middle.files.tree.content?
              (parent ++ [host.temporaryName world.surroundings.processId]) = Option.none := by
            rw [Tree.content?, none]
          rw [unread, Option.or_none] at fetched
          simp only [answer, Status.failed_ok, Bool.false_eq_true, if_false]
          refine ⟨_, made, .inr ⟨version, host, fetch, reinstall, parent, mode, asked, rfl, found,
            .inl ⟨content, fetched, placed.file, ?_, placed.noDirectory⟩⟩⟩
          intro other notTarget
          by_cases same : other = parent ++ [host.temporaryName world.surroundings.processId]
          · rw [same, placed.gone, none]
          · exact placed.elsewhere other notTarget same
      | displaced given displaced =>
          simp only [answer, Status.failed_ok, Bool.false_eq_true, if_false]
          exact ⟨_, made, .inr ⟨version, host, fetch, reinstall, parent, mode, asked, rfl, found,
            .inr ⟨given, displaced⟩⟩⟩
      | failed fails touched removed refused =>
          simp only [answer, fails, if_true, true_and]
          refine ⟨_, made, fun _ => rfl, ?_⟩
          rcases made.none_or_directory free with none | ⟨old, directory⟩
          · refine .inl (Tree.ext fun location => ?_)
            by_cases same : location = parent ++ [host.temporaryName world.surroundings.processId]
            · rw [same, removed rfl none, none]
            · exact touched.elsewhere location same
          · cases fetch with
            | download => exact .inl (refused rfl fun room => room.noDirectory old directory)
            | given =>
                exact .inr ⟨version, host, reinstall, parent, mode, asked, found, free,
                  ⟨old, directory⟩, touched.ways.directory _ _ directory, touched.elsewhere⟩

/-! ### Runs on fixed requests -/

theorem homeWorld_fresh {name : Name} (parent : Location) :
    homeWorld.files.tree.get? (parent ++ [name]) = none :=
  Tree.get?_empty (by simp)

/-- A version of one name is installed from an empty tree. -/
theorem run_atomic_homeWorld :
    ∃ outcome after, homeWorld.run (run (givenRequest "1.0")) = (some outcome, after) ∧
      Leaves homeWorld (givenRequest "1.0") outcome after.files.tree :=
  run_atomic rfl (by simp [World.FaultsFail, homeWorld]) (by simp [World.Spares, homeWorld])
    (givenRequest "1.0") fun _ _ parent => homeWorld_fresh parent

/-- The set-up makes a directory in the place of the temporary file here, and the resolution
succeeds although no file is anywhere in the tree afterwards. -/
theorem run_installs_directory :
    let request := givenRequest "deepseek.4242.tmp/.."
    homeWorld.logIsOpen = false ∧ homeWorld.FaultsFail ∧ homeWorld.Spares .unlink ∧
      (∀ host, request.bind Request.host = some host → ∀ parent, homeWorld.files.tree.get?
        (parent ++ [host.temporaryName homeWorld.surroundings.processId]) = none) ∧
      ∃ path after, homeWorld.run (run request) = (some (.ok path), after) ∧
        after.files.tree.get? ["h", ".deepseek", "bin", "deepseek"] = some (.directory 0o755) ∧
        ¬ ∃ made, Tree.Made (Mode.masked 0o755 homeWorld.surroundings.mask)
            (Directory.beginnings (cachePath homeWorld.surroundings request))
            homeWorld.files.tree made ∧
          (after.files.tree = made ∨ ∃ location mode content,
            after.files.tree.get? location = some (.file mode content)) := by
  intro request
  refine ⟨rfl, by simp [World.FaultsFail, homeWorld], by simp [World.Spares, homeWorld],
    fun _ _ parent => homeWorld_fresh parent, ?_⟩
  have went : ((homeWorld.run (run request)).1.bind Except.toOption).isSome = true := by
    decide +kernel
  have there : (homeWorld.run (run request)).2.files.tree.get?
      ["h", ".deepseek", "bin", "deepseek"] = some (.directory 0o755) := by
    decide +kernel
  have noFile : (homeWorld.run (run request)).2.files.tree.entries.toList.all
      (fun entry => entry.2.isDirectory) = true := by
    decide +kernel
  rcases ran : homeWorld.run (run request) with ⟨_ | status | path, after⟩
  · rw [ran] at went
    cases went
  · rw [ran] at went
    cases went
  rw [ran] at there noFile
  refine ⟨path, after, rfl, there, ?_⟩
  intro reached
  obtain ⟨made, making, rfl | ⟨location, mode, content, found⟩⟩ := reached
  · have grown : Tree.Grown (Path.names (cachePath homeWorld.surroundings request))
        homeWorld.files.tree after.files.tree := by
      apply making.grown
      intro beginning among name isName
      obtain ⟨rest, shape⟩ := Directory.names_beginning among
      rw [shape]
      exact List.mem_append_left rest isName
    have other : (("deepseek" : Bytes)) ∉
        Path.names (cachePath homeWorld.surroundings request) := by decide +kernel
    have same := (grown.same_of_notMem other).trans (homeWorld_fresh ["h", ".deepseek", "bin"])
    cases same.symm.trans there
  · have among := Std.ExtTreeMap.mem_toList_iff_getElem?_eq_some.mpr found
    have isDirectory := List.all_eq_true.mp noFile _ among
    cases isDirectory

end Resolve

end Launcher
