/-
This file is about directories that are made together with those on the way.
-/

import Launcher.Directory
import Launcher.Proofs.Run.Call
import Launcher.Proofs.Status
import Launcher.Proofs.Tree.Growth

namespace Launcher

/-- A beginning of a path is not empty, and a slash or nothing follows. -/
structure Path.IsBeginning (front path : Bytes) : Prop where
  nonempty : front ≠ []
  follows : ∃ rest, path = front ++ rest ∧ (rest = [] ∨ rest.head? = some Bytes.slash)

theorem Path.IsBeginning.names {front path : Bytes} (begins : Path.IsBeginning front path) :
    ∃ more, Path.names path = Path.names front ++ more := by
  obtain ⟨rest, rfl, ends⟩ := begins.follows
  rcases ends with rfl | slash
  · exact ⟨[], by simp⟩
  · obtain ⟨more, rfl⟩ := List.head?_eq_some_iff.mp slash
    exact ⟨Path.names more, Bytes.fields_append_separator Bytes.slash front more⟩

namespace Directory

theorem mem_beginnings {path front : Bytes} (among : front ∈ beginnings path) :
    Path.IsBeginning front path := by
  simp only [beginnings, List.mem_filterMap, Option.ite_none_right_eq_some,
    Option.some.injEq] at among
  obtain ⟨length, within, ends, rfl⟩ := among
  obtain ⟨least, most⟩ := List.mem_range'_1.mp within
  refine ⟨?_, path.drop length, (List.take_append_drop length path).symm, ?_⟩
  · rw [← List.length_pos_iff, List.length_take]
    omega
  · rcases ends with rfl | slash
    · exact .inl List.drop_length
    · exact .inr (by rw [List.head?_drop, slash])

/-- A beginning of a path has the first names of the path. -/
theorem names_beginning {path beginning : Bytes} (among : beginning ∈ beginnings path) :
    ∃ rest, Path.names path = Path.names beginning ++ rest :=
  (mem_beginnings among).names

variable {world : World} {path : Bytes}

/-- The directories that are made belong to the paths, and only a refusal stops the making. -/
theorem yields_makeAll (sound : world.FaultsFail) {paths all : List Bytes} (subset : paths ⊆ all) :
    world.Yields (makeAll paths) fun stopped after =>
      Tree.Made (Mode.masked 0o755 world.surroundings.mask) all world.files.tree after.files.tree ∧
        after.files.streams = world.files.streams ∧
        ∀ status, stopped = some status → status.failed = true := by
  induction paths generalizing world with
  | nil => simp [makeAll, Tree.Made.refl]
  | cons path others inductionHypothesis =>
      have rest : others ⊆ all := fun _ among => subset (List.mem_cons_of_mem path among)
      simp only [makeAll, World.yields_bind]
      apply World.Yields.makeDirectory sound
      · intro tree after made descends files
        apply (inductionHypothesis (descends.faultsFail sound) rest).mono
        intro stopped final reached
        obtain ⟨more, streams, fails⟩ := reached
        rw [descends.surroundings, files] at more
        rw [files] at streams
        exact ⟨.step (subset (by simp)) made more, streams, fails⟩
      · intro errno after fails descends files
        dsimp only
        split
        · have yields := inductionHypothesis (descends.faultsFail sound) rest
          rw [descends.surroundings, files] at yields
          exact yields
        · simp only [World.yields_bind, World.yields_note, Program.pure_eq, World.yields_done,
            Option.some.injEq, files, true_and]
          exact ⟨.refl _, fun status word => word ▸ Status.failed_ofErrno fails⟩

theorem find_of_inspect {tree : Tree} {path : Bytes} {attributes : Attributes}
    (found : tree.inspect path = .ok attributes) (directory : attributes.isDirectory = true) :
    ∃ location mode, tree.find path = .ok (.taken location (.directory mode)) := by
  unfold Tree.inspect at found
  cases seen : tree.find path with
  | error errno =>
      rw [seen] at found
      cases found
  | ok place =>
      rw [seen] at found
      cases found
      cases place with
      | vacant location => cases directory
      | device device => cases directory
      | taken location node =>
          cases node with
          | directory mode => exact ⟨location, mode, rfl⟩
          | file mode content => cases directory
          | link target => cases directory

/-- The last look at a path decides whether a directory is there. -/
theorem yields_look (sound : world.FaultsFail) (path : Bytes) :
    world.Yields (Program.inspect path) fun found after =>
      after.files = world.files ∧ ((check found).failed = true ∨ check found = .ok ∧
        ∃ location mode, world.files.tree.find path = .ok (.taken location (.directory mode))) := by
  apply World.Yields.inspect sound
  · intro attributes after seen _ files
    refine ⟨files, ?_⟩
    cases directory : attributes.isDirectory with
    | true => exact .inr ⟨by simp [check, directory], find_of_inspect seen directory⟩
    | false => exact .inl (by simp [check, directory])
  · intro errno after fails _ files
    exact ⟨files, .inl (Status.failed_ofErrno fails)⟩

/-- A directory that is ensured is found afterwards. Whatever happens, the tree only grows by
directories on the way. -/
theorem yields_ensure (sound : world.FaultsFail) (path : Bytes) :
    world.Yields (ensure (some path)) fun status after =>
      Tree.Made (Mode.masked 0o755 world.surroundings.mask) (beginnings path) world.files.tree
          after.files.tree ∧
        after.files.streams = world.files.streams ∧
        (status.failed = true ∨ status = .ok ∧ ∃ location mode,
          after.files.tree.find path = .ok (.taken location (.directory mode))) := by
  simp only [ensure]
  split
  · simp [Tree.Made.refl]
  simp only [World.yields_bind]
  apply (yields_look sound path).descends.mono
  intro found after reached
  obtain ⟨⟨files, verdict⟩, descends⟩ := reached
  cases found with
  | ok attributes =>
      simp only [Program.pure_eq, World.yields_done, files, true_and]
      exact ⟨.refl _, verdict⟩
  | error errno =>
      simp only [World.yields_bind]
      have making := yields_makeAll (descends.faultsFail sound) (List.Subset.refl (beginnings path))
      rw [files, descends.surroundings] at making
      apply making.descends.mono
      intro stopped final reached
      obtain ⟨⟨made, streams, fails⟩, later⟩ := reached
      cases stopped with
      | some status =>
          simp only [Program.pure_eq, World.yields_done]
          exact ⟨made, streams, .inl (fails status rfl)⟩
      | none =>
          simp only [World.yields_bind, Program.pure_eq, World.yields_done]
          apply (yields_look ((later.trans descends).faultsFail sound) path).mono
          intro found last reached
          obtain ⟨same, verdict⟩ := reached
          rw [same]
          exact ⟨made, streams, verdict⟩

end Directory

end Launcher
