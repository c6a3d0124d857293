/-
This file says how a resolution ends: with what its conditions settle, or with what an installation
in the cache directory leaves.
-/

import Launcher.Proofs.Conditions
import Launcher.Proofs.Install

namespace Launcher

theorem OperatingSystem.binaryName_plain (system : OperatingSystem) :
    Path.IsPlain system.binaryName := by
  cases system <;> decide

theorem OperatingSystem.binaryName_long (system : OperatingSystem) :
    4 < system.binaryName.length := by
  cases system <;> decide

theorem OperatingSystem.binaryName_noExtension (system : OperatingSystem) :
    ¬ (".tmp" : Bytes) <:+ system.binaryName := by
  cases system <;> decide

/-- The temporary file of an installation, by its name in the cache directory. -/
def Platform.temporaryName (host : Platform) (processId : Int) : Name :=
  Install.temporary host.binaryName processId

namespace Resolve

/-- An installation starts in a directory that the cache path leads to. -/
theorem Decides.installing {world after : World} {request : Option Request} {fetch : Fetch}
    {address path : Bytes} {executable : Bool}
    (decides : Decides world request (.install fetch address path executable) after)
    (sound : world.FaultsFail) (closed : world.logIsOpen = false) :
    ∃ version host reinstall parent mode,
      request = some ⟨some version, some host, fetch, reinstall⟩ ∧
        path = target (cachePath world.surroundings request) host ∧
        executable = (host.system ≠ .windows : Bool) ∧
        after.files.tree.find (cachePath world.surroundings request) =
          .ok (.taken parent (.directory mode)) := by
  cases decides with
  | install prepared needed allowed found =>
      rename_i version host reinstall directory second asset
      obtain ⟨⟨home, known, rfl⟩, _, parent, mode, there⟩ := prepared.tree sound closed
      refine ⟨version, host, reinstall, parent, mode, rfl, ?_⟩
      rw [cachePath_eq known, needed.files]
      exact ⟨rfl, rfl, there⟩

/-- The answer of an installation that ends with the status. -/
def answer (status : Status) (path : Bytes) : Except Status Bytes :=
  if status.failed then .error status else .ok path

/-- A resolution ends as it is settled, or as the installation ends. -/
inductive Concludes (world : World) (spared : Bool) (request : Option Request) (final : Tree) :
    Except Status Bytes → Prop
  | settled {outcome : Except Status Bytes} {after : World}
      (decides : Decides world request (.settled outcome) after)
      (same : final = after.files.tree) : Concludes world spared request final outcome
  | installed {version address : Bytes} {host : Platform} {fetch : Fetch} {reinstall : Bool}
      {after : World} {parent : Location} {mode : Mode} {status : Status}
      (asked : request = some ⟨some version, some host, fetch, reinstall⟩)
      (decides : Decides world request (.install fetch address
        (target (cachePath world.surroundings request) host) (host.system ≠ .windows)) after)
      (found : after.files.tree.find (cachePath world.surroundings request) =
        .ok (.taken parent (.directory mode)))
      (ends : Install.Ends fetch world.surroundings (host.system ≠ .windows) spared
        (target (cachePath world.surroundings request) host) parent
        (host.temporaryName world.surroundings.processId) host.binaryName after.files.tree final
        status) :
      Concludes world spared request final
        (answer status (target (cachePath world.surroundings request) host))

/-- The temporary file never has the name of the binary. -/
theorem temporaryName_ne (host : Platform) (processId : Int) :
    host.temporaryName processId ≠ host.binaryName := by
  intro same
  have extension := Install.temporary_extension host.binaryName processId
  rw [Platform.temporaryName] at same
  rw [same] at extension
  exact host.system.binaryName_noExtension extension

/-- Where there was room before the set-up, no link is after it. -/
theorem noLink_made {mode : Mode} {paths : List Bytes} {before after : Tree} {location : Location}
    (made : Tree.Made mode paths before after) (room : before.HasRoom location) (target : Bytes) :
    after.get? location ≠ some (.link target) := by
  cases held : before.get? location with
  | none =>
      rcases made.none_or_directory held with none | ⟨mode, directory⟩
      · simp [none]
      · simp [directory]
  | some node =>
      obtain ⟨mode, content, rfl⟩ := room node held
      simp [made.kept held]

/-- In each directory that the set-up can lead to there must be room for the temporary file. -/
theorem yields_run {world : World} (spared : Bool) (sound : world.FaultsFail)
    (closed : world.logIsOpen = false) (sparing : spared = true → world.Spares .unlink)
    (request : Option Request)
    (room : ∀ host made parent mode, request.bind Request.host = some host →
      Tree.Made (Mode.masked 0o755 world.surroundings.mask)
        (Directory.beginnings (cachePath world.surroundings request)) world.files.tree made →
      made.find (cachePath world.surroundings request) = .ok (.taken parent (.directory mode)) →
      world.files.tree.HasRoom (parent ++ [host.temporaryName world.surroundings.processId])) :
    world.Yields (run request) fun outcome final =>
      Concludes world spared request final.files.tree outcome := by
  rw [run_eq, World.yields_bind]
  apply (yields_decide sound closed request).descends.mono
  intro decision bare reached
  obtain ⟨⟨after, decides, alike, _⟩, descends⟩ := reached
  have files : after.files = bare.files := alike.files
  cases decision with
  | settled outcome =>
      simp only [carryOut, Program.pure_eq, World.yields_done]
      exact .settled decides (congrArg FileSystem.tree files.symm)
  | install fetch address path executable =>
      obtain ⟨version, host, reinstall, parent, mode, asked, rfl, rfl, found⟩ :=
        decides.installing sound closed
      have made := decides.made sound closed
      have noLink := noLink_made made (room host _ parent mode (by rw [asked]; rfl) made found)
      have plain := host.system.binaryName_plain
      have long := host.system.binaryName_long
      have longer := Install.temporary_long host.binaryName world.surroundings.processId
      have source := Tree.slot_of_find found
        (Install.temporary_plain plain world.surroundings.processId) (by
          show 4 < (Install.temporary host.binaryName world.surroundings.processId).length
          omega)
      rw [← Install.temporary_child] at source
      have destination := Tree.slot_of_find found plain long
      have number : bare.surroundings.processId = world.surroundings.processId := by
        rw [descends.surroundings]
      rw [files, ← number] at source
      rw [files] at destination
      rw [files, ← number] at noLink
      simp only [carryOut, World.yields_bind]
      refine (Install.yields_run (descends.faultsFail sound)
        (fun isSpared => descends.spares (sparing isSpared)) source noLink destination
        (temporaryName_ne host _) fetch).mono ?_
      intro status final ends
      rw [number, descends.surroundings, ← files] at ends
      have concluded : Concludes world spared request final.files.tree _ :=
        .installed asked decides found ends
      unfold answer at concluded
      cases failed : status.failed with
      | true =>
          simp only [failed, if_true] at concluded
          simp only [if_true, Program.pure_eq, World.yields_done]
          exact concluded
      | false =>
          simp only [failed, Bool.false_eq_true, if_false] at concluded
          simp only [Bool.false_eq_true, if_false, World.yields_bind, World.yields_note,
            Program.pure_eq, World.yields_done]
          exact concluded

end Resolve

end Launcher
