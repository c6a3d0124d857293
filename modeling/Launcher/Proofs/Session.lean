/-
This file is about sessions, in which one version after the other is resolved. The cache keeps for
every version and binary what was fetched last with success.
-/

import Launcher.Proofs.Gates
import Launcher.Proofs.Resolution
import Launcher.Proofs.Tree.Level
import Mathlib.Data.List.Induction

namespace Launcher

/-! ### Locations in the cache -/

namespace Cache

/-- The names that installed binaries can have. -/
def binaries : List Name := ["deepseek", "deepseek.exe"]

/-- The location of a version is that of its directory when no link is on the way. -/
def location (home version : Bytes) : Location :=
  Path.names home ++ [(".deepseek" : Bytes), ("bin" : Bytes), version]

def binaryPath (home version : Bytes) (binary : Name) : Bytes :=
  directory home version ++ "/" ++ binary

/-- The directories of a cache are at most this deep. -/
def depth (home : Bytes) : Nat := (Path.names home).length + 3

variable {home version : Bytes} {binary : Name}

theorem names_directory (plain : Path.IsPlain version) :
    Path.names (directory home version) = location home version := by
  have shape : directory home version =
      home ++ "/" ++ (".deepseek" : Bytes) ++ "/" ++ ("bin" : Bytes) ++ "/" ++ version := by
    have first : (("/." : Bytes)) = ("/" : Bytes) ++ ("." : Bytes) := by decide
    have dotted : (("." : Bytes)) ++ Release.program = (".deepseek" : Bytes) := by decide
    have second : (("/bin/" : Bytes)) = ("/" : Bytes) ++ ("bin" : Bytes) ++ ("/" : Bytes) := by
      decide
    simp only [directory, first, second, ← dotted, List.append_assoc]
  have hidden : Path.IsPlain ((".deepseek" : Bytes)) := by decide
  have bin : Path.IsPlain (("bin" : Bytes)) := by decide
  rw [shape, Path.names_child plain, Path.names_child bin, Path.names_child hidden, location]
  simp only [List.append_assoc, List.cons_append, List.nil_append]

theorem length_location (home version : Bytes) : (location home version).length = depth home := by
  simp [location, depth]

theorem length_child (home version : Bytes) (name : Name) :
    (location home version ++ [name]).length = depth home + 1 := by
  rw [List.length_append, length_location]
  rfl

theorem location_straight (straight : Path.IsStraight (Path.names home))
    (plain : Path.IsPlain version) : Path.IsStraight (location home version) := by
  intro name among
  simp only [location, List.mem_append, List.mem_cons, List.not_mem_nil, or_false] at among
  rcases among with inHome | rfl | rfl | rfl
  · exact straight name inHome
  · exact ⟨by decide, by decide⟩
  · exact ⟨by decide, by decide⟩
  · exact ⟨plain.notHere, plain.notParent⟩

theorem binaries_plain (known : binary ∈ binaries) :
    Path.IsPlain binary ∧ 4 < binary.length := by
  simp only [binaries, List.mem_cons, List.not_mem_nil, or_false] at known
  rcases known with rfl | rfl
  · exact ⟨by decide, by decide⟩
  · exact ⟨by decide, by decide⟩

/-- A temporary file never has the name of a binary. -/
theorem temporaryName_ne (host : Platform) (processId : Int) (known : binary ∈ binaries) :
    binary ≠ host.temporaryName processId := by
  intro same
  have extension := Install.temporary_extension host.binaryName processId
  rw [← Platform.temporaryName, ← same] at extension
  have noExtension : ∀ binary ∈ binaries, ¬ (".tmp" : Bytes) <:+ binary := by decide
  exact noExtension binary known extension

/-- Two binaries at one location have the same name and the same version. -/
theorem location_inj {other : Bytes} {name : Name}
    (same : location home version ++ [binary] = location home other ++ [name]) :
    version = other ∧ binary = name := by
  obtain ⟨front, last⟩ := List.append_inj' same rfl
  have ends := (List.append_inj' front rfl).2
  simp only [List.cons.injEq, and_true, true_and] at ends last
  exact ⟨ends, last⟩

end Cache

/-! ### Sessions -/

namespace Session

/-- In a step one version is resolved for one host. The surroundings and the faults belong to the
step, everything else lasts from one step to the next. -/
structure Step where
  surroundings : Surroundings
  faults : List Fault
  version : Bytes
  host : Platform
  fetch : Fetch
  reinstall : Bool

namespace Step

def request (step : Step) : Option Resolve.Request :=
  some ⟨some step.version, some step.host, step.fetch, step.reinstall⟩

/-- The world in which the step starts. -/
def enter (step : Step) (world : World) : World :=
  { world with surroundings := step.surroundings, faults := step.faults }

/-- The world that the step leaves. -/
def leave (step : Step) (world : World) : World :=
  ((step.enter world).run (Resolve.run step.request)).2

/-- The step makes a call of a fetch, and its resolution succeeds. -/
structure Fetched (step : Step) (world : World) : Prop where
  fetches : ∃ call ∈ (step.enter world).history (Resolve.run step.request), call.OfFetch
  succeeds : ∃ path after,
    (step.enter world).run (Resolve.run step.request) = (some (.ok path), after)

/-- The step fetches the binary of the version with success. -/
structure Installs (step : Step) (world : World) (version : Bytes) (binary : Name) : Prop where
  sameVersion : step.version = version
  sameBinary : step.host.binaryName = binary
  fetched : step.Fetched world

/-- The home directory is the same in all steps, and a version is one name. A fetch that is given
writes its output when it succeeds. Whether an override is set does not matter. -/
structure Valid (home : Bytes) (step : Step) : Prop where
  atHome : step.surroundings.environment .home = some home
  plain : Path.IsPlain step.version
  sound : ∀ fault ∈ step.faults, fault.errno.number ≠ 0
  writes : step.fetch = .given → step.surroundings.fetcher.status.failed = false →
    ∃ content, step.surroundings.fetcher.content = some content

end Step

/-- A session goes from step to step. -/
def run (world : World) (steps : List Step) : World :=
  steps.foldl (fun world step => step.leave world) world

/-- The content that the last of the installing steps fetched, when there is such a step. -/
inductive Latest (start : World) (version : Bytes) (binary : Name) :
    List Step → Option Bytes → Prop
  | empty : Latest start version binary [] none
  | installed {steps : List Step} {step : Step} {content : Bytes}
      (installs : step.Installs (run start steps) version binary)
      (fetched : step.fetch.content step.surroundings = some content) :
      Latest start version binary (steps ++ [step]) (some content)
  | kept {steps : List Step} {step : Step} {stored : Option Bytes}
      (latest : Latest start version binary steps stored)
      (other : ¬ step.Installs (run start steps) version binary) :
      Latest start version binary (steps ++ [step]) stored

/-- A home directory is absolute, and each of its names stands for itself. -/
structure IsHome (home : Bytes) : Prop where
  absolute : Path.isAbsolute home = true
  straight : Path.IsStraight (Path.names home)

/-- Nothing is found under the path, or a regular file with the stored content. -/
def Holds (tree : Tree) (path : Bytes) (executable : Bool) : Option Bytes → Prop
  | none => ∃ errno, tree.find path = .error errno
  | some content => ∃ location mode, tree.find path = .ok (.taken location (.file mode content)) ∧
      (executable = true → mode &&& 0o111 = 0o111)

/-! ### One step -/

variable {home : Bytes} {step : Step} {world : World} {depth : Nat}

/-- A file that takes its place keeps the levels and the ways. -/
theorem placed_levelled {executable : Bool} {content : Bytes} {source target : Location}
    {before after : Tree} (placed : Install.Placed executable content source target before after)
    (levelled : before.Levelled depth) (below : target.length = depth + 1)
    (beside : source.length = depth + 1) : after.Levelled depth ∧ before.KeepsWays after := by
  obtain ⟨mode, held, _⟩ := placed.file
  refine ⟨?_, ?_, ?_⟩
  · intro location node found
    by_cases isTarget : location = target
    · rw [isTarget, held] at found
      cases found
      exact .inr ⟨isTarget ▸ below, mode, content, rfl⟩
    by_cases isSource : location = source
    · rw [isSource, placed.gone] at found
      cases found
    · rw [placed.elsewhere location isTarget isSource] at found
      exact levelled location node found
  · intro location kept found
    refine ⟨kept, ?_⟩
    rw [placed.elsewhere location, found]
    · rintro rfl
      exact placed.noDirectory kept found
    · rintro rfl
      exact (levelled.room beside).noDirectory kept found
  · intro location link found
    exact absurd found (levelled.noLink location link)

/-- The temporary file of a step has its place beside the binary. -/
def Step.temporary (home : Bytes) (step : Step) : Location :=
  Cache.location home step.version ++ [step.host.temporaryName step.surroundings.processId]

def Step.target (home : Bytes) (step : Step) : Location :=
  Cache.location home step.version ++ [step.host.binaryName]

/-- A step changes no file but its temporary one, or it replaces its binary as well. -/
inductive Effect (home : Bytes) (step : Step) (world : World) (after : Tree) : Prop
  | kept (failed : ¬ step.Fetched world)
      (others : ∀ location, location.length = Cache.depth home + 1 →
        location ≠ step.temporary home → after.get? location = world.files.tree.get? location)
  | replaced {content : Bytes} {mode kept : Mode} (fetched : step.Fetched world)
      (latest : step.fetch.content step.surroundings = some content)
      (fits : Path.Fits (Cache.binaryPath home step.version step.host.binaryName)
        step.host.binaryName)
      (found : after.find (Cache.directory home step.version) =
        .ok (.taken (Cache.location home step.version) (.directory kept)))
      (placed : after.get? (step.target home) = some (.file mode content))
      (bits : step.host.system ≠ .windows → mode &&& 0o111 = 0o111)
      (others : ∀ location, location.length = Cache.depth home + 1 →
        location ≠ step.target home → location ≠ step.temporary home →
          after.get? location = world.files.tree.get? location)

theorem Step.Valid.home_eq (valid : step.Valid home) (isHome : IsHome home) :
    step.surroundings.home = some home := by
  have nonempty : home ≠ [] := by
    rintro rfl
    cases isHome.absolute
  simp [Surroundings.home, Surroundings.setting, valid.atHome, Option.filter, nonempty]

theorem Step.Valid.content (valid : step.Valid home)
    (went : step.fetch = .given → step.surroundings.fetcher.status.failed = false) :
    ∃ content, step.fetch.content step.surroundings = some content := by
  cases fetch : step.fetch with
  | download => exact ⟨_, rfl⟩
  | given => exact valid.writes fetch (went fetch)

/-- The set-up of a step makes directories down to the one of the version. -/
theorem made_levelled {mode : Mode} {before made : Tree} (isHome : IsHome home)
    (valid : step.Valid home) (levelled : before.Levelled (Cache.depth home))
    (making : Tree.Made mode (Directory.beginnings (Cache.directory home step.version)) before
      made) : made.Levelled (Cache.depth home) := by
  apply levelled.of_made making
  intro beginning among
  obtain ⟨rest, shape⟩ := Directory.names_beginning among
  have straight := Cache.location_straight isHome.straight valid.plain
  have long := Cache.length_location home step.version
  rw [← Cache.names_directory valid.plain, shape] at straight long
  rw [List.length_append] at long
  exact ⟨fun name isName => straight name (List.mem_append_left rest isName), by omega⟩

/-- In levels the directory of the version is found at its location. -/
theorem found_location {tree : Tree} {parent : Location} {node : Node} (isHome : IsHome home)
    (valid : step.Valid home) (levelled : tree.Levelled depth)
    (found : tree.find (Cache.directory home step.version) = .ok (.taken parent node)) :
    parent = Cache.location home step.version := by
  have names : Path.names (Cache.directory home step.version) =
      Cache.location home step.version := Cache.names_directory valid.plain
  have straight := Cache.location_straight isHome.straight valid.plain
  rw [← names] at straight ⊢
  exact (Tree.find_straight levelled.noLink straight found).1

/-- The tree that a step leaves still has its levels and its ways, and the step has its effect. -/
structure Leaves (home : Bytes) (step : Step) (world : World) (after : Tree) : Prop where
  levelled : after.Levelled (Cache.depth home)
  ways : world.files.tree.KeepsWays after
  effect : Effect home step world after

section

variable {mode : Mode} {made after : Tree}

/-- A step that only sets the cache up changes no file. -/
theorem leaves_made (isHome : IsHome home) (valid : step.Valid home)
    (levelled : world.files.tree.Levelled (Cache.depth home))
    (making : Tree.Made mode (Directory.beginnings (Cache.directory home step.version))
      world.files.tree after) (failed : ¬ step.Fetched world) :
    Leaves home step world after := by
  have levelledAfter := made_levelled isHome valid levelled making
  exact ⟨levelledAfter, making.keepsWays,
    .kept failed fun location deep _ => levelledAfter.same_of_made making deep⟩

/-- An installation replaces the binary when it succeeds, and the set-up before it changes no
file. -/
theorem leaves_installed {parent : Location} {kept : Mode} {status : Status}
    (isHome : IsHome home) (valid : step.Valid home)
    (levelled : world.files.tree.Levelled (Cache.depth home))
    (making : Tree.Made mode (Directory.beginnings (Cache.directory home step.version))
      world.files.tree made)
    (found : made.find (Cache.directory home step.version) =
      .ok (.taken parent (.directory kept)))
    (ends : Install.Ends step.fetch step.surroundings (step.host.system ≠ .windows) false
      (Cache.binaryPath home step.version step.host.binaryName) parent
      (step.host.temporaryName step.surroundings.processId) step.host.binaryName made after status)
    (fetched_iff : step.Fetched world ↔ status.failed = false) :
    Leaves home step world after := by
  have levelledMade := made_levelled isHome valid levelled making
  have same (location : Location) (deep : location.length = Cache.depth home + 1) :
      made.get? location = world.files.tree.get? location :=
    levelledMade.same_of_made making deep
  have deep := Cache.length_child home step.version
  obtain rfl := found_location isHome valid levelledMade found
  cases ends with
  | placed fits went fetched room placed =>
      obtain ⟨levelledAfter, ways⟩ := placed_levelled placed levelledMade (deep _) (deep _)
      obtain ⟨fileMode, held, bits⟩ := placed.file
      obtain ⟨keptAfter, foundAfter⟩ := Tree.find_keep_directory ways found
      obtain ⟨content, latest⟩ := valid.content went
      rw [latest, Option.some_or] at fetched
      cases fetched
      have stepFetched := fetched_iff.mpr Status.failed_ok
      refine ⟨levelledAfter, making.keepsWays.trans ways,
        .replaced stepFetched latest fits foundAfter held (by simpa using bits) ?_⟩
      intro location below notTarget notTemporary
      rw [placed.elsewhere location notTarget notTemporary, same location below]
  | displaced given displaced =>
      obtain ⟨mode, was⟩ := displaced.was
      exact absurd was ((levelledMade.room (deep _)).noDirectory mode)
  | failed fails touched removed refused =>
      have room := touched.room (levelledMade.room (deep _))
      have notFetched : ¬ step.Fetched world := by
        intro fetched
        cases fails.symm.trans (fetched_iff.mp fetched)
      refine ⟨levelledMade.of_room (deep _) room touched.elsewhere,
        making.keepsWays.trans touched.ways, .kept notFetched ?_⟩
      intro location below notTemporary
      rw [touched.elsewhere location notTemporary, same location below]

end

/-- Whatever a step does, the log stays closed, the cache stays levelled, and no file changes but
those of the step. -/
theorem Step.leaves (isHome : IsHome home) (valid : step.Valid home)
    (closed : world.logIsOpen = false)
    (levelled : world.files.tree.Levelled (Cache.depth home)) :
    (step.leave world).logIsOpen = false ∧
      Leaves home step world (step.leave world).files.tree := by
  have known : (step.enter world).surroundings.home = some home := valid.home_eq isHome
  have place : Resolve.cachePath (step.enter world).surroundings step.request =
      Cache.directory home step.version := Resolve.cachePath_eq known
  have sound : (step.enter world).FaultsFail := valid.sound
  have entered : (step.enter world).logIsOpen = false := closed
  have yields := Resolve.yields_run false sound entered nofun step.request (by
    intro host made parent mode isHost making found
    cases isHost
    rw [place] at making found
    rw [found_location isHome valid (made_levelled isHome valid levelled making) found]
    exact levelled.room (Cache.length_child home step.version _))
  obtain ⟨outcome, after, bare, ran, alike, still, concludes⟩ := yields.run
    ((Resolve.run_inner step.request).mono fun _ => Call.IsInner.plain) entered
  have gated := Resolve.gated entered sound ran
  have left : step.leave world = after := congrArg Prod.snd ran
  rw [← congrArg FileSystem.tree alike.files] at concludes
  rw [left]
  refine ⟨still, ?_⟩
  cases concludes with
  | settled decides same =>
      have making := decides.made sound entered
      rw [place, ← same] at making
      apply leaves_made isHome valid levelled making
      exact fun fetched => gated.not_fetches decides fetched.fetches
  | installed asked decides found ends =>
      rename_i status
      cases asked
      have making := decides.made sound entered
      rw [place] at making found ends
      apply leaves_installed isHome valid levelled making found ends
      constructor
      · intro fetched
        obtain ⟨path, last, succeeded⟩ := fetched.succeeds
        rw [ran] at succeeded
        cases failed : status.failed with
        | false => rfl
        | true =>
            simp only [Resolve.answer, failed, if_true] at succeeded
            cases succeeded
      · intro went
        simp only [Resolve.answer, went, Bool.false_eq_true, if_false] at ran gated
        exact ⟨gated.fetches decides, _, _, ran⟩

/-! ### What the cache keeps -/

variable {version : Bytes} {binary : Name} {stored : Option Bytes} {tree after : Tree}

/-- The cache has no entry for the binary, or its directory is there and has the stored content. -/
def Shelved (home : Bytes) (tree : Tree) (version : Bytes) (binary : Name) :
    Option Bytes → Prop
  | none => tree.get? (Cache.location home version ++ [binary]) = none
  | some content => ∃ kept mode,
      tree.find (Cache.directory home version) =
        .ok (.taken (Cache.location home version) (.directory kept)) ∧
      Path.Fits (Cache.binaryPath home version binary) binary ∧
      tree.get? (Cache.location home version ++ [binary]) = some (.file mode content) ∧
      (binary = "deepseek" → mode &&& 0o111 = 0o111)

/-- The path of a binary finds the entry of the cache and nothing else. -/
theorem Shelved.find (shelved : Shelved home tree version binary stored) (isHome : IsHome home)
    (levelled : tree.Levelled depth) (plain : Path.IsPlain version)
    (known : binary ∈ Cache.binaries) :
    (tree.find (Cache.binaryPath home version binary)).toOption =
      (tree.get? (Cache.location home version ++ [binary])).map
        (Place.taken (Cache.location home version ++ [binary])) := by
  obtain ⟨binaryPlain, long⟩ := Cache.binaries_plain known
  cases stored with
  | some content =>
      obtain ⟨kept, mode, found, fits, held, _⟩ := shelved
      have slot := Tree.slot_of_find found binaryPlain long
      rw [Cache.binaryPath] at fits ⊢
      rw [slot.find_taken fits held (by simp), held]
      rfl
  | none =>
      have free : tree.get? (Cache.location home version ++ [binary]) = none := shelved
      have names : Path.names (Cache.binaryPath home version binary) =
          Cache.location home version ++ [binary] := by
        rw [Cache.binaryPath, Path.names_child binaryPlain, Cache.names_directory plain]
      have straight : Path.IsStraight (Cache.location home version ++ [binary]) := by
        intro name among
        rcases List.mem_append.mp among with inLocation | isBinary
        · exact Cache.location_straight isHome.straight plain name inLocation
        · rw [List.mem_singleton.mp isBinary]
          exact ⟨binaryPlain.notHere, binaryPlain.notParent⟩
      rw [free, Option.map_none]
      cases found : tree.find (Cache.binaryPath home version binary) with
      | error errno => rfl
      | ok place =>
          obtain ⟨location, node, rfl⟩ := Tree.find_noDevice
            (Device.ofPath_child binaryPlain long (Cache.directory home version)) found
          rw [← names] at straight
          obtain ⟨rfl, held⟩ := Tree.find_straight levelled.noLink straight found
          rw [names, free] at held
          cases held

theorem Shelved.holds (shelved : Shelved home tree version binary stored) (isHome : IsHome home)
    (levelled : tree.Levelled depth) (plain : Path.IsPlain version)
    (known : binary ∈ Cache.binaries) :
    Holds tree (Cache.binaryPath home version binary) (binary = "deepseek") stored := by
  have look := shelved.find isHome levelled plain known
  cases stored with
  | none =>
      have free : tree.get? (Cache.location home version ++ [binary]) = none := shelved
      rw [free, Option.map_none] at look
      cases found : tree.find (Cache.binaryPath home version binary) with
      | error errno => exact ⟨errno, found⟩
      | ok place =>
          rw [found] at look
          cases look
  | some content =>
      obtain ⟨_, mode, _, _, held, bits⟩ := shelved
      rw [held, Option.map_some] at look
      cases found : tree.find (Cache.binaryPath home version binary) with
      | error errno =>
          rw [found] at look
          cases look
      | ok place =>
          rw [found] at look
          cases look
          exact ⟨_, mode, found, by simpa using bits⟩

/-- An installing step puts the fetched content on its shelf. -/
theorem Effect.installed (effect : Effect home step world after)
    (installs : step.Installs world version binary) :
    ∃ content, step.fetch.content step.surroundings = some content ∧
      Shelved home after version binary (some content) := by
  obtain ⟨rfl, rfl, fetched⟩ := installs
  cases effect with
  | kept failed others => exact absurd fetched failed
  | replaced _ latest fits found placed bits others =>
      refine ⟨_, latest, _, _, found, fits, placed, fun usual => bits ?_⟩
      intro isWindows
      rw [Platform.binaryName, isWindows] at usual
      exact absurd usual (by decide)

/-- A step that does not install the binary leaves its entry alone. -/
theorem Effect.alone (effect : Effect home step world after)
    (other : ¬ step.Installs world version binary) (known : binary ∈ Cache.binaries) :
    after.get? (Cache.location home version ++ [binary]) =
      world.files.tree.get? (Cache.location home version ++ [binary]) := by
  have deep := Cache.length_child home version binary
  have notTemporary : Cache.location home version ++ [binary] ≠ step.temporary home := by
    intro same
    exact Cache.temporaryName_ne step.host _ known (Cache.location_inj same).2
  cases effect with
  | kept failed others => exact others _ deep notTemporary
  | replaced fetched latest fits found placed bits others =>
      refine others _ deep ?_ notTemporary
      intro same
      obtain ⟨sameVersion, sameBinary⟩ := Cache.location_inj same
      exact other ⟨sameVersion.symm, sameBinary.symm, fetched⟩

theorem Shelved.keep (shelved : Shelved home tree version binary stored)
    (ways : tree.KeepsWays after)
    (same : after.get? (Cache.location home version ++ [binary]) =
      tree.get? (Cache.location home version ++ [binary])) :
    Shelved home after version binary stored := by
  cases stored with
  | none => exact same.trans shelved
  | some content =>
      obtain ⟨_, mode, found, fits, held, bits⟩ := shelved
      obtain ⟨kept, foundAfter⟩ := Tree.find_keep_directory ways found
      exact ⟨kept, mode, foundAfter, fits, same.trans held, bits⟩

/-! ### Whole sessions -/

variable {start : World} {steps : List Step}

theorem run_append (start : World) (steps : List Step) (step : Step) :
    run start (steps ++ [step]) = step.leave (run start steps) := by
  simp only [run, List.foldl_append, List.foldl_cons, List.foldl_nil]

/-- After every step the shelf of a binary has what was fetched last. -/
theorem run_shelved (isHome : IsHome home) (empty : start.files.tree = .empty)
    (closed : start.logIsOpen = false) (valid : ∀ step ∈ steps, step.Valid home)
    (version : Bytes) {binary : Name} (known : binary ∈ Cache.binaries) :
    (run start steps).logIsOpen = false ∧
      (run start steps).files.tree.Levelled (Cache.depth home) ∧
      ∃ stored, Latest start version binary steps stored ∧
        Shelved home (run start steps).files.tree version binary stored := by
  induction steps using List.reverseRecOn with
  | nil =>
      refine ⟨closed, ?_, none, .empty, ?_⟩
      · rw [run, List.foldl_nil, empty]
        exact .empty _
      · rw [run, List.foldl_nil, empty]
        exact Tree.get?_empty (by simp)
  | append_singleton steps step inductionHypothesis =>
      obtain ⟨stillClosed, levelled, stored, latest, shelved⟩ := inductionHypothesis
        fun other among => valid other (List.mem_append_left _ among)
      have isValid := valid step (List.mem_append_right _ (List.mem_singleton_self step))
      obtain ⟨closedAfter, levelledAfter, ways, effect⟩ :=
        Step.leaves isHome isValid stillClosed levelled
      rw [run_append]
      refine ⟨closedAfter, levelledAfter, ?_⟩
      by_cases installs : step.Installs (run start steps) version binary
      · obtain ⟨content, fetched, placed⟩ := effect.installed installs
        exact ⟨some content, .installed installs fetched, placed⟩
      · exact ⟨stored, .kept latest installs, shelved.keep ways (effect.alone installs known)⟩

/-- The path of a binary holds what was fetched last for it, and a step for another version or
another binary changes nothing that is found there. -/
structure KeepsLatest (home : Bytes) (start : World) (steps : List Step) (version : Bytes)
    (binary : Name) : Prop where
  holds : ∃ stored, Latest start version binary steps stored ∧
    Holds (run start steps).files.tree (Cache.binaryPath home version binary)
      (binary = "deepseek") stored
  others : ∀ step : Step, step.Valid home →
    ¬ (step.version = version ∧ step.host.binaryName = binary) →
      ((step.leave (run start steps)).files.tree.find
          (Cache.binaryPath home version binary)).toOption =
        ((run start steps).files.tree.find (Cache.binaryPath home version binary)).toOption

/-- However a session goes, the cache keeps the latest content of every binary. -/
theorem run_keepsLatest {home : Bytes} {start : World} {steps : List Step} {version : Bytes}
    {binary : Name} (isHome : IsHome home) (empty : start.files.tree = .empty)
    (closed : start.logIsOpen = false) (valid : ∀ step ∈ steps, step.Valid home)
    (plain : Path.IsPlain version) (known : binary ∈ Cache.binaries) :
    KeepsLatest home start steps version binary := by
  obtain ⟨stillClosed, levelled, stored, latest, shelved⟩ :=
    run_shelved isHome empty closed valid version known
  refine ⟨⟨stored, latest, shelved.holds isHome levelled plain known⟩, ?_⟩
  intro step isValid another
  obtain ⟨_, levelledAfter, ways, effect⟩ := Step.leaves isHome isValid stillClosed levelled
  have same := effect.alone
    (fun installs => another ⟨installs.sameVersion, installs.sameBinary⟩) known
  rw [(shelved.keep ways same).find isHome levelledAfter plain known,
    shelved.find isHome levelled plain known, same]

/-- This step installs a version on one host. -/
def givenStep (version : Bytes) : Step where
  surroundings := Resolve.homeWorld.surroundings
  faults := []
  version := version
  host := ⟨.linux, .x86_64, "linux", "x86_64"⟩
  fetch := .given
  reinstall := true

theorem givenStep_valid {version : Bytes} (plain : Path.IsPlain version) :
    (givenStep version).Valid "/h" :=
  ⟨rfl, plain, by simp [givenStep], fun _ _ => ⟨"abc", rfl⟩⟩

/-- Two versions are installed one after the other from an empty tree. -/
theorem run_keepsLatest_givenStep :
    KeepsLatest "/h" Resolve.homeWorld [givenStep "1.0", givenStep "1.1"] "1.0" "deepseek" := by
  have first : Path.IsPlain (("1.0" : Bytes)) := by decide
  have second : Path.IsPlain (("1.1" : Bytes)) := by decide
  refine run_keepsLatest ⟨by decide, by decide⟩ rfl rfl ?_ first (by decide)
  intro step among
  simp only [List.mem_cons, List.not_mem_nil, or_false] at among
  rcases among with rfl | rfl
  · exact givenStep_valid first
  · exact givenStep_valid second

example : ((run Resolve.homeWorld [givenStep "1.0", givenStep "1.1"]).files.tree.find
    (Cache.binaryPath "/h" "1.0" "deepseek")).toOption =
      some (.taken ["h", ".deepseek", "bin", "1.0", "deepseek"] (.file 0o755 "abc")) := by
  decide +kernel

end Session

end Launcher
