/-
This file says that a resolution that succeeds is remembered. Later resolutions of the version find
the binary without a fetch, unless the installation took away its own way to the cache directory.
-/

import Launcher.Proofs.Atomicity
import Launcher.Proofs.Gates

namespace Launcher

namespace World

variable {world : World} {path : Bytes}

/-- What can be accessed is found. -/
theorem found_of_access {after : World}
    (accessed : world.answerFile (.access path) = (.ok (), after)) :
    ∃ place, world.files.tree.find path = .ok place := by
  rw [answerFile_eq] at accessed
  split at accessed
  · have reply := congrArg Prod.fst accessed
    simp only [FileSystem.answer, Tree.inspect] at reply
    cases found : world.files.tree.find path with
    | error errno =>
        rw [found] at reply
        cases reply
    | ok place => exact ⟨place, rfl⟩
  · cases congrArg Prod.fst accessed

end World

namespace Resolve

variable {world later : World} {home version path : Bytes} {host : Platform} {fetch : Fetch}

/-- The cache has a binary of the version: its directory is there, and the binary is found in
it. -/
structure Cached (tree : Tree) (home version : Bytes) (binary : Name) : Prop where
  named : version ≠ []
  directory : ∃ parent mode,
    tree.find (Cache.directory home version) = .ok (.taken parent (.directory mode))
  binary : ∃ place, tree.find (Cache.directory home version ++ "/" ++ binary) = .ok place

/-- A cached binary is decided for in a world without faults, and nothing changes. -/
theorem Cached.decided (cached : Cached later.files.tree home version host.binaryName)
    (calm : later.faults = []) (noOverride : later.surroundings.setting .overridePath = none)
    (known : later.surroundings.home = some home) (fetch : Fetch) :
    later.Yields (decide (some ⟨some version, some host, fetch, false⟩)) fun decision after =>
      decision = .settled (.ok (target (Cache.directory home version) host)) ∧
        after = later := by
  obtain ⟨parent, mode, found⟩ := cached.directory
  obtain ⟨place, there⟩ := cached.binary
  have inspected : later.files.tree.inspect (Cache.directory home version) =
      .ok ⟨true, mode⟩ := by
    rw [Tree.inspect, found]
    rfl
  have nonempty : Cache.directory home version ≠ [] := by
    simp [Cache.directory, cached.named]
  have accessed : later.answerFile (.access (target (Cache.directory home version) host)) =
      (.ok (), later) := by
    rw [World.answerFile_calm calm]
    simp only [FileSystem.answer, Tree.inspect, target, there]
    rfl
  simp only [decide, World.yields_bind]
  apply yields_overridePath.mono
  intro override first reached
  rcases reached with ⟨rfl, passed⟩ | ⟨path, rfl, named, _⟩
  · have same : first = later := by
      unfold PassesOverride at passed
      rw [noOverride] at passed
      exact passed
    subst same
    simp only [Cache.setUp, if_neg cached.named, World.yields_bind, World.yields_home, known,
      Directory.ensure, if_neg nonempty, World.yields_inspect_calm calm, inspected,
      Program.pure_eq, World.yields_done, Directory.check, if_true, Status.failed_ok,
      Bool.false_eq_true, if_false, World.yields_keepCacheDirectory, decideCached,
      World.yields_isThere]
    intro reply after asked
    cases accessed.symm.trans asked
    simp only [World.yields_bind, World.yields_note, World.yields_done, if_true]
    exact ⟨trivial, trivial⟩
  · rw [noOverride] at named
    cases named

/-- In a later world the binary is found again: the answer is the same path, nothing is fetched, and
the files stay as they are. -/
def Recalls (later : World) (request : Option Request) (path : Bytes) : Prop :=
  ∃ last, later.run (run request) = (some (.ok path), last) ∧ last.files = later.files ∧
    last.transcript.events = later.transcript.events ∧
    ∀ call ∈ later.history (run request), ¬ call.OfFetch

theorem Cached.recalls (cached : Cached later.files.tree home version host.binaryName)
    (closed : later.logIsOpen = false) (calm : later.faults = [])
    (noOverride : later.surroundings.setting .overridePath = none)
    (known : later.surroundings.home = some home) (fetch : Fetch) :
    Recalls later (some ⟨some version, some host, fetch, false⟩)
      (target (Cache.directory home version) host) := by
  obtain ⟨decision, last, bare, ran, alike, _, rfl, rfl⟩ :=
    (cached.decided calm noOverride known fetch).run
      ((decide_local _).mono fun _ => Call.IsLocal.plain) closed
  have split := World.history_bind ran carryOut
  rw [← run_eq, carryOut, Program.pure_eq, World.history_done, List.append_nil] at split
  have beside := history_decide bare (some ⟨some version, some host, fetch, false⟩)
  rw [← split] at beside
  refine ⟨last, ?_, alike.files, alike.events, fun call among => (beside call among).2⟩
  rw [run_eq, World.run_bind, ran]
  rfl

/-- Every later resolution of the version recalls the path, for a host with the same name of the
binary and in any world that has the tree, the home directory, and neither faults nor an
override. -/
def Remembered (home : Option Bytes) (version : Bytes) (host : Platform) (path : Bytes)
    (tree : Tree) : Prop :=
  ∀ later : World, later.files.tree = tree → later.logIsOpen = false → later.faults = [] →
    later.surroundings.setting .overridePath = none → later.surroundings.home = home →
    ∀ (other : Platform) (fetch : Fetch), other.binaryName = host.binaryName →
      Recalls later (some ⟨some version, some other, fetch, false⟩) path

theorem Cached.remembered {tree : Tree} (cached : Cached tree home version host.binaryName) :
    Remembered (some home) version host (target (Cache.directory home version) host) tree := by
  intro later same closed calm noOverride known other fetch sameName
  subst same
  rw [← sameName] at cached
  have samePath : target (Cache.directory home version) other =
      target (Cache.directory home version) host := by
    rw [target, target, sameName]
  rw [← samePath]
  exact cached.recalls closed calm noOverride known fetch

/-! ### What a success leaves -/

/-- What came into the place of the target is a file, so the ways that avoid that place are kept. -/
theorem keepsWays_placed {executable : Bool} {content : Bytes} {source destination : Location}
    {before after : Tree}
    (placed : Install.Placed executable content source destination before after)
    (room : before.HasRoom source) (nonRoot : destination ≠ []) :
    (before.erase destination).KeepsWays after := by
  have look (other : Location) := before.get?_erase destination other nonRoot
  constructor
  · intro location mode found
    rw [look] at found
    split at found
    · cases found
    rename_i notTarget
    have notSource : location ≠ source := by
      rintro rfl
      exact room.noDirectory mode found
    exact ⟨mode, (placed.elsewhere location notTarget notSource).trans found⟩
  · intro location target found
    rw [look] at found
    split at found
    · cases found
    rename_i notTarget
    have notSource : location ≠ source := by
      rintro rfl
      exact room.noLink target found
    exact (placed.elsewhere location notTarget notSource).trans found

/-- An installation takes away its own way when it replaces a link that the way to the directory
goes through, or when it moves a directory that the set-up made in the place of the temporary
file. -/
inductive Undermines (made after : Tree) (directory : Bytes) (parent : Location)
    (binary temporary : Name) (fetch : Fetch) : Prop
  | link {executable : Bool} {target content : Bytes}
      (link : made.get? (parent ++ [binary]) = some (.link target))
      (needed : ∀ mode, (made.erase (parent ++ [binary])).find directory ≠
        .ok (.taken parent (.directory mode)))
      (placed : Install.Placed executable content (parent ++ [temporary]) (parent ++ [binary])
        made after)
  | directory (given : fetch = .given)
      (displaced : Install.Displaced (parent ++ [temporary]) (parent ++ [binary]) made after)

/-- A file that was placed is found, unless a link on the way to it was replaced. -/
theorem cached_placed {made after : Tree} {parent : Location} {mode : Mode} {executable : Bool}
    {content : Bytes} {temporary : Name} (named : version ≠ [])
    (found : made.find (Cache.directory home version) = .ok (.taken parent (.directory mode)))
    (fits : Path.Fits (target (Cache.directory home version) host) host.binaryName)
    (room : made.HasRoom (parent ++ [temporary]))
    (placed : Install.Placed executable content (parent ++ [temporary])
      (parent ++ [host.binaryName]) made after) :
    Cached after home version host.binaryName ∨
      Undermines made after (Cache.directory home version) parent host.binaryName temporary
        fetch := by
  have nonRoot : parent ++ [host.binaryName] ≠ [] := by simp
  have ways := keepsWays_placed placed room nonRoot
  by_cases still : ∃ mode, (made.erase (parent ++ [host.binaryName])).find
      (Cache.directory home version) = .ok (.taken parent (.directory mode))
  · obtain ⟨kept, still⟩ := still
    obtain ⟨last, foundAfter⟩ := Tree.find_keep_directory ways still
    obtain ⟨fileMode, held, _⟩ := placed.file
    have slot := Tree.slot_of_find foundAfter host.system.binaryName_plain
      host.system.binaryName_long
    exact .inl ⟨named, ⟨parent, last, foundAfter⟩, _, slot.find_taken fits held (by simp)⟩
  · have needed := not_exists.mp still
    by_cases isLink : ∃ target, made.get? (parent ++ [host.binaryName]) = some (.link target)
    · obtain ⟨target, link⟩ := isLink
      exact .inr (.link link needed placed)
    · -- Without a link there, nothing that the way needs was erased.
      rcases Tree.HasRoom.or_directory (not_exists.mp isLink) with free | ⟨mode, directory⟩
      · obtain ⟨kept, there⟩ :=
          Tree.find_keep_directory (Tree.Touched.erase free nonRoot).ways found
        exact absurd there (needed kept)
      · exact absurd directory (placed.noDirectory mode)

theorem Decides.known {after : World} {reinstall executable : Bool} {address path : Bytes}
    (decides : Decides world (some ⟨some version, some host, fetch, reinstall⟩)
      (.install fetch address path executable) after) :
    version ≠ [] ∧ ∃ home, world.surroundings.home = some home := by
  cases decides with
  | install prepared needed allowed found =>
      obtain ⟨home, first, status, passed, known, _⟩ := prepared.ensured
      exact ⟨prepared.named, home, known⟩

/-- A success is remembered, unless its installation undermines itself. -/
theorem run_remembered {world after : World} {request : Option Request} {path : Bytes}
    (closed : world.logIsOpen = false) (sound : world.FaultsFail)
    (noOverride : world.surroundings.setting .overridePath = none)
    (fresh : ∀ host, request.bind Request.host = some host → ∀ parent, world.files.tree.get?
      (parent ++ [host.temporaryName world.surroundings.processId]) = none)
    (ran : world.run (run request) = (some (.ok path), after)) :
    ∃ version host fetch reinstall, request = some ⟨some version, some host, fetch, reinstall⟩ ∧
      (Remembered world.surroundings.home version host path after.files.tree ∨
        ∃ made parent mode, Tree.Made (Mode.masked 0o755 world.surroundings.mask)
            (Directory.beginnings (cachePath world.surroundings request)) world.files.tree made ∧
          made.find (cachePath world.surroundings request) =
            .ok (.taken parent (.directory mode)) ∧
          Undermines made after.files.tree (cachePath world.surroundings request) parent
            host.binaryName (host.temporaryName world.surroundings.processId) fetch) := by
  obtain ⟨outcome, last, bare, ended, alike, _, concludes⟩ :=
    (yields_run false sound closed nofun request
      fun host _ parent _ isHost _ _ => .of_none (fresh host isHost parent)).run
      ((run_inner request).mono fun _ => Call.IsInner.plain) closed
  cases ran.symm.trans ended
  rw [← congrArg FileSystem.tree alike.files] at concludes
  generalize answered : Except.ok path = outcome at concludes
  cases concludes with
  | settled decides same =>
      subst answered
      cases decides with
      | override named there =>
          rw [noOverride] at named
          cases named
      | cached prepared there =>
          obtain ⟨⟨home, known, rfl⟩, _, found⟩ := prepared.tree sound closed
          have binary := World.found_of_access there
          rw [World.accessed_files there] at same
          rw [← same] at found binary
          rw [known]
          have cached : Cached after.files.tree home _ _ := ⟨prepared.named, found, binary⟩
          exact ⟨_, _, _, _, rfl, .inl cached.remembered⟩
  | installed asked decides found ends =>
      rename_i version address host fetch reinstall made parent mode status
      subst asked
      have making := decides.made sound closed
      obtain ⟨named, home, known⟩ := decides.known
      have place : cachePath world.surroundings (some ⟨some version, some host, fetch, reinstall⟩) =
          Cache.directory home version := cachePath_eq known
      rw [place] at answered making found ends ⊢
      have went : status.failed = false := by
        cases failed : status.failed with
        | false => rfl
        | true =>
            simp only [answer, failed, if_true] at answered
            cases answered
      have same : path = target (Cache.directory home version) host := by
        simpa only [answer, went, Bool.false_eq_true, if_false, Except.ok.injEq] using answered
      refine ⟨version, host, fetch, reinstall, rfl, ?_⟩
      rw [same, known]
      cases ends with
      | placed fits fetches content room placed =>
          rcases cached_placed named found fits room placed with cached | undermines
          · exact .inl cached.remembered
          · exact .inr ⟨made.files.tree, parent, mode, making, found, undermines⟩
      | displaced given displaced =>
          exact .inr ⟨made.files.tree, parent, mode, making, found, .directory given displaced⟩
      | failed fails touched removed refused => cases went.symm.trans fails

/-- A run whose answer is a path succeeds. -/
theorem run_of_isSome {request : Option Request}
    (went : ((world.run (run request)).1.bind Except.toOption).isSome = true) :
    ∃ path, world.run (run request) = (some (.ok path), (world.run (run request)).2) := by
  obtain ⟨path, reply⟩ := Option.isSome_iff_exists.mp went
  obtain ⟨answer, ended, isPath⟩ := Option.bind_eq_some_iff.mp reply
  cases answer with
  | error status => cases isPath
  | ok found => exact ⟨found, Prod.ext ended rfl⟩

/-- A version of one name is remembered once it was installed in an empty tree. -/
theorem run_remembered_homeWorld :
    ∃ path after, homeWorld.run (run (givenRequest "1.0")) = (some (.ok path), after) ∧
      ∃ version host fetch reinstall,
        givenRequest "1.0" = some ⟨some version, some host, fetch, reinstall⟩ ∧
        (Remembered homeWorld.surroundings.home version host path after.files.tree ∨
          ∃ made parent mode, Tree.Made (Mode.masked 0o755 homeWorld.surroundings.mask)
              (Directory.beginnings (cachePath homeWorld.surroundings (givenRequest "1.0")))
              homeWorld.files.tree made ∧
            made.find (cachePath homeWorld.surroundings (givenRequest "1.0")) =
              .ok (.taken parent (.directory mode)) ∧
            Undermines made after.files.tree
              (cachePath homeWorld.surroundings (givenRequest "1.0")) parent host.binaryName
              (host.temporaryName homeWorld.surroundings.processId) fetch) := by
  have went : ((homeWorld.run (run (givenRequest "1.0"))).1.bind Except.toOption).isSome = true := by
    decide +kernel
  obtain ⟨path, ran⟩ := run_of_isSome went
  exact ⟨path, _, ran, run_remembered rfl (by simp [World.FaultsFail, homeWorld]) (by decide)
    (fun _ _ parent => homeWorld_fresh parent) ran⟩

/-! ### Ways that are taken away -/

/-- A success that is not remembered, although there was no temporary file. -/
def Forgets (world : World) (version : Bytes) (host : Platform) (fetch : Fetch)
    (reinstall : Bool) : Prop :=
  world.logIsOpen = false ∧ world.FaultsFail ∧
    world.surroundings.setting .overridePath = none ∧
    (∀ parent, world.files.tree.get?
      (parent ++ [host.temporaryName world.surroundings.processId]) = none) ∧
    ∃ path after, world.run (run (some ⟨some version, some host, fetch, reinstall⟩)) =
        (some (.ok path), after) ∧
      ¬ Remembered world.surroundings.home version host path after.files.tree

def linuxHost : Platform := ⟨.linux, .x86_64, "linux", "x86_64"⟩

/-- The directory of the version is a link here, and it leads through a link that has the name of
the binary. -/
def linkedWorld : World where
  surroundings := {
    environment := fun setting => if setting = .home then some "/h" else none
    transport := { events := [.data "abc"] } }
  files := ⟨((((((Tree.empty.put ["d"] (.directory 0o755)).put
    ["d", "deepseek"] (.link ".")).put
    ["h"] (.directory 0o755)).put
    ["h", ".deepseek"] (.directory 0o755)).put
    ["h", ".deepseek", "bin"] (.directory 0o755)).put
    ["h", ".deepseek", "bin", "1.0"] (.link "../../../d/deepseek")), fun _ => none⟩

theorem fresh_of_entries {tree : Tree} {name : Name}
    (others : tree.entries.toList.all (fun entry => entry.1.getLast? != some name) = true)
    (parent : Location) : tree.get? (parent ++ [name]) = none := by
  cases found : tree.get? (parent ++ [name]) with
  | none => rfl
  | some node =>
      have among := Std.ExtTreeMap.mem_toList_iff_getElem?_eq_some.mpr found
      have other := List.all_eq_true.mp others _ among
      simp at other

/-- The binary replaces the link, and then the directory is not found. -/
theorem linkedWorld_forgets : Forgets linkedWorld "1.0" linuxHost .download true := by
  let request : Option Request := some ⟨some "1.0", some linuxHost, .download, true⟩
  let again : Option Request := some ⟨some "1.0", some linuxHost, .download, false⟩
  let later : World := { linkedWorld with files := (linkedWorld.run (run request)).2.files }
  have fresh : linkedWorld.files.tree.entries.toList.all
      (fun entry => entry.1.getLast? !=
        some (linuxHost.temporaryName linkedWorld.surroundings.processId)) = true := by
    decide +kernel
  have went : ((linkedWorld.run (run request)).1.bind Except.toOption).isSome = true := by
    decide +kernel
  have closed : later.logIsOpen = false := by decide +kernel
  have lost : ((later.run (run again)).1.bind Except.toOption).isSome = false := by
    decide +kernel
  refine ⟨rfl, by simp [World.FaultsFail, linkedWorld], by decide, fresh_of_entries fresh, ?_⟩
  obtain ⟨path, ran⟩ := run_of_isSome went
  refine ⟨path, _, ran, ?_⟩
  intro remembered
  obtain ⟨last, found, _⟩ :=
    remembered later rfl closed rfl (by decide) rfl linuxHost .download rfl
  rw [found] at lost
  cases lost

/-- The directory that the set-up made comes into the place of the binary, and the next set-up makes
another one. -/
theorem homeWorld_forgets :
    Forgets homeWorld "deepseek.4242.tmp/.." linuxHost .given false := by
  let request : Option Request :=
    some ⟨some "deepseek.4242.tmp/..", some linuxHost, .given, false⟩
  let later : World := { homeWorld with files := (homeWorld.run (run request)).2.files }
  let made : Location := ["h", ".deepseek", "bin", "deepseek.4242.tmp"]
  have went : ((homeWorld.run (run request)).1.bind Except.toOption).isSome = true := by
    decide +kernel
  have closed : later.logIsOpen = false := by decide +kernel
  have changed : ((later.run (run request)).2.files.tree.get? made).isSome ≠
      (later.files.tree.get? made).isSome := by
    decide +kernel
  refine ⟨rfl, by simp [World.FaultsFail, homeWorld], by decide,
    fun parent => homeWorld_fresh parent, ?_⟩
  obtain ⟨path, ran⟩ := run_of_isSome went
  refine ⟨path, _, ran, ?_⟩
  intro remembered
  obtain ⟨last, found, same, _⟩ :=
    remembered later rfl closed rfl (by decide) rfl linuxHost .given rfl
  rw [found, same] at changed
  exact changed rfl

/-- Some successes are not remembered: that of a download through a link with the name of the binary,
and that of a given fetch when the set-up made a directory in the place of the temporary file. -/
theorem run_forgets : Forgets linkedWorld "1.0" linuxHost .download true ∧
    Forgets homeWorld "deepseek.4242.tmp/.." linuxHost .given false :=
  ⟨linkedWorld_forgets, homeWorld_forgets⟩

end Resolve

end Launcher
