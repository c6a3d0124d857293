/-
This file says what addresses and cache paths identify. An address and a path are split at their
last slash, and a temporary file at its last dot, so a version may have any bytes.
-/

import Launcher.Proofs.FirstFailure
import Launcher.Proofs.Platforms
import Launcher.Proofs.Resolution

namespace Launcher

/-! ### Names -/

section

variable {version other : Bytes} {host peer : Platform}

/-- No asset is in a directory of its own. -/
theorem Build.noSlash_asset : ∀ build ∈ Build.all, Bytes.slash ∉ build.asset := by decide

theorem Platform.noSlash_asset {asset : Bytes} (found : host.asset = .ok asset) :
    Bytes.slash ∉ asset := by
  obtain ⟨build, among, _, _, rfl⟩ := asset_eq_iff.mp found
  exact Build.noSlash_asset build among

/-- An asset tells the pair that it was built for. -/
theorem Platform.asset_inj {asset another : Bytes} (found : host.asset = .ok asset)
    (foundToo : peer.asset = .ok another) :
    asset = another ↔ host.system = peer.system ∧ host.processor = peer.processor := by
  have selects := pairSelects peer host
  constructor
  · rintro rfl
    exact selects.distinct asset foundToo found
  · rintro ⟨system, processor⟩
    have same := selects.same system processor
    rw [found, foundToo] at same
    exact Except.ok.inj same

/-- An address tells the version and the asset. -/
theorem Release.assetAddress_inj {asset another : Bytes} (noSlash : Bytes.slash ∉ asset)
    (noSlashToo : Bytes.slash ∉ another) :
    assetAddress version asset = assetAddress other another ↔
      version = other ∧ asset = another := by
  have shape (version asset : Bytes) : assetAddress version asset =
      (page ++ "/releases/download" ++ "/v" ++ version) ++ Bytes.slash :: asset := by
    simp [assetAddress, show (("/" : Bytes)) = [Bytes.slash] by decide]
  rw [shape, shape, Bytes.append_last_inj noSlash noSlashToo, List.append_right_inj]

theorem Cache.directory_inj {home : Bytes} :
    directory home version = directory home other ↔ version = other := by
  rw [directory, directory, List.append_right_inj]

/-- A target tells its directory and the name of the binary. -/
theorem Resolve.target_inj {directory place : Bytes} :
    target directory host = target place peer ↔
      directory = place ∧ host.binaryName = peer.binaryName := by
  have shape (directory : Bytes) (host : Platform) :
      target directory host = directory ++ Bytes.slash :: host.binaryName := by
    simp [target, show (("/" : Bytes)) = [Bytes.slash] by decide]
  have noSlash (host : Platform) : Bytes.slash ∉ host.binaryName :=
    host.system.binaryName_plain.noSlash
  rw [shape, shape, Bytes.append_last_inj (noSlash host) (noSlash peer)]

/-- A target does not have the extension of a temporary file. -/
theorem Resolve.target_ne_temporary (directory path : Bytes) (host : Platform) (number : Int) :
    target directory host ≠ Install.temporary path number := by
  intro same
  have extension := Install.temporary_extension path number
  rw [← same] at extension
  have name : host.binaryName <:+ target directory host := List.suffix_append _ _
  have long : (".tmp" : Bytes).length ≤ host.binaryName.length :=
    Nat.le_of_lt host.system.binaryName_long
  exact host.system.binaryName_noExtension (List.suffix_of_suffix_length_le extension name long)

end

/-! ### Calls -/

/-- The addresses that a call fetches from. -/
def Call.addresses : Call → List Bytes
  | .fetch address _ => [address]
  | .transfer request => [request.address]
  | _ => []

/-- The paths at which a call changes, moves or removes a file, apart from the log. What is written
goes to the path that was opened, and a directory is only made where nothing is. -/
def Call.changes : Call → List Bytes
  | .fetch _ path => [path]
  | .file (.openOutput path) => [path]
  | .file (.setMode path _) => [path]
  | .file (.unlink path) => [path]
  | .file (.rename source target) => [source, target]
  | _ => []

/-- A call that obtains a target fetches from one address only, and changes nothing but the
temporary file and the target. -/
structure Call.Obtains (address temporary target : Bytes) (call : Call) : Prop where
  address : ∀ source ∈ call.addresses, source = address
  path : ∀ path ∈ call.changes, path = temporary ∨ path = target

section

variable {address temporary target : Bytes} {call : Call}

/-- A call that neither fetches nor changes a file is allowed beside any installation. -/
theorem Call.Obtains.of_silent (addresses : call.addresses = []) (changes : call.changes = []) :
    call.Obtains address temporary target := by
  constructor
  · simp [addresses]
  · simp [changes]

theorem Call.IsLocal.silent (isLocal : call.IsLocal) : call.addresses = [] ∧ call.changes = [] := by
  cases call with
  | file call =>
      refine ⟨rfl, ?_⟩
      cases call with
      | setMode path mode => exact isLocal.elim
      | unlink path => exact isLocal.elim
      | rename source target => exact isLocal.elim
      | openOutput path => exact isLocal.elim
      | _ => rfl
  | transfer request => exact isLocal.elim
  | fetch address path => exact isLocal.elim
  | _ => exact ⟨rfl, rfl⟩

theorem Call.Attends.obtains (attends : call.Attends temporary) :
    call.Obtains address temporary target := by
  cases call with
  | file call =>
      refine ⟨by simp [addresses], fun path among => ?_⟩
      cases call with
      | setMode other mode => exact .inl ((List.mem_singleton.mp among).trans attends)
      | unlink other => exact .inl ((List.mem_singleton.mp among).trans attends)
      | openOutput other => exact attends.elim
      | rename source other => exact attends.elim
      | _ => cases among
  | log entry => exact .of_silent rfl rfl
  | pass seconds => exact .of_silent rfl rfl
  | _ => exact attends.elim

theorem Call.Handles.obtains (handles : call.Handles temporary) :
    call.Obtains address temporary target := by
  refine Call.Attends.obtains ?_
  cases call with
  | file call => exact FileCall.Handles.tends handles
  | log entry => trivial
  | _ => exact handles.elim

namespace Download

theorem transfer_obtains (headers : Option (List Bytes)) :
    (transfer address headers).Only (Call.Obtains address temporary target) := by
  have transferring : Call.Obtains address temporary target (.transfer (.to address headers)) :=
    ⟨by simp [Call.addresses, Transfer.Request.to], by simp [Call.changes]⟩
  refine .bind (.request transferring) fun script =>
    .bind ((receive_attends temporary _ _).mono fun _ => Call.Attends.obtains) fun complete => ?_
  split <;> trivial

theorem file_obtains (headers : Option (List Bytes)) :
    (file (some address) (some temporary) headers).Only
      (Call.Obtains address temporary target) := by
  have opening : Call.Obtains address temporary target (.file (.openOutput temporary)) :=
    ⟨by simp [Call.addresses], by simp [Call.changes]⟩
  rw [file_eq]
  refine .bind (.request opening) fun opened => ?_
  cases opened with
  | error errno => trivial
  | ok =>
      refine .bind (.request (.of_silent rfl rfl)) fun regular =>
        .bind (.request (.of_silent rfl rfl)) fun ready => ?_
      split
      · exact .bind (transfer_obtains headers) fun ending =>
          (conclude_attends _ _ regular ending).mono fun _ => Call.Attends.obtains
      · exact .bind (.request (.of_silent rfl rfl)) fun _ =>
          .bind ((discard_attends _ _).mono fun _ => Call.Attends.obtains) fun _ => trivial

end Download

theorem Fetch.run_obtains (fetch : Fetch) :
    (fetch.run address temporary).Only (Call.Obtains address temporary target) := by
  cases fetch with
  | download => exact Download.file_obtains _
  | given =>
      have fetching : Call.Obtains address temporary target (.fetch address temporary) :=
        ⟨by simp [Call.addresses], by simp [Call.changes]⟩
      exact .request fetching

namespace Install

theorem afterFetch_obtains (executable : Bool) (fetched : Status) :
    (afterFetch temporary target executable fetched).Only
      (Call.Obtains address temporary target) := by
  have moving : Call.Obtains address temporary target (.file (.rename temporary target)) :=
    ⟨by simp [Call.addresses], by simp [Call.changes]⟩
  unfold afterFetch
  split
  · exact .bind (.request (.of_silent rfl rfl)) fun _ => trivial
  refine .bind ((mark_handles _ _).mono fun _ => Call.Handles.obtains) fun marked => ?_
  split
  · exact .bind (.request (.of_silent rfl rfl)) fun _ => trivial
  refine .bind (.request moving) fun reply => ?_
  cases reply with
  | ok => trivial
  | error errno => exact .bind (.request (.of_silent rfl rfl)) fun _ => trivial

end Install

end

/-- An installation changes its target and the temporary file of its process. -/
theorem Install.history_obtains (world : World) (fetch : Fetch) (address target : Bytes)
    (executable : Bool) : ∀ call ∈ world.history (run fetch address target executable),
      call.Obtains address (temporary target world.surroundings.processId) target := by
  rw [run_eq, Program.processId, World.history_request rfl]
  intro call among
  rcases List.mem_cons.mp among with rfl | later
  · exact .of_silent rfl rfl
  refine World.history_only (.bind (.request (.of_silent rfl rfl)) fun copied => ?_) call later
  split
  · exact .bind (.bind fetch.run_obtains fun fetched => afterFetch_obtains executable fetched)
      fun outcome => (cleanUp_handles _ outcome).mono fun _ => Call.Handles.obtains
  · trivial

/-! ### Decisions -/

theorem Cache.run_home (world : World) :
    world.run home = (some world.surroundings.home, world) := by
  rw [home, Program.lookUp, World.run_request rfl, Surroundings.home, Surroundings.setting]
  split
  · rename_i byte rest found
    simp [found, Option.filter]
  · rename_i missing
    rw [Program.passwordEntry, World.run_request rfl, World.filter_of_ne missing, Option.none_or]
    split
    · rename_i byte rest found
      simp [found, Option.filter]
    · rename_i unknown
      rw [World.filter_of_ne unknown]
      rfl

/-- The directory that is set up is that of the version, in the home directory. -/
theorem Cache.run_setUp {world after : World} {version path : Bytes}
    (ended : world.run (setUp (some version)) = (some (.ok path), after)) :
    ∃ home, world.surroundings.home = some home ∧ path = directory home version := by
  simp only [setUp] at ended
  split at ended
  · cases ended
  obtain ⟨known, middle, ran, ended⟩ := World.run_bind_ends ended
  rw [run_home] at ran
  cases ran
  cases found : world.surroundings.home with
  | none =>
      rw [found] at ended
      cases ended
  | some home =>
      rw [found] at ended
      refine ⟨home, rfl, ?_⟩
      obtain ⟨status, ensured, _, ended⟩ := World.run_bind_ends ended
      split at ended
      · cases ended
      · cases ended
        rfl

theorem Cache.run_overridePath {world after : World} {path : Bytes}
    (ended : world.run overridePath = (some (some path), after)) :
    world.surroundings.setting .overridePath = some path := by
  rw [overridePath, Program.lookUp, World.run_request rfl] at ended
  rw [Surroundings.setting]
  split at ended
  · rename_i byte rest found
    obtain ⟨isThere, middle, _, ended⟩ := World.run_bind_ends ended
    split at ended
    · cases ended
      simp [found, Option.filter]
    · cases ended
  · cases ended

namespace Resolve

variable {world : World} {version : Bytes} {host : Platform} {fetch : Fetch} {reinstall : Bool}

/-- A decision takes the override, or it fails, or it aims at the target of the version in the home
directory. -/
theorem run_decide_aims {decision : Decision} {after : World}
    (ended : world.run (decide (some ⟨some version, some host, fetch, reinstall⟩)) =
      (some decision, after)) :
    (∃ path, world.surroundings.setting .overridePath = some path ∧
        decision = .settled (.ok path)) ∨
      (∃ status, decision = .settled (.error status)) ∨
      ∃ home, world.surroundings.home = some home ∧
        decision.Aims version (Cache.directory home version) host fetch := by
  obtain ⟨override, first, asked, ended⟩ := World.run_bind_ends ended
  cases override with
  | some path =>
      cases ended
      exact .inl ⟨path, Cache.run_overridePath asked, rfl⟩
  | none =>
      have descends := world.run_descends (Cache.overridePath_deciding.mono
        fun _ deciding => deciding.isLocal.plain)
      rw [asked] at descends
      have same : first.surroundings = world.surroundings := descends.surroundings
      obtain ⟨prepared, second, prepares, ended⟩ := World.run_bind_ends ended
      cases prepared with
      | error status =>
          cases ended
          exact .inr (.inl ⟨status, rfl⟩)
      | ok directory =>
          obtain ⟨home, known, rfl⟩ := Cache.run_setUp prepares
          rw [same] at known
          exact .inr (.inr ⟨home, known, (decideCached_aims _ _ _ _ _).run ended⟩)

theorem afterInstall_obtains (address temporary target : Bytes) (status : Status) :
    (afterInstall target status).Only (Call.Obtains address temporary target) := by
  unfold afterInstall
  split
  · trivial
  · exact .bind (.request (.of_silent rfl rfl)) fun _ => trivial

end Resolve

/-! ### Resolutions -/

/-- A version is resolved for a host, in the world in which the resolution starts. -/
structure Resolution where
  world : World
  version : Bytes
  host : Platform
  fetch : Fetch
  reinstall : Bool

namespace Resolution

variable {resolution first second : Resolution} {path address : Bytes}

def program (resolution : Resolution) : Program (Except Status Bytes) :=
  Resolve.run
    (some ⟨some resolution.version, some resolution.host, resolution.fetch, resolution.reinstall⟩)

/-- The addresses that the resolution fetches from. -/
def addresses (resolution : Resolution) : List Bytes :=
  (resolution.world.history resolution.program).flatMap Call.addresses

/-- The paths at which the resolution changes, moves or removes files. -/
def changes (resolution : Resolution) : List Bytes :=
  (resolution.world.history resolution.program).flatMap Call.changes

def home? (resolution : Resolution) : Option Bytes := resolution.world.surroundings.home

def target (resolution : Resolution) (home : Bytes) : Bytes :=
  Resolve.target (Cache.directory home resolution.version) resolution.host

def temporary (resolution : Resolution) (home : Bytes) : Bytes :=
  Install.temporary (resolution.target home) resolution.world.surroundings.processId

/-- Every call of a resolution is local, or it obtains the target of the version. -/
theorem history_obtains (resolution : Resolution) :
    ∀ call ∈ resolution.world.history resolution.program, call.IsLocal ∨
      ∃ home asset, resolution.home? = some home ∧ resolution.host.asset = .ok asset ∧
        call.Obtains (Release.assetAddress resolution.version asset) (resolution.temporary home)
          (resolution.target home) := by
  -- The decision only makes local calls, and an installation follows it at most.
  obtain ⟨world, version, host, fetch, reinstall⟩ := resolution
  intro call among
  have isLocal := Resolve.decide_local (some ⟨some version, some host, fetch, reinstall⟩)
  rw [program, Resolve.run_eq] at among
  rcases ran : world.run (Resolve.decide (some ⟨some version, some host, fetch, reinstall⟩)) with
    ⟨_ | decision, middle⟩
  · rw [World.history_bind_gone ran] at among
    exact .inl (World.history_only isLocal call among)
  rw [World.history_bind ran, List.mem_append] at among
  rcases among with decided | carried
  · exact .inl (World.history_only isLocal call decided)
  cases decision with
  | settled outcome => cases carried
  | install chosen address path executable =>
      have descends := world.run_descends (isLocal.mono fun _ => Call.IsLocal.plain)
      rw [ran] at descends
      obtain ⟨_, _, ⟨⟩⟩ | ⟨_, ⟨⟩⟩ | ⟨home, known, rfl, ⟨asset, found, rfl⟩, rfl, rfl⟩ :=
        Resolve.run_decide_aims ran
      refine .inr ⟨home, asset, known, found, ?_⟩
      have installs := Install.history_obtains middle chosen (Release.assetAddress version asset)
        (Resolve.target (Cache.directory home version) host) (host.system ≠ .windows)
      rw [descends.surroundings] at installs
      obtain ⟨back, split, behind⟩ := middle.history_bind_only
        (Install.run chosen (Release.assetAddress version asset)
          (Resolve.target (Cache.directory home version) host) (host.system ≠ .windows))
        fun status => Resolve.afterInstall_obtains _ _ _ status
      rw [Resolve.carryOut_install, split, List.mem_append] at carried
      exact carried.elim (installs call) (behind call)

theorem mem_addresses (among : address ∈ resolution.addresses) :
    ∃ asset, resolution.host.asset = .ok asset ∧
      address = Release.assetAddress resolution.version asset := by
  obtain ⟨call, made, fetched⟩ := List.mem_flatMap.mp among
  rcases resolution.history_obtains call made with isLocal | ⟨home, asset, _, found, obtains⟩
  · rw [isLocal.silent.1] at fetched
    cases fetched
  · exact ⟨asset, found, obtains.address address fetched⟩

theorem mem_changes (among : path ∈ resolution.changes) :
    ∃ home, resolution.home? = some home ∧
      (path = resolution.temporary home ∨ path = resolution.target home) := by
  obtain ⟨call, made, changed⟩ := List.mem_flatMap.mp among
  rcases resolution.history_obtains call made with isLocal | ⟨home, asset, known, _, obtains⟩
  · rw [isLocal.silent.2] at changed
    cases changed
  · exact ⟨home, known, obtains.path path changed⟩

/-- Without an override the answer is the target. -/
theorem answer_target (unset : resolution.world.surroundings.setting .overridePath = none)
    (answered : (resolution.world.run resolution.program).1 = some (.ok path)) :
    ∃ home, resolution.home? = some home ∧ path = resolution.target home := by
  have ended : resolution.world.run resolution.program =
      (some (.ok path), (resolution.world.run resolution.program).2) := Prod.ext answered rfl
  rw [program, Resolve.run_eq] at ended
  obtain ⟨decision, middle, ran, ended⟩ := World.run_bind_ends ended
  obtain ⟨other, set, _⟩ | ⟨status, rfl⟩ | ⟨home, known, aims⟩ := Resolve.run_decide_aims ran
  · rw [unset] at set
    cases set
  · cases ended
  refine ⟨home, known, ?_⟩
  cases decision with
  | settled outcome =>
      cases ended
      exact aims path rfl
  | install chosen address place executable =>
      obtain ⟨_, _, rfl, _⟩ := aims
      rw [Resolve.carryOut_install] at ended
      obtain ⟨status, installed, _, ended⟩ := World.run_bind_ends ended
      have reported := (Resolve.afterInstall_answers _ status).run ended
      split at reported <;> cases reported
      rfl

/-- Names are the same only when what they stand for is the same. An address stands for a version
and a pair that has an asset, and a path stands for a version, a binary and maybe a process. -/
structure NamesIdentify (version other : Bytes) (host peer : Platform) : Prop where
  address : ∀ asset another, host.asset = .ok asset → peer.asset = .ok another →
    (Release.assetAddress version asset = Release.assetAddress other another ↔
      version = other ∧ host.system = peer.system ∧ host.processor = peer.processor)
  target : ∀ home, Resolve.target (Cache.directory home version) host =
      Resolve.target (Cache.directory home other) peer ↔
    version = other ∧ host.binaryName = peer.binaryName
  temporary : ∀ home processId number,
    Install.temporary (Resolve.target (Cache.directory home version) host) processId =
        Install.temporary (Resolve.target (Cache.directory home other) peer) number ↔
      version = other ∧ host.binaryName = peer.binaryName ∧ processId = number
  apart : ∀ home number, Resolve.target (Cache.directory home version) host ≠
    Install.temporary (Resolve.target (Cache.directory home other) peer) number

/-- Two resolutions fetch from one address only for the same version and pair. In one home directory
they change files at one path only for the same version and binary, and different processes only at
the target. -/
structure KeepApart (first second : Resolution) : Prop where
  address : ∀ address ∈ first.addresses, address ∈ second.addresses →
    first.version = second.version ∧ first.host.system = second.host.system ∧
      first.host.processor = second.host.processor
  path : first.home? = second.home? → ∀ path ∈ first.changes, path ∈ second.changes →
    first.version = second.version ∧ first.host.binaryName = second.host.binaryName ∧
      (first.world.surroundings.processId = second.world.surroundings.processId ∨
        ∃ home, first.home? = some home ∧ path = first.target home)
  answer : first.home? = second.home? →
    first.world.surroundings.setting .overridePath = none →
    second.world.surroundings.setting .overridePath = none → ∀ path,
      (first.world.run first.program).1 = some (.ok path) →
      (second.world.run second.program).1 = some (.ok path) →
        first.version = second.version ∧ first.host.binaryName = second.host.binaryName

theorem namesIdentify (version other : Bytes) (host peer : Platform) :
    NamesIdentify version other host peer := by
  have target (home : Bytes) : Resolve.target (Cache.directory home version) host =
      Resolve.target (Cache.directory home other) peer ↔
        version = other ∧ host.binaryName = peer.binaryName := by
    rw [Resolve.target_inj, Cache.directory_inj]
  refine ⟨?_, target, ?_, fun home number => Resolve.target_ne_temporary _ _ host number⟩
  · intro asset another found foundToo
    rw [Release.assetAddress_inj (Platform.noSlash_asset found) (Platform.noSlash_asset foundToo),
      Platform.asset_inj found foundToo]
  · intro home processId number
    rw [Install.temporary_inj, target, and_assoc]

theorem keepApart (first second : Resolution) : KeepApart first second := by
  have names := namesIdentify first.version second.version first.host second.host
  have turned := namesIdentify second.version first.version second.host first.host
  constructor
  · intro address among amongToo
    obtain ⟨asset, found, rfl⟩ := mem_addresses among
    obtain ⟨another, foundToo, same⟩ := mem_addresses amongToo
    exact (names.address asset another found foundToo).mp same
  · intro sameHome path among amongToo
    obtain ⟨home, known, place⟩ := mem_changes among
    obtain ⟨other, knownToo, placeToo⟩ := mem_changes amongToo
    rw [sameHome, knownToo] at known
    cases known
    -- On each side the path is the temporary file or the target.
    rcases place with rfl | rfl <;> rcases placeToo with same | same
    · obtain ⟨version, binary, number⟩ := (names.temporary _ _ _).mp same
      exact ⟨version, binary, .inl number⟩
    · exact absurd same.symm (turned.apart _ _)
    · exact absurd same (names.apart _ _)
    · obtain ⟨version, binary⟩ := (names.target _).mp same
      exact ⟨version, binary, .inr ⟨_, sameHome.trans knownToo, rfl⟩⟩
  · intro sameHome unset unsetToo path answered answeredToo
    obtain ⟨home, known, rfl⟩ := answer_target unset answered
    obtain ⟨other, knownToo, same⟩ := answer_target unsetToo answeredToo
    rw [sameHome, knownToo] at known
    cases known
    exact (names.target _).mp same

/-- Addresses, targets and temporary files identify what they stand for, so resolutions keep apart
that stand for different things. -/
theorem names_identify (version other : Bytes) (host peer : Platform) (first second : Resolution) :
    NamesIdentify version other host peer ∧ KeepApart first second :=
  ⟨namesIdentify version other host peer, keepApart first second⟩

/-- The fetch is given, and the host has a binary without an extension. -/
def given (version : Bytes) : Resolution :=
  ⟨Resolve.homeWorld, version, ⟨.linux, .x86_64, "linux", "x86_64"⟩, .given, false⟩

/-- The name of a temporary file can be a part of another version, and the two stay apart. -/
theorem names_identify_nested :
    let outer := given "1.0"
    let nested := given "1.0/deepseek.4242.tmp"
    outer.temporary "/h" = "/h/.deepseek/bin/1.0/deepseek.4242.tmp" ∧
      nested.target "/h" = "/h/.deepseek/bin/1.0/deepseek.4242.tmp/deepseek" ∧
      outer.temporary "/h" ∈ outer.changes ∧ nested.target "/h" ∈ nested.changes ∧
      nested.target "/h" ≠ outer.temporary "/h" ∧
      ∀ path ∈ nested.changes, path ∉ outer.changes := by
  intro outer nested
  obtain ⟨names, apart⟩ :=
    names_identify nested.version outer.version nested.host outer.host nested outer
  refine ⟨by decide +kernel, by decide +kernel, by decide +kernel, by decide +kernel,
    names.apart "/h" 4242, fun path among amongToo => ?_⟩
  have same := (apart.path rfl path among amongToo).1
  exact absurd same (by decide)

end Resolution

end Launcher
