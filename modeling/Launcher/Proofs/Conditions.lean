/-
This file says what a decision depends on. Its conditions are asked one after the other, and the
first one that settles the resolution ends the asking.
-/

import Launcher.Proofs.Decision
import Launcher.Proofs.Directory
import Launcher.Proofs.Platforms

namespace Launcher

/-! ### Settings -/

/-- A setting that is empty counts as absent. -/
def Surroundings.setting (surroundings : Surroundings) (setting : Setting) : Option Bytes :=
  (surroundings.environment setting).filter fun text => !text.isEmpty

/-- The home directory is known from the environment, or else from the password entry. -/
def Surroundings.home (surroundings : Surroundings) : Option Bytes :=
  (surroundings.setting .home).or (surroundings.passwordEntry.filter fun text => !text.isEmpty)

namespace Resolve

/-! ### Conditions -/

/-- No override is set, or the check for access refuses it. -/
def PassesOverride (before after : World) : Prop :=
  match before.surroundings.setting .overridePath with
  | none => after = before
  | some path => ∃ errno, before.answerFile (.access path) = (.error errno, after)

/-- The directory of the version is ensured in the home directory. -/
structure Prepared (world : World) (version directory : Bytes) (after : World) : Prop where
  named : version ≠ []
  ensured : ∃ home first status, PassesOverride world first ∧
    world.surroundings.home = some home ∧ directory = Cache.directory home version ∧
    first.run (Directory.ensure (some directory)) = (some status, after) ∧ status.failed = false

/-- The target cannot be accessed, or it is to be installed again in any case. -/
def Needed (before : World) (target : Bytes) (reinstall : Bool) (after : World) : Prop :=
  ∃ reply, before.answerFile (.access target) = (reply, after) ∧ (reply = .ok () → reinstall = true)

/-- Three texts disable downloads, byte for byte, and no others do. -/
def Disables (value : Bytes) : Prop := value = "1" ∨ value = "true" ∨ value = "TRUE"

def Allowed (world : World) : Prop :=
  ∀ value, world.surroundings.environment .skipDownload = some value → ¬ Disables value

/-- The conditions are asked in this order, each in the world that the one before leaves, and the
first one that settles the resolution is the last one that is asked. -/
inductive Decides (world : World) : Option Request → Decision → World → Prop
  | incomplete {request : Option Request}
      (missing : ∀ version host fetch reinstall,
        request ≠ some ⟨some version, some host, fetch, reinstall⟩) :
      Decides world request (.settled (.error (.error .general .invalidArgument))) world
  | override {version host fetch reinstall path after}
      (named : world.surroundings.setting .overridePath = some path)
      (there : world.answerFile (.access path) = (.ok (), after)) :
      Decides world (some ⟨some version, some host, fetch, reinstall⟩) (.settled (.ok path)) after
  | noVersion {host fetch reinstall first} (passed : PassesOverride world first) :
      Decides world (some ⟨some [], some host, fetch, reinstall⟩)
        (.settled (.error (.error .configuration .invalidArgument))) first
  | noHome {version host fetch reinstall first} (passed : PassesOverride world first)
      (named : version ≠ []) (unknown : world.surroundings.home = none) :
      Decides world (some ⟨some version, some host, fetch, reinstall⟩)
        (.settled (.error (.error .configuration .notFound))) first
  | noDirectory {version host fetch reinstall home first status second}
      (passed : PassesOverride world first) (named : version ≠ [])
      (known : world.surroundings.home = some home)
      (ensured : first.run (Directory.ensure (some (Cache.directory home version))) =
        (some status, second)) (failed : status.failed = true) :
      Decides world (some ⟨some version, some host, fetch, reinstall⟩)
        (.settled (.error status)) second
  | cached {version host fetch directory second third}
      (prepared : Prepared world version directory second)
      (there : second.answerFile (.access (target directory host)) = (.ok (), third)) :
      Decides world (some ⟨some version, some host, fetch, false⟩)
        (.settled (.ok (target directory host))) third
  | disabled {version host fetch reinstall directory second third value}
      (prepared : Prepared world version directory second)
      (needed : Needed second (target directory host) reinstall third)
      (set : world.surroundings.environment .skipDownload = some value)
      (refused : Disables value) :
      Decides world (some ⟨some version, some host, fetch, reinstall⟩)
        (.settled (.error (.error .runtime .downloadDisabled))) third
  | unsupported {version host fetch reinstall directory second third status}
      (prepared : Prepared world version directory second)
      (needed : Needed second (target directory host) reinstall third)
      (allowed : Allowed world) (noAsset : host.asset = .error status) :
      Decides world (some ⟨some version, some host, fetch, reinstall⟩)
        (.settled (.error status)) third
  | install {version host fetch reinstall directory second third asset}
      (prepared : Prepared world version directory second)
      (needed : Needed second (target directory host) reinstall third)
      (allowed : Allowed world) (found : host.asset = .ok asset) :
      Decides world (some ⟨some version, some host, fetch, reinstall⟩)
        (.install fetch (Release.assetAddress version asset) (target directory host)
          (host.system ≠ .windows)) third

end Resolve

/-! ### The asking of the conditions -/

namespace World

variable {world : World}

theorem yields_access {path : Bytes} {goal : Except Errno Unit → World → Prop} :
    world.Yields (Program.access path) goal ↔
      goal (world.answerFile (.access path)).1 (world.answerFile (.access path)).2 :=
  yields_request rfl

@[simp] theorem answerFile_surroundings (world : World) (call : FileCall) :
    (world.answerFile call).2.surroundings = world.surroundings := by
  rw [answerFile_eq]
  split <;> rfl

theorem yields_isThere {path : Bytes} {goal : Bool → World → Prop} :
    world.Yields (Binary.isThere (some path)) goal ↔
      ∀ reply after, world.answerFile (.access path) = (reply, after) →
        goal (reply matches .ok _) after := by
  simp only [Binary.isThere, yields_bind, yields_access]
  rcases world.answerFile (.access path) with ⟨reply, after⟩
  cases reply with
  | error errno => simp
  | ok => simp

theorem filter_of_ne {text : Option Bytes} (none : ∀ byte rest, text ≠ some (byte :: rest)) :
    (text.filter fun text => !text.isEmpty) = Option.none := by
  rcases text with _ | _ | ⟨byte, rest⟩
  · rfl
  · rfl
  · exact absurd rfl (none byte rest)

theorem yields_home {goal : Option Bytes → World → Prop} :
    world.Yields Cache.home goal ↔ goal world.surroundings.home world := by
  simp only [Cache.home, yields_bind, yields_lookUp, Surroundings.home, Surroundings.setting]
  split
  · rename_i byte rest found
    simp [found, Option.filter]
  · rename_i missing
    rw [filter_of_ne missing, Option.none_or]
    simp only [yields_bind, yields_passwordEntry]
    split
    · rename_i byte rest found
      simp [found, Option.filter]
    · rename_i unknown
      rw [filter_of_ne unknown]
      simp

theorem answerFile_descends (world : World) (call : FileCall) :
    (world.answerFile call).2.Descends world := world.answerBare_descends (.file call)

/-- A check for access changes no files. -/
theorem accessed_files {path : Bytes} {reply : Except Errno Unit} {after : World}
    (asked : world.answerFile (.access path) = (reply, after)) : after.files = world.files := by
  rw [answerFile_eq] at asked
  split at asked <;> cases asked <;> rfl

end World

namespace Resolve

variable {world first : World} {version : Bytes}

theorem yields_overridePath :
    world.Yields Cache.overridePath fun override after =>
      (override = none ∧ PassesOverride world after) ∨
        ∃ path, override = some path ∧ world.surroundings.setting .overridePath = some path ∧
          world.answerFile (.access path) = (.ok (), after) := by
  simp only [Cache.overridePath, World.yields_bind, World.yields_lookUp]
  unfold PassesOverride Surroundings.setting
  rcases world.surroundings.environment .overridePath with _ | _ | ⟨byte, rest⟩
  · simp [Option.filter]
  · simp [Option.filter]
  · simp only [World.yields_bind, World.yields_isThere]
    intro reply after accessed
    cases reply with
    | error errno =>
        simp only [Bool.false_eq_true, if_false, World.yields_bind, World.yields_note,
          Program.pure_eq, World.yields_done]
        exact .inl ⟨trivial, errno, accessed⟩
    | ok =>
        simp only [if_true, Program.pure_eq, World.yields_done]
        exact .inr ⟨byte :: rest, rfl, rfl, accessed⟩

/-- The set-up ends at the first of its conditions that fails, or with the directory. -/
theorem yields_setUp (sound : first.FaultsFail) (closed : first.logIsOpen = false)
    (version : Bytes) :
    first.Yields (Cache.setUp (some version)) fun prepared bare =>
      (version = [] ∧ prepared = .error (.error .configuration .invalidArgument) ∧ bare = first) ∨
      (version ≠ [] ∧ first.surroundings.home = none ∧
        prepared = .error (.error .configuration .notFound) ∧ bare = first) ∨
      ∃ home status second, version ≠ [] ∧ first.surroundings.home = some home ∧
        first.run (Directory.ensure (some (Cache.directory home version))) =
          (some status, second) ∧
        second.Alike bare ∧ second.logIsOpen = false ∧
        ((status.failed = true ∧ prepared = .error status) ∨
          (status.failed = false ∧ prepared = .ok (Cache.directory home version))) := by
  simp only [Cache.setUp]
  split
  · rename_i empty
    simp [empty]
  rename_i named
  simp only [World.yields_bind, World.yields_home]
  cases known : first.surroundings.home with
  | none => simp [named]
  | some home =>
      simp only [World.yields_bind]
      obtain ⟨status, bare, ran, _⟩ :=
        Directory.yields_ensure sound (Cache.directory home version)
      obtain ⟨same, alike, still⟩ := (World.Alike.refl first).run
        ((Directory.ensure_local (some (Cache.directory home version))).mono
          fun _ => Call.IsLocal.plain) closed
      rw [ran] at same alike
      refine ⟨status, bare, ran, ?_⟩
      have ended : first.run (Directory.ensure (some (Cache.directory home version))) =
          (some status, (first.run (Directory.ensure (some (Cache.directory home version)))).2) :=
        Prod.ext same rfl
      dsimp only
      split
      · rename_i failed
        simp only [World.yields_bind, World.yields_noteStatus, World.yields_note, Program.pure_eq,
          World.yields_done]
        exact .inr (.inr ⟨home, status, _, named, rfl, ended, alike, still,
          .inl ⟨failed, rfl⟩⟩)
      · rename_i went
        simp only [World.yields_bind, World.yields_keepCacheDirectory, Program.pure_eq,
          World.yields_done]
        exact .inr (.inr ⟨home, status, _, named, rfl, ended, alike, still,
          .inr ⟨by simpa using went, rfl⟩⟩)

/-- The table of refusals holds these texts. -/
theorem mem_refusals {value : Bytes} : value ∈ Cache.refusals ↔ Disables value := by
  simp only [Cache.refusals, Disables, List.mem_cons, List.not_mem_nil, or_false]

theorem yields_downloadsDisabled :
    world.Yields Cache.downloadsDisabled fun disabled after => after = world ∧
      ((disabled = true ∧ ∃ value, world.surroundings.environment .skipDownload = some value ∧
        Disables value) ∨ (disabled = false ∧ Allowed world)) := by
  simp only [Cache.downloadsDisabled, World.yields_bind, World.yields_lookUp]
  unfold Allowed
  cases world.surroundings.environment .skipDownload with
  | none => simp
  | some value =>
      by_cases refused : Disables value
      · simp [mem_refusals, refused]
      · simp [mem_refusals, refused]

/-- The last two conditions ask the settings and the host. -/
theorem yields_decideInstall (version target : Bytes) (host : Platform) (fetch : Fetch) :
    world.Yields (decideInstall version target host fetch) fun decision after => after = world ∧
      ((∃ value, world.surroundings.environment .skipDownload = some value ∧
          Disables value ∧
          decision = .settled (.error (.error .runtime .downloadDisabled))) ∨
        (Allowed world ∧ ∃ status, host.asset = .error status ∧
          decision = .settled (.error status)) ∨
        (Allowed world ∧ ∃ asset, host.asset = .ok asset ∧
          decision = .install fetch (Release.assetAddress version asset) target
            (host.system ≠ .windows))) := by
  simp only [decideInstall, World.yields_bind]
  apply yields_downloadsDisabled.mono
  intro disabled after reached
  obtain ⟨rfl, ⟨rfl, value, set, refused⟩ | ⟨rfl, allowed⟩⟩ := reached
  · simp only [if_true, World.yields_bind, World.yields_note, Program.pure_eq, World.yields_done]
    exact ⟨trivial, .inl ⟨value, set, refused, trivial⟩⟩
  · simp only [Bool.false_eq_true, if_false]
    cases host.asset with
    | error status =>
        simp only [World.yields_bind, World.yields_note, Program.pure_eq, World.yields_done]
        exact ⟨trivial, .inr (.inl ⟨allowed, status, rfl, rfl⟩)⟩
    | ok asset =>
        simp only [World.yields_bind, World.yields_note, Program.pure_eq, World.yields_done]
        exact ⟨trivial, .inr (.inr ⟨allowed, asset, rfl, rfl⟩)⟩

/-- The world after the check for the override has the old files and surroundings. -/
structure Settled (before after : World) : Prop where
  files : after.files = before.files
  descends : after.Descends before

theorem PassesOverride.settled (passed : PassesOverride world first) : Settled world first := by
  unfold PassesOverride at passed
  split at passed
  · subst passed
    exact ⟨rfl, .refl _⟩
  · rename_i path _
    obtain ⟨errno, refused⟩ := passed
    have descends := world.answerFile_descends (.access path)
    rw [refused] at descends
    exact ⟨World.accessed_files refused, descends⟩

theorem Settled.closed (settled : Settled world first) (closed : world.logIsOpen = false) :
    first.logIsOpen = false := by
  rw [World.logIsOpen, settled.files]
  exact closed

/-- With the directory ready, the target is asked for next. -/
theorem yields_decideCached {directory : Bytes} {second bare : World} {host : Platform}
    {fetch : Fetch} {reinstall : Bool} (ready : Prepared world version directory second)
    (alike : second.Alike bare) (still : second.logIsOpen = false)
    (same : bare.surroundings = world.surroundings) :
    bare.Yields (decideCached version directory host fetch reinstall) fun decision last =>
      ∃ after, Decides world (some ⟨some version, some host, fetch, reinstall⟩) decision after ∧
        after.Alike last ∧ after.logIsOpen = false := by
  simp only [decideCached, World.yields_bind, World.yields_isThere]
  intro reply last accessed
  obtain ⟨sameReply, after⟩ := alike.answerFile (.access (target directory host))
  have closed := World.answerFile_closed still (.access (target directory host))
  have lasting := bare.answerFile_surroundings (.access (target directory host))
  rcases asked : second.answerFile (.access (target directory host)) with ⟨answer, third⟩
  rw [accessed] at lasting
  rw [asked, accessed] at sameReply after
  rw [asked] at closed
  dsimp only at sameReply after closed lasting
  subst sameReply
  rw [same] at lasting
  have installing (needed : Needed second (target directory host) reinstall third) :
      last.Yields (decideInstall version (target directory host) host fetch) fun decision final =>
        ∃ after, Decides world (some ⟨some version, some host, fetch, reinstall⟩) decision after ∧
          after.Alike final ∧ after.logIsOpen = false := by
    apply (yields_decideInstall version (target directory host) host fetch).mono
    have allowing (allowed : Allowed last) : Allowed world := by
      rwa [Allowed, lasting] at allowed
    intro decision final reached
    obtain ⟨rfl, ⟨value, set, refused, rfl⟩ | ⟨allowed, status, none, rfl⟩ |
      ⟨allowed, asset, found, rfl⟩⟩ := reached
    · rw [lasting] at set
      exact ⟨third, .disabled ready needed set refused, after, closed⟩
    · exact ⟨third, .unsupported ready needed (allowing allowed) none, after, closed⟩
    · exact ⟨third, .install ready needed (allowing allowed) found, after, closed⟩
  cases answer with
  | error errno =>
      simp only [Bool.false_eq_true, if_false]
      exact installing ⟨_, asked, nofun⟩
  | ok =>
      simp only [if_true]
      cases reinstall with
      | true =>
          simp only [if_true, World.yields_bind, World.yields_note]
          exact installing ⟨_, asked, fun _ => rfl⟩
      | false =>
          simp only [Bool.false_eq_true, if_false, World.yields_bind, World.yields_note,
            Program.pure_eq, World.yields_done]
          exact ⟨third, .cached ready asked, after, closed⟩

/-- A decision is made by the conditions in their order. -/
theorem yields_decide (sound : world.FaultsFail) (closed : world.logIsOpen = false)
    (request : Option Request) :
    world.Yields (decide request) fun decision bare => ∃ after,
      Decides world request decision after ∧ after.Alike bare ∧ after.logIsOpen = false := by
  rcases request with _ | ⟨_ | version, _ | host, fetch, reinstall⟩
  · exact World.Yields.done ⟨world, .incomplete (by simp), .refl _, closed⟩
  · exact World.Yields.done ⟨world, .incomplete (by simp), .refl _, closed⟩
  · exact World.Yields.done ⟨world, .incomplete (by simp), .refl _, closed⟩
  · exact World.Yields.done ⟨world, .incomplete (by simp), .refl _, closed⟩
  simp only [decide, World.yields_bind]
  apply yields_overridePath.mono
  intro override first reached
  rcases reached with ⟨rfl, passed⟩ | ⟨path, rfl, named, there⟩
  · have settled := passed.settled
    have same : first.surroundings = world.surroundings := settled.descends.surroundings
    have firstClosed := settled.closed closed
    simp only [World.yields_bind]
    apply (yields_setUp (settled.descends.faultsFail sound) firstClosed version).descends.mono
    intro prepared bare reached
    obtain ⟨⟨rfl, rfl, rfl⟩ | ⟨named, unknown, rfl, rfl⟩ |
      ⟨home, status, second, named, known, ensured, alike, still, verdict⟩, descends⟩ := reached
    · simp only [Program.pure_eq, World.yields_done]
      exact ⟨_, .noVersion passed, .refl _, firstClosed⟩
    · rw [same] at unknown
      simp only [Program.pure_eq, World.yields_done]
      exact ⟨_, .noHome passed named unknown, .refl _, firstClosed⟩
    · rw [same] at known
      rcases verdict with ⟨failed, rfl⟩ | ⟨went, rfl⟩
      · simp only [Program.pure_eq, World.yields_done]
        exact ⟨second, .noDirectory passed named known ensured failed, alike, still⟩
      · have ready : Prepared world version (Cache.directory home version) second :=
          ⟨named, home, first, status, passed, known, rfl, ensured, went⟩
        exact yields_decideCached ready alike still (descends.surroundings.trans same)
  · simp only [World.yields_bind, World.yields_note, Program.pure_eq, World.yields_done]
    refine ⟨first, .override named there, .refl _, ?_⟩
    rw [World.logIsOpen, World.accessed_files there]
    exact closed

/-! ### What a decision does to the tree -/

/-- The cache path of a request, which is empty when there is none. -/
def cachePath (surroundings : Surroundings) (request : Option Request) : Bytes :=
  match request.bind Request.version, surroundings.home with
  | some version, some home => Cache.directory home version
  | _, _ => []

theorem cachePath_eq {surroundings : Surroundings} {home : Bytes} {host : Option Platform}
    {fetch : Fetch} {reinstall : Bool} (known : surroundings.home = some home) :
    cachePath surroundings (some ⟨some version, host, fetch, reinstall⟩) =
      Cache.directory home version := by
  unfold cachePath
  rw [known]
  rfl

theorem ensured_tree {second : World} {status : Status} {directory : Bytes}
    (sound : first.FaultsFail) (closed : first.logIsOpen = false)
    (ended : first.run (Directory.ensure (some directory)) = (some status, second)) :
    Tree.Made (Mode.masked 0o755 first.surroundings.mask) (Directory.beginnings directory)
        first.files.tree second.files.tree ∧
      (status.failed = false → ∃ parent mode,
        second.files.tree.find directory = .ok (.taken parent (.directory mode))) := by
  obtain ⟨other, bare, ran, made, _, verdict⟩ := Directory.yields_ensure sound directory
  obtain ⟨same, alike, _⟩ := (World.Alike.refl first).run
    ((Directory.ensure_local (some directory)).mono fun _ => Call.IsLocal.plain) closed
  rw [ran, ended] at same alike
  cases same
  rw [← congrArg FileSystem.tree alike.files] at made verdict
  refine ⟨made, fun went => ?_⟩
  rcases verdict with failed | ⟨_, found⟩
  · rw [went] at failed
    cases failed
  · exact found

theorem Prepared.tree {directory : Bytes} {second : World}
    (prepared : Prepared world version directory second) (sound : world.FaultsFail)
    (closed : world.logIsOpen = false) :
    (∃ home, world.surroundings.home = some home ∧ directory = Cache.directory home version) ∧
      Tree.Made (Mode.masked 0o755 world.surroundings.mask) (Directory.beginnings directory)
        world.files.tree second.files.tree ∧
      ∃ parent mode, second.files.tree.find directory = .ok (.taken parent (.directory mode)) := by
  obtain ⟨home, first, status, passed, known, shape, ended, went⟩ := prepared.ensured
  have settled := passed.settled
  obtain ⟨made, found⟩ := ensured_tree (settled.descends.faultsFail sound)
    (settled.closed closed) ended
  rw [settled.descends.surroundings, settled.files] at made
  exact ⟨⟨home, known, shape⟩, made, found went⟩

theorem Needed.files {target : Bytes} {reinstall : Bool} {second third : World}
    (needed : Needed second target reinstall third) : third.files = second.files := by
  obtain ⟨reply, asked, _⟩ := needed
  exact World.accessed_files asked

/-- A decision makes missing directories on the way to the cache directory, and nothing else. -/
theorem Decides.made {request : Option Request} {decision : Decision} {after : World}
    (decides : Decides world request decision after) (sound : world.FaultsFail)
    (closed : world.logIsOpen = false) :
    Tree.Made (Mode.masked 0o755 world.surroundings.mask)
      (Directory.beginnings (cachePath world.surroundings request)) world.files.tree
      after.files.tree := by
  have ready {version directory : Bytes} {host : Platform} {fetch : Fetch} {reinstall : Bool}
      {second third : World} (prepared : Prepared world version directory second)
      (files : third.files = second.files) :
      Tree.Made (Mode.masked 0o755 world.surroundings.mask)
        (Directory.beginnings (cachePath world.surroundings
          (some ⟨some version, some host, fetch, reinstall⟩))) world.files.tree
        third.files.tree := by
    obtain ⟨⟨home, known, rfl⟩, made, _⟩ := prepared.tree sound closed
    rwa [cachePath_eq known, files]
  cases decides with
  | incomplete missing => exact .refl _
  | override named there =>
      rw [World.accessed_files there]
      exact .refl _
  | noVersion passed =>
      rw [passed.settled.files]
      exact .refl _
  | noHome passed named unknown =>
      rw [passed.settled.files]
      exact .refl _
  | noDirectory passed named known ended failed =>
      have settled := passed.settled
      have made := (ensured_tree (settled.descends.faultsFail sound) (settled.closed closed)
        ended).1
      rw [settled.descends.surroundings, settled.files] at made
      rwa [cachePath_eq known]
  | cached prepared there => exact ready prepared (World.accessed_files there)
  | disabled prepared needed set refused => exact ready prepared needed.files
  | unsupported prepared needed allowed none => exact ready prepared needed.files
  | install prepared needed allowed found => exact ready prepared needed.files

/-- Only a status that fails is settled for an error. -/
theorem Decides.failed {request : Option Request} {status : Status} {after : World}
    (decides : Decides world request (.settled (.error status)) after) :
    status.failed = true := by
  cases decides with
  | incomplete missing => exact Status.failed_error _ _
  | noVersion passed => exact Status.failed_error _ _
  | noHome passed named unknown => exact Status.failed_error _ _
  | noDirectory passed named known ended failed => exact failed
  | disabled prepared needed set refused => exact Status.failed_error _ _
  | unsupported prepared needed allowed none =>
      rw [Platform.asset_refused none]
      exact Status.failed_error _ _

/-! ### A fixed world -/

/-- Only the home directory is set here, and a fetch that is given writes three bytes. -/
def homeWorld : World where
  surroundings := {
    environment := fun setting => if setting = .home then some "/h" else none
    fetcher := { content := some "abc" } }

def givenRequest (version : Bytes) : Option Request :=
  some { version := some version, host := some ⟨.linux, .x86_64, "linux", "x86_64"⟩, fetch := .given }

end Resolve

end Launcher
