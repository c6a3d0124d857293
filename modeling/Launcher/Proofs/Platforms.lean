/-
This file says which hosts have a released asset. The names of a host, the table of the builds and
the list of supported labels agree about it.
-/

import Launcher.Platform
import Mathlib.Data.List.Forall2

namespace Launcher

/-! ### Texts of names -/

namespace Bytes

/-- A capital of ASCII comes 32 places before its small letter. -/
def IsCapitalOf (capital small : UInt8) : Prop :=
  65 ≤ capital ∧ capital ≤ 90 ∧ small = capital + 32

/-- Two bytes are the same, or the two cases of one letter. -/
def SameLetter (first second : UInt8) : Prop :=
  first = second ∨ IsCapitalOf first second ∨ IsCapitalOf second first

/-- Two texts differ in the case of their letters at most. -/
def SameLetters (first second : Bytes) : Prop := List.Forall₂ SameLetter first second

theorem lowerByte_capital {capital small : UInt8} (isCapital : IsCapitalOf capital small) :
    lowerByte capital = lowerByte small := by
  obtain ⟨least, most, rfl⟩ := isCapital
  have noCapital : ¬ (65 ≤ capital + 32 ∧ capital + 32 ≤ 90) := by grind
  rw [lowerByte, lowerByte, if_pos ⟨least, most⟩, if_neg noCapital]

theorem lowerByte_sameLetter {first second : UInt8} (same : SameLetter first second) :
    lowerByte first = lowerByte second := by
  rcases same with rfl | capital | capital
  · rfl
  · exact lowerByte_capital capital
  · exact (lowerByte_capital capital).symm

theorem lower_sameLetters {first second : Bytes} (same : SameLetters first second) :
    first.lower = second.lower := by
  induction same with
  | nil => rfl
  | cons byte _ inductionHypothesis =>
      rw [lower, lower, List.map_cons, List.map_cons, lowerByte_sameLetter byte]
      exact congrArg _ inductionHypothesis

theorem lowerByte_lowerByte (byte : UInt8) : lowerByte (lowerByte byte) = lowerByte byte := by
  unfold lowerByte
  grind

theorem lower_lower (text : Bytes) : text.lower.lower = text.lower := by
  rw [lower, lower, List.map_map]
  exact List.map_congr_left fun byte _ => lowerByte_lowerByte byte

/-- The items of a list stand between commas, and blanks may come before each. -/
def items (list : Bytes) : List Bytes :=
  (list.splitOn 44).map fun item => item.dropWhile (· = 32)

end Bytes

/-- The name that selects an operating system. -/
def OperatingSystem.name? : OperatingSystem → Option Bytes
  | .unknown => none
  | .linux => some "linux"
  | .macOS => some "darwin"
  | .windows => some "windows"

theorem OperatingSystem.ofName_eq_iff {system : OperatingSystem} {known name : Bytes}
    (named : system.name? = some known) : ofName name = system ↔ name = known := by
  constructor
  · rintro rfl
    unfold ofName at named
    split at named
    · rename_i same
      cases named
      exact same
    split at named
    · rename_i same
      cases named
      exact same
    split at named
    · rename_i same
      cases named
      exact same
    · cases named
  · rintro rfl
    cases system <;> cases named <;> decide

/-- The name of a processor that stands in labels. -/
def Processor.name? : Processor → Option Bytes
  | .unknown => none
  | .x86_64 => some "x86_64"
  | .arm64 => some "arm64"

/-- Two of the names stand for another one. -/
def Processor.canonical (name : Bytes) : Bytes :=
  if name = "amd64" then "x86_64" else if name = "aarch64" then "arm64" else name

theorem Processor.ofName_eq_iff {processor : Processor} {known name : Bytes}
    (named : processor.name? = some known) : ofName name = processor ↔ canonical name = known := by
  constructor
  · rintro rfl
    unfold ofName at named
    split at named
    · rename_i same
      cases named
      rcases same with rfl | rfl <;> decide
    split at named
    · rename_i same
      cases named
      rcases same with rfl | rfl <;> decide
    · cases named
  · rintro rfl
    unfold canonical at named
    split at named
    · rename_i same
      subst same
      cases processor <;> cases named
      decide
    split at named
    · rename_i same
      subst same
      cases processor <;> cases named
      decide
    · cases processor <;> cases named <;> decide

namespace Platform

/-! ### Builds -/

/-- The label of two names. -/
def label (system processor : Bytes) : Bytes := system ++ "/" ++ Processor.canonical processor

variable {platform first second : Platform} {build other : Build}

/-- The parts of a label of a build are names of its operating system and of its processor. -/
theorem label_build : ∀ build ∈ Build.all, ∃ system processor, build.system.name? = some system ∧
    build.processor.name? = some processor ∧ Bytes.slash ∉ system ∧ Bytes.slash ∉ processor ∧
    build.label = system ++ "/" ++ processor := by
  simp only [Build.all, List.forall_mem_cons, OperatingSystem.name?, Processor.name?,
    Option.some.injEq, exists_and_left, exists_eq_left', List.not_mem_nil, false_implies,
    implies_true, and_true]
  decide

/-- No two builds are for one pair, and no two have one asset. -/
theorem build_unique : ∀ build ∈ Build.all, ∀ other ∈ Build.all,
    build.system = other.system ∧ build.processor = other.processor ∨ build.asset = other.asset →
      build = other := by
  decide

/-- Only a build for one system has the extension, as the binary has there. -/
theorem extension_build : ∀ build ∈ Build.all,
    (".exe" : Bytes) <:+ build.asset ↔ (".exe" : Bytes) <:+ build.system.binaryName := by
  decide

/-- The items of the supported list are the labels of all builds. -/
theorem items_supported : Build.supported.items = Build.all.map Build.label := by decide

/-- An asset is that of the build for the pair. -/
theorem asset_eq_iff {asset : Bytes} : platform.asset = .ok asset ↔
    ∃ build ∈ Build.all, build.system = platform.system ∧
      build.processor = platform.processor ∧ build.asset = asset := by
  unfold Platform.asset
  constructor
  · intro found
    split at found <;> cases found
    rename_i build selected
    have fits := List.find?_some selected
    simp only [Bool.and_eq_true, beq_iff_eq] at fits
    exact ⟨build, List.mem_of_find?_eq_some selected, fits.1, fits.2, rfl⟩
  · rintro ⟨build, among, system, processor, rfl⟩
    split
    · rename_i other selected
      have fits := List.find?_some selected
      simp only [Bool.and_eq_true, beq_iff_eq] at fits
      rw [build_unique other (List.mem_of_find?_eq_some selected) build among
        (.inl ⟨fits.1.trans system.symm, fits.2.trans processor.symm⟩)]
    · rename_i none
      have unfit := List.find?_eq_none.mp none build among
      simp [system, processor] at unfit

theorem asset_refused {status : Status} (refused : platform.asset = .error status) :
    status = .error .platform .notSupported := by
  unfold Platform.asset at refused
  split at refused <;> cases refused
  rfl

/-- Some build is for the pair. -/
theorem hasAsset_iff : (∃ asset, platform.asset = .ok asset) ↔
    ∃ build ∈ Build.all, build.system = platform.system ∧ build.processor = platform.processor := by
  simp only [asset_eq_iff]
  constructor
  · rintro ⟨_, build, among, system, processor, _⟩
    exact ⟨build, among, system, processor⟩
  · rintro ⟨build, among, system, processor⟩
    exact ⟨build.asset, build, among, system, processor, rfl⟩

/-! ### Names of hosts -/

theorem label_eq_iff (among : build ∈ Build.all) {system processor : Bytes} :
    build.label = label system processor ↔
      build.system = .ofName system ∧ build.processor = .ofName processor := by
  obtain ⟨known, model, systemName, processorName, noSystem, noProcessor, parts⟩ :=
    label_build build among
  rw [eq_comm (b := OperatingSystem.ofName system), eq_comm (b := Processor.ofName processor),
    OperatingSystem.ofName_eq_iff systemName, Processor.ofName_eq_iff processorName, parts, label]
  have shape (first second : Bytes) :
      first ++ (("/" : Bytes)) ++ second = first ++ Bytes.slash :: second := by
    simp [show (("/" : Bytes)) = [Bytes.slash] from rfl]
  constructor
  · intro same
    rw [shape, shape] at same
    obtain ⟨known, _, model⟩ := (List.append_cons_inj_of_notMem noSystem noProcessor).mp same
    exact ⟨known.symm, model.symm⟩
  · rintro ⟨rfl, rfl⟩
    rfl

/-- These are the names, in small letters, of the hosts that have an asset. -/
def Supports (system processor : Bytes) : Prop :=
  (system = "linux" ∨ system = "windows") ∧ (processor = "x86_64" ∨ processor = "amd64") ∨
    system = "darwin" ∧ (processor = "x86_64" ∨ processor = "amd64" ∨ processor = "arm64" ∨
      processor = "aarch64")

theorem canonical_intel {processor : Bytes} :
    Processor.canonical processor = "x86_64" ↔ processor = "x86_64" ∨ processor = "amd64" := by
  have apart : ("arm64" : Bytes) ≠ ("x86_64" : Bytes) := by decide
  have other : ("aarch64" : Bytes) ≠ ("x86_64" : Bytes) := by decide
  unfold Processor.canonical
  grind

theorem canonical_arm {processor : Bytes} :
    Processor.canonical processor = "arm64" ↔ processor = "arm64" ∨ processor = "aarch64" := by
  have apart : ("x86_64" : Bytes) ≠ ("arm64" : Bytes) := by decide
  have other : ("amd64" : Bytes) ≠ ("arm64" : Bytes) := by decide
  have names : ("amd64" : Bytes) ≠ ("aarch64" : Bytes) := by decide
  unfold Processor.canonical
  grind

theorem supports_iff {system processor : Bytes} : Supports system processor ↔
    ∃ build ∈ Build.all, build.system = .ofName system ∧ build.processor = .ofName processor := by
  have systemIs (kind : OperatingSystem) {known : Bytes} (named : kind.name? = some known) :
      kind = .ofName system ↔ system = known :=
    eq_comm.trans (OperatingSystem.ofName_eq_iff named)
  have processorIs (kind : Processor) {known : Bytes} (named : kind.name? = some known) :
      kind = .ofName processor ↔ Processor.canonical processor = known :=
    eq_comm.trans (Processor.ofName_eq_iff named)
  simp only [Build.all, List.mem_cons, List.not_mem_nil, or_false, exists_eq_or_imp,
    exists_eq_left, systemIs .linux rfl, systemIs .macOS rfl, systemIs .windows rfl,
    processorIs .x86_64 rfl, processorIs .arm64 rfl, canonical_intel, canonical_arm]
  unfold Supports
  tauto

/-- What two names say about the asset of a host. -/
structure NamesAsset (systemName processorName : Option Bytes) (host : Platform) : Prop where
  supported : (∃ asset, host.asset = .ok asset) ↔
    Supports (systemName.getD []).lower (processorName.getD []).lower
  refused : ∀ status, host.asset = .error status → status = .error .platform .notSupported
  sameLetters : ∀ otherSystem otherProcessor : Option Bytes,
    Bytes.SameLetters (systemName.getD []) (otherSystem.getD []) →
      Bytes.SameLetters (processorName.getD []) (otherProcessor.getD []) →
        ofNames otherSystem otherProcessor = host
  again : ofNames (some host.systemName) (some host.processorName) = host
  listed : (∃ asset, host.asset = .ok asset) ↔
    label (systemName.getD []).lower (processorName.getD []).lower ∈ Build.supported.items

/-- The enumerated pair selects the asset, whatever names a host has. -/
structure PairSelects (host other : Platform) : Prop where
  same : other.system = host.system → other.processor = host.processor → other.asset = host.asset
  distinct : ∀ asset, host.asset = .ok asset → other.asset = .ok asset →
    other.system = host.system ∧ other.processor = host.processor
  extension : ∀ asset, host.asset = .ok asset →
    ((".exe" : Bytes) <:+ asset ↔ (".exe" : Bytes) <:+ host.binaryName)

theorem namesAsset (systemName processorName : Option Bytes) :
    NamesAsset systemName processorName (ofNames systemName processorName) := by
  constructor
  · rw [hasAsset_iff, supports_iff]
    rfl
  · exact fun status => asset_refused
  · intro otherSystem otherProcessor system processor
    simp only [ofNames, Bytes.lower_sameLetters system, Bytes.lower_sameLetters processor]
  · simp only [ofNames, Option.getD_some, Bytes.lower_lower]
  · rw [hasAsset_iff, items_supported, List.mem_map]
    simp only [ofNames]
    exact exists_congr fun build => and_congr_right fun among => (label_eq_iff among).symm

theorem pairSelects (host other : Platform) : PairSelects host other := by
  constructor
  · intro system processor
    rw [Platform.asset, Platform.asset, system, processor]
  · intro asset hostAsset otherAsset
    obtain ⟨build, among, system, processor, same⟩ := asset_eq_iff.mp hostAsset
    obtain ⟨_, amongToo, systemToo, processorToo, sameToo⟩ := asset_eq_iff.mp otherAsset
    cases build_unique _ among _ amongToo (.inr (same.trans sameToo.symm))
    exact ⟨systemToo.symm.trans system, processorToo.symm.trans processor⟩
  · intro asset hostAsset
    obtain ⟨build, among, system, _, rfl⟩ := asset_eq_iff.mp hostAsset
    rw [binaryName, ← system]
    exact extension_build build among

/-- The names of a host tell whether it has an asset, as its label does, and the pair that they
stand for tells which one. -/
theorem ofNames_selects (systemName processorName : Option Bytes) (host other : Platform) :
    NamesAsset systemName processorName (ofNames systemName processorName) ∧
      PairSelects host other :=
  ⟨namesAsset systemName processorName, pairSelects host other⟩

example : (ofNames (some "Darwin") (some "AARCH64")).asset = .ok "deepseek-macos-arm64" := by
  decide

end Platform

end Launcher
