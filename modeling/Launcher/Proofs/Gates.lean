/-
This file says when a resolution fetches. It fetches when all of its conditions hold, once, and
otherwise it leaves no event and at most makes directories.
-/

import Launcher.Proofs.Conditions
import Launcher.Proofs.Run.History

namespace Launcher

/-! ### Calls of a fetch -/

theorem Call.IsInner.returns {call : Call} (inner : call.IsInner) : call.Returns := by
  cases call with
  | execute path arguments => exact inner
  | _ => trivial

theorem Call.BesideFetch.noEvent {call : Call} (beside : call.BesideFetch) :
    call.event? = none := by
  cases call with
  | fetch address path => exact absurd trivial beside.2
  | transfer request => exact absurd trivial beside.2
  | execute path arguments => exact beside.1.elim
  | _ => rfl

theorem Call.IsQuiet.noEvent {call : Call} (quiet : call.IsQuiet) : call.event? = none := by
  cases call with
  | fetch address path => exact quiet.elim
  | transfer request => exact quiet.elim
  | execute path arguments => exact quiet.elim
  | _ => rfl

/-- A fetch that is given is one event. A download is the transfer from the address, or no event
when it ends before. -/
def Fetch.MayCause (fetch : Fetch) (address path : Bytes) (events : List Event) : Prop :=
  match fetch with
  | .given => events = [.fetch address path]
  | .download => events = [] ∨ events = [.transfer (.to address (some [Release.userAgent]))]

theorem Download.transfer_events (world : World) (address : Bytes)
    (headers : Option (List Bytes)) :
    world.events (transfer address headers) = [.transfer (.to address headers)] := by
  have quiet (script : Transfer.Script) :
      (receive address script.events >>= fun complete =>
        if complete then pure script.ending else pure script.ending.stopped).Only Call.IsQuiet := by
    refine .bind ((receive_attends [] _ _).mono fun _ => Call.Attends.quiet) fun complete => ?_
    split <;> trivial
  rw [transfer, Program.transfer, World.events_request rfl,
    World.events_only (quiet _) fun _ => Call.IsQuiet.noEvent]
  rfl

/-- A download makes one transfer at most. -/
theorem Download.file_events (world : World) (address output : Bytes)
    (headers : Option (List Bytes)) :
    world.events (file (some address) (some output) headers) = [] ∨
      world.events (file (some address) (some output) headers) =
        [.transfer (.to address headers)] := by
  rw [file_eq, Program.openOutput, World.events_request rfl]
  cases (world.answerFile (.openOutput output)).1 with
  | error errno => exact .inl rfl
  | ok =>
      dsimp only
      rw [Program.outputIsRegular, World.events_request rfl, Program.prepareTransfer,
        World.events_request rfl]
      simp only [Call.event?, Option.toList_none, List.nil_append]
      split
      · rw [World.events_bind_only (conclude_attends _ _ _) fun _ attends => attends.quiet.noEvent]
        exact .inr (transfer_events _ _ _)
      · refine .inl (World.events_only (?_ : Program.Only (Call.Attends output) _)
          fun _ attends => attends.quiet.noEvent)
        exact .bind (.request trivial) fun _ => .bind (discard_attends _ _) fun _ => trivial

theorem Fetch.mayCause_events (world : World) (fetch : Fetch) (address path : Bytes) :
    fetch.MayCause address path (world.events (fetch.run address path)) := by
  cases fetch with
  | given => rfl
  | download => exact Download.file_events world address path _

/-- A fetch makes a call that nothing else makes. -/
theorem Fetch.run_asks (world : World) (fetch : Fetch) (address path : Bytes) :
    ∃ call ∈ world.history (fetch.run address path), call.OfFetch := by
  cases fetch with
  | given => exact ⟨.fetch address path, List.mem_cons_self, trivial⟩
  | download => exact ⟨.file (.openOutput path), List.mem_cons_self, trivial⟩

/-! ### Installations -/

namespace Install

variable {world ready : World}

/-- An installation that could copy a name fetches once, and the fetch gets the temporary name. -/
theorem history_run (copied : world.strike .duplicate none = (none, ready)) (fetch : Fetch)
    (address target : Bytes) (executable : Bool) :
    ∃ back, world.history (run fetch address target executable) = .processId :: .duplicate ::
        (ready.history (fetch.run address (temporary target world.surroundings.processId)) ++
          back) ∧ ∀ call ∈ back, call.BesideFetch := by
  have answered : world.answer .duplicate = (some true, ready) := by
    simp only [World.answer, copied, Option.isNone_none]
  rw [run_eq, Program.processId, World.history_request rfl, Program.duplicate,
    World.history_request answered]
  simp only [if_true, place_eq, Program.bind_assoc]
  obtain ⟨back, split, beside⟩ := ready.history_bind_only
    (fetch.run address (temporary target world.surroundings.processId))
    fun fetched => .bind (afterFetch_placing
      (temporary target world.surroundings.processId) target executable fetched)
      fun outcome => (cleanUp_handles (temporary target world.surroundings.processId)
        outcome).mono fun _ => Call.Handles.placing
  exact ⟨back, by rw [split], fun call among => (beside call among).besideFetch⟩

/-- Without memory for a copy of a name nothing is fetched. -/
theorem run_refused {errno : Errno} (refused : world.strike .duplicate none = (some errno, ready))
    (fetch : Fetch) (address target : Bytes) (executable : Bool) :
    world.run (run fetch address target executable) =
        (some (.error .general .outOfMemory), ready) ∧
      world.history (run fetch address target executable) = [.processId, .duplicate] := by
  have answered : world.answer .duplicate = (some false, ready) := by
    simp only [World.answer, refused, Option.isNone_some]
  rw [run_eq, Program.processId, World.history_request rfl, World.run_request rfl,
    Program.duplicate, World.history_request answered, World.run_request answered]
  exact ⟨rfl, rfl⟩

end Install

namespace Resolve

variable {world first second third : World} {version directory : Bytes}

/-! ### Conditions of a fetch -/

/-- All conditions of a fetch hold, one after the other, and the last one leaves the world in which
the fetch is ready to start. -/
inductive ReachesFetch (world : World) :
    Option Request → Fetch → (address temporary : Bytes) → (ready : World) → Prop
  | all {version host fetch reinstall directory second third asset ready}
      (prepared : Prepared world version directory second)
      (needed : Needed second (target directory host) reinstall third)
      (allowed : Allowed world) (found : host.asset = .ok asset)
      (copied : third.strike .duplicate none = (none, ready)) :
      ReachesFetch world (some ⟨some version, some host, fetch, reinstall⟩) fetch
        (Release.assetAddress version asset)
        (Install.temporary (target directory host) world.surroundings.processId) ready

theorem PassesOverride.unique (left : PassesOverride world first)
    (right : PassesOverride world second) : first = second := by
  unfold PassesOverride at left right
  split at left
  · rename_i unset
    rw [unset] at right
    exact left.trans right.symm
  · rename_i path set
    rw [set] at right
    obtain ⟨errno, refused⟩ := left
    obtain ⟨other, refusedToo⟩ := right
    exact (Prod.mk.inj (refused.symm.trans refusedToo)).2

/-- An override that is there is not passed. -/
theorem PassesOverride.absent (passed : PassesOverride world first) {path : Bytes}
    (named : world.surroundings.setting .overridePath = some path)
    (there : world.answerFile (.access path) = (.ok (), second)) : False := by
  unfold PassesOverride at passed
  rw [named] at passed
  obtain ⟨errno, refused⟩ := passed
  cases (Prod.mk.inj (refused.symm.trans there)).1

theorem Prepared.unique {other : Bytes} (left : Prepared world version directory second)
    (right : Prepared world version other third) : directory = other ∧ second = third := by
  obtain ⟨home, before, status, passed, known, rfl, ensured, _⟩ := left.ensured
  obtain ⟨home', before', status', passed', known', rfl, ensured', _⟩ := right.ensured
  cases passed.unique passed'
  cases known.symm.trans known'
  exact ⟨rfl, (Prod.mk.inj (ensured.symm.trans ensured')).2⟩

/-- A directory that is ensured is not refused as well. -/
theorem Prepared.notFailed {home : Bytes} {status : Status}
    (prepared : Prepared world version directory third) (passed : PassesOverride world first)
    (known : world.surroundings.home = some home)
    (ensured : first.run (Directory.ensure (some (Cache.directory home version))) =
      (some status, second)) : status.failed = false := by
  obtain ⟨home', before, status', passed', known', rfl, ensured', went⟩ := prepared.ensured
  cases passed.unique passed'
  cases known.symm.trans known'
  cases (Prod.mk.inj (ensured.symm.trans ensured')).1
  exact went

theorem Needed.unique {other : World} {path : Bytes} {reinstall : Bool}
    (left : Needed second path reinstall third)
    (right : Needed second path reinstall other) : third = other := by
  obtain ⟨reply, asked, _⟩ := left
  obtain ⟨reply', asked', _⟩ := right
  exact (Prod.mk.inj (asked.symm.trans asked')).2

/-- When all conditions of an installation hold, nothing else can be decided. -/
theorem Decides.install_of {request : Option Request} {decision : Decision} {after : World}
    {host : Platform} {fetch : Fetch} {reinstall : Bool} {asset : Bytes}
    (decides : Decides world request decision after)
    (asked : request = some ⟨some version, some host, fetch, reinstall⟩)
    (prepared : Prepared world version directory second)
    (needed : Needed second (target directory host) reinstall third)
    (allowed : Allowed world) (found : host.asset = .ok asset) :
    decision = .install fetch (Release.assetAddress version asset)
      (target directory host) (host.system ≠ .windows) ∧ after = third := by
  cases decides with
  | incomplete missing => exact absurd asked (missing _ _ _ _)
  | override named there =>
      obtain ⟨home, before, status, passed, _⟩ := prepared.ensured
      exact (passed.absent named there).elim
  | noVersion passed =>
      cases asked
      exact absurd rfl prepared.named
  | noHome passed named unknown =>
      obtain ⟨home, before, status, _, known, _⟩ := prepared.ensured
      cases known.symm.trans unknown
  | noDirectory passed named known ensured failed =>
      cases asked
      cases failed.symm.trans (prepared.notFailed passed known ensured)
  | cached ready there =>
      cases asked
      obtain ⟨rfl, rfl⟩ := prepared.unique ready
      obtain ⟨reply, accessed, again⟩ := needed
      cases (Prod.mk.inj (accessed.symm.trans there)).1
      cases again rfl
  | disabled ready wanted set refused => exact absurd refused (allowed _ set)
  | unsupported ready wanted allowing noAsset =>
      cases asked
      cases found.symm.trans noAsset
  | install ready wanted allowing known =>
      cases asked
      obtain ⟨rfl, rfl⟩ := prepared.unique ready
      cases found.symm.trans known
      exact ⟨rfl, (needed.unique wanted).symm⟩

theorem Decides.install_unique {request : Option Request} {decision : Decision}
    {fetch : Fetch} {address path : Bytes} {executable : Bool} {last other : World}
    (installs : Decides world request (.install fetch address path executable) last)
    (decides : Decides world request decision other) :
    decision = .install fetch address path executable ∧ other = last := by
  cases installs with
  | install prepared needed allowed found => exact decides.install_of rfl prepared needed allowed found

/-! ### Resolutions -/

/-- The fetch is made once, in a world like the one in which it is ready to start, and no other
call leaves an event. -/
def FetchesOnce (world : World) (request : Option Request) (fetch : Fetch)
    (address temporary : Bytes) (ready after : World) : Prop :=
  ∃ (front : List Call) (middle : World) (back : List Call), middle.Alike ready ∧
    world.history (run request) = front ++ middle.history (fetch.run address temporary) ++ back ∧
    (∀ call ∈ front ++ back, ¬ call.OfFetch) ∧
    ∃ events, fetch.MayCause address temporary events ∧
      after.transcript.events = world.transcript.events ++ events

/-- Without a fetch there is no event, only directories are new in the tree, and the outcome is the
one of the first condition that does not hold. Memory for the temporary name is the last one. -/
def SettlesAlone (world : World) (request : Option Request) (outcome : Except Status Bytes)
    (after : World) : Prop :=
  after.transcript.events = world.transcript.events ∧
    (∀ location, after.files.tree.get? location = world.files.tree.get? location ∨
      world.files.tree.get? location = none ∧
        ∃ mode, after.files.tree.get? location = some (.directory mode)) ∧
    ∃ decision last, Decides world request decision last ∧
      (decision = .settled outcome ∨
        (∃ fetch address target executable,
          decision = .install fetch address target executable) ∧
        (∃ errno, (last.strike .duplicate none).1 = some errno) ∧
        outcome = .error (.error .general .outOfMemory))

/-- A decision that is run is decided by the conditions. -/
theorem run_decide (sound : world.FaultsFail) (closed : world.logIsOpen = false)
    (request : Option Request) :
    ∃ decision middle last, world.run (decide request) = (some decision, middle) ∧
      middle.Alike last ∧ Decides world request decision last ∧
      last.surroundings.processId = world.surroundings.processId := by
  obtain ⟨decision, middle, bare, ran, alike, _, ⟨last, decides, alikeToo, _⟩, descends⟩ :=
    (yields_decide sound closed request).descends.run
      ((decide_local request).mono fun _ => Call.IsLocal.plain) closed
  refine ⟨decision, middle, last, ran, alike.trans alikeToo.symm, decides, ?_⟩
  rw [alikeToo.processId, descends.surroundings]

/-- When all conditions of a fetch hold, an installation is decided and can copy the name. -/
theorem ReachesFetch.decided {request : Option Request} {fetch : Fetch}
    {address temporary : Bytes} {ready last : World} {decision : Decision}
    (reaches : ReachesFetch world request fetch address temporary ready)
    (decides : Decides world request decision last) :
    ∃ path executable, decision = .install fetch address path executable ∧
      temporary = Install.temporary path world.surroundings.processId ∧
      last.strike .duplicate none = (none, ready) := by
  cases reaches with
  | all prepared needed allowed found copied =>
      obtain ⟨rfl, rfl⟩ := decides.install_of rfl prepared needed allowed found
      exact ⟨_, _, rfl, rfl, copied⟩

theorem Decides.reachesFetch {request : Option Request} {fetch : Fetch}
    {address path : Bytes} {executable : Bool} {ready last : World}
    (decides : Decides world request (.install fetch address path executable) last)
    (copied : last.strike .duplicate none = (none, ready)) :
    ReachesFetch world request fetch address
      (Install.temporary path world.surroundings.processId) ready := by
  cases decides with
  | install prepared needed allowed found => exact .all prepared needed allowed found copied

theorem history_decide (world : World) (request : Option Request) :
    ∀ call ∈ world.history (decide request), call.BesideFetch :=
  World.history_only ((decide_local request).mono fun _ => Call.IsLocal.besideFetch)

/-- The events of a resolution are those of all its calls. -/
theorem run_events (closed : world.logIsOpen = false) (request : Option Request) :
    (world.run (run request)).2.transcript.events =
      world.transcript.events ++ world.events (run request) :=
  (World.run_transcript ((run_inner request).mono fun _ => Call.IsInner.plain) closed).1

theorem fetchesOnce_of {request : Option Request} {fetch : Fetch} {address path : Bytes}
    {executable : Bool} {middle last ready : World} (closed : world.logIsOpen = false)
    (ran : world.run (decide request) = (some (.install fetch address path executable), middle))
    (alike : middle.Alike last) (copied : last.strike .duplicate none = (none, ready)) :
    FetchesOnce world request fetch address
      (Install.temporary path last.surroundings.processId) ready (world.run (run request)).2 := by
  obtain ⟨sameReply, alikeReady⟩ := alike.strike .duplicate none
  rw [copied] at sameReply alikeReady
  have copiedToo : middle.strike .duplicate none = (none, (middle.strike .duplicate none).2) :=
    Prod.ext sameReply rfl
  obtain ⟨inner, started, besideInner⟩ :=
    Install.history_run copiedToo fetch address path executable
  obtain ⟨outer, split, besideOuter⟩ := middle.history_bind_only
    (Install.run fetch address path executable) (afterInstall_placing path)
  have number : middle.surroundings.processId = last.surroundings.processId := alike.processId
  have whole : world.history (run request) =
      (world.history (decide request) ++ [.processId, .duplicate]) ++
        (middle.strike .duplicate none).2.history
          (fetch.run address (Install.temporary path last.surroundings.processId)) ++
        (inner ++ outer) := by
    rw [run_eq, World.history_bind ran, carryOut_install, split, started, number]
    simp only [List.append_assoc, List.cons_append, List.nil_append]
  have beside : ∀ call ∈ (world.history (decide request) ++ [.processId, .duplicate]) ++
      (inner ++ outer), call.BesideFetch := by
    intro call among
    simp only [List.mem_append, List.mem_cons, List.not_mem_nil, or_false] at among
    rcases among with (decided | rfl | rfl) | installed | reported
    · exact history_decide world request call decided
    · exact ⟨trivial, id⟩
    · exact ⟨trivial, id⟩
    · exact besideInner call installed
    · exact (besideOuter call reported).besideFetch
  refine ⟨_, _, _, alikeReady, whole, fun call among => (beside call among).2, _,
    Fetch.mayCause_events (middle.strike .duplicate none).2 fetch address _, ?_⟩
  have silent (calls : List Call) (all : ∀ call ∈ calls, call.BesideFetch) :
      calls.filterMap Call.event? = [] :=
    List.filterMap_eq_nil_iff.mpr fun call among => (all call among).noEvent
  rw [run_events closed, World.events, whole, List.filterMap_append, List.filterMap_append,
    silent _ fun call among => beside call (List.mem_append_left _ among),
    silent _ fun call among => beside call (List.mem_append_right _ among),
    List.nil_append, List.append_nil]
  rfl

/-- A resolution that makes no call of a fetch leaves no event, and the tree of its decision. -/
theorem settlesAlone_of {request : Option Request} {outcome : Except Status Bytes}
    {decision : Decision} {last after : World} (sound : world.FaultsFail)
    (closed : world.logIsOpen = false)
    (ran : world.run (run request) = (some outcome, after))
    (beside : ∀ call ∈ world.history (run request), call.BesideFetch)
    (decides : Decides world request decision last) (same : after.files = last.files)
    (reason : decision = .settled outcome ∨
      (∃ fetch address target executable,
        decision = .install fetch address target executable) ∧
      (∃ errno, (last.strike .duplicate none).1 = some errno) ∧
      outcome = .error (.error .general .outOfMemory)) :
    SettlesAlone world request outcome after := by
  refine ⟨?_, ?_, decision, last, decides, reason⟩
  · have events := run_events closed request
    have none : world.events (run request) = [] :=
      List.filterMap_eq_nil_iff.mpr fun call among => (beside call among).noEvent
    rw [ran, none, List.append_nil] at events
    exact events
  · have made := decides.made sound closed
    intro location
    rw [same]
    cases held : world.files.tree.get? location with
    | some node => exact .inl (made.kept held)
    | none =>
        rcases made.none_or_directory held with none | directory
        · exact .inl none
        · exact .inr ⟨rfl, directory⟩

/-- The conditions decide on the fetch: it is made exactly when all of them hold, and then it is
made once; otherwise the resolution settles alone. -/
structure Gated (world : World) (request : Option Request) (outcome : Except Status Bytes)
    (after : World) : Prop where
  fetches_iff : (∃ call ∈ world.history (run request), call.OfFetch) ↔
    ∃ fetch address temporary ready, ReachesFetch world request fetch address temporary ready
  once : ∀ fetch address temporary ready,
    ReachesFetch world request fetch address temporary ready →
      FetchesOnce world request fetch address temporary ready after
  alone : (¬ ∃ fetch address temporary ready,
    ReachesFetch world request fetch address temporary ready) →
      SettlesAlone world request outcome after

theorem SettlesAlone.gated {request : Option Request} {outcome : Except Status Bytes}
    {after : World} (settles : SettlesAlone world request outcome after)
    (beside : ∀ call ∈ world.history (run request), call.BesideFetch)
    (never : ∀ fetch address temporary ready,
      ¬ ReachesFetch world request fetch address temporary ready) :
    Gated world request outcome after := by
  refine ⟨⟨?_, ?_⟩, ?_, fun _ => settles⟩
  · intro reached
    obtain ⟨call, among, ofFetch⟩ := reached
    exact absurd ofFetch (beside call among).2
  · intro reached
    obtain ⟨fetch, address, temporary, ready, reaches⟩ := reached
    exact absurd reaches (never _ _ _ _)
  · intro fetch address temporary ready reaches
    exact absurd reaches (never _ _ _ _)

section

variable {request : Option Request} {outcome : Except Status Bytes} {fetch : Fetch}
  {address path : Bytes} {executable : Bool} {middle last after : World}

theorem gated_settled {answer : Except Status Bytes} (sound : world.FaultsFail)
    (closed : world.logIsOpen = false)
    (ran : world.run (decide request) = (some (.settled answer), middle))
    (alike : middle.Alike last) (decides : Decides world request (.settled answer) last)
    (ended : world.run (run request) = (some outcome, after)) :
    Gated world request outcome after := by
  have split : world.history (run request) = world.history (decide request) := by
    rw [run_eq, World.history_bind ran, carryOut, Program.pure_eq, World.history_done,
      List.append_nil]
  have settled : world.run (run request) = (some answer, middle) := by
    rw [run_eq, World.run_bind, ran]
    rfl
  cases settled.symm.trans ended
  have beside := history_decide world request
  rw [← split] at beside
  apply (settlesAlone_of sound closed ended beside decides alike.files (.inl rfl)).gated beside
  intro fetch address temporary ready reaches
  obtain ⟨path, executable, same, _⟩ := reaches.decided decides
  cases same

theorem gated_fetched {ready : World} (closed : world.logIsOpen = false)
    (ran : world.run (decide request) = (some (.install fetch address path executable), middle))
    (alike : middle.Alike last)
    (decides : Decides world request (.install fetch address path executable) last)
    (number : last.surroundings.processId = world.surroundings.processId)
    (copied : last.strike .duplicate none = (none, ready))
    (ended : world.run (run request) = (some outcome, after)) :
    Gated world request outcome after := by
  have once := fetchesOnce_of closed ran alike copied
  rw [ended, number] at once
  have reaches := decides.reachesFetch copied
  refine ⟨⟨fun _ => ⟨_, _, _, _, reaches⟩, fun _ => ?_⟩, ?_,
    fun never => absurd ⟨_, _, _, _, reaches⟩ never⟩
  · obtain ⟨front, start, back, _, whole, _⟩ := once
    obtain ⟨call, among, ofFetch⟩ := Fetch.run_asks start fetch address
      (Install.temporary path world.surroundings.processId)
    refine ⟨call, ?_, ofFetch⟩
    rw [whole]
    exact List.mem_append_left _ (List.mem_append_right _ among)
  · intro other place temporary start reachesToo
    obtain ⟨_, _, same, rfl, copiedToo⟩ := reachesToo.decided decides
    cases same
    cases copied.symm.trans copiedToo
    exact once

theorem gated_refused {errno : Errno} (sound : world.FaultsFail)
    (closed : world.logIsOpen = false)
    (ran : world.run (decide request) = (some (.install fetch address path executable), middle))
    (alike : middle.Alike last)
    (decides : Decides world request (.install fetch address path executable) last)
    (struck : (last.strike .duplicate none).1 = some errno)
    (ended : world.run (run request) = (some outcome, after)) :
    Gated world request outcome after := by
  have refused : middle.strike .duplicate none =
      (some errno, (middle.strike .duplicate none).2) :=
    Prod.ext ((alike.strike .duplicate none).1.trans struck) rfl
  obtain ⟨installed, started⟩ := Install.run_refused refused fetch address path executable
  have split : world.history (run request) =
      world.history (decide request) ++ [.processId, .duplicate] := by
    rw [run_eq, World.history_bind ran, carryOut_install, World.history_bind installed, started]
    rfl
  have settled : world.run (run request) = (some (.error (.error .general .outOfMemory)),
      (middle.strike .duplicate none).2) := by
    rw [run_eq, World.run_bind, ran]
    dsimp only
    rw [carryOut_install, World.run_bind, installed]
    rfl
  cases settled.symm.trans ended
  have beside : ∀ call ∈ world.history (run request), call.BesideFetch := by
    intro call among
    simp only [split, List.mem_append, List.mem_cons, List.not_mem_nil, or_false] at among
    rcases among with decided | rfl | rfl
    · exact history_decide world request call decided
    · exact ⟨trivial, id⟩
    · exact ⟨trivial, id⟩
  have settles := settlesAlone_of sound closed ended beside decides alike.files
    (.inr ⟨⟨_, _, _, _, rfl⟩, ⟨errno, struck⟩, rfl⟩)
  apply settles.gated beside
  intro other place temporary start reaches
  obtain ⟨_, _, _, _, copied⟩ := reaches.decided decides
  rw [copied] at struck
  cases struck

theorem gated (closed : world.logIsOpen = false) (sound : world.FaultsFail)
    (ended : world.run (run request) = (some outcome, after)) :
    Gated world request outcome after := by
  obtain ⟨decision, middle, last, ran, alike, decides, number⟩ := run_decide sound closed request
  cases decision with
  | settled answer => exact gated_settled sound closed ran alike decides ended
  | install fetch address path executable =>
      rcases struck : last.strike .duplicate none with ⟨_ | errno, ready⟩
      · exact gated_fetched closed ran alike decides number struck ended
      · exact gated_refused sound closed ran alike decides (by rw [struck]) ended

/-- What is settled by the conditions is settled without a fetch. -/
theorem Gated.not_fetches {answer : Except Status Bytes}
    (gated : Gated world request outcome after)
    (decides : Decides world request (.settled answer) last) :
    ¬ ∃ call ∈ world.history (run request), call.OfFetch := by
  intro fetches
  obtain ⟨other, place, temporary, ready, reaches⟩ := gated.fetches_iff.mp fetches
  obtain ⟨_, _, same, _⟩ := reaches.decided decides
  cases same

/-- An installation that succeeds has fetched. -/
theorem Gated.fetches {answer : Bytes} (gated : Gated world request (.ok answer) after)
    (decides : Decides world request (.install fetch address path executable) last) :
    ∃ call ∈ world.history (run request), call.OfFetch := by
  refine gated.fetches_iff.mpr (Classical.byContradiction fun never => ?_)
  obtain ⟨_, _, decision, other, decided, reason⟩ := gated.alone never
  obtain ⟨same, _⟩ := decides.install_unique decided
  rcases reason with settled | ⟨_, _, failed⟩
  · cases settled.symm.trans same
  · cases failed

end

/-- A resolution always ends, and its conditions decide on the fetch. -/
theorem run_gated {world : World} (closed : world.logIsOpen = false) (sound : world.FaultsFail)
    (request : Option Request) :
    ∃ outcome after, world.run (run request) = (some outcome, after) ∧
      Gated world request outcome after := by
  obtain ⟨outcome, after, ended⟩ := world.run_returns
    ((run_inner request).mono fun _ => Call.IsInner.returns)
  exact ⟨outcome, after, ended, gated closed sound ended⟩

/-- A version that is missing in an otherwise empty home directory is fetched. -/
theorem run_gated_homeWorld :
    ∃ outcome after, homeWorld.run (run (givenRequest "1.0")) = (some outcome, after) ∧
      Gated homeWorld (givenRequest "1.0") outcome after :=
  run_gated rfl (by simp [World.FaultsFail, homeWorld]) (givenRequest "1.0")

example : (homeWorld.run (run (givenRequest "1.0"))).2.transcript.events =
    [.fetch (Release.assetAddress "1.0" "deepseek-linux-x64")
      "/h/.deepseek/bin/1.0/deepseek.4242.tmp"] := by
  decide +kernel

end Resolve

end Launcher
