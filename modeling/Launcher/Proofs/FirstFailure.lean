/-
This file says which failure a resolution reports that gets as far as the installation. It is the
first one, whatever fails behind it.
-/

import Launcher.Proofs.Gates
import Launcher.Proofs.Run.Attempt

namespace Launcher

open Program

namespace Transfer.Ending

/-- These codes of transfers have a cause of their own. -/
def causes : List (Int × Cause) := [(28, .timeout), (22, .httpStatus), (27, .outOfMemory)]

/-- A transfer only succeeds with the code zero, and any other code fails the network. -/
def outcome (ending : Ending) : Except Status Unit :=
  if ending.code = 0 then .ok ()
  else .error (.error .network ((causes.lookup ending.code).getD .transfer))

theorem verdict_status (ending : Ending) : ending.status.verdict = ending.outcome := by
  unfold status outcome
  simp only [timeoutCode, httpCode, memoryCode, causes, List.lookup_cons]
  by_cases success : ending.code = 0
  · simp [success, Status.verdict]
  by_cases timeout : ending.code = 28
  · simp [timeout, Status.verdict]
  by_cases http : ending.code = 22
  · simp [http, Status.verdict]
  by_cases memory : ending.code = 27
  · simp [memory, Status.verdict]
  · have others : (ending.code == 28) = false ∧ (ending.code == 22) = false ∧
        (ending.code == 27) = false := by
      simp [timeout, http, memory]
    simp [success, timeout, http, memory, others, Status.verdict]

/-- An ending only goes without a failure when its code is zero. -/
theorem status_of_not_failed {ending : Ending} (went : ending.status.failed = false) :
    ending.status = .ok := by
  by_cases success : ending.code = 0
  · rw [status, if_pos success]
  · have failure := ending.verdict_status
    rw [outcome, if_neg success, Status.verdict, went] at failure
    cases failure

end Transfer.Ending

/-! ### Downloads -/

namespace Download

variable {world : World}

/-- The transfer ends the line of its meter. -/
def carry (address : Bytes) (headers : Option (List Bytes)) : Program Transfer.Ending := do
  let ending ← transfer address headers
  endReadings
  pure ending

/-- These operations can fail once the output is open, in this order. -/
def filling (address : Bytes) (headers : Option (List Bytes)) : Attempt Unit := do
  prepareTransfer.orFailWith (.error .network .outOfMemory)
  (carry address headers).judged Transfer.Ending.outcome
  flush.orFail
  close.orFail

/-- These operations of a download can fail, in this order. -/
def attempt (address output : Bytes) (headers : Option (List Bytes)) : Attempt Unit := do
  (openOutput output).orFail
  filling address headers

theorem settle_answers {ending : Transfer.Ending} (failed : ending.status.failed = true)
    (address : Bytes) : (settle address ending).Answers (· = ending.status) := by
  rw [settle, if_pos failed]
  exact .after fun _ => rfl

/-- A close that fails as well changes nothing. -/
theorem finish_answers {status : Status} (failed : status.failed = true) :
    (finish status).Answers (· = status) := by
  refine .after fun reply => ?_
  cases reply with
  | ok => rfl
  | error errno => simp [failed, Program.Answers]

theorem settle_reports (sound : world.FaultsFail) {ending : Transfer.Ending}
    (went : ending.status = .ok) (address : Bytes) :
    world.Reports (settle address ending) flush.orFail := by
  have again : flush.orFail = flush.orFail >>= pure := (bind_pure _).symm
  have goes : ¬ ending.status.failed := by simp [went]
  rw [settle, if_neg goes, again]
  refine .orFail (World.refuses_flush sound) (fun errno => .after fun _ => rfl) ?_
  intro _ after ran
  rw [went]
  exact .ok

theorem finish_reports (sound : world.FaultsFail) : world.Reports (finish .ok) close.orFail := by
  have again : close.orFail = close.orFail >>= pure := (bind_pure _).symm
  rw [finish, again]
  exact .orFail (World.refuses_close sound) (fun errno => .after fun _ => rfl) fun _ _ _ => .ok

theorem leave_answers (output : Bytes) (regular : Bool) (status : Status) :
    (leave output regular status).Answers (· = status) := by
  unfold leave
  split
  · exact .after fun _ => rfl
  · rfl

theorem carry_inner (address : Bytes) (headers : Option (List Bytes)) :
    (carry address headers).Only Call.IsInner :=
  .bind ((transfer_ofResolution address headers).mono fun _ => Call.OfResolution.inner) fun _ =>
    .bind (.request trivial) fun _ => trivial

theorem fill_eq_carry (address : Bytes) (headers : Option (List Bytes)) :
    fill address headers = prepareTransfer >>= fun ready =>
      if ready then carry address headers >>= fun ending => settle address ending >>= finish
      else close >>= fun _ => pure (.error .network .outOfMemory) := by
  simp only [fill, carry, Program.bind_assoc]
  rfl

theorem fill_reports (sound : world.FaultsFail) (address : Bytes) (headers : Option (List Bytes)) :
    world.Reports (fill address headers) (filling address headers) := by
  rw [fill_eq_carry]
  refine .orFailWith rfl (Status.failed_error _ _) (.after fun _ => rfl) fun available => ?_
  rw [← funext Transfer.Ending.verdict_status]
  obtain ⟨ending, carried, ran⟩ := world.run_returns
    ((carry_inner address headers).mono fun _ => Call.IsInner.returns)
  have carriedSound := sound.run ((carry_inner address headers).mono fun _ => Call.IsInner.plain) ran
  refine .verdict ran ?_ fun went => ?_
  · intro failed
    refine .bind (settle_answers failed address) ?_
    rintro _ rfl
    exact finish_answers failed
  · have settles := settle_reports carriedSound (Transfer.Ending.status_of_not_failed went) address
    refine .bind settles (fun status failed => finish_answers failed) fun settled ran => ?_
    have plain : (settle address ending).Only Call.IsPlain :=
      (settle_fills address ending).mono fun _ fills => (fills.attends []).ofResolution.inner.plain
    exact finish_reports (carriedSound.run plain ran)

/-- A download reports its first failure. -/
theorem file_reports (sound : world.FaultsFail) (address output : Bytes)
    (headers : Option (List Bytes)) :
    world.Reports (file (some address) (some output) headers) (attempt address output headers) := by
  rw [file_eq_fill]
  refine .orFail (World.refuses_openOutput sound output) (fun errno => rfl) fun _ opened ran => ?_
  have plain : (openOutput output).Only Call.IsPlain := .request trivial
  refine .look rfl (.tail (fill_reports (sound.run plain ran) address headers) ?_ rfl)
  exact fun status _ => leave_answers output _ status

end Download

/-! ### Installations -/

/-- A fetcher that was given fails with its own status. -/
def Fetch.attempt (fetch : Fetch) (address path : Bytes) : Attempt Unit :=
  match fetch with
  | .download => Download.attempt address path (some [Release.userAgent])
  | .given => (Program.fetch address path).judged Status.verdict

/-- The first failure of a fetch is kept, and otherwise the program goes on behind it. -/
theorem Fetch.bind_reports {world : World} (sound : world.FaultsFail) (fetch : Fetch)
    (address path : Bytes) {next : Status → Program Status} {rest : Unit → Attempt Unit}
    (kept : ∀ status, status.failed = true → (next status).Answers (· = status))
    (went : ∀ status after, world.run (fetch.run address path) = (some status, after) →
      status.failed = false → after.Reports (next status) (rest ())) :
    world.Reports (fetch.run address path >>= next) (fetch.attempt address path >>= rest) := by
  cases fetch with
  | download =>
      exact .bind (Download.file_reports sound address path _) kept fun after ran =>
        went .ok after ran Status.failed_ok
  | given => exact .verdict rfl (kept _) fun goes => went _ _ rfl goes

/-- These calls follow a fetch that failed. -/
def Call.CleansUp (temporary : Bytes) : Call → Prop
  | .log _ => True
  | .file (.unlink path) => path = temporary
  | _ => False

namespace Install

variable {world : World}

/-- The file is marked as executable where the system has such marks. -/
def marking (temporary : Bytes) (executable : Bool) : Attempt Unit :=
  if executable then do
    let found ← (inspect temporary).orFail
    (setMode temporary found.mode.executable).orFail
  else pure ()

/-- These operations of an installation can fail, in this order. -/
def attempt (fetch : Fetch) (address temporary target : Bytes) (executable : Bool) :
    Attempt Unit := do
  duplicate.orFailWith (.error .general .outOfMemory)
  fetch.attempt address temporary
  marking temporary executable
  (rename temporary target).orFail

theorem mark_reports (sound : world.FaultsFail) (temporary : Bytes) (executable : Bool) :
    world.Reports (mark temporary executable) (marking temporary executable) := by
  cases executable with
  | false => exact .ok
  | true =>
      refine .orFail (World.refuses_inspect sound temporary) (fun errno => rfl) ?_
      intro found seen ran
      have plain : (inspect temporary).Only Call.IsPlain := .request trivial
      have again : (setMode temporary found.mode.executable).orFail =
          (setMode temporary found.mode.executable).orFail >>= pure := (bind_pure _).symm
      rw [again]
      exact .orFail (World.refuses_setMode (sound.run plain ran) temporary _) (fun errno => rfl)
        fun _ _ _ => .ok

/-- The removal of the temporary file changes no status. -/
theorem cleanUp_answers {place : Program (Except Status Unit)} {status : Status}
    (fails : place.Answers (· = .error status)) (temporary : Bytes) :
    (place >>= cleanUp temporary).Answers (· = status) := by
  refine .bind fails ?_
  rintro _ rfl
  exact .after fun _ => rfl

theorem afterFetch_answers {fetched : Status} (failed : fetched.failed = true)
    (temporary target : Bytes) (executable : Bool) :
    (afterFetch temporary target executable fetched >>= cleanUp temporary).Answers (· = fetched) := by
  rw [afterFetch, if_pos failed]
  refine cleanUp_answers ?_ temporary
  exact .after fun _ => rfl

theorem afterFetch_reports (sound : world.FaultsFail) {fetched : Status}
    (went : fetched.failed = false) (temporary target : Bytes) (executable : Bool) :
    world.Reports (afterFetch temporary target executable fetched >>= cleanUp temporary)
      (marking temporary executable >>= fun _ => (rename temporary target).orFail) := by
  have goes : ¬ fetched.failed := by simp [went]
  rw [afterFetch, if_neg goes, Program.bind_assoc]
  refine .bind (mark_reports sound temporary executable) ?_ fun marked ran => ?_
  · intro status failed
    rw [if_pos failed]
    refine cleanUp_answers ?_ temporary
    exact .after fun _ => rfl
  · have plain : (mark temporary executable).Only Call.IsPlain :=
      (mark_handles temporary executable).mono fun _ handles =>
        handles.placing.ofResolution.inner.plain
    have again : (rename temporary target).orFail = (rename temporary target).orFail >>= pure :=
      (bind_pure _).symm
    have marks : ¬ Status.ok.failed := by decide
    rw [again, if_neg marks, Program.bind_assoc]
    refine .orFail (World.refuses_rename (sound.run plain ran) temporary target) ?_ fun _ _ _ => .ok
    intro errno
    refine cleanUp_answers ?_ temporary
    exact .after fun _ => rfl

/-- An installation reports its first failure. -/
theorem run_reports (sound : world.FaultsFail) (fetch : Fetch) (address target : Bytes)
    (executable : Bool) :
    world.Reports (run fetch address target executable)
      (attempt fetch address (temporary target world.surroundings.processId) target executable) := by
  rw [run_eq]
  refine .look rfl (.orFailWith rfl (Status.failed_error _ _) rfl fun copied => ?_)
  have plain : duplicate.Only Call.IsPlain := .request trivial
  have copySound := sound.run plain rfl
  rw [if_pos rfl, place_eq, Program.bind_assoc]
  refine fetch.bind_reports copySound address _ ?_ fun fetched after ran went => ?_
  · exact fun status failed => afterFetch_answers failed _ target executable
  · have fetching : (fetch.run address (temporary target world.surroundings.processId)).Only
        Call.IsPlain :=
      (fetch.run_ofResolution address _).mono fun _ => fun calls => calls.inner.plain
    exact afterFetch_reports (copySound.run fetching ran) went _ target executable

theorem afterFetch_cleansUp {fetched : Status} (failed : fetched.failed = true)
    (temporary target : Bytes) (executable : Bool) :
    (afterFetch temporary target executable fetched >>= cleanUp temporary).Only
      (Call.CleansUp temporary) := by
  rw [afterFetch, if_pos failed]
  refine .bind (.bind (.request trivial) fun _ => trivial) fun outcome => ?_
  cases outcome with
  | ok => trivial
  | error status => exact .bind (.request rfl) fun _ => trivial

section

variable {copied : World} (copy : world.strike .duplicate none = (none, copied))
  (failed : world.surroundings.fetcher.status.failed = true)
include copy failed

/-- A fetcher that was given and fails is the first failure once the name is copied. -/
theorem attempt_given (address temporary target : Bytes) (executable : Bool) :
    (world.run (attempt .given address temporary target executable).run).1 =
      some (.error world.surroundings.fetcher.status) := by
  have ran : world.run duplicate = (some true, copied) := by
    simp only [duplicate, request, World.run, World.answer, copy, Option.isNone_none]
  have same : copied.surroundings = world.surroundings :=
    (congrArg (fun outcome => outcome.2.surroundings) copy).symm
  have fetched : copied.run (Program.fetch address temporary) =
      (some world.surroundings.fetcher.status, (copied.answerFetch address temporary).2) := by
    rw [← same]
    rfl
  rw [attempt, orFailWith, World.run_judged ran]
  simp only [if_true, Fetch.attempt]
  rw [World.run_judged fetched]
  simp only [Status.verdict, failed, if_true]
  rfl

/-- No later step is tried when a fetcher that was given fails. -/
theorem history_given (address target : Bytes) (executable : Bool) :
    ∃ back, world.history (run .given address target executable) =
        [.processId, .duplicate,
          .fetch address (temporary target world.surroundings.processId)] ++ back ∧
      ∀ call ∈ back, Call.CleansUp (temporary target world.surroundings.processId) call := by
  have answered : world.answer .duplicate = (some true, copied) := by
    simp only [World.answer, copy, Option.isNone_none]
  have same : copied.surroundings = world.surroundings :=
    (congrArg (fun outcome => outcome.2.surroundings) copy).symm
  rw [run_eq, processId, World.history_request rfl, duplicate, World.history_request answered,
    if_pos rfl, place_eq, Program.bind_assoc, Fetch.run, fetch, World.history_request rfl]
  refine ⟨_, rfl, World.history_only (afterFetch_cleansUp ?_ _ target executable)⟩
  rw [← failed, ← same]
  rfl

end

end Install

/-! ### Resolutions -/

/-- An installation that is decided suits its request. -/
def Decision.Suits (request : Option Resolve.Request) : Decision → Prop
  | .settled _ => True
  | .install fetch address target executable => ∃ version host reinstall directory asset,
      request = some ⟨some version, some host, fetch, reinstall⟩ ∧ host.asset = .ok asset ∧
        address = Release.assetAddress version asset ∧ target = Resolve.target directory host ∧
        executable = (host.system ≠ .windows : Bool)

/-- What is decided for a version in its directory aims at the target of the host: a path that is
settled is the target, and an installation puts the asset there. -/
def Decision.Aims (version directory : Bytes) (host : Platform) (fetch : Fetch) : Decision → Prop
  | .settled outcome => ∀ path, outcome = .ok path → path = Resolve.target directory host
  | .install chosen address target executable => chosen = fetch ∧
      (∃ asset, host.asset = .ok asset ∧ address = Release.assetAddress version asset) ∧
      target = Resolve.target directory host ∧ executable = (host.system ≠ .windows : Bool)

theorem Decision.Aims.suits {version directory : Bytes} {host : Platform} {fetch : Fetch}
    {decision : Decision} (aims : decision.Aims version directory host fetch) (reinstall : Bool) :
    decision.Suits (some ⟨some version, some host, fetch, reinstall⟩) := by
  cases decision with
  | settled outcome => trivial
  | install chosen address target executable =>
      obtain ⟨rfl, ⟨asset, found, rfl⟩, rfl, rfl⟩ := aims
      exact ⟨version, host, reinstall, directory, asset, rfl, found, rfl, rfl, rfl⟩

namespace Resolve

theorem decideInstall_aims (version directory : Bytes) (host : Platform) (fetch : Fetch) :
    (decideInstall version (target directory host) host fetch).Answers
      (Decision.Aims version directory host fetch) := by
  refine .after fun disabled => ?_
  split
  · exact .after fun _ => nofun
  · split
    · exact .after fun _ => .after fun _ => nofun
    · rename_i asset found
      exact .after fun _ => .after fun _ => ⟨rfl, ⟨asset, found, rfl⟩, rfl, rfl⟩

theorem decideCached_aims (version directory : Bytes) (host : Platform) (fetch : Fetch)
    (reinstall : Bool) :
    (decideCached version directory host fetch reinstall).Answers
      (Decision.Aims version directory host fetch) := by
  refine .after fun isThere => ?_
  split
  · split
    · exact .after fun _ => decideInstall_aims version directory host fetch
    · refine .after fun _ path settled => ?_
      cases settled
      rfl
  · exact decideInstall_aims version directory host fetch

theorem decide_answers (request : Option Request) :
    (decide request).Answers (Decision.Suits request) := by
  unfold decide
  split
  · rename_i version host fetch reinstall
    refine .after fun override => ?_
    cases override with
    | some path => exact .after fun _ => trivial
    | none =>
        refine .after fun prepared => ?_
        cases prepared with
        | error status => trivial
        | ok directory =>
            exact (decideCached_aims version directory host fetch reinstall).mono
              fun _ aims => aims.suits reinstall
  · trivial

theorem afterInstall_answers (target : Bytes) (status : Status) :
    (afterInstall target status).Answers
      (· = if status.failed then .error status else .ok target) := by
  unfold afterInstall
  split
  · rfl
  · exact .after fun _ => rfl

/-- A decided installation has the outcome of its first failure. -/
theorem carryOut_first {ready after : World} {fetch : Fetch} {address target : Bytes}
    {executable : Bool} {outcome : Except Status Bytes} (sound : ready.FaultsFail)
    (ended : ready.run (carryOut (.install fetch address target executable)) =
      (some outcome, after)) :
    (ready.run (Install.attempt fetch address
        (Install.temporary target ready.surroundings.processId) target executable).run).1 =
        some (outcome.map fun _ => ()) ∧
      ∃ status, outcome = if status.failed then .error status else .ok target := by
  rw [carryOut_install] at ended
  obtain ⟨status, installed, ran, ended⟩ := World.run_bind_ends ended
  have known := (afterInstall_answers target status).run ended
  refine ⟨?_, status, known⟩
  rcases Install.run_reports sound fetch address target executable status installed ran with
    ⟨fails, failure⟩ | ⟨rfl, attempted⟩
  · rw [failure, known, if_pos fails]
    rfl
  · rw [attempted, known]
    rfl

/-- The status of a given fetcher that fails is the outcome, and no later step is tried. -/
theorem carryOut_given {ready copied after : World} {address target : Bytes} {executable : Bool}
    {outcome : Except Status Bytes} (sound : ready.FaultsFail)
    (copy : ready.strike .duplicate none = (none, copied))
    (failed : ready.surroundings.fetcher.status.failed = true)
    (ended : ready.run (carryOut (.install .given address target executable)) =
      (some outcome, after)) :
    outcome = .error ready.surroundings.fetcher.status ∧
      ∃ back, ready.history (carryOut (.install .given address target executable)) =
          [.processId, .duplicate,
            .fetch address (Install.temporary target ready.surroundings.processId)] ++ back ∧
        ∀ call ∈ back,
          Call.CleansUp (Install.temporary target ready.surroundings.processId) call := by
  obtain ⟨first, _⟩ := carryOut_first sound ended
  rw [Install.attempt_given copy failed] at first
  have reported : outcome = .error ready.surroundings.fetcher.status := by
    cases outcome with
    | ok path => cases first
    | error status =>
        cases first
        rfl
  refine ⟨reported, ?_⟩
  obtain ⟨back, made, cleans⟩ := Install.history_given copy failed address target executable
  refine ⟨back, ?_, cleans⟩
  rw [carryOut_install] at ended ⊢
  obtain ⟨status, installed, ran, ended⟩ := World.run_bind_ends ended
  have known := (afterInstall_answers target status).run ended
  have silent : installed.history (afterInstall target status) = [] := by
    rw [afterInstall]
    split
    · rfl
    · rename_i went
      rw [reported, if_neg went] at known
      cases known
  rw [World.history_bind ran, made, silent, List.append_nil]

/-- The outcome of a resolution that reaches an installation in the ready world is that of the first
operation that fails. -/
structure FailsFirst (world ready : World) (request : Option Request) (fetch : Fetch)
    (address target : Bytes) (executable : Bool) (outcome : Except Status Bytes) : Prop where
  suits : (Decision.install fetch address target executable).Suits request
  first : (ready.run (Install.attempt fetch address
      (Install.temporary target world.surroundings.processId) target executable).run).1 =
    some (outcome.map fun _ => ())
  failed : ∀ status, outcome = .error status → status.failed = true
  path : ∀ path, outcome = .ok path → path = target
  /-- A fetcher that fails keeps its status, and no later step is tried. -/
  given : ∀ copied, fetch = .given → ready.strike .duplicate none = (none, copied) →
    world.surroundings.fetcher.status.failed = true →
      outcome = .error world.surroundings.fetcher.status ∧
        ∃ back, world.history (run request) = world.history (decide request) ++
            [.processId, .duplicate,
              .fetch address (Install.temporary target world.surroundings.processId)] ++ back ∧
          ∀ call ∈ back,
            Call.CleansUp (Install.temporary target world.surroundings.processId) call

/-- A resolution that reaches the installation ends with its first failure. -/
theorem run_failsFirst {world ready : World} {request : Option Request} {fetch : Fetch}
    {address target : Bytes} {executable : Bool} (sound : world.FaultsFail)
    (reaches : world.run (decide request) =
      (some (.install fetch address target executable), ready)) :
    ∃ outcome after, world.run (run request) = (some outcome, after) ∧
      FailsFirst world ready request fetch address target executable outcome := by
  obtain ⟨outcome, after, ended⟩ := world.run_returns
    ((run_inner request).mono fun _ => Call.IsInner.returns)
  refine ⟨outcome, after, ended, ?_⟩
  have descends := world.run_descends ((decide_local request).mono fun _ => Call.IsLocal.plain)
  rw [reaches] at descends
  have readySound : ready.FaultsFail := descends.faultsFail sound
  have same : ready.surroundings = world.surroundings := descends.surroundings
  rw [run_eq, World.run_bind, reaches] at ended
  dsimp only at ended
  obtain ⟨first, status, known⟩ := carryOut_first readySound ended
  rw [same] at first
  refine ⟨(decide_answers request).run reaches, first, ?_, ?_, ?_⟩
  · rintro other rfl
    split at known <;> cases known
    assumption
  · rintro path rfl
    split at known <;> cases known
    rfl
  · rintro copied rfl copy failed
    rw [← same] at failed ⊢
    obtain ⟨reported, back, made, cleans⟩ := carryOut_given readySound copy failed ended
    refine ⟨reported, back, ?_, cleans⟩
    rw [run_eq, World.history_bind reaches, made, List.append_assoc]

/-- The flush, the close and the removal all fail here. -/
def brokenWorld : World :=
  { homeWorld with
    surroundings.transport := { events := [.data "abc"] }
    faults := [⟨.flush, none, .inputOutput, 0, none⟩, ⟨.close, none, .noSpace, 0, none⟩,
      ⟨.unlink, none, .busy, 0, none⟩] }

def downloadRequest (version : Bytes) : Option Request :=
  (givenRequest version).map fun request => { request with fetch := .download }

theorem run_failsFirst_brokenWorld :
    ∃ ready outcome after, brokenWorld.run (run (downloadRequest "1.0")) = (some outcome, after) ∧
      FailsFirst brokenWorld ready (downloadRequest "1.0") .download
        (Release.assetAddress "1.0" "deepseek-linux-x64") "/h/.deepseek/bin/1.0/deepseek" true
        outcome := by
  have reaches : (brokenWorld.run (decide (downloadRequest "1.0"))).1 =
      some (.install .download (Release.assetAddress "1.0" "deepseek-linux-x64")
        "/h/.deepseek/bin/1.0/deepseek" true) := by
    rfl
  have sound : brokenWorld.FaultsFail := by
    simp [World.FaultsFail, brokenWorld, Errno.inputOutput, Errno.noSpace, Errno.busy]
  exact ⟨_, run_failsFirst sound (Prod.ext reaches rfl)⟩

example : (brokenWorld.run (run (downloadRequest "1.0"))).1 =
    some (.error (.ofErrno .inputOutput)) := by
  rfl

end Resolve

end Launcher
