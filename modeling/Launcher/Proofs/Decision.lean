/-
This file splits a resolution into its decision and the installation that may follow. The decision
looks at the settings, the cache and the host, and it changes no files but missing directories.
-/

import Launcher.Proofs.Run.Bare
import Launcher.Proofs.Tree.Output
import Launcher.Resolve

namespace Launcher

/-! ### Decisions -/

/-- A resolution is settled without a fetch, or it is left to an installation. -/
inductive Decision where
  | settled (outcome : Except Status Bytes)
  | install (fetch : Fetch) (address target : Bytes) (executable : Bool)

namespace Resolve

def decideInstall (version target : Bytes) (host : Platform) (fetch : Fetch) :
    Program Decision := do
  if ← Cache.downloadsDisabled then
    Program.note .error (Release.program ++ " binary not found at " ++ target ++
      " and downloads are disabled (" ++ Setting.skipDownload.name ++ ")")
    pure (.settled (.error (.error .runtime .downloadDisabled)))
  else
    match host.asset with
    | .error status =>
        Program.note .error
          ("Unsupported platform: " ++ host.systemName ++ "/" ++ host.processorName)
        Program.note .information ("Supported: " ++ Build.supported)
        pure (.settled (.error status))
    | .ok asset =>
        Program.note .information ("Downloading DeepSeek CLI v" ++ version ++ "...")
        Program.note .debug ("Fetching " ++ Release.assetAddress version asset)
        pure (.install fetch (Release.assetAddress version asset) target (host.system ≠ .windows))

def decideCached (version directory : Bytes) (host : Platform) (fetch : Fetch) (reinstall : Bool) :
    Program Decision := do
  let target := target directory host
  if ← Binary.isThere (some target) then
    if reinstall then
      Program.note .information ("Reinstalling " ++ target)
      decideInstall version target host fetch
    else
      Program.note .debug ("Using cached binary: " ++ target)
      pure (.settled (.ok target))
  else decideInstall version target host fetch

/-- This is a resolution up to the installation. -/
def decide (request : Option Request) : Program Decision :=
  match request with
  | some ⟨some version, some host, fetch, reinstall⟩ => do
      match ← Cache.overridePath with
      | some path =>
          Program.note .debug ("Using " ++ Setting.overridePath.name ++ ": " ++ path)
          pure (.settled (.ok path))
      | none =>
          match ← Cache.setUp (some version) with
          | .error status => pure (.settled (.error status))
          | .ok directory => decideCached version directory host fetch reinstall
  | _ => pure (.settled (.error (.error .general .invalidArgument)))

def carryOut : Decision → Program (Except Status Bytes)
  | .settled outcome => pure outcome
  | .install fetch address target executable => do
      let status ← Install.run fetch address target executable
      if status.failed then pure (.error status)
      else
        Program.note .information ("Installed to " ++ target)
        pure (.ok target)

theorem install_eq (version target : Bytes) (host : Platform) (fetch : Fetch) :
    install version target host fetch = decideInstall version target host fetch >>= carryOut := by
  simp only [install, decideInstall, Program.bind_assoc]
  congr 1
  funext disabled
  split
  · rfl
  · cases host.asset with
    | error status => rfl
    | ok asset => rfl

/-- A resolution carries its decision out. -/
theorem run_eq (request : Option Request) : run request = decide request >>= carryOut := by
  rcases request with _ | ⟨_ | version, _ | host, fetch, reinstall⟩
  · rfl
  · rfl
  · rfl
  · rfl
  · simp only [run, decide, Program.bind_assoc]
    congr 1
    funext override
    cases override with
    | some path => rfl
    | none =>
        simp only [Program.bind_assoc]
        congr 1
        funext prepared
        cases prepared with
        | error status => rfl
        | ok directory =>
            simp only [fromCache, decideCached, Program.bind_assoc]
            congr 1
            funext isThere
            split
            · split
              · simp only [install_eq, Program.bind_assoc]
              · rfl
            · exact install_eq version _ host fetch

end Resolve

/-! ### Local calls -/

/-- A local call looks at the files and the settings, makes a directory, or logs. -/
def Call.IsLocal : Call → Prop
  | .file (.inspect _) => True
  | .file (.access _) => True
  | .file (.makeDirectory _ _) => True
  | .lookUp setting => setting ≠ .logLevel ∧ setting ≠ .logFile
  | .passwordEntry => True
  | .log _ => True
  | .keepCacheDirectory _ => True
  | _ => False

/-- A resolution looks these settings up and no others. -/
def Resolve.settings : List Setting := [.home, .overridePath, .skipDownload]

/-- A decision makes local calls, and it looks up the settings of a resolution. -/
def Call.IsDeciding : Call → Prop
  | .lookUp setting => setting ∈ Resolve.settings
  | call => call.IsLocal

theorem Call.IsDeciding.isLocal {call : Call} (deciding : call.IsDeciding) : call.IsLocal := by
  have apart : ∀ setting ∈ Resolve.settings, setting ≠ .logLevel ∧ setting ≠ .logFile := by decide
  cases call with
  | lookUp setting => exact apart setting deciding
  | file call => exact deciding
  | _ => exact deciding

/-- An inner call writes no output, replaces no process, and leaves the log to its settings. -/
def Call.IsInner : Call → Prop
  | .print _ => False
  | .warn _ => False
  | .execute _ _ => False
  | .openLog => False
  | .closeLog => False
  | .lookUp setting => setting ≠ .logLevel ∧ setting ≠ .logFile
  | _ => True

theorem Call.IsLocal.inner {call : Call} (isLocal : call.IsLocal) : call.IsInner := by
  cases call with
  | file call => trivial
  | _ => first | exact isLocal | trivial

theorem Call.IsInner.plain {call : Call} (inner : call.IsInner) : call.IsPlain := by
  cases call with
  | lookUp setting => exact inner
  | openLog => exact inner
  | _ => trivial

theorem Call.IsLocal.plain {call : Call} (isLocal : call.IsLocal) : call.IsPlain :=
  isLocal.inner.plain

/-- A call of a resolution is an inner call, and it looks up the settings of a resolution. -/
def Call.OfResolution : Call → Prop
  | .lookUp setting => setting ∈ Resolve.settings
  | call => call.IsInner

theorem Call.IsDeciding.ofResolution {call : Call} (deciding : call.IsDeciding) :
    call.OfResolution := by
  cases call with
  | lookUp setting => exact deciding
  | _ => exact deciding.isLocal.inner

theorem Call.OfResolution.inner {call : Call} (ofResolution : call.OfResolution) :
    call.IsInner := by
  cases call with
  | lookUp setting => exact Call.IsLocal.inner (Call.IsDeciding.isLocal ofResolution)
  | _ => exact ofResolution

namespace Directory

open Program

theorem makeAll_deciding (paths : List Bytes) : (makeAll paths).Only Call.IsDeciding := by
  induction paths with
  | nil => trivial
  | cons path others inductionHypothesis =>
      refine .bind (.request trivial) fun reply => ?_
      cases reply with
      | ok => exact inductionHypothesis
      | error errno =>
          dsimp only
          split
          · exact inductionHypothesis
          · exact .bind (.request trivial) fun _ => trivial

theorem ensure_deciding (path : Option Bytes) : (ensure path).Only Call.IsDeciding := by
  unfold ensure
  split
  · trivial
  split
  · trivial
  refine .bind (.request trivial) fun found => ?_
  cases found with
  | ok attributes => trivial
  | error errno =>
      refine .bind (makeAll_deciding _) fun stopped => ?_
      cases stopped with
      | some status => trivial
      | none => exact .bind (.request trivial) fun _ => trivial

theorem ensure_local (path : Option Bytes) : (ensure path).Only Call.IsLocal :=
  (ensure_deciding path).mono fun _ => Call.IsDeciding.isLocal

end Directory

theorem Binary.isThere_deciding (path : Option Bytes) : (isThere path).Only Call.IsDeciding := by
  unfold isThere
  split
  · trivial
  · refine .bind (.request trivial) fun reply => ?_
    split <;> trivial

namespace Cache

open Program

theorem home_deciding : home.Only Call.IsDeciding := by
  refine .bind (.request (show _ ∈ Resolve.settings by decide)) fun value => ?_
  split
  · trivial
  · refine .bind (.request trivial) fun entry => ?_
    split <;> trivial

theorem setUp_deciding (version : Option Bytes) : (setUp version).Only Call.IsDeciding := by
  unfold setUp
  split
  · trivial
  split
  · trivial
  refine .bind home_deciding fun known => ?_
  cases known with
  | none => exact .bind (.request trivial) fun _ => trivial
  | some home =>
      refine .bind (Directory.ensure_deciding _) fun status => ?_
      split
      · exact .bind (.request trivial) fun _ => .bind (.request trivial) fun _ => trivial
      · exact .bind (.request trivial) fun _ => trivial

theorem overridePath_deciding : overridePath.Only Call.IsDeciding := by
  refine .bind (.request (show _ ∈ Resolve.settings by decide)) fun value => ?_
  split
  · refine .bind (Binary.isThere_deciding _) fun isThere => ?_
    split
    · trivial
    · exact .bind (.request trivial) fun _ => trivial
  · trivial

theorem downloadsDisabled_deciding : downloadsDisabled.Only Call.IsDeciding := by
  refine .bind (.request (show _ ∈ Resolve.settings by decide)) fun value => ?_
  split <;> trivial

end Cache

namespace Resolve

open Program

theorem decideInstall_deciding (version target : Bytes) (host : Platform) (fetch : Fetch) :
    (decideInstall version target host fetch).Only Call.IsDeciding := by
  refine .bind Cache.downloadsDisabled_deciding fun disabled => ?_
  split
  · exact .bind (.request trivial) fun _ => trivial
  · split
    · exact .bind (.request trivial) fun _ => .bind (.request trivial) fun _ => trivial
    · exact .bind (.request trivial) fun _ => .bind (.request trivial) fun _ => trivial

theorem decide_deciding (request : Option Request) : (decide request).Only Call.IsDeciding := by
  unfold decide
  split
  · refine .bind Cache.overridePath_deciding fun override => ?_
    cases override with
    | some path => exact .bind (.request trivial) fun _ => trivial
    | none =>
        refine .bind (Cache.setUp_deciding _) fun prepared => ?_
        cases prepared with
        | error status => trivial
        | ok directory =>
            refine .bind (Binary.isThere_deciding _) fun isThere => ?_
            split
            · split
              · exact .bind (.request trivial) fun _ => decideInstall_deciding _ _ _ _
              · exact .bind (.request trivial) fun _ => trivial
            · exact decideInstall_deciding _ _ _ _
  · trivial

/-- A decision makes local calls only. -/
theorem decide_local (request : Option Request) : (decide request).Only Call.IsLocal :=
  (decide_deciding request).mono fun _ => Call.IsDeciding.isLocal

end Resolve

/-! ### Downloads -/

/-- A quiet call works on files, logs, or lets time pass. -/
def Call.IsQuiet : Call → Prop
  | .file _ => True
  | .log _ => True
  | .pass _ => True
  | _ => False

theorem Call.IsQuiet.ofResolution {call : Call} (quiet : call.IsQuiet) : call.OfResolution := by
  cases call with
  | file call => trivial
  | log entry => trivial
  | pass seconds => trivial
  | _ => exact quiet.elim

/-- These file calls work on the output and on its path. -/
def FileCall.Tends (path : Bytes) : FileCall → Prop
  | .inspect other => other = path
  | .setMode other _ => other = path
  | .unlink other => other = path
  | .outputIsRegular => True
  | .write _ => True
  | .flush => True
  | .close => True
  | _ => False

/-- A quiet call that works on the output and on its path at most. -/
def Call.Attends (path : Bytes) : Call → Prop
  | .file call => call.Tends path
  | .log _ => True
  | .pass _ => True
  | _ => False

theorem Call.Attends.quiet {path : Bytes} {call : Call} (attends : call.Attends path) :
    call.IsQuiet := by
  cases call with
  | file call => trivial
  | _ => exact attends

theorem Call.Attends.ofResolution {path : Bytes} {call : Call} (attends : call.Attends path) :
    call.OfResolution := attends.quiet.ofResolution

/-- A quiet call that works on the open output at most, but not on its path. -/
def Call.Fills : Call → Prop
  | .file call => call.Fills
  | .log _ => True
  | .pass _ => True
  | _ => False

theorem Call.Fills.attends {call : Call} (fills : call.Fills) (path : Bytes) :
    call.Attends path := by
  cases call with
  | file call => cases call <;> first | exact fills.elim | trivial
  | _ => exact fills

/-- The calls of a download while its output is open. -/
def Call.OfFill : Call → Prop
  | .prepareTransfer => True
  | .transfer _ => True
  | call => call.Fills

theorem Call.Fills.ofFill {call : Call} (fills : call.Fills) : call.OfFill := by
  cases call with
  | prepareTransfer => exact fills.elim
  | transfer request => exact fills.elim
  | _ => exact fills

namespace Download

open Program

theorem receive_fills (address : Bytes) (events : List Transfer.Event) :
    (receive address events).Only Call.Fills := by
  induction events with
  | nil => trivial
  | cons event others inductionHypothesis =>
      cases event with
      | progress total received seconds =>
          refine .bind (.request trivial) fun _ => ?_
          split
          · exact .bind (.request trivial) fun _ => inductionHypothesis
          · exact inductionHypothesis
      | data bytes =>
          refine .bind (.request trivial) fun reply => ?_
          cases reply with
          | ok => exact inductionHypothesis
          | error errno => trivial

section

variable {allowed : Call → Prop} (message : ∀ message, allowed (.log (.message message)))
  (report : ∀ level origin status context, allowed (.log (.status level origin status context)))
include report

include message in
/-- Settling a transfer takes one flush at most, and messages of the log. -/
theorem settle_only (flush : allowed (.file .flush)) (address : Bytes)
    (ending : Transfer.Ending) : (settle address ending).Only allowed := by
  unfold settle
  split
  · exact .bind (.request (message _)) fun _ => trivial
  · refine .bind (.request flush) fun reply => ?_
    cases reply with
    | ok => trivial
    | error errno => exact .bind (.request (report _ _ _ _)) fun _ => trivial

theorem finish_only (close : allowed (.file .close)) (status : Status) :
    (finish status).Only allowed := by
  refine .bind (.request close) fun reply => ?_
  cases reply with
  | ok => trivial
  | error errno =>
      dsimp only
      split
      · trivial
      · exact .bind (.request (report _ _ _ _)) fun _ => trivial

end

theorem settle_fills (address : Bytes) (ending : Transfer.Ending) :
    (settle address ending).Only Call.Fills :=
  settle_only (fun _ => trivial) (fun _ _ _ _ => trivial) trivial address ending

theorem finish_fills (status : Status) : (finish status).Only Call.Fills :=
  finish_only (fun _ _ _ _ => trivial) trivial status

theorem receive_attends (path address : Bytes) (events : List Transfer.Event) :
    (receive address events).Only (Call.Attends path) :=
  (receive_fills address events).mono fun _ fills => fills.attends path

theorem settle_attends (path address : Bytes) (ending : Transfer.Ending) :
    (settle address ending).Only (Call.Attends path) :=
  (settle_fills address ending).mono fun _ fills => fills.attends path

theorem finish_attends (path : Bytes) (status : Status) :
    (finish status).Only (Call.Attends path) :=
  (finish_fills status).mono fun _ fills => fills.attends path

theorem discard_attends (path : Bytes) (regular : Bool) :
    (discard path regular).Only (Call.Attends path) := by
  unfold discard
  split
  · exact .bind (.request rfl) fun _ => trivial
  · trivial

/-- This is a download from the opened output on, when the transfer is ready. -/
def conclude (address output : Bytes) (regular : Bool) (ending : Transfer.Ending) :
    Program Status := do
  Program.endReadings
  let settled ← settle address ending
  let status ← finish settled
  if status.failed then
    discard output regular
    pure status
  else pure status

theorem conclude_attends (address output : Bytes) (regular : Bool) (ending : Transfer.Ending) :
    (conclude address output regular ending).Only (Call.Attends output) := by
  refine .bind (.request trivial) fun _ => .bind (settle_attends output _ _) fun settled =>
    .bind (finish_attends output _) fun status => ?_
  split
  · exact .bind (discard_attends _ _) fun _ => trivial
  · trivial

/-- The calls of a download are the opening, then at most one transfer, and quiet calls. -/
theorem file_eq (address output : Bytes) (headers : Option (List Bytes)) :
    file (some address) (some output) headers = openOutput output >>= fun opened =>
      match opened with
      | .error errno => pure (.ofErrno errno)
      | .ok _ => outputIsRegular >>= fun regular => prepareTransfer >>= fun ready =>
          if ready then transfer address headers >>= conclude address output regular
          else close >>= fun _ => discard output regular >>= fun _ =>
            pure (.error .network .outOfMemory) := rfl

/-- This is a download from the opened output up to its close. -/
def fill (address : Bytes) (headers : Option (List Bytes)) : Program Status := do
  if ← prepareTransfer then
    let ending ← transfer address headers
    endReadings
    let settled ← settle address ending
    finish settled
  else
    let _ ← close
    pure (.error .network .outOfMemory)

theorem fill_ofFill (address : Bytes) (headers : Option (List Bytes)) :
    (fill address headers).Only Call.OfFill := by
  refine .bind (.request trivial) fun ready => ?_
  split
  · refine .bind (.bind (.request trivial) fun script => .bind ?_ fun complete => ?_) fun ending =>
      .bind (.request trivial) fun _ => .bind ?_ fun settled => ?_
    · exact (receive_fills _ _).mono fun _ => Call.Fills.ofFill
    · split <;> trivial
    · exact (settle_fills _ _).mono fun _ => Call.Fills.ofFill
    · exact (finish_fills _).mono fun _ => Call.Fills.ofFill
  · exact .bind (.request trivial) fun _ => trivial

/-- What failed is removed again, without a report. -/
def leave (output : Bytes) (regular : Bool) (status : Status) : Program Status :=
  if status.failed then do
    discard output regular
    pure status
  else pure status

/-- An output that is opened is filled, and then it is left. -/
theorem file_eq_fill (address output : Bytes) (headers : Option (List Bytes)) :
    file (some address) (some output) headers = openOutput output >>= fun opened =>
      match opened with
      | .error errno => pure (.ofErrno errno)
      | .ok _ => outputIsRegular >>= fun regular =>
          fill address headers >>= leave output regular := by
  rw [file_eq]
  congr 1
  funext opened
  cases opened with
  | error errno => rfl
  | ok =>
      simp only [fill, Program.bind_assoc]
      congr 1
      funext regular
      congr 1
      funext ready
      cases ready with
      | false => rfl
      | true =>
          simp only [if_true, Program.bind_assoc]
          rfl

theorem transfer_ofResolution (address : Bytes) (headers : Option (List Bytes)) :
    (transfer address headers).Only Call.OfResolution := by
  refine .bind (.request trivial) fun script =>
    .bind ((receive_attends [] _ _).mono fun _ => Call.Attends.ofResolution) fun complete => ?_
  split <;> trivial

theorem file_ofResolution (address output : Option Bytes) (headers : Option (List Bytes)) :
    (file address output headers).Only Call.OfResolution := by
  unfold file
  split
  · refine .bind (.request trivial) fun reply => ?_
    cases reply with
    | error errno => trivial
    | ok =>
        refine .bind (.request trivial) fun regular => .bind (.request trivial) fun ready => ?_
        split
        · exact .bind (transfer_ofResolution _ _) fun ending =>
            (conclude_attends _ _ regular ending).mono fun _ => Call.Attends.ofResolution
        · exact .bind (.request trivial) fun _ =>
            .bind ((discard_attends _ _).mono fun _ => Call.Attends.ofResolution) fun _ => trivial
  · trivial

end Download

theorem Fetch.run_ofResolution (fetch : Fetch) (address path : Bytes) :
    (fetch.run address path).Only Call.OfResolution := by
  cases fetch with
  | download => exact Download.file_ofResolution (some address) (some path) _
  | given => exact .request trivial

/-! ### Installations -/

/-- These calls are made by a fetch, whether it is the download or one that was given, and by
nothing else. -/
def Call.OfFetch : Call → Prop
  | .fetch _ _ => True
  | .prepareTransfer => True
  | .transfer _ => True
  | .file (.openOutput _) => True
  | .file .outputIsRegular => True
  | .file (.write _) => True
  | .file .flush => True
  | .file .close => True
  | _ => False

/-- A call beside the fetch is an inner call of another part. -/
def Call.BesideFetch (call : Call) : Prop := call.IsInner ∧ ¬ call.OfFetch

theorem Call.IsLocal.besideFetch {call : Call} (isLocal : call.IsLocal) : call.BesideFetch := by
  refine ⟨isLocal.inner, ?_⟩
  cases call with
  | file call => cases call <;> first | exact id | exact isLocal.elim
  | _ => first | exact id | exact isLocal.elim

/-- These calls place a binary that was fetched, or they clean up. -/
def Call.OfPlacing (call : Call) : Prop := call.IsQuiet ∧ ¬ call.OfFetch

theorem Call.OfPlacing.ofResolution {call : Call} (placing : call.OfPlacing) :
    call.OfResolution := placing.1.ofResolution

theorem Call.OfPlacing.besideFetch {call : Call} (placing : call.OfPlacing) :
    call.BesideFetch := ⟨placing.ofResolution.inner, placing.2⟩

/-- These file calls deal with the file at a path. -/
def FileCall.Handles (path : Bytes) : FileCall → Prop
  | .inspect other => other = path
  | .setMode other _ => other = path
  | .unlink other => other = path
  | _ => False

/-- A call that deals with the file at a path, or logs. -/
def Call.Handles (path : Bytes) : Call → Prop
  | .file call => call.Handles path
  | .log _ => True
  | _ => False

theorem Call.Handles.placing {path : Bytes} {call : Call} (handles : call.Handles path) :
    call.OfPlacing := by
  cases call with
  | file call => cases call <;> first | exact ⟨trivial, id⟩ | exact handles.elim
  | log entry => exact ⟨trivial, id⟩
  | _ => exact handles.elim

theorem FileCall.Handles.tends {path : Bytes} {call : FileCall} (handles : call.Handles path) :
    call.Tends path := by
  cases call with
  | inspect other => exact handles
  | setMode other mode => exact handles
  | unlink other => exact handles
  | _ => trivial

theorem FileCall.Tends.handles_or_fills {path : Bytes} {call : FileCall} (tends : call.Tends path) :
    call.Handles path ∨ call.Fills := by
  cases call with
  | inspect other => exact .inl tends
  | setMode other mode => exact .inl tends
  | unlink other => exact .inl tends
  | _ => exact .inr tends

namespace Install

open Program

theorem mark_handles (temporary : Bytes) (executable : Bool) :
    (mark temporary executable).Only (Call.Handles temporary) := by
  unfold mark
  split
  · refine .bind (.request rfl) fun found => ?_
    cases found with
    | error errno => trivial
    | ok attributes =>
        refine .bind (.request rfl) fun reply => ?_
        cases reply <;> trivial
  · trivial

/-- This is what remains of an installation after the fetch, up to the removal. -/
def afterFetch (temporary target : Bytes) (executable : Bool) (fetched : Status) :
    Program (Except Status Unit) :=
  if fetched.failed then do
    noteStatus .error fetched ("Failed to download the " ++ Release.program ++ " binary")
    pure (.error fetched)
  else do
    let marked ← mark temporary executable
    if marked.failed then
      noteStatus .error marked "Failed to set executable permissions"
      pure (.error marked)
    else
      match ← rename temporary target with
      | .ok _ => pure (.ok ())
      | .error errno =>
          let status := Status.ofErrno errno
          noteStatus .error status "Failed to move the downloaded binary into place"
          pure (.error status)

theorem place_eq (fetch : Fetch) (address temporary target : Bytes) (executable : Bool) :
    place fetch address temporary target executable =
      fetch.run address temporary >>= afterFetch temporary target executable := rfl

theorem afterFetch_placing (temporary target : Bytes) (executable : Bool)
    (fetched : Status) :
    (afterFetch temporary target executable fetched).Only Call.OfPlacing := by
  unfold afterFetch
  split
  · exact .bind (.request ⟨trivial, id⟩) fun _ => trivial
  refine .bind ((mark_handles _ _).mono fun _ => Call.Handles.placing) fun marked => ?_
  split
  · exact .bind (.request ⟨trivial, id⟩) fun _ => trivial
  refine .bind (.request ⟨trivial, id⟩) fun reply => ?_
  cases reply with
  | ok => trivial
  | error errno => exact .bind (.request ⟨trivial, id⟩) fun _ => trivial

/-- This removes the temporary file of an installation that failed. -/
def cleanUp (temporary : Bytes) : Except Status Unit → Program Status
  | .ok _ => pure .ok
  | .error status => do
      let _ ← unlink temporary
      pure status

theorem run_eq (fetch : Fetch) (address target : Bytes) (executable : Bool) :
    run fetch address target executable = processId >>= fun number => duplicate >>= fun copied =>
      if copied then
        place fetch address (temporary target number) target executable >>=
          cleanUp (temporary target number)
      else pure (.error .general .outOfMemory) := rfl

theorem cleanUp_handles (temporary : Bytes) (outcome : Except Status Unit) :
    (cleanUp temporary outcome).Only (Call.Handles temporary) := by
  cases outcome with
  | ok => trivial
  | error status => exact .bind (.request rfl) fun _ => trivial

theorem run_ofResolution (fetch : Fetch) (address target : Bytes) (executable : Bool) :
    (run fetch address target executable).Only Call.OfResolution := by
  refine .bind (.request trivial) fun processId => .bind (.request trivial) fun copied => ?_
  split
  · refine .bind (.bind (Fetch.run_ofResolution _ _ _) fun fetched => ?_) fun outcome => ?_
    · exact (afterFetch_placing _ _ _ _).mono fun _ => Call.OfPlacing.ofResolution
    · exact (cleanUp_handles _ outcome).mono fun _ handles => handles.placing.ofResolution
  · trivial

end Install

namespace Resolve

/-- This is what remains of a resolution after an installation. -/
def afterInstall (target : Bytes) (status : Status) : Program (Except Status Bytes) :=
  if status.failed then pure (.error status)
  else do
    Program.note .information ("Installed to " ++ target)
    pure (.ok target)

theorem carryOut_install (fetch : Fetch) (address target : Bytes) (executable : Bool) :
    carryOut (.install fetch address target executable) =
      Install.run fetch address target executable >>= afterInstall target := rfl

theorem afterInstall_placing (target : Bytes) (status : Status) :
    (afterInstall target status).Only Call.OfPlacing := by
  unfold afterInstall
  split
  · trivial
  · exact .bind (.request ⟨trivial, id⟩) fun _ => trivial

theorem carryOut_ofResolution (decision : Decision) :
    (carryOut decision).Only Call.OfResolution := by
  cases decision with
  | settled outcome => trivial
  | install fetch address target executable =>
      rw [carryOut_install]
      exact .bind (Install.run_ofResolution _ _ _ _) fun status =>
        (afterInstall_placing target status).mono fun _ => Call.OfPlacing.ofResolution

theorem run_ofResolution (request : Option Request) : (run request).Only Call.OfResolution := by
  rw [run_eq]
  exact .bind ((decide_deciding request).mono fun _ => Call.IsDeciding.ofResolution)
    carryOut_ofResolution

/-- A resolution writes no output, replaces no process, and leaves the log to its settings. -/
theorem run_inner (request : Option Request) : (run request).Only Call.IsInner :=
  (run_ofResolution request).mono fun _ => Call.OfResolution.inner

end Resolve

end Launcher
