/-
This file follows one installation through its turns in a crowd. It only delivers a file that is
complete, and it leaves no temporary file unless an unlinking fails.
-/

import Launcher.Proofs.Crowd.Turn

namespace Launcher

/-- A transfer that is stopped has failed. -/
theorem Transfer.Ending.stopped_failed (ending : Transfer.Ending) :
    ending.stopped.status.failed = true := by
  have other : Transfer.Ending.writeCode ≠ 0 ∧ Transfer.Ending.writeCode ≠ timeoutCode ∧
      Transfer.Ending.writeCode ≠ httpCode ∧ Transfer.Ending.writeCode ≠ memoryCode := by decide
  simp [stopped, status, other]

namespace Crowd.Keeps

variable {Handle : Type} [DecidableEq Handle] {crowd : Crowd Handle} {handle : Handle}
  {spared : Bool} {view : View} {stored pending content address : Bytes}

/-! ### Downloads -/

/-- When all data is written, the file and what waits are all that was received. -/
theorem receive (writes : view.Writes (crowd.spot handle) stored pending)
    (events : List Transfer.Event) :
    crowd.Keeps handle spared (fun complete later => complete = true →
        ∃ stored' pending', later.Writes (crowd.spot handle) stored' pending' ∧
          stored' ++ pending' = stored ++ pending ++ Transfer.received events)
      (Download.receive address events) view := by
  induction events generalizing view stored pending with
  | nil => exact fun _ => ⟨stored, pending, writes, by simp [Transfer.received]⟩
  | cons event others inductionHypothesis =>
      cases event with
      | progress total received seconds =>
          refine .afterFree (.request trivial) fun _ => ?_
          split
          · exact .afterFree (.request trivial) fun _ => inductionHypothesis writes
          · exact inductionHypothesis writes
      | data bytes =>
          refine .bind ((write writes bytes).mono fun reply later written => ?_)
          cases reply with
          | error errno => exact fun done => by cases done
          | ok =>
              obtain ⟨stored', pending', more, joined⟩ := written
              refine (inductionHypothesis more).mono fun complete last filled done => ?_
              obtain ⟨stored'', pending'', final, whole⟩ := filled done
              refine ⟨stored'', pending'', final, ?_⟩
              rw [whole, joined, Transfer.received, List.append_assoc]

/-- A transfer that does not fail ended as it was going to, with all data written. -/
theorem transfer (writes : view.Writes (crowd.spot handle) [] [])
    (headers : Option (List Bytes)) :
    crowd.Keeps handle spared (fun ending later => ending.status.failed = false →
        (crowd.invocations handle).script.ending.status.failed = false ∧
          ∃ stored pending, later.Writes (crowd.spot handle) stored pending ∧
            stored ++ pending = Transfer.received (crowd.invocations handle).script.events)
      (Download.transfer address headers) view := by
  have fixed (files : FileSystem Handle) (reply : Transfer.Script) (after : FileSystem Handle)
      (answers : crowd.Answers handle files (.transfer (.to address headers)) reply after) :
      reply = (crowd.invocations handle).script := by
    cases answers
    rfl
  have free : (Call.transfer (.to address headers)).FileFree := trivial
  refine .bind ((known free fixed).mono ?_)
  rintro script later ⟨rfl, rfl⟩
  refine .bind ((receive writes _).mono fun complete last filled => ?_)
  cases complete with
  | true =>
      intro succeeded
      obtain ⟨stored, pending, more, whole⟩ := filled rfl
      exact ⟨succeeded, stored, pending, more, whole⟩
  | false =>
      intro succeeded
      cases (Transfer.Ending.stopped_failed _).symm.trans succeeded

/-- Data that is settled is written, up to what the close still has to store. -/
theorem settle {ending : Transfer.Ending} {received : Bytes}
    (wrote : ending.status.failed = false → ∃ stored pending,
      view.Writes (crowd.spot handle) stored pending ∧ stored ++ pending = received) :
    crowd.Keeps handle spared (fun status later => status.failed = false →
        ending.status.failed = false ∧ ∃ stored pending,
          later.Writes (crowd.spot handle) stored pending ∧ stored ++ pending = received)
      (Download.settle address ending) view := by
  unfold Download.settle
  split
  · rename_i failed
    refine .afterFree (.request trivial) fun _ succeeded => ?_
    cases failed.symm.trans succeeded
  · rename_i went
    obtain ⟨stored, pending, writes, whole⟩ := wrote (by simpa using went)
    refine .bind ((flush writes).mono fun reply later flushed => ?_)
    cases reply with
    | ok => exact fun succeeded => ⟨succeeded, _, _, flushed, by simpa using whole⟩
    | error errno =>
        refine .afterFree (.request trivial) fun _ succeeded => ?_
        cases (Status.failed_ofErrno flushed).symm.trans succeeded

/-- A download that is finished has all bytes in its file. -/
theorem finish {status : Status} {received : Bytes}
    (wrote : status.failed = false → ∃ stored pending,
      view.Writes (crowd.spot handle) stored pending ∧ stored ++ pending = received) :
    crowd.Keeps handle spared (fun final later => final.failed = false →
        status.failed = false ∧ later.Holds received)
      (Download.finish status) view := by
  have closing : Call.Attends (crowd.temporary handle) (.file .close) := trivial
  unfold Download.finish
  by_cases went : status.failed = false
  · obtain ⟨stored, pending, writes, rfl⟩ := wrote went
    refine .bind ((close writes).mono fun reply later closed => ?_)
    cases reply with
    | ok => exact fun _ => ⟨went, closed⟩
    | error errno =>
        dsimp only
        rw [if_neg (by simp [went])]
        refine .afterFree (.request trivial) fun _ succeeded => ?_
        cases (Status.failed_ofErrno closed).symm.trans succeeded
  · refine .bind ((attends (.request closing)).mono fun reply later _ => ?_)
    cases reply with
    | ok => exact fun succeeded => absurd succeeded went
    | error errno =>
        dsimp only
        rw [if_pos (by simpa using went)]
        exact fun succeeded => absurd succeeded went

/-- Whatever fails from the opening on, what is received counts only as a whole. -/
theorem conclude {ending : Transfer.Ending} {received : Bytes}
    (wrote : ending.status.failed = false → ∃ stored pending,
      view.Writes (crowd.spot handle) stored pending ∧ stored ++ pending = received)
    (regular : Bool) :
    crowd.Keeps handle spared (fun status later => status.failed = false →
        ending.status.failed = false ∧ later.Holds received)
      (Download.conclude address (crowd.temporary handle) regular ending) view := by
  refine .afterFree (.request trivial) fun _ => .bind ((settle wrote).mono fun settled later wrote => ?_)
  refine .bind ((finish fun went => (wrote went).2).mono fun status last held => ?_)
  split
  · rename_i failed
    refine .bind ((attends (Download.discard_attends _ regular)).mono fun _ _ _ succeeded => ?_)
    cases failed.symm.trans succeeded
  · exact fun succeeded => ⟨(wrote (held succeeded).1).1, (held succeeded).2⟩

/-- A download that does not fail leaves a file with all that was received. -/
theorem download (headers : Option (List Bytes)) :
    crowd.Keeps handle spared (fun status later => status.failed = false →
        (crowd.invocations handle).script.ending.status.failed = false ∧
          later.Holds (Transfer.received (crowd.invocations handle).script.events))
      (Download.file (some address) (some (crowd.temporary handle)) headers) view := by
  rw [Download.file_eq]
  refine .bind (openOutput.mono fun opened later opens => ?_)
  cases opened with
  | error errno =>
      intro succeeded
      cases (Status.failed_ofErrno opens).symm.trans succeeded
  | ok =>
      refine .bind (outputIsRegular.mono ?_)
      rintro regular _ rfl
      refine .afterFree (.request trivial) fun ready => ?_
      split
      · refine .bind ((transfer opens headers).mono fun ending full wrote => ?_)
        refine (conclude (fun went => (wrote went).2) regular).mono ?_
        exact fun status last held succeeded =>
          ⟨(wrote (held succeeded).1).1, (held succeeded).2⟩
      · have closing : Call.Attends (crowd.temporary handle) (.file .close) := trivial
        refine .bind ((attends (.request closing)).mono fun _ _ _ => ?_)
        refine .bind ((attends (Download.discard_attends _ regular)).mono fun _ _ _ succeeded => ?_)
        cases (Status.failed_error _ _).symm.trans succeeded

/-! ### Installations -/

/-- A file that is marked can be executed where that matters. -/
theorem mark {executable : Bool} (holds : view.Holds content) :
    crowd.Keeps handle spared (fun status later => status.failed = false →
        (∃ mode, later.entry = some (.file mode content) ∧
          (executable = true → mode &&& 0o111 = 0o111)) ∧ later.stream = none)
      (Install.mark (crowd.temporary handle) executable) view := by
  cases executable with
  | false =>
      obtain ⟨mode, file⟩ := holds.file
      exact fun _ => ⟨⟨mode, file, fun marked => by cases marked⟩, holds.idle⟩
  | true =>
      refine .bind (inspect.mono ?_)
      rintro reply _ ⟨rfl, fails⟩
      cases reply with
      | error errno =>
          intro succeeded
          cases (Status.failed_ofErrno fails).symm.trans succeeded
      | ok found =>
          refine .bind ((setMode holds found.mode.executable).mono fun reply later changed => ?_)
          cases reply with
          | error errno =>
              intro succeeded
              cases (Status.failed_ofErrno changed).symm.trans succeeded
          | ok =>
              obtain ⟨file, idle⟩ := changed
              exact fun _ => ⟨⟨_, file, fun _ => found.mode.executable_bits⟩, idle⟩

/-- Only a complete file is renamed. -/
theorem afterFetch {fetched : Status}
    (held : fetched.failed = false →
      (crowd.invocations handle).script.ending.status.failed = false ∧
        view.Holds (Transfer.received (crowd.invocations handle).script.events)) :
    crowd.Keeps handle spared (fun outcome later => outcome = .ok () → later.entry = none)
      (Install.afterFetch (crowd.temporary handle) crowd.target (crowd.host.system ≠ .windows)
        fetched) view := by
  unfold Install.afterFetch
  split
  · exact .afterFree (.request trivial) fun _ done => by cases done
  · rename_i went
    obtain ⟨complete, holds⟩ := held (by simpa using went)
    refine .bind ((mark holds).mono fun marked later ready => ?_)
    split
    · exact .afterFree (.request trivial) fun _ done => by cases done
    · rename_i marks
      obtain ⟨⟨mode, file, bits⟩, idle⟩ := ready (by simpa using marks)
      have delivers : crowd.Delivered handle later.entry :=
        ⟨⟨mode, file, fun other => bits (by simpa using other)⟩, complete⟩
      refine .bind ((rename delivers idle).mono fun reply last renamed => ?_)
      cases reply with
      | ok => exact fun _ => renamed rfl
      | error errno => exact .afterFree (.request trivial) fun _ done => by cases done

theorem cleanUp {outcome : Except Status Unit} (placed : outcome = .ok () → view.entry = none) :
    crowd.Keeps handle spared (fun _ later => spared = true → later.entry = none)
      (Install.cleanUp (crowd.temporary handle) outcome) view := by
  cases outcome with
  | ok => exact fun _ => placed rfl
  | error status => exact .bind (unlink.mono fun _ _ gone => gone)

theorem installation (free : view.entry = none) :
    crowd.Keeps handle spared (fun _ later => spared = true → later.entry = none)
      (Install.run .download address crowd.target (crowd.host.system ≠ .windows)) view := by
  have fixed (files : FileSystem Handle) (reply : Int) (after : FileSystem Handle)
      (answers : crowd.Answers handle files .processId reply after) :
      reply = (crowd.invocations handle).processId := by
    cases answers
    rfl
  have beside : Call.processId.FileFree := trivial
  rw [Install.run_eq]
  refine .bind ((known beside fixed).mono ?_)
  rintro number _ ⟨rfl, rfl⟩
  refine .afterFree (.request trivial) fun copied => ?_
  split
  · rw [Install.place_eq]
    refine .bind (.bind ((download _).mono fun fetched later held => ?_))
    exact (afterFetch held).mono fun outcome last placed => cleanUp placed
  · exact fun _ => free

/-- From its start on, an invocation only takes fair turns. -/
theorem install (free : view.entry = none) :
    crowd.Keeps handle spared (fun _ later => spared = true → later.entry = none)
      (Resolve.install crowd.version crowd.target crowd.host .download) view := by
  refine .afterFree ?_ fun disabled => ?_
  · refine .bind (.request trivial) fun value => ?_
    cases value <;> trivial
  split
  · exact .afterFree (.request trivial) fun _ _ => free
  · cases crowd.host.asset with
    | error status =>
        exact .afterFree (.request trivial) fun _ =>
          .afterFree (.request trivial) fun _ _ => free
    | ok asset =>
        refine .afterFree (.request trivial) fun _ => .afterFree (.request trivial) fun _ => ?_
        refine .bind ((installation free).mono fun status later gone => ?_)
        split
        · exact gone
        · exact .afterFree (.request trivial) fun _ => gone

end Crowd.Keeps

end Launcher
