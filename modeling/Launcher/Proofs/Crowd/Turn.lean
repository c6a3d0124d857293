/-
This file is about the turns of one invocation in a crowd, one rule for each call. Between its turns
the others have theirs, so a rule only relies on what the invocation has of its own: its temporary
file and its output stream.
-/

import Launcher.Proofs.Crowd.Frame

namespace Launcher

/-- A renaming that was done. -/
def Call.renames : (call : Call) → call.Reply → Bool
  | .file (.rename _ _), .ok _ => true
  | _, _ => false

/-- An unlinking that was refused. -/
def Call.leaves : (call : Call) → call.Reply → Bool
  | .file (.unlink _), .error _ => true
  | _, _ => false

/-- The bytes that a call on the output adds to those that wait. -/
def FileCall.output? : FileCall → Option Bytes
  | .write bytes => some bytes
  | .flush => some []
  | .close => some []
  | _ => none

/-- Only file calls reach places of the tree. -/
def Call.Reaches {Handle : Type} (files : FileSystem Handle) (handle : Handle)
    (location : Location) : Call → Prop
  | .file call => call.Reaches files handle location
  | _ => False

def Call.FileFree : Call → Prop
  | .file _ => False
  | _ => True

theorem FileCall.Tends.installs {temporary target : Bytes} {call : FileCall}
    (tends : call.Tends temporary) : call.Installs temporary target := by
  cases call with
  | openOutput path => exact tends.elim
  | rename source other => exact tends.elim
  | _ => exact tends

namespace Crowd

variable {Handle : Type} [DecidableEq Handle] {crowd : Crowd Handle} {handle : Handle}
  {files after : FileSystem Handle}

/-! ### The own file -/

/-- The stream writes the file at the location. -/
structure View.Writes (location : Location) (stored pending : Bytes) (view : View) : Prop where
  file : ∃ mode, view.entry = some (.file mode stored)
  stream : view.stream = some ⟨.file location, false, stored.length, pending⟩

/-- The file has the content, and no stream writes it. -/
structure View.Holds (content : Bytes) (view : View) : Prop where
  file : ∃ mode, view.entry = some (.file mode content)
  idle : view.stream = none

omit [DecidableEq Handle] in
theorem View.Writes.of_view {stored pending : Bytes} {view : View}
    (writes : view.Writes (crowd.spot handle) stored pending)
    (same : crowd.view files handle = view) :
    files.Writes files.tree handle (crowd.spot handle) stored pending := by
  subst same
  exact ⟨.refl _ _, crowd.spot_nonRoot handle, writes.file, writes.stream⟩

/-! ### Calls of one invocation -/

/-- A call is answered by the shared files, or by what belongs to the invocation. Every file call may
fail, and what it had to store may be stored in part then. -/
inductive Answers (crowd : Crowd Handle) (handle : Handle) (files : FileSystem Handle) :
    (call : Call) → call.Reply → FileSystem Handle → Prop
  | served (call : FileCall) :
      Answers crowd handle files (.file call)
        (files.answer handle (crowd.invocations handle).mask call).1
        (files.answer handle (crowd.invocations handle).mask call).2
  | refused (call : FileCall) {errno : Errno} (fails : errno.number ≠ 0) :
      Answers crowd handle files (.file call)
        (files.refuse handle (crowd.invocations handle).mask errno call).1
        (files.refuse handle (crowd.invocations handle).mask errno call).2
  | torn {call : FileCall} {bytes part : Bytes} {left : FileSystem Handle} {errno : Errno}
      (output : call.output? = some bytes) (begins : part <+: files.pending handle ++ bytes)
      (stores : files.store handle part = .ok left) (fails : errno.number ≠ 0) :
      Answers crowd handle files (.file call)
        (left.refuse handle (crowd.invocations handle).mask errno call).1
        (left.refuse handle (crowd.invocations handle).mask errno call).2
  | unseen : Answers crowd handle files (.file .outputIsRegular) false files
  | lookUp (setting : Setting) (value : Option Bytes) :
      Answers crowd handle files (.lookUp setting) value files
  | processId :
      Answers crowd handle files .processId (crowd.invocations handle).processId files
  | duplicate (copied : Bool) : Answers crowd handle files .duplicate copied files
  | prepareTransfer (ready : Bool) : Answers crowd handle files .prepareTransfer ready files
  | transfer (request : Transfer.Request) :
      Answers crowd handle files (.transfer request) (crowd.invocations handle).script files
  | pass (seconds : Int) : Answers crowd handle files (.pass seconds) () files
  | log (entry : Log.Entry) : Answers crowd handle files (.log entry) () files

/-- The goal is reached unless the reply is an error, and an error has a number. -/
def Leads {Answer : Type} (reply : Except Errno Answer) (goal : Prop) : Prop :=
  match reply with
  | .ok _ => goal
  | .error errno => errno.number ≠ 0

/-- An unlinking fails when it is refused although the temporary file is there. -/
def Leaves (crowd : Crowd Handle) (handle : Handle) (files : FileSystem Handle) (call : Call)
    (reply : call.Reply) : Prop :=
  call.leaves reply = true ∧ files.tree.get? (crowd.spot handle) ≠ none

/-- The binary is the complete body of the transfer, and it can be executed where that matters. -/
structure Delivered (crowd : Crowd Handle) (handle : Handle) (entry : Option Node) : Prop where
  file : ∃ mode, entry = some (.file mode
      (Transfer.received (crowd.invocations handle).script.events)) ∧
    (crowd.host.system ≠ .windows → mode &&& 0o111 = 0o111)
  complete : (crowd.invocations handle).script.ending.status.failed = false

/-- This is what a call of one invocation may do while the others wait. -/
structure Fair (crowd : Crowd Handle) (handle : Handle) (files : FileSystem Handle) (call : Call)
    (reply : call.Reply) (after : FileSystem Handle) : Prop where
  shared : crowd.Shared after
  others : ∀ other, other ≠ handle → crowd.view after other = crowd.view files other
  apart : ∀ other, other ≠ handle → ¬ call.Reaches files handle (crowd.spot other)
  destination : if call.renames reply then
      crowd.Delivered handle (after.tree.get? crowd.destination)
    else after.tree.get? crowd.destination = files.tree.get? crowd.destination

theorem Answers.still {call : Call} {reply : call.Reply} (free : call.FileFree)
    (answers : crowd.Answers handle files call reply after) : after = files := by
  cases answers with
  | served => exact free.elim
  | refused => exact free.elim
  | torn => exact free.elim
  | unseen => exact free.elim
  | _ => rfl

omit [DecidableEq Handle] in
theorem Fair.still {call : Call} {reply : call.Reply} (shared : crowd.Shared files)
    (free : call.FileFree) : crowd.Fair handle files call reply files := by
  cases call with
  | file call => exact free.elim
  | _ => exact ⟨shared, fun _ _ => rfl, fun _ _ => id, rfl⟩

/-- A call on the own file and the own stream is fair. -/
theorem Fair.tending {call : FileCall} {reply : call.Reply} (shared : crowd.Shared files)
    (tends : call.Tends (crowd.temporary handle))
    (answers : crowd.Answers handle files (.file call) reply after) :
    crowd.Fair handle files (.file call) reply after := by
  have touches : crowd.Touches handle files after := by
    cases answers with
    | served => exact shared.tends tends _
    | refused => exact shared.refuse _ _ _
    | torn output begins stores fails =>
        have storing := shared.works (.of_store stores)
        exact storing.trans ((storing.shared shared).refuse _ _ _)
    | unseen => exact .refl shared handle
  have noRenaming : (Call.file call).renames reply = false := by
    cases call with
    | rename source target => exact tends.elim
    | _ => rfl
  refine ⟨touches.shared shared, fun _ => touches.view, fun _ => shared.apart tends.installs, ?_⟩
  rw [noRenaming]
  exact touches.destination

/-- Whatever the others do between the calls, the calls are fair and lead to the goal. When the
invocation is spared, none of its unlinkings fails. -/
def Keeps {Answer : Type} (crowd : Crowd Handle) (handle : Handle) (spared : Bool)
    (goal : Answer → View → Prop) : Program Answer → View → Prop
  | .done answer, view => goal answer view
  | .ask call next, view => ∀ files, crowd.Shared files → crowd.view files handle = view →
      ∀ reply after, crowd.Answers handle files call reply after →
        (spared = true → ¬ crowd.Leaves handle files call reply) →
        crowd.Fair handle files call reply after ∧
          crowd.Keeps handle spared goal (next reply) (crowd.view after handle)

namespace Keeps

variable {First Second : Type} {spared : Bool} {program : Program First}
  {goal weaker : First → View → Prop} {view : View}

theorem mono (keeps : crowd.Keeps handle spared goal program view)
    (implies : ∀ answer view, goal answer view → weaker answer view) :
    crowd.Keeps handle spared weaker program view := by
  induction program generalizing view with
  | done answer => exact implies answer view keeps
  | ask call next inductionHypothesis =>
      intro files shared same reply after answers spares
      obtain ⟨fair, later⟩ := keeps files shared same reply after answers spares
      exact ⟨fair, inductionHypothesis reply later⟩

theorem bind {next : First → Program Second} {goal : Second → View → Prop}
    (first : crowd.Keeps handle spared
      (fun answer view => crowd.Keeps handle spared goal (next answer) view) program view) :
    crowd.Keeps handle spared goal (program >>= next) view := by
  induction program generalizing view with
  | done answer => exact first
  | ask call rest inductionHypothesis =>
      intro files shared same reply after answers spares
      obtain ⟨fair, later⟩ := first files shared same reply after answers spares
      exact ⟨fair, inductionHypothesis reply later⟩

theorem request {call : Call} {goal : call.Reply → View → Prop}
    (step : ∀ files, crowd.Shared files → crowd.view files handle = view →
      ∀ reply after, crowd.Answers handle files call reply after →
        (spared = true → ¬ crowd.Leaves handle files call reply) →
        crowd.Fair handle files call reply after ∧ goal reply (crowd.view after handle)) :
    crowd.Keeps handle spared goal (Program.request call) view := step

/-! ### Calls beside the files -/

/-- A call that is no file call leaves all files alone. -/
theorem free (only : program.Only Call.FileFree) :
    crowd.Keeps handle spared (fun _ later => later = view) program view := by
  induction program generalizing view with
  | done answer => exact rfl
  | ask call next inductionHypothesis =>
      intro files shared same reply after answers spares
      obtain rfl := answers.still only.1
      exact ⟨.still shared only.1, same ▸ inductionHypothesis reply (only.2 reply)⟩

/-- Such calls come before what the view leads to. -/
theorem afterFree {next : First → Program Second} {goal : Second → View → Prop}
    (only : program.Only Call.FileFree)
    (later : ∀ answer, crowd.Keeps handle spared goal (next answer) view) :
    crowd.Keeps handle spared goal (program >>= next) view :=
  .bind ((free only).mono fun answer _ same => same ▸ later answer)

/-- The reply to such a call may be known. -/
theorem known {call : Call} {expected : call.Reply} (free : call.FileFree)
    (fixed : ∀ files reply after, crowd.Answers handle files call reply after → reply = expected) :
    crowd.Keeps handle spared (fun reply later => reply = expected ∧ later = view)
      (Program.request call) view := by
  refine .request fun files shared same reply after answers _ => ?_
  obtain rfl := fixed files reply after answers
  obtain rfl := answers.still free
  exact ⟨.still shared free, rfl, same⟩

/-! ### Calls on the own file -/

theorem tending {call : FileCall} (tends : call.Tends (crowd.temporary handle))
    {goal : call.Reply → View → Prop}
    (step : ∀ files, crowd.Shared files → crowd.view files handle = view →
      ∀ reply after, crowd.Answers handle files (.file call) reply after →
        (spared = true → ¬ crowd.Leaves handle files (.file call) reply) →
        goal reply (crowd.view after handle)) :
    crowd.Keeps handle spared goal (Program.request (.file call)) view :=
  .request fun files shared same reply after answers spares =>
    ⟨.tending shared tends answers, step files shared same reply after answers spares⟩

/-- Calls on the own output are fair, whatever the file is. -/
theorem attends {program : Program First}
    (only : program.Only (Call.Attends (crowd.temporary handle))) :
    crowd.Keeps handle spared (fun _ _ => True) program view := by
  induction program generalizing view with
  | done answer => trivial
  | ask call next inductionHypothesis =>
      intro files shared same reply after answers _
      refine ⟨?_, inductionHypothesis reply (only.2 reply)⟩
      cases call with
      | file call => exact .tending shared only.1 answers
      | log entry =>
          have free : (Call.log entry).FileFree := trivial
          obtain rfl := answers.still free
          exact .still shared free
      | pass seconds =>
          have free : (Call.pass seconds).FileFree := trivial
          obtain rfl := answers.still free
          exact .still shared free
      | _ => exact only.1.elim

/-- Unless it fails, an unlinking leaves no temporary file. -/
theorem unlink :
    crowd.Keeps handle spared (fun _ later => spared = true → later.entry = none)
      (Program.unlink (crowd.temporary handle)) view := by
  have own : FileCall.Tends (crowd.temporary handle) (.unlink (crowd.temporary handle)) := rfl
  refine tending own fun files shared same reply after answers spares isSpared => ?_
  have absent (refused : (Call.file (.unlink (crowd.temporary handle))).leaves reply = true) :
      files.tree.get? (crowd.spot handle) = none := by
    by_contra held
    exact spares isSpared ⟨refused, held⟩
  cases answers with
  | served =>
      simp only [FileSystem.answer] at absent ⊢
      cases removed : files.unlink (crowd.temporary handle) with
      | error errno =>
          rw [removed] at absent
          exact absent rfl
      | ok left => exact (shared.unlink removed).2
  | refused => exact absent rfl
  | torn output => cases output

variable {stored pending : Bytes}

/-- The output is opened at the beginning of the own file, or it is refused. -/
theorem openOutput :
    crowd.Keeps handle spared
      (fun reply later => Leads reply (later.Writes (crowd.spot handle) [] []))
      (Program.openOutput (crowd.temporary handle)) view := by
  refine .request fun files shared same reply after answers _ => ?_
  have fair (touches : crowd.Touches handle files after) : crowd.Fair handle files
      (.file (.openOutput (crowd.temporary handle))) reply after :=
    ⟨touches.shared shared, fun _ => touches.view, fun _ => shared.apart rfl, touches.destination⟩
  cases answers with
  | served =>
      simp only [FileSystem.answer] at fair ⊢
      cases opening : files.openStream handle (crowd.temporary handle) false
          (Mode.masked 0o666 (crowd.invocations handle).mask) with
      | error errno =>
          rw [opening] at fair
          exact ⟨fair (.refl shared handle), FileSystem.openStream_refusal opening⟩
      | ok opened =>
          rw [opening] at fair
          obtain ⟨touches, writes⟩ := shared.openStream opening
          exact ⟨fair touches, writes.file, writes.stream⟩
  | refused call fails => exact ⟨fair (shared.refuse _ _ _), fails⟩
  | torn output => cases output

/-- A write that goes through adds its bytes. -/
theorem write (writes : view.Writes (crowd.spot handle) stored pending) (bytes : Bytes) :
    crowd.Keeps handle spared (fun reply later => Leads reply
        (∃ stored' pending', later.Writes (crowd.spot handle) stored' pending' ∧
          stored' ++ pending' = stored ++ pending ++ bytes))
      (Program.write bytes) view := by
  have own : FileCall.Tends (crowd.temporary handle) (.write bytes) := trivial
  refine tending own fun files shared same reply after answers _ => ?_
  cases answers with
  | served =>
      obtain ⟨left, written, stored', pending', later, joined⟩ :=
        (writes.of_view same).write bytes
      simp only [FileSystem.answer, written, FileSystem.commit]
      exact ⟨stored', pending', ⟨later.file, later.stream⟩, joined⟩
  | refused call fails => exact fails
  | torn output begins stores fails => exact fails

/-- A flush that goes through stores what waits. -/
theorem flush (writes : view.Writes (crowd.spot handle) stored pending) :
    crowd.Keeps handle spared
      (fun reply later => Leads reply (later.Writes (crowd.spot handle) (stored ++ pending) []))
      Program.flush view := by
  have own : FileCall.Tends (crowd.temporary handle) .flush := trivial
  refine tending own fun files shared same reply after answers _ => ?_
  cases answers with
  | served =>
      obtain ⟨left, flushed, later⟩ := (writes.of_view same).flush
      simp only [FileSystem.answer, flushed, FileSystem.commit]
      exact ⟨later.file, later.stream⟩
  | refused call fails => exact fails
  | torn output begins stores fails => exact fails

/-- A close that goes through leaves all bytes in the file. -/
theorem close (writes : view.Writes (crowd.spot handle) stored pending) :
    crowd.Keeps handle spared (fun reply later => Leads reply (later.Holds (stored ++ pending)))
      Program.close view := by
  have own : FileCall.Tends (crowd.temporary handle) .close := trivial
  refine tending own fun files shared same reply after answers _ => ?_
  cases answers with
  | served =>
      obtain ⟨success, touched, file⟩ := (writes.of_view same).close
      simp only [FileSystem.answer, success]
      exact ⟨file, FileSystem.close_streams files handle⟩
  | refused call fails => exact fails
  | torn output begins stores fails => exact fails

theorem outputIsRegular :
    crowd.Keeps handle spared (fun _ later => later = view) Program.outputIsRegular view := by
  have own : FileCall.Tends (crowd.temporary handle) .outputIsRegular := trivial
  refine tending own fun files shared same reply after answers _ => ?_
  cases answers with
  | served => exact same
  | refused => exact same
  | torn output => cases output
  | unseen => exact same

theorem inspect :
    crowd.Keeps handle spared (fun reply later => later = view ∧ Leads reply True)
      (Program.inspect (crowd.temporary handle)) view := by
  have own : FileCall.Tends (crowd.temporary handle) (.inspect (crowd.temporary handle)) := rfl
  refine tending own fun files shared same reply after answers _ => ?_
  cases answers with
  | served =>
      refine ⟨same, ?_⟩
      simp only [FileSystem.answer]
      cases inspected : files.tree.inspect (crowd.temporary handle) with
      | error errno => exact Tree.inspect_refusal inspected
      | ok attributes => trivial
  | refused call fails => exact ⟨same, fails⟩
  | torn output => cases output

/-- A mode that is set leaves the bytes of the file as they are. -/
theorem setMode {content : Bytes} (holds : view.Holds content) (mode : Mode) :
    crowd.Keeps handle spared (fun reply later => Leads reply
        (later.entry = some (.file mode content) ∧ later.stream = none))
      (Program.setMode (crowd.temporary handle) mode) view := by
  have own : FileCall.Tends (crowd.temporary handle) (.setMode (crowd.temporary handle) mode) := rfl
  refine tending own fun files shared same reply after answers _ => ?_
  subst same
  cases answers with
  | served =>
      simp only [FileSystem.answer, FileSystem.commitTree]
      cases changed : files.tree.setMode (crowd.temporary handle) mode with
      | error errno => exact Tree.setMode_refusal changed
      | ok tree =>
          obtain ⟨kept, held⟩ := holds.file
          obtain ⟨node, found, rfl⟩ := shared.setMode changed
          obtain rfl := Option.some.inj (found.symm.trans held)
          exact ⟨Tree.get?_put_self (crowd.spot_nonRoot handle) _, holds.idle⟩
  | refused call fails => exact fails
  | torn output => cases output

/-- A renaming that goes through delivers the file, and the temporary file is gone. -/
theorem rename (delivers : crowd.Delivered handle view.entry) (idle : view.stream = none) :
    crowd.Keeps handle spared (fun reply later => reply = .ok () → later.entry = none)
      (Program.rename (crowd.temporary handle) crowd.target) view := by
  refine .request fun files shared same reply after answers _ => ?_
  subst same
  have apart (other : Handle) (distinct : other ≠ handle) : ¬ Call.Reaches files handle
      (crowd.spot other) (.file (.rename (crowd.temporary handle) crowd.target)) :=
    shared.apart ⟨rfl, rfl⟩ distinct
  cases answers with
  | served =>
      simp only [FileSystem.answer]
      cases renamed : files.rename (crowd.temporary handle) crowd.target with
      | error errno => exact ⟨⟨shared, fun _ _ => rfl, apart, rfl⟩, by simp [FileSystem.commit]⟩
      | ok left =>
          obtain ⟨leftShared, others, gone, moved⟩ := shared.rename idle renamed
          refine ⟨⟨leftShared, others, apart, ?_⟩, fun _ => congrArg View.entry gone⟩
          simp only [FileSystem.commit, Call.renames, if_true, moved]
          exact delivers
  | refused => exact ⟨⟨shared, fun _ _ => rfl, apart, rfl⟩, by simp [FileSystem.refuse]⟩
  | torn output => cases output

end Keeps

end Crowd

end Launcher
