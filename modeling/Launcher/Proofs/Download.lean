/-
This file says what a download leaves behind. A download that succeeds leaves all received bytes
in its file, and whatever happens it touches nothing else.
-/

import Launcher.Proofs.Decision
import Launcher.Proofs.Run.Call
import Launcher.Proofs.Status

namespace Launcher

namespace Transfer

/-- The data of a transfer in the order of its events. -/
def received : List Event → Bytes
  | [] => []
  | .progress _ _ _ :: others => received others
  | .data bytes :: others => bytes ++ received others

/-- Without a transfer no data is received. -/
def Script.delivered (script : Script) : Bytes :=
  if script.available then received script.events else []

end Transfer

namespace World

variable {world : World}

theorem answerBare_works (world : World) {call : Call} (ofFill : call.OfFill) :
    FileSystem.Works .output world.files (world.answerBare call).2.files := by
  cases call with
  | file call =>
      change FileSystem.Works .output world.files (world.answerFile call).2.files
      rw [answerFile_eq]
      split
      · exact .answer world.files .output _ ofFill
      · exact .refuse world.files .output _ _ ofFill
  | prepareTransfer => exact .refl .output world.files
  | transfer request => exact .refl .output world.files
  | log entry => exact .refl .output world.files
  | pass seconds => exact .refl .output world.files
  | _ => exact ofFill.elim

/-- A download that has its output open works on that output only. -/
theorem yields_works {First : Type} {program : Program First} (only : program.Only Call.OfFill)
    (world : World) :
    world.Yields program fun _ after => FileSystem.Works .output world.files after.files := by
  induction program generalizing world with
  | done answer => exact .done (.refl Channel.output world.files)
  | ask call next inductionHypothesis =>
      have replies : ∃ reply after, world.answerBare call = (some reply, after) := by
        cases call with
        | execute path arguments => exact only.1.elim
        | _ => exact ⟨_, _, rfl⟩
      obtain ⟨reply, after, answered⟩ := replies
      have step := world.answerBare_works only.1
      rw [answered] at step
      obtain ⟨answer, last, ran, later⟩ := inductionHypothesis reply (only.2 reply) after
      refine ⟨answer, last, ?_, step.trans later⟩
      rw [runBare, answered]
      exact ran

/-- A new file gets this mode. -/
def fileMode (world : World) : Mode := 0o666 &&& ~~~world.surroundings.mask

/-- An output is opened, or the opening changes nothing. -/
theorem answerFile_openOutput (world : World) (path : Bytes) :
    (world.files.openStream .output path false world.fileMode =
        .ok (world.answerFile (.openOutput path)).2.files ∧
      (world.answerFile (.openOutput path)).1 = .ok ()) ∨
    ∃ errno, (world.answerFile (.openOutput path)).1 = .error errno ∧
      (world.answerFile (.openOutput path)).2.files = world.files := by
  rw [answerFile_eq]
  split
  · have mode : Mode.masked 0o666 world.surroundings.mask = world.fileMode :=
      Mode.masked_eq (by decide) world.surroundings.mask
    simp only [FileSystem.answer, mode]
    cases world.files.openStream .output path false world.fileMode with
    | error errno => exact .inr ⟨errno, rfl, rfl⟩
    | ok files => exact .inl ⟨rfl, rfl⟩
  · exact .inr ⟨_, rfl, rfl⟩

/-- No fault strikes a write, and none strikes the question for the kind of the output. -/
theorem yields_write {bytes : Bytes} {goal : Except Errno Unit → World → Prop} :
    world.Yields (Program.write bytes) goal ↔
      goal (world.files.commit (world.files.write .output bytes)).1
        { world with files := (world.files.commit (world.files.write .output bytes)).2 } :=
  yields_request rfl

theorem yields_outputIsRegular {goal : Bool → World → Prop} :
    world.Yields Program.outputIsRegular goal ↔ goal (world.files.isRegular .output) world :=
  yields_request rfl

variable {path : Bytes} {parent : Location} {name : Name}

/-- What is unlinked in a slot is a file, and it is gone unless a fault strikes. -/
theorem yields_unlink (sound : world.FaultsFail) (slot : world.files.tree.Slot path parent name)
    (noLink : ∀ target, world.files.tree.get? (parent ++ [name]) ≠ some (.link target)) :
    world.Yields (Program.unlink path) fun _ after =>
      Tree.Touched (parent ++ [name]) world.files.tree after.files.tree ∧
        (¬ Path.Fits path name ∨ ¬ world.files.tree.HasRoom (parent ++ [name]) →
          after.files.tree = world.files.tree) ∧
        (world.Spares .unlink → Path.Fits path name →
          world.files.tree.HasRoom (parent ++ [name]) →
          after.files.tree.get? (parent ++ [name]) = none) := by
  have nonRoot : parent ++ [name] ≠ [] := by simp
  apply Yields.unlink sound
  · intro files after unlinked _ same
    unfold FileSystem.unlink at unlinked
    split at unlinked <;> cases unlinked
    rename_i location allowed
    obtain ⟨rfl, fits, mode, content, found⟩ := (slot.unlinkable_iff noLink).mp allowed
    rw [same]
    have room := Tree.HasRoom.of_file found
    refine ⟨.erase room nonRoot, ?_, fun _ _ _ => ?_⟩
    · rintro (long | full)
      · exact absurd fits long
      · exact absurd room full
    · simp [FileSystem.relocate, Tree.get?_erase _ _ _ nonRoot]
  · intro errno after struck _ same
    rw [same]
    refine ⟨.refl _ _, fun _ => rfl, fun spared fits room => ?_⟩
    obtain ⟨refusal, refused⟩ := struck spared
    cases found : world.files.tree.get? (parent ++ [name]) with
    | none => rfl
    | some node =>
        obtain ⟨mode, content, rfl⟩ := room node found
        rw [slot.unlinkable_taken fits found rfl] at refused
        cases refused

end World

namespace Download

variable {world : World} {base : Tree} {parent location : Location} {name : Name}
  {stored pending address path : Bytes}

/-- All data is written, whatever the progress is. -/
theorem yields_receive (writes : world.files.Writes base .output location stored pending)
    (events : List Transfer.Event) :
    world.Yields (receive address events) fun complete after => complete = true ∧
      ∃ stored' pending', after.files.Writes base .output location stored' pending' ∧
        stored' ++ pending' = stored ++ pending ++ Transfer.received events := by
  induction events generalizing world stored pending with
  | nil =>
      simp only [receive, Program.pure_eq, World.yields_done, Transfer.received, List.append_nil]
      exact ⟨trivial, stored, pending, writes, rfl⟩
  | cons event others inductionHypothesis =>
      cases event with
      | progress total received seconds =>
          simp only [receive, World.yields_bind, World.yields_pass, Transfer.received]
          split
          · simp only [World.yields_bind, World.yields_noteReading]
            exact inductionHypothesis writes
          · exact inductionHypothesis writes
      | data bytes =>
          obtain ⟨files, written, stored', pending', later, joined⟩ := writes.write bytes
          simp only [receive, World.yields_bind, World.yields_write, written, FileSystem.commit]
          apply (inductionHypothesis later).mono
          intro complete after reached
          obtain ⟨done, stored'', pending'', last, whole⟩ := reached
          refine ⟨done, stored'', pending'', last, ?_⟩
          rw [whole, joined, Transfer.received, List.append_assoc]

/-- The bytes reach the file in the close, also when the close is reported as a failure. -/
theorem yields_close (sound : world.FaultsFail)
    (writes : world.files.Writes base .output location stored pending) :
    world.Yields Program.close fun reply after =>
      (∀ errno, reply = .error errno → errno.number ≠ 0) ∧
        Tree.Touched location base after.files.tree ∧
        ∃ mode, after.files.tree.get? location = some (.file mode (stored ++ pending)) := by
  obtain ⟨success, touched, file⟩ := writes.close
  apply World.Yields.file sound
  · intro errno after fails _ _ files
    rw [files]
    refine ⟨?_, touched, file⟩
    rintro other same
    cases same
    exact fails
  · intro after _ files
    rw [files]
    refine ⟨?_, touched, file⟩
    rintro errno same
    rw [show (FileSystem.answer world.files .output world.surroundings.mask .close).1 = .ok () from
      success] at same
    cases same

theorem yields_settle (sound : world.FaultsFail)
    (writes : world.files.Writes base .output location stored pending)
    (ending : Transfer.Ending) :
    world.Yields (settle address ending) fun _ after =>
      ∃ stored' pending', after.files.Writes base .output location stored' pending' ∧
        stored' ++ pending' = stored ++ pending := by
  simp only [settle]
  split
  · simp only [World.yields_bind, World.yields_note, Program.pure_eq, World.yields_done]
    exact ⟨stored, pending, writes, rfl⟩
  · obtain ⟨flushed, flushing, later⟩ := writes.flush
    simp only [World.yields_bind]
    apply World.Yields.file sound
    · intro errno after _ _ _ files
      simp only [FileSystem.refuse, World.yields_bind, World.yields_noteStatus, Program.pure_eq,
        World.yields_done, files]
      exact ⟨stored, pending, writes, rfl⟩
    · intro after _ files
      simp only [FileSystem.answer, flushing, FileSystem.commit] at files
      simp only [FileSystem.answer, flushing, FileSystem.commit, Program.pure_eq,
        World.yields_done, files]
      exact ⟨stored ++ pending, [], later, by simp⟩

/-- A status that went well so far may still fail in the close. -/
theorem yields_finish (sound : world.FaultsFail)
    (writes : world.files.Writes base .output location stored pending) (status : Status) :
    world.Yields (finish status) fun _ after =>
      Tree.Touched location base after.files.tree ∧
        ∃ mode, after.files.tree.get? location = some (.file mode (stored ++ pending)) := by
  simp only [finish, World.yields_bind]
  apply (yields_close sound writes).mono
  intro reply after reached
  obtain ⟨_, left⟩ := reached
  cases reply with
  | ok =>
      simp only [Program.pure_eq, World.yields_done]
      exact left
  | error errno =>
      dsimp only
      split
      · simp only [Program.pure_eq, World.yields_done]
        exact left
      · simp only [World.yields_bind, World.yields_noteStatus, Program.pure_eq, World.yields_done]
        exact left

/-- All bytes that the transport gives are in the file in the end, when there is a transfer. -/
theorem yields_fill (sound : world.FaultsFail)
    (writes : world.files.Writes base .output location [] []) (headers : Option (List Bytes)) :
    world.Yields (fill address headers) fun status after =>
      (status.failed = false → world.surroundings.transport.available = true) ∧
        Tree.Touched location base after.files.tree ∧
        ∃ mode, after.files.tree.get? location =
          some (.file mode world.surroundings.transport.delivered) := by
  simp only [fill, World.yields_bind, World.yields_prepareTransfer]
  split
  · rename_i available
    simp only [transfer, World.yields_bind, World.yields_transfer]
    have started : FileSystem.Writes base .output location [] []
        (world.witness (.transfer (.to address headers))).files := writes
    apply (yields_receive started _).descends.mono
    intro complete full reached
    obtain ⟨⟨rfl, stored, pending, writes, whole⟩, later⟩ := reached
    have fullSound : full.FaultsFail := later.faultsFail sound
    simp only [if_true, Program.pure_eq, World.yields_done, World.yields_endReadings]
    apply (yields_settle fullSound writes _).descends.mono
    intro settled quiet reached
    obtain ⟨⟨stored', pending', writes, joined⟩, later⟩ := reached
    apply (yields_finish (later.faultsFail fullSound) writes _).mono
    intro status shut reached
    obtain ⟨touched, mode, found⟩ := reached
    refine ⟨fun _ => available, touched, mode, ?_⟩
    rw [found, joined, whole, Transfer.Script.delivered, if_pos available]
    rfl
  · rename_i unavailable
    simp only [World.yields_bind, Program.pure_eq, World.yields_done]
    apply (yields_close sound writes).mono
    intro reply shut reached
    obtain ⟨_, touched, mode, found⟩ := reached
    refine ⟨by simp, touched, mode, ?_⟩
    rw [found, Transfer.Script.delivered, if_neg unavailable]
    rfl

/-- Only the output itself is removed. -/
theorem yields_discard (sound : world.FaultsFail)
    (slot : world.files.tree.Slot path parent name)
    (noLink : ∀ target, world.files.tree.get? (parent ++ [name]) ≠ some (.link target))
    (regular : Bool) :
    world.Yields (discard path regular) fun _ after =>
      Tree.Touched (parent ++ [name]) world.files.tree after.files.tree := by
  simp only [discard]
  split
  · simp only [World.yields_bind, Program.pure_eq, World.yields_done]
    exact (World.yields_unlink sound slot noLink).mono fun _ _ removed => removed.1
  · simp only [Program.pure_eq, World.yields_done]
    exact .refl _ _

/-- After a download only its output may differ, and only where there is room for a file. -/
theorem yields_file (sound : world.FaultsFail)
    (slot : world.files.tree.Slot path parent name)
    (noLink : ∀ target, world.files.tree.get? (parent ++ [name]) ≠ some (.link target))
    (headers : Option (List Bytes)) :
    world.Yields (file (some address) (some path) headers) fun status after =>
      Tree.Touched (parent ++ [name]) world.files.tree after.files.tree ∧
        (¬ Path.Fits path name ∨ ¬ world.files.tree.HasRoom (parent ++ [name]) →
          after.files.tree = world.files.tree) ∧
        (status.failed = false → world.files.tree.HasRoom (parent ++ [name]) ∧
          ∃ mode, after.files.tree.get? (parent ++ [name]) =
            some (.file mode (Transfer.received world.surroundings.transport.events))) := by
  simp only [file_eq_fill, World.yields_bind]
  apply World.Yields.openOutput sound
  · intro files after opened descends same
    obtain ⟨fits, room, writes⟩ := FileSystem.Writes.openStream slot noLink opened
    rw [← same] at writes
    have regular : after.files.isRegular .output = true := by
      simp [FileSystem.isRegular, writes.stream]
    have openSound := descends.faultsFail sound
    have taken {goal : Prop} (closed : ¬ Path.Fits path name ∨
        ¬ world.files.tree.HasRoom (parent ++ [name])) : goal :=
      closed.elim (absurd fits) (absurd room)
    simp only [World.yields_bind, World.yields_outputIsRegular, regular, leave]
    apply (yields_fill openSound writes headers).descends.mono
    intro status shut reached
    obtain ⟨⟨went, touched, mode, found⟩, later⟩ := reached
    split
    · rename_i failed
      simp only [World.yields_bind, Program.pure_eq, World.yields_done, failed]
      apply (yields_discard (later.faultsFail openSound) (slot.keep touched.ways)
        (touched.room room).noLink true).mono
      exact fun _ last more => ⟨touched.trans more, taken, by simp⟩
    · simp only [Program.pure_eq, World.yields_done]
      refine ⟨touched, taken, fun done => ⟨room, mode, ?_⟩⟩
      rw [found, Transfer.Script.delivered, if_pos (went done), descends.surroundings]
  · intro errno after fails _ same
    simp only [Program.pure_eq, World.yields_done, Status.failed_ofErrno fails, same,
      implies_true, true_and]
    exact ⟨.refl _ _, by simp⟩

end Download

end Launcher
