/-
This file follows an output stream to its file. What is stored there and what still waits are
together the bytes that were written.
-/

import Launcher.FileSystem.Service
import Launcher.Proofs.Tree.Outlet

namespace Launcher

/-- These calls work on the output that is open. -/
def FileCall.Fills : FileCall → Prop
  | .outputIsRegular => True
  | .write _ => True
  | .flush => True
  | .close => True
  | _ => False

namespace FileSystem

variable {Handle : Type} [DecidableEq Handle]

/-- The stream of the handle writes the file at the location, and the tree is touched nowhere
else. -/
structure Writes (base : Tree) (handle : Handle) (location : Location) (stored pending : Bytes)
    (files : FileSystem Handle) : Prop where
  touched : Tree.Touched location base files.tree
  nonRoot : location ≠ []
  file : ∃ mode, files.tree.get? location = some (.file mode stored)
  stream : files.streams handle = some ⟨.file location, false, stored.length, pending⟩

namespace Writes

variable {base : Tree} {handle : Handle} {location parent : Location} {stored pending : Bytes}
  {files : FileSystem Handle} {path : Bytes} {name : Name}

/-- A stream that is opened on a file empties it and writes it from its beginning. -/
theorem openFile {opened : FileSystem Handle} {outlet : Outlet} {created mode : Mode}
    (named : files.tree.writable path = .ok outlet)
    (isFile : outlet.file? created = some (location, mode))
    (success : files.openStream handle path false created = .ok opened) :
    opened.Writes files.tree handle location [] [] ∧
      opened.tree = files.tree.put location (.file mode []) := by
  obtain ⟨content, names⟩ := Tree.Names.of_file? named isFile
  have same : opened = { files with tree := files.tree.put location (.file mode []) }.setStream handle
      (some ⟨.file location, false, 0, []⟩) := by
    unfold FileSystem.openStream at success
    rw [named] at success
    cases outlet with
    | file other kept old =>
        cases isFile
        cases success
        rfl
    | vacant other =>
        cases isFile
        cases success
        rfl
    | device device => cases isFile
  rw [same]
  refine ⟨⟨.put_file names.room names.nonRoot mode [], names.nonRoot, ⟨mode, ?_⟩, ?_⟩, rfl⟩
  · exact Tree.get?_put_self names.nonRoot _
  · simp [setStream]

/-- A stream is only opened in a slot with room. -/
theorem openStream {opened : FileSystem Handle} {mode : Mode}
    (slot : files.tree.Slot path parent name)
    (noLink : ∀ target, files.tree.get? (parent ++ [name]) ≠ some (.link target))
    (success : files.openStream handle path false mode = .ok opened) :
    Path.Fits path name ∧ files.tree.HasRoom (parent ++ [name]) ∧
      opened.Writes files.tree handle (parent ++ [name]) [] [] := by
  rcases slot.writable_cases noLink with ⟨errno, refused, _⟩ | ⟨fits, room, free | ⟨kept, old, held⟩⟩
  · unfold FileSystem.openStream at success
    rw [refused] at success
    cases success
  · exact ⟨fits, room, (openFile free rfl success).1⟩
  · exact ⟨fits, room, (openFile held rfl success).1⟩

/-- Bytes are stored behind those that are there already. -/
theorem store (writes : files.Writes base handle location stored pending) (bytes : Bytes) :
    ∃ after, files.store handle bytes = .ok after ∧
      after.Writes base handle location (stored ++ bytes) pending := by
  obtain ⟨mode, found⟩ := writes.file
  have room : files.tree.HasRoom location := .of_file found
  refine ⟨_, by simp only [FileSystem.store, writes.stream, found]; rfl, ?_⟩
  have content : Stream.overlay ⟨.file location, false, stored.length, pending⟩ stored bytes =
      stored ++ bytes := by
    simp [Stream.overlay]
  refine ⟨writes.touched.trans ?_, writes.nonRoot, ⟨mode, ?_⟩, ?_⟩
  · exact .put_file room writes.nonRoot mode _
  · rw [Tree.get?_put_self writes.nonRoot, content]
  · simp [setStream]

theorem setPending (writes : files.Writes base handle location stored pending) (later : Bytes) :
    (files.setPending handle later).Writes base handle location stored later := by
  unfold FileSystem.setPending
  rw [writes.stream]
  exact ⟨writes.touched, writes.nonRoot, writes.file, by simp [setStream]⟩

/-- A write adds its bytes, whichever of them are stored at once. -/
theorem write (writes : files.Writes base handle location stored pending) (bytes : Bytes) :
    ∃ after, files.write handle bytes = .ok after ∧ ∃ stored' pending',
      after.Writes base handle location stored' pending' ∧
        stored' ++ pending' = stored ++ pending ++ bytes := by
  have waiting : files.pending handle = pending := by simp [FileSystem.pending, writes.stream]
  let whole := (pending ++ bytes).length / Stream.blockSize * Stream.blockSize
  obtain ⟨after, storing, later⟩ := writes.store ((pending ++ bytes).take whole)
  refine ⟨after.setPending handle ((pending ++ bytes).drop whole), ?_, _, _,
    later.setPending _, ?_⟩
  · simp only [FileSystem.write, waiting]
    rw [storing]
  · rw [List.append_assoc, List.take_append_drop, List.append_assoc]

theorem flush (writes : files.Writes base handle location stored pending) :
    ∃ after, files.flush handle = .ok after ∧
      after.Writes base handle location (stored ++ pending) [] := by
  have waiting : files.pending handle = pending := by simp [FileSystem.pending, writes.stream]
  obtain ⟨after, storing, later⟩ := writes.store pending
  refine ⟨after.setPending handle [], ?_, later.setPending []⟩
  simp only [FileSystem.flush, waiting]
  rw [storing]

/-- A close stores what still waits, and always succeeds. -/
theorem close (writes : files.Writes base handle location stored pending) :
    (files.close handle).1 = .ok () ∧ Tree.Touched location base (files.close handle).2.tree ∧
      ∃ mode, (files.close handle).2.tree.get? location = some (.file mode (stored ++ pending)) := by
  obtain ⟨after, flushing, later⟩ := writes.flush
  simp only [FileSystem.close, flushing]
  exact ⟨trivial, later.touched, later.file⟩

end Writes

/-! ### Work on one output -/

theorem close_streams (files : FileSystem Handle) (handle : Handle) :
    (files.close handle).2.streams handle = none := by
  unfold FileSystem.close
  split <;> simp [FileSystem.setStream]

omit [DecidableEq Handle] in
/-- The location of the file that the stream of the handle leads to. -/
def target? (files : FileSystem Handle) (handle : Handle) : Option Location :=
  (files.streams handle).bind fun stream => match stream.sink with
    | .file location => some location
    | _ => none

omit [DecidableEq Handle] in
/-- A stream follows its file to the new location. -/
theorem target?_relocate (files : FileSystem Handle) (tree : Tree)
    (relocation : Location → Option Location) (handle : Handle) :
    (files.relocate tree relocation).target? handle = (files.target? handle).bind relocation := by
  unfold target? relocate
  dsimp only
  cases files.streams handle with
  | none => rfl
  | some stream =>
      obtain ⟨sink, appending, position, pending⟩ := stream
      cases sink with
      | file location => cases moved : relocation location <;> simp [Stream.redirect, moved]
      | device device => rfl
      | nameless => rfl

omit [DecidableEq Handle] in
/-- A stream stays as it is while its file stays where it is. -/
theorem relocate_streams (files : FileSystem Handle) (tree : Tree) {handle : Handle}
    {relocation : Location → Option Location}
    (stays : ∀ location, files.target? handle = some location →
      relocation location = some location) :
    (files.relocate tree relocation).streams handle = files.streams handle := by
  unfold relocate
  dsimp only
  cases opened : files.streams handle with
  | none => rfl
  | some stream =>
      obtain ⟨sink, appending, position, pending⟩ := stream
      cases sink with
      | file location =>
          have still := stays location (by simp [target?, opened])
          simp [Stream.redirect, still]
      | device device => rfl
      | nameless => rfl

/-- Only the stream of the handle may differ, and in the tree at most the content of its file. -/
structure Works (handle : Handle) (before after : FileSystem Handle) : Prop where
  streams : ∀ other, other ≠ handle → after.streams other = before.streams other
  target : ∀ location, after.target? handle = some location → before.target? handle = some location
  tree : after.tree = before.tree ∨ ∃ location mode old new,
    before.target? handle = some location ∧ before.tree.get? location = some (.file mode old) ∧
      after.tree = before.tree.put location (.file mode new)

namespace Works

variable {handle : Handle} {before after files : FileSystem Handle}

omit [DecidableEq Handle] in
theorem refl (handle : Handle) (files : FileSystem Handle) : Works handle files files :=
  ⟨fun _ _ => rfl, fun _ same => same, .inl rfl⟩

/-- A new stream for the handle leads at most where its stream led before. -/
theorem setStream (works : Works handle before files) {stream : Option Stream}
    (leads : ∀ location, (files.setStream handle stream).target? handle = some location →
      files.target? handle = some location) : Works handle before (files.setStream handle stream) := by
  refine ⟨fun other distinct => ?_, fun location there => works.target location
    (leads location there), works.tree⟩
  rw [← works.streams other distinct]
  simp [FileSystem.setStream, distinct]

theorem close (works : Works handle before files) :
    Works handle before (files.setStream handle none) :=
  works.setStream (by simp [target?, FileSystem.setStream])

theorem setPending (works : Works handle before files) (pending : Bytes) :
    Works handle before (files.setPending handle pending) := by
  unfold FileSystem.setPending
  cases opened : files.streams handle with
  | none => exact works
  | some stream =>
      refine works.setStream fun location there => ?_
      simpa [target?, FileSystem.setStream, opened] using there

/-- Bytes are stored in the file that the stream leads to, if at all. -/
theorem of_store {bytes : Bytes} (success : files.store handle bytes = .ok after) :
    Works handle files after := by
  have moves (stream : Stream) (opened : files.streams handle = some stream) (position : Nat) :
      Works handle files (files.setStream handle (some { stream with position })) := by
    refine (refl handle files).setStream fun location there => ?_
    simpa [target?, FileSystem.setStream, opened] using there
  unfold FileSystem.store at success
  cases opened : files.streams handle with
  | none =>
      rw [opened] at success
      cases success
      exact refl handle _
  | some stream =>
      obtain ⟨sink, appending, position, pending⟩ := stream
      simp only [opened] at success
      cases sink with
      | nameless =>
          cases success
          exact moves _ opened _
      | device device =>
          cases device with
          | null =>
              cases success
              exact moves _ opened _
          | full =>
              dsimp only at success
              split at success <;> cases success
              exact refl handle _
      | file location =>
          dsimp only at success
          split at success <;> cases success
          · rename_i mode content found
            have moved := moves _ opened (position + bytes.length)
            exact ⟨moved.streams, moved.target, .inr ⟨location, mode, content, _,
              by simp [target?, opened], found, rfl⟩⟩
          · exact moves _ opened _

theorem of_flush (success : files.flush handle = .ok after) : Works handle files after := by
  unfold FileSystem.flush at success
  split at success <;> cases success
  rename_i stored storing
  exact (of_store storing).setPending []

theorem of_write {bytes : Bytes} (success : files.write handle bytes = .ok after) :
    Works handle files after := by
  simp only [FileSystem.write] at success
  split at success <;> cases success
  rename_i stored storing
  exact (of_store storing).setPending _

theorem of_close (files : FileSystem Handle) (handle : Handle) :
    Works handle files (files.close handle).2 := by
  unfold FileSystem.close
  split
  · exact (refl handle files).close
  · rename_i flushed flushing
    exact (of_flush flushing).close

omit [DecidableEq Handle] in
/-- Both works are on the same file, so the later content is the one that counts. -/
theorem trans {first second third : FileSystem Handle} (left : Works handle first second)
    (right : Works handle second third) : Works handle first third := by
  refine ⟨fun other distinct => ?_, fun location there => left.target _ (right.target _ there), ?_⟩
  · rw [right.streams other distinct, left.streams other distinct]
  · rcases right.tree with same | ⟨location, mode, old, new, there, found, same⟩
    · rw [same]
      exact left.tree
    · have known := left.target location there
      rcases left.tree with before | ⟨other, kept, oldest, middle, same', found', before⟩
      · rw [before] at found same
        exact .inr ⟨location, mode, old, new, known, found, same⟩
      · obtain rfl : other = location := Option.some.inj (same'.symm.trans known)
        have nonRoot := Tree.nonRoot_of_get? found' rfl
        rw [before, Tree.get?_put_self nonRoot] at found
        cases found
        exact .inr ⟨other, mode, oldest, new, known, found', by
          rw [same, before, Tree.put_put nonRoot]⟩

omit [DecidableEq Handle] in
/-- Without a file behind the stream the tree stays as it is. -/
theorem still (works : Works handle before after) (noFile : before.target? handle = none) :
    after.tree = before.tree := by
  rcases works.tree with same | ⟨location, mode, old, new, there, _⟩
  · exact same
  · rw [noFile] at there
    cases there

omit [DecidableEq Handle] in
/-- The content of the file is all that may differ, so the content in the end says everything. -/
theorem put {base : Tree} {location : Location} {mode kept : Mode} {old content : Bytes}
    (works : Works handle before after) (nonRoot : location ≠ [])
    (tree : before.tree = base.put location (.file mode old))
    (target : before.target? handle = some location)
    (found : after.tree.get? location = some (.file kept content)) :
    after.tree = base.put location (.file mode content) := by
  rcases works.tree with same | ⟨other, latest, middle, new, there, held, same⟩
  · rw [same, tree, Tree.get?_put_self nonRoot] at found
    cases found
    rw [same, tree]
  · obtain rfl : location = other := Option.some.inj (target.symm.trans there)
    rw [tree, Tree.get?_put_self nonRoot] at held
    cases held
    rw [same, Tree.get?_put_self nonRoot] at found
    cases found
    rw [same, tree, Tree.put_put nonRoot]

theorem answer (files : FileSystem Handle) (handle : Handle) (mask : Mode) {call : FileCall}
    (fills : call.Fills) : Works handle files (files.answer handle mask call).2 := by
  cases call with
  | outputIsRegular => exact refl handle files
  | write bytes =>
      simp only [FileSystem.answer]
      cases written : files.write handle bytes with
      | error errno => exact refl handle files
      | ok changed => exact of_write written
  | flush =>
      simp only [FileSystem.answer]
      cases flushed : files.flush handle with
      | error errno => exact refl handle files
      | ok changed => exact of_flush flushed
  | close => exact of_close files handle
  | _ => exact fills.elim

theorem refuse (files : FileSystem Handle) (handle : Handle) (mask : Mode) (errno : Errno)
    {call : FileCall} (fills : call.Fills) :
    Works handle files (files.refuse handle mask errno call).2 := by
  cases call with
  | close => exact of_close files handle
  | outputIsRegular => exact refl handle files
  | write bytes => exact refl handle files
  | flush => exact refl handle files
  | _ => exact fills.elim

end Works

end FileSystem

end Launcher
