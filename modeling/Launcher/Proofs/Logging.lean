/-
This file follows the log through runs. While a run avoids the file of an open log, everything that
it notes goes to the end of the file.
-/

import Launcher.Proofs.Journal
import Launcher.Proofs.LogFile
import Launcher.Proofs.Run.Visits

namespace Launcher

/-! ### Runs with an open log -/

/-- A property of the files and of the content of the log file lasts while the log is appended to and
the allowed calls are served or refused. -/
structure FileSystem.Lasts (allowed : FileCall → Prop)
    (holds : Bytes → FileSystem Channel → Prop) : Prop where
  isOpen : ∀ {content files}, holds content files → (files.streams .log).isSome = true
  append : ∀ {content files}, holds content files → ∀ text,
    holds (content ++ text) (files.append text)
  answer : ∀ {content files}, holds content files → ∀ {call}, allowed call → ∀ mask,
    holds content (files.answer .output mask call).2
  refuse : ∀ {content files}, holds content files → ∀ {call}, allowed call → ∀ mask errno,
    holds content (files.refuse .output mask errno call).2

theorem FileSystem.Logs.lasts (location : Location) :
    FileSystem.Lasts FileCall.SetsUp (FileSystem.Logs location) where
  isOpen logs := logs.isOpen
  append logs text := logs.append text
  answer logs _ allowed mask := logs.answer allowed mask
  refuse logs _ allowed mask errno := logs.refuse allowed mask errno

theorem FileSystem.Watches.lasts {base : Tree} {path : Bytes} {location : Location}
    (shelters : base.Shelters path location) :
    FileSystem.Lasts (FileCall.Handles path) (FileSystem.Watches base location) where
  isOpen watches := watches.logs.isOpen
  append watches text := watches.append text
  answer watches _ handles mask := watches.answer shelters handles mask
  refuse watches call handles mask errno := by
    cases call with
    | close => exact handles.elim
    | _ => exact watches

theorem FileSystem.Tends.lasts {base : Tree} {path : Bytes} {location : Location}
    (shelters : base.Shelters path location) :
    FileSystem.Lasts (FileCall.Tends path) (FileSystem.Tends base location) where
  isOpen tends := tends.logs.isOpen
  append tends text := tends.append text
  answer tends _ allowed mask := tends.answer shelters allowed mask
  refuse tends _ allowed mask errno := tends.refuse allowed mask errno

/-- The call does not open the file at the location for writing, and it does not replace it. -/
def Call.spares (tree : Tree) (location : Location) : Call → Bool
  | .file (.openOutput path) => match tree.writable path with
      | .ok (.file other _ _) => other ≠ location
      | _ => true
  | .file (.rename _ target) => match tree.resolve .keep target with
      | .ok ⟨.taken other _, _⟩ => other ≠ location
      | _ => true
  | _ => true

/-- A call within these file calls neither opens nor closes the log, and it always answers. -/
def Call.Within (allowed : FileCall → Prop) : Call → Prop
  | .file call => allowed call
  | .fetch _ _ => False
  | .execute _ _ => False
  | .openLog => False
  | .closeLog => False
  | _ => True

theorem Call.IsLocal.within {call : Call} (isLocal : call.IsLocal) :
    call.Within FileCall.SetsUp := by
  cases call with
  | file call => cases call <;> trivial
  | _ => trivial

theorem Call.Attends.within {path : Bytes} {call : Call} (attends : call.Attends path) :
    call.Within (FileCall.Tends path) := by
  cases call with
  | file call => exact attends
  | _ => trivial

theorem Call.Handles.within {path : Bytes} {call : Call} (handles : call.Handles path) :
    call.Within (FileCall.Handles path) := by
  cases call with
  | file call => exact handles
  | _ => trivial

theorem Call.Within.mono {allowed other : FileCall → Prop} {call : Call}
    (within : call.Within allowed) (weaker : ∀ call, allowed call → other call) :
    call.Within other := by
  cases call with
  | file call => exact weaker call within
  | _ => exact within

namespace World

variable {First Second : Type} {world after : World} {location : Location} {content : Bytes}
  {holds : Bytes → FileSystem Channel → Prop} {allowed : FileCall → Prop}

/-- The messages that a call shows, with the moment. -/
def noted (world : World) (call : Call) : List Log.Filed :=
  ((world.piecesOf call).filterMap Log.Piece.message?).map (Log.Filed.mk · world.clock)

/-- The messages that a run shows, with their moments. -/
def notes {Answer : Type} (world : World) (program : Program Answer) : List Log.Filed :=
  (world.visits program).flatMap fun visit => visit.1.noted visit.2

@[simp] theorem notes_done (world : World) (answer : First) : world.notes (.done answer) = [] := rfl

theorem notes_request {call : Call} {reply : call.Reply}
    (answered : world.answer call = (some reply, after)) (next : call.Reply → Program First) :
    world.notes (Program.request call >>= next) = world.noted call ++ after.notes (next reply) := by
  rw [notes, visits_request answered, List.flatMap_cons]
  rfl

theorem notes_bind {program : Program First} {answer : First}
    (ran : world.run program = (some answer, after)) (next : First → Program Second) :
    world.notes (program >>= next) = world.notes program ++ after.notes (next answer) := by
  rw [notes, visits_bind ran, List.flatMap_append]
  rfl

/-- What a run notes are the messages of its lines. -/
theorem notes_messages (world : World) (program : Program First) :
    (world.notes program).map Log.Filed.message =
      (world.lines program).filterMap Log.Piece.message? := by
  have noted (world : World) (call : Call) : (world.noted call).map Log.Filed.message =
      (world.piecesOf call).filterMap Log.Piece.message? := by
    simp [World.noted, Function.comp_def]
  induction program generalizing world with
  | done answer => rfl
  | ask call next inductionHypothesis =>
      rw [notes, visits, List.flatMap_cons, List.map_append, noted, lines, List.filterMap_append]
      rcases world.answer call with ⟨_ | reply, after⟩
      · rfl
      · exact congrArg _ (inductionHypothesis reply after)

/-- The log is open, the property holds of its file, and the level lets errors through. -/
structure Notes (holds : Bytes → FileSystem Channel → Prop) (content : Bytes) (world : World) :
    Prop where
  files : holds content world.files
  loud : Level.error ≤ world.log.level
  selected : world.log.level ≤ .debug

namespace Notes

theorem mono {other : Bytes → FileSystem Channel → Prop} (notes : world.Notes holds content)
    (weaker : ∀ content files, holds content files → other content files) :
    world.Notes other content :=
  ⟨weaker content world.files notes.files, notes.loud, notes.selected⟩

variable (lasts : FileSystem.Lasts allowed holds)
include lasts

/-- What is shown goes to the file. -/
theorem writeEntry (notes : world.Notes holds content) (entry : Log.Entry) :
    (world.writeEntry entry).Notes holds
      (content ++ (world.noted (.log entry)).flatMap Log.Filed.text) := by
  have level := world.log.afterEntry_level world.clock entry
  have opened : world.logIsOpen = true := lasts.isOpen notes.files
  have filed := FileSystem.holds_appendAll holds lasts.append notes.files world.clock
    ((world.pieces entry).filterMap Log.Piece.message?)
  rw [writeEntry_eq, filesAfter, filings_eq notes.selected opened]
  refine ⟨?_, ?_, ?_⟩
  · rw [noted, List.flatMap_map]
    exact filed
  · rw [level]
    exact notes.loud
  · rw [level]
    exact notes.selected

/-- A call leaves the file with what it noted. -/
theorem answer (notes : world.Notes holds content) {call : Call} (within : call.Within allowed) :
    (world.answer call).2.Notes holds
      (content ++ (world.noted call).flatMap Log.Filed.text) := by
  have still {later : World} (silent : world.noted call = []) (files : later.files = world.files)
      (log : later.log = world.log) :
      later.Notes holds (content ++ (world.noted call).flatMap Log.Filed.text) := by
    rw [silent, List.flatMap_nil, List.append_nil]
    refine ⟨?_, ?_, ?_⟩
    · rw [files]
      exact notes.files
    · rw [log]
      exact notes.loud
    · rw [log]
      exact notes.selected
  cases call with
  | log entry => exact notes.writeEntry lasts entry
  | file call =>
      have silent : world.noted (.file call) = [] := rfl
      rw [silent, List.flatMap_nil, List.append_nil, World.answer, answerFile_eq]
      split
      · exact ⟨lasts.answer notes.files within _, notes.loud, notes.selected⟩
      · exact ⟨lasts.refuse notes.files within _ _, notes.loud, notes.selected⟩
  | fetch address path => exact within.elim
  | execute path arguments => exact within.elim
  | openLog => exact within.elim
  | closeLog => exact within.elim
  | _ => exact still rfl rfl rfl

end Notes

/-! ### Sequences of programs -/

/-- No call of the run opens or replaces the file at the location. -/
def Avoids {Answer : Type} (world : World) (location : Location) (program : Program Answer) : Prop :=
  ∀ visit ∈ world.visits program, visit.2.spares visit.1.files.tree location = true

instance {Answer : Type} (world : World) (location : Location) (program : Program Answer) :
    Decidable (world.Avoids location program) :=
  inferInstanceAs (Decidable (∀ visit ∈ world.visits program,
    visit.2.spares visit.1.files.tree location = true))

theorem Avoids.bind {program : Program First} {answer : First} {next : First → Program Second}
    (avoids : world.Avoids location (program >>= next))
    (ran : world.run program = (some answer, after)) :
    world.Avoids location program ∧ after.Avoids location (next answer) := by
  unfold Avoids at avoids ⊢
  rw [visits_bind ran] at avoids
  exact ⟨fun visit among => avoids visit (List.mem_append_left _ among),
    fun visit among => avoids visit (List.mem_append_right _ among)⟩

/-- When the run avoids the file and answers, the goal is met with the content that the file has
after what the run noted. -/
def Proceeds (location : Location) (content : Bytes) (world : World) (program : Program First)
    (goal : First → Bytes → World → Prop) : Prop :=
  world.Avoids location program → ∀ answer after, world.run program = (some answer, after) →
    goal answer (content ++ (world.notes program).flatMap Log.Filed.text) after

namespace Proceeds

variable {program : Program First} {goal : First → Bytes → World → Prop}

theorem done {answer : First} (holds : goal answer content world) :
    Proceeds location content world (.done answer) goal := by
  intro _ _ _ ran
  cases ran
  rw [notes_done, List.flatMap_nil, List.append_nil]
  exact holds

theorem mono {other : First → Bytes → World → Prop}
    (proceeds : Proceeds location content world program other)
    (weaker : ∀ answer content after, other answer content after → goal answer content after) :
    Proceeds location content world program goal :=
  fun avoids answer after ran => weaker answer _ after (proceeds avoids answer after ran)

theorem bind {next : First → Program Second} {goal : Second → Bytes → World → Prop}
    (first : Proceeds location content world program fun answer content after =>
      Proceeds location content after (next answer) goal) :
    Proceeds location content world (program >>= next) goal := by
  intro avoids last final ran
  rcases middle : world.run program with ⟨_ | answer, after⟩
  · rw [run_bind, middle] at ran
    cases ran
  · obtain ⟨before, later⟩ := avoids.bind middle
    rw [run_bind, middle] at ran
    have reached := first before answer after middle later last final ran
    rw [List.append_assoc, ← List.flatMap_append, ← notes_bind middle] at reached
    exact reached

/-- A call goes on with its reply. -/
theorem request {call : Call} {goal : call.Reply → Bytes → World → Prop}
    (step : call.spares world.files.tree location = true → ∀ reply after,
      world.answer call = (some reply, after) →
      goal reply (content ++ (world.noted call).flatMap Log.Filed.text) after) :
    Proceeds location content world (Program.request call) goal := by
  intro avoids reply after ran
  have asked : Program.request call = Program.request call >>= fun reply => .done reply := rfl
  rcases answered : world.answer call with ⟨_ | given, later⟩
  · rw [asked, run_request_gone answered] at ran
    cases ran
  · rw [asked, run_request answered] at ran
    cases ran
    rw [asked, notes_request answered, notes_done, List.append_nil]
    refine step (avoids (world, call) ?_) reply after answered
    rw [asked, visits_request answered]
    exact List.mem_cons_self

/-- Calls that the file does not notice go on with what it has after them. -/
theorem within (lasts : FileSystem.Lasts allowed holds) (only : program.Only (Call.Within allowed))
    (notes : world.Notes holds content) :
    Proceeds location content world program fun _ content after => after.Notes holds content := by
  induction program generalizing world content with
  | done answer => exact .done notes
  | ask call next inductionHypothesis =>
      have step := notes.answer lasts only.1
      have asked : Program.ask call next = Program.request call >>= next := rfl
      rw [asked]
      refine .bind (.request fun _ reply after answered => ?_)
      rw [answered] at step
      exact inductionHypothesis reply (only.2 reply) step

/-- A program that the file does not notice is followed by another one. -/
theorem steps {next : First → Program Second} {goal : Second → Bytes → World → Prop}
    (lasts : FileSystem.Lasts allowed holds) (only : program.Only (Call.Within allowed))
    (notes : world.Notes holds content)
    (later : ∀ answer content after, after.Notes holds content →
      Proceeds location content after (next answer) goal) :
    Proceeds location content world (program >>= next) goal :=
  .bind ((within lasts only notes).mono later)

/-- The surroundings last, and faults only wear out. -/
theorem descends (plain : program.Only Call.IsPlain)
    (proceeds : Proceeds location content world program goal) :
    Proceeds location content world program fun answer content after =>
      goal answer content after ∧ after.Descends world := by
  intro avoids answer after ran
  have descends := world.run_descends plain
  rw [ran] at descends
  exact ⟨proceeds avoids answer after ran, descends⟩

theorem steps_descends {next : First → Program Second} {goal : Second → Bytes → World → Prop}
    (lasts : FileSystem.Lasts allowed holds) (only : program.Only (Call.Within allowed))
    (plain : program.Only Call.IsPlain) (notes : world.Notes holds content)
    (later : ∀ answer content after, after.Notes holds content → after.Descends world →
      Proceeds location content after (next answer) goal) :
    Proceeds location content world (program >>= next) goal :=
  .bind (((within lasts only notes).descends plain).mono fun answer content after reached =>
    later answer content after reached.1 reached.2)

end Proceeds

end World

end Launcher
