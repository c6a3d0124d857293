/-
This file interleaves the installations of a crowd. At every moment the binary is the initial one or
a complete one, and the temporary files stay apart.
-/

import Launcher.Proofs.Crowd.Installation

namespace Launcher

def Program.isDone {Answer : Type} : Program Answer → Bool
  | .done _ => true
  | .ask _ _ => false

/-! ### Calls of an installation that downloads -/

def Call.OfDownload : Call → Prop
  | .lookUp _ => True
  | .processId => True
  | .duplicate => True
  | .prepareTransfer => True
  | .transfer _ => True
  | call => call.IsQuiet

theorem Call.IsQuiet.ofDownload {call : Call} (quiet : call.IsQuiet) : call.OfDownload := by
  cases call with
  | file call => trivial
  | log entry => trivial
  | pass seconds => trivial
  | _ => exact quiet.elim

theorem Download.file_ofDownload (address output : Bytes) (headers : Option (List Bytes)) :
    (file (some address) (some output) headers).Only Call.OfDownload := by
  have attends {Answer : Type} {program : Program Answer}
      (only : program.Only (Call.Attends output)) : program.Only Call.OfDownload :=
    only.mono fun _ attends => attends.quiet.ofDownload
  rw [file_eq]
  refine .bind (.request trivial) fun opened => ?_
  cases opened with
  | error errno => trivial
  | ok =>
      refine .bind (.request trivial) fun regular => .bind (.request trivial) fun ready => ?_
      split
      · refine .bind (.bind (.request trivial) fun script => ?_) fun ending =>
          attends (conclude_attends _ _ regular ending)
        refine .bind (attends (receive_attends _ _ _)) fun complete => ?_
        split <;> trivial
      · exact .bind (.request trivial) fun _ =>
          .bind (attends (discard_attends _ regular)) fun _ => trivial

theorem Resolve.install_ofDownload (version target : Bytes) (host : Platform) :
    (install version target host .download).Only Call.OfDownload := by
  have run (address : Bytes) (executable : Bool) :
      (Install.run .download address target executable).Only Call.OfDownload := by
    rw [Install.run_eq]
    refine .bind (.request trivial) fun number => .bind (.request trivial) fun copied => ?_
    split
    · rw [Install.place_eq]
      refine .bind (.bind (Download.file_ofDownload _ _ _) fun fetched => ?_) fun outcome => ?_
      · exact (Install.afterFetch_placing _ _ _ _).mono fun _ placing => placing.1.ofDownload
      · exact (Install.cleanUp_handles _ outcome).mono fun _ handles =>
          handles.placing.1.ofDownload
    · trivial
  refine .bind (.bind (.request trivial) fun value => ?_) fun disabled => ?_
  · cases value <;> trivial
  split
  · exact .bind (.request trivial) fun _ => trivial
  · cases host.asset with
    | error status => exact .bind (.request trivial) fun _ => .bind (.request trivial) fun _ => trivial
    | ok asset =>
        refine .bind (.request trivial) fun _ => .bind (.request trivial) fun _ => ?_
        refine .bind (run _ _) fun status => ?_
        split
        · trivial
        · exact .bind (.request trivial) fun _ => trivial

namespace Crowd

variable {Handle : Type}

/-- An invocation made a call, and it was answered. -/
structure Move (Handle : Type) where
  handle : Handle
  call : Call
  reply : call.Reply
  before : FileSystem Handle
  after : FileSystem Handle

/-- The invocation whose renaming was the last one. The latest move comes first. -/
def renamer : List (Move Handle) → Option Handle
  | [] => none
  | move :: earlier => if move.call.renames move.reply then some move.handle else renamer earlier

/-- The shared files, and what each invocation still has to do. -/
structure State (Handle : Type) where
  files : FileSystem Handle
  programs : Handle → Program (Except Status Bytes)

def start (crowd : Crowd Handle) : State Handle :=
  ⟨crowd.files, fun _ => Resolve.install crowd.version crowd.target crowd.host .download⟩

/-- The binary is the initial one, or the one that was delivered last. -/
def Installed (crowd : Crowd Handle) (entry : Option Node) : Option Handle → Prop
  | none => entry = crowd.files.tree.get? crowd.destination
  | some handle => crowd.Delivered handle entry

/-- None of the unlinkings of the invocation failed. -/
def Unlinks (crowd : Crowd Handle) (moves : List (Move Handle)) (handle : Handle) : Prop :=
  ∀ move ∈ moves, move.handle = handle →
    ¬ crowd.Leaves move.handle move.before move.call move.reply

variable [DecidableEq Handle] {crowd : Crowd Handle} {moves : List (Move Handle)}
  {state : State Handle}

instance (crowd : Crowd Handle) (moves : List (Move Handle)) (handle : Handle) :
    Decidable (crowd.Unlinks moves handle) :=
  inferInstanceAs (Decidable (∀ move ∈ moves, move.handle = handle →
    ¬ (move.call.leaves move.reply = true ∧
      move.before.tree.get? (crowd.spot move.handle) ≠ none)))

/-- Any invocation that is not done may make the next move. -/
inductive Reaches (crowd : Crowd Handle) : List (Move Handle) → State Handle → Prop
  | start : Reaches crowd [] crowd.start
  | step {moves : List (Move Handle)} {state : State Handle} {handle : Handle} {call : Call}
      {next : call.Reply → Program (Except Status Bytes)} {reply : call.Reply}
      {after : FileSystem Handle} (reached : Reaches crowd moves state)
      (asks : state.programs handle = .ask call next)
      (answers : crowd.Answers handle state.files call reply after) :
      Reaches crowd (⟨handle, call, reply, state.files, after⟩ :: moves)
        ⟨after, Function.update state.programs handle (next reply)⟩

/-! ### All moves -/

/-- What is known after the moves. -/
structure Sound (crowd : Crowd Handle) (moves : List (Move Handle)) (state : State Handle) :
    Prop where
  shared : crowd.Shared state.files
  -- An invocation whose unlinking failed still moves fairly, it only misses the goal.
  keeps : ∀ handle spared, (spared = true → crowd.Unlinks moves handle) →
    crowd.Keeps handle spared (fun _ view => spared = true → view.entry = none)
      (state.programs handle) (crowd.view state.files handle)
  installed : crowd.Installed (state.files.tree.get? crowd.destination) (renamer moves)
  apart : ∀ move ∈ moves, ∀ other, other ≠ move.handle →
    ¬ move.call.Reaches move.before move.handle (crowd.spot other) ∧
      crowd.view move.after other = crowd.view move.before other

theorem sound_start (crowd : Crowd Handle) : crowd.Sound [] crowd.start :=
  ⟨crowd.shared_start, fun handle _ _ => .install (crowd.vacant handle), rfl, by simp⟩

/-- Each move keeps what is known. -/
theorem Sound.step (sound : crowd.Sound moves state) {handle : Handle} {call : Call}
    {next : call.Reply → Program (Except Status Bytes)} {reply : call.Reply}
    {after : FileSystem Handle} (asks : state.programs handle = .ask call next)
    (answers : crowd.Answers handle state.files call reply after) :
    crowd.Sound (⟨handle, call, reply, state.files, after⟩ :: moves)
      ⟨after, Function.update state.programs handle (next reply)⟩ := by
  have turn (spared : Bool) (unlinks : spared = true →
      crowd.Unlinks (⟨handle, call, reply, state.files, after⟩ :: moves) handle) :
      crowd.Fair handle state.files call reply after ∧
        crowd.Keeps handle spared (fun _ view => spared = true → view.entry = none)
          (next reply) (crowd.view after handle) := by
    have keeps := sound.keeps handle spared fun isSpared move among =>
      unlinks isSpared move (List.mem_cons_of_mem _ among)
    rw [asks] at keeps
    exact keeps state.files sound.shared rfl reply after answers fun isSpared =>
      unlinks isSpared _ List.mem_cons_self rfl
  obtain ⟨fair, _⟩ := turn false (by simp)
  refine ⟨fair.shared, fun other spared unlinks => ?_, ?_, ?_⟩
  · dsimp only
    by_cases same : other = handle
    · subst same
      rw [Function.update_self]
      exact (turn spared unlinks).2
    · rw [Function.update_of_ne same, fair.others other same]
      exact sound.keeps other spared fun isSpared move among =>
        unlinks isSpared move (List.mem_cons_of_mem _ among)
  · have destination := fair.destination
    unfold renamer
    split at destination
    · rename_i renames
      rw [if_pos renames]
      exact destination
    · rename_i renames
      rw [if_neg renames, destination]
      exact sound.installed
  · intro move among other distinct
    rcases List.mem_cons.mp among with rfl | earlier
    · exact ⟨fair.apart other distinct, fair.others other distinct⟩
    · exact sound.apart move earlier other distinct

theorem Reaches.sound (reached : crowd.Reaches moves state) : crowd.Sound moves state := by
  induction reached with
  | start => exact crowd.sound_start
  | step reached asks answers inductionHypothesis => exact inductionHypothesis.step asks answers

/-- At every moment the binary is the initial one, or the complete one of the last renaming. No
invocation ever comes near the temporary file of another, and one that is done has left none, unless
its unlinking failed. -/
theorem last_renaming_wins (reached : crowd.Reaches moves state) :
    crowd.Installed (state.files.tree.get? crowd.destination) (renamer moves) ∧
      (∀ move ∈ moves, ∀ other, other ≠ move.handle →
        ¬ move.call.Reaches move.before move.handle (crowd.spot other) ∧
          crowd.view move.after other = crowd.view move.before other) ∧
      ∀ handle, (state.programs handle).isDone = true → crowd.Unlinks moves handle →
        state.files.tree.get? (crowd.spot handle) = none := by
  obtain ⟨_, keeps, installed, apart⟩ := reached.sound
  refine ⟨installed, apart, fun handle done unlinks => ?_⟩
  have kept := keeps handle true fun _ => unlinks
  cases left : state.programs handle with
  | done answer =>
      rw [left] at kept
      exact kept rfl
  | ask call next =>
      rw [left] at done
      cases done

/-! ### Schedules -/

theorem Reaches.ofDownload (reached : crowd.Reaches moves state) (handle : Handle) :
    (state.programs handle).Only Call.OfDownload := by
  induction reached with
  | start => exact Resolve.install_ofDownload _ _ _
  | step reached asks answers inductionHypothesis =>
      rename_i moves earlier mover call next reply after
      by_cases same : handle = mover
      · subst same
        rw [asks] at inductionHypothesis
        simpa using inductionHypothesis.2 reply
      · simpa [Function.update_of_ne same] using inductionHypothesis

/-- No call fails, and no setting is set. -/
def serve (crowd : Crowd Handle) (handle : Handle) (files : FileSystem Handle) :
    (call : Call) → Option (call.Reply × FileSystem Handle)
  | .file call => some (files.answer handle (crowd.invocations handle).mask call)
  | .lookUp _ => some (none, files)
  | .processId => some ((crowd.invocations handle).processId, files)
  | .duplicate => some (true, files)
  | .prepareTransfer => some (true, files)
  | .transfer _ => some ((crowd.invocations handle).script, files)
  | .pass _ => some ((), files)
  | .log _ => some ((), files)
  | _ => none

theorem serve_answers {handle : Handle} {files after : FileSystem Handle} {call : Call}
    {reply : call.Reply} (served : crowd.serve handle files call = some (reply, after)) :
    crowd.Answers handle files call reply after := by
  cases call with
  | file call =>
      have answers : crowd.Answers handle files (.file call) _ _ := .served call
      rwa [Option.some.inj served] at answers
  | lookUp setting => cases served; exact .lookUp setting none
  | processId => cases served; exact .processId
  | duplicate => cases served; exact .duplicate true
  | prepareTransfer => cases served; exact .prepareTransfer true
  | transfer request => cases served; exact .transfer request
  | pass seconds => cases served; exact .pass seconds
  | log entry => cases served; exact .log entry
  | _ => cases served

theorem serve_ofDownload (handle : Handle) (files : FileSystem Handle) {call : Call}
    (ofDownload : call.OfDownload) : (crowd.serve handle files call).isSome = true := by
  cases call with
  | file call => rfl
  | log entry => rfl
  | pass seconds => rfl
  | lookUp setting => rfl
  | processId => rfl
  | duplicate => rfl
  | prepareTransfer => rfl
  | transfer request => rfl
  | _ => exact ofDownload.elim

/-- An invocation never waits for another: it is done, or it can move. -/
theorem Reaches.proceeds (reached : crowd.Reaches moves state) (handle : Handle) :
    (state.programs handle).isDone = true ∨
      ∃ move later, move.handle = handle ∧ crowd.Reaches (move :: moves) later := by
  have only : (state.programs handle).Only Call.OfDownload := reached.ofDownload handle
  cases left : state.programs handle with
  | done answer => exact .inl rfl
  | ask call next =>
      rw [left] at only
      obtain ⟨⟨reply, after⟩, served⟩ :=
        Option.isSome_iff_exists.mp (crowd.serve_ofDownload handle state.files only.1)
      exact .inr ⟨_, _, rfl, reached.step left (serve_answers served)⟩

/-- The invocation makes its next move, unless it is done. -/
def turn (crowd : Crowd Handle) (played : List (Move Handle) × State Handle) (handle : Handle) :
    List (Move Handle) × State Handle :=
  match played.2.programs handle with
  | .done _ => played
  | .ask call next =>
      match crowd.serve handle played.2.files call with
      | none => played
      | some (reply, after) => (⟨handle, call, reply, played.2.files, after⟩ :: played.1,
          ⟨after, Function.update played.2.programs handle (next reply)⟩)

/-- The invocations make their moves in the order of the schedule. -/
def play (crowd : Crowd Handle) (schedule : List Handle) : List (Move Handle) × State Handle :=
  schedule.foldl crowd.turn ([], crowd.start)

theorem turn_reaches {played : List (Move Handle) × State Handle}
    (reached : crowd.Reaches played.1 played.2) (handle : Handle) :
    crowd.Reaches (crowd.turn played handle).1 (crowd.turn played handle).2 := by
  unfold turn
  split
  · exact reached
  · rename_i asks
    split
    · exact reached
    · rename_i served
      exact reached.step asks (serve_answers served)

theorem play_reaches (crowd : Crowd Handle) (schedule : List Handle) :
    crowd.Reaches (crowd.play schedule).1 (crowd.play schedule).2 := by
  have later (played : List (Move Handle) × State Handle)
      (reached : crowd.Reaches played.1 played.2) :
      crowd.Reaches (schedule.foldl crowd.turn played).1 (schedule.foldl crowd.turn played).2 := by
    induction schedule generalizing played with
    | nil => exact reached
    | cons handle others inductionHypothesis =>
        exact inductionHypothesis _ (turn_reaches reached handle)
  exact later _ .start

/-- The last of three invocations only receives a part of the binary. -/
def race : Crowd (Fin 3) where
  version := "1.0"
  directory := "/c"
  host := ⟨.linux, .x86_64, "linux", "x86_64"⟩
  invocations := fun handle => match handle with
    | 0 => { processId := 7, script := { events := [.data "first"] } }
    | 1 => { processId := 8, script := { events := [.data "sec", .data "ond"] } }
    | 2 => { processId := 9, script := { events := [.data "th"], ending := { code := 28 } } }
  files := ⟨Tree.empty.put [("c" : Bytes)] (.directory 0o755), fun _ => none⟩
  parent := ["c"]
  found := ⟨0o755, by decide +kernel⟩
  distinct := by unfold Function.Injective; decide
  vacant := by decide +kernel
  closed := fun _ => rfl

/-- The first two invocations rename, and the last one cleans up. -/
theorem last_renaming_wins_race :
    let played := race.play (List.replicate 19 [0, 1, 2]).flatten
    race.Delivered 1 (played.2.files.tree.get? race.destination) ∧
      (∀ move ∈ played.1, ∀ other, other ≠ move.handle →
        ¬ move.call.Reaches move.before move.handle (race.spot other) ∧
          race.view move.after other = race.view move.before other) ∧
      ∀ handle, played.2.files.tree.get? (race.spot handle) = none := by
  intro played
  obtain ⟨installed, apart, gone⟩ :=
    last_renaming_wins (race.play_reaches (List.replicate 19 [0, 1, 2]).flatten)
  have last : renamer played.1 = some 1 := by decide +kernel
  have done : ∀ handle, (played.2.programs handle).isDone = true := by decide +kernel
  have unlinks : ∀ handle, race.Unlinks played.1 handle := by decide +kernel
  rw [last] at installed
  exact ⟨installed, apart, fun handle => gone handle (done handle) (unlinks handle)⟩

end Crowd

end Launcher
