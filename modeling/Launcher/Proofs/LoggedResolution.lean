/-
This file follows a resolution beside an open log file. The calls of the resolution do not reach the
file, and what it notes goes to the end of the file.
-/

import Launcher.Proofs.Logging

namespace Launcher

open World (Proceeds Notes)

variable {world : World} {location : Location} {content : Bytes}

/-! ### Installations -/

namespace World

/-- A fault refuses a file call, or the file system serves it. The log stays as it is. -/
theorem file_answered {call : FileCall} {reply : call.Reply} {after : World}
    (answered : world.answer (.file call) = (some reply, after)) :
    after.log = world.log ∧
      ((∃ errno, (call.strike world.faults).1 = some errno ∧
          (reply, after.files) = world.files.refuse .output world.surroundings.mask errno call) ∨
        (reply, after.files) = world.files.answer .output world.surroundings.mask call) := by
  rw [answer, answerFile_eq] at answered
  rcases struck : call.strike world.faults with ⟨_ | errno, faults⟩
  · rw [struck] at answered
    cases answered
    exact ⟨rfl, .inr rfl⟩
  · rw [struck] at answered
    cases answered
    exact ⟨rfl, .inl ⟨errno, rfl, rfl⟩⟩

/-- Beside the log file an output is opened, or the opening fails and changes nothing. -/
theorem openOutput_answered {path : Bytes} {reply : Except Errno Unit} {after : World}
    (sound : world.OpeningsFail) (notes : world.Notes (FileSystem.Logs location) content)
    (shelters : world.files.tree.Shelters path location)
    (answered : world.answer (.file (.openOutput path)) = (some reply, after)) :
    (∃ errno, reply = .error errno ∧ errno.number ≠ 0 ∧
        after.Notes (FileSystem.Watches world.files.tree location) content) ∨
      (reply = .ok () ∧ (∃ outlet, world.files.tree.writable path = .ok outlet) ∧
        after.Notes (FileSystem.Tends world.files.tree location) content) := by
  obtain ⟨log, cases⟩ := file_answered answered
  have still (same : after.files = world.files) :
      after.Notes (FileSystem.Watches world.files.tree location) content := by
    refine ⟨?_, by rw [log]; exact notes.loud, by rw [log]; exact notes.selected⟩
    rw [same]
    exact ⟨notes.files, .refl _⟩
  rcases cases with ⟨errno, struck, refused⟩ | served
  · cases congrArg Prod.fst refused
    obtain ⟨_, known, fault, among, kind, rfl⟩ := FileCall.strike_some struck
    cases known
    exact .inl ⟨_, rfl, sound fault among kind, still (congrArg Prod.snd refused)⟩
  · simp only [FileSystem.answer] at served
    cases opening : world.files.openStream .output path false
        (Mode.masked 0o666 world.surroundings.mask) with
    | error errno =>
        rw [opening] at served
        cases congrArg Prod.fst served
        exact .inl ⟨errno, rfl, FileSystem.openStream_refusal opening,
          still (congrArg Prod.snd served)⟩
    | ok opened =>
        rw [opening] at served
        cases congrArg Prod.fst served
        obtain ⟨tends, named⟩ := notes.files.openOutput shelters opening
        refine .inr ⟨rfl, named, ?_, by rw [log]; exact notes.loud,
          by rw [log]; exact notes.selected⟩
        have same : after.files = opened := congrArg Prod.snd served
        rw [same]
        exact tends

/-- A renaming beside the log file is done, or it fails and changes nothing. -/
theorem rename_answered {base : Tree} {source target : Bytes} {reply : Except Errno Unit}
    {after : World} (notes : world.Notes (FileSystem.Tends base location) content)
    (shelters : base.Shelters source location)
    (opened : ∃ outlet, base.writable source = .ok outlet)
    (spared : (Call.file (.rename source target)).spares world.files.tree location = true)
    (answered : world.answer (.file (.rename source target)) = (some reply, after)) :
    ((∃ errno, reply = .error errno) ∧
        after.Notes (FileSystem.Tends base location) content) ∨
      (reply = .ok () ∧ after.Notes (FileSystem.Logs location) content) := by
  have elsewhere (occupant : Node) (asks : Bool) :
      world.files.tree.resolve .keep target ≠ .ok ⟨.taken location occupant, asks⟩ := by
    intro led
    simp [Call.spares, led] at spared
  obtain ⟨log, cases⟩ := file_answered answered
  have still (same : after.files = world.files) :
      after.Notes (FileSystem.Tends base location) content :=
    ⟨same ▸ notes.files, log ▸ notes.loud, log ▸ notes.selected⟩
  rcases cases with ⟨errno, _, refused⟩ | served
  · cases congrArg Prod.fst refused
    exact .inl ⟨⟨_, rfl⟩, still (congrArg Prod.snd refused)⟩
  · simp only [FileSystem.answer] at served
    cases moving : world.files.rename source target with
    | error errno =>
        rw [moving] at served
        cases congrArg Prod.fst served
        exact .inl ⟨⟨_, rfl⟩, still (congrArg Prod.snd served)⟩
    | ok renamed =>
        rw [moving] at served
        cases congrArg Prod.fst served
        have same : after.files = renamed := congrArg Prod.snd served
        refine .inr ⟨rfl, ?_, log ▸ notes.loud, log ▸ notes.selected⟩
        rw [same]
        exact notes.files.rename shelters opened elsewhere moving

end World

namespace Install

open Program

variable {base : Tree} {temporary target : Bytes} {executable : Bool}

/-- Cleaning up stays beside the log file. -/
theorem proceeds_cleanUp (shelters : base.Shelters temporary location)
    (notes : world.Notes (FileSystem.Watches base location) content)
    (outcome : Except Status Unit) :
    Proceeds location content world (cleanUp temporary outcome) fun _ content after =>
      after.Notes (FileSystem.Logs location) content :=
  (Proceeds.within (FileSystem.Watches.lasts shelters) ((cleanUp_handles temporary outcome).mono
    fun _ => Call.Handles.within) notes).mono fun _ _ _ kept => kept.mono fun _ _ => (·.logs)

/-- A fetch that failed is reported, and its file is removed. -/
theorem proceeds_failed {fetched : Status} (failed : fetched.failed = true)
    (shelters : base.Shelters temporary location)
    (notes : world.Notes (FileSystem.Watches base location) content) :
    Proceeds location content world
      (afterFetch temporary target executable fetched >>= cleanUp temporary)
      fun _ content after => after.Notes (FileSystem.Logs location) content := by
  simp only [afterFetch, failed, if_true, Program.bind_assoc]
  exact .steps (FileSystem.Watches.lasts shelters) (.request trivial) notes
    fun _ _ _ noted => proceeds_cleanUp shelters noted (.error fetched)

/-- What was fetched is marked and moved beside the log file, or removed again. -/
theorem proceeds_afterFetch (fetched : Status) (shelters : base.Shelters temporary location)
    (opened : ∃ outlet, base.writable temporary = .ok outlet)
    (notes : world.Notes (FileSystem.Tends base location) content) :
    Proceeds location content world
      (afterFetch temporary target executable fetched >>= cleanUp temporary)
      fun _ content after => after.Notes (FileSystem.Logs location) content := by
  have watching {world : World} {content : Bytes}
      (notes : world.Notes (FileSystem.Tends base location) content) :
      world.Notes (FileSystem.Watches base location) content :=
    notes.mono fun _ _ => FileSystem.Tends.toWatches
  -- A report and the removal end every branch but the last one.
  have removed {world : World} {content : Bytes} (status : Status) (context : Bytes)
      (notes : world.Notes (FileSystem.Tends base location) content) :
      Proceeds location content world (noteStatus .error status context >>= fun _ =>
        cleanUp temporary (.error status)) fun _ content after =>
          after.Notes (FileSystem.Logs location) content :=
    .steps (FileSystem.Watches.lasts shelters) (.request trivial) (watching notes)
      fun _ _ _ noted => proceeds_cleanUp shelters noted (.error status)
  cases failed : fetched.failed with
  | true => exact proceeds_failed failed shelters (watching notes)
  | false =>
      have lasts := FileSystem.Tends.lasts shelters
      simp only [afterFetch, failed, Bool.false_eq_true, if_false, Program.bind_assoc]
      have marks : (mark temporary executable).Only (Call.Within (FileCall.Tends temporary)) :=
        (mark_handles temporary executable).mono fun _ handles =>
          handles.within.mono fun _ => FileCall.Handles.tends
      refine .steps lasts marks notes fun marked content after noted => ?_
      split
      · exact removed marked _ noted
      · simp only [Program.bind_assoc]
        refine .bind (.request fun spared reply last answered => ?_)
        have silent : after.noted (.file (.rename temporary target)) = [] := rfl
        rw [silent, List.flatMap_nil, List.append_nil]
        rcases World.rename_answered noted shelters opened spared answered with
          ⟨⟨errno, rfl⟩, kept⟩ | ⟨rfl, kept⟩
        · exact removed _ _ kept
        · exact .done kept

/-- From the opening of the output on, an installation stays beside the log file. -/
theorem proceeds_place (sound : world.OpeningsFail)
    (notes : world.Notes (FileSystem.Logs location) content) (address temporary target : Bytes)
    (executable : Bool) :
    Proceeds location content world
      (place .download address temporary target executable >>= cleanUp temporary)
      fun _ content after => after.Notes (FileSystem.Logs location) content := by
  rw [place_eq, Fetch.run, Download.asset, Download.file_eq]
  simp only [Program.bind_assoc]
  refine .bind (.request fun spared reply opened answered => ?_)
  have silent : world.noted (.file (.openOutput temporary)) = [] := rfl
  rw [silent, List.flatMap_nil, List.append_nil]
  have shelters : world.files.tree.Shelters temporary location := by
    obtain ⟨mode, held⟩ := Tree.file_of_content notes.files.content
    refine ⟨⟨mode, content, held⟩, fun mode content named => ?_⟩
    simp [Call.spares, named] at spared
  rcases World.openOutput_answered sound notes shelters answered with
    ⟨errno, rfl, fails, kept⟩ | ⟨rfl, named, kept⟩
  · simp only [Program.pure_eq, Program.bind_done]
    exact proceeds_failed (Status.failed_ofErrno fails) shelters kept
  have lasts := FileSystem.Tends.lasts shelters
  have attends {Answer : Type} {program : Program Answer}
      (only : program.Only (Call.Attends temporary)) :
      program.Only (Call.Within (FileCall.Tends temporary)) :=
    only.mono fun _ => Call.Attends.within
  have finished (status : Status) {late : World} {content : Bytes}
      (notes : late.Notes (FileSystem.Tends world.files.tree location) content) :
      Proceeds location content late
        (afterFetch temporary target executable status >>= cleanUp temporary)
        fun _ content after => after.Notes (FileSystem.Logs location) content :=
    proceeds_afterFetch status shelters named notes
  simp only [Program.bind_assoc]
  refine .steps lasts (.request trivial) kept fun regular _ _ kept => ?_
  refine .steps lasts (.request trivial) kept fun ready _ _ kept => ?_
  split
  · rw [Download.transfer]
    simp only [Program.bind_assoc]
    refine .steps lasts (.request trivial) kept fun script _ _ kept => ?_
    refine .steps lasts (attends (Download.receive_attends _ _ _)) kept fun complete _ _ kept => ?_
    refine .steps lasts (by split <;> trivial) kept fun ending _ _ kept => ?_
    exact .steps lasts (attends (Download.conclude_attends _ _ _ _)) kept
      fun status _ _ kept => finished status kept
  · simp only [Program.bind_assoc]
    refine .steps lasts (.request trivial) kept fun _ _ _ kept => ?_
    exact .steps lasts (attends (Download.discard_attends _ _)) kept
      fun _ _ _ kept => finished _ kept

/-- An installation that downloads stays beside the log file. -/
theorem proceeds_run (sound : world.OpeningsFail)
    (notes : world.Notes (FileSystem.Logs location) content) (address target : Bytes)
    (executable : Bool) :
    Proceeds location content world (run .download address target executable)
      fun _ content after => after.Notes (FileSystem.Logs location) content := by
  have lasts := FileSystem.Logs.lasts location
  rw [run_eq]
  refine .steps_descends lasts (.request trivial) (.request trivial) notes
    fun number content numbered notes descends => ?_
  have sound := descends.openingsFail sound
  refine .steps_descends lasts (.request trivial) (.request trivial) notes
    fun copied content ready notes descends => ?_
  split
  · exact proceeds_place (descends.openingsFail sound) notes _ _ _ _
  · exact .done notes

end Install

/-! ### Resolutions -/

/-- Calls of a decision do not reach the log file. -/
theorem World.Proceeds.decides {First Second : Type} {program : Program First}
    {next : First → Program Second} {goal : Second → Bytes → World → Prop}
    (only : program.Only Call.IsDeciding) (notes : world.Notes (FileSystem.Logs location) content)
    (later : ∀ answer content after, after.Notes (FileSystem.Logs location) content →
      after.Descends world → Proceeds location content after (next answer) goal) :
    Proceeds location content world (program >>= next) goal :=
  .steps_descends (FileSystem.Logs.lasts location)
    (only.mono fun _ deciding => deciding.isLocal.within)
    (only.mono fun _ deciding => deciding.isLocal.plain) notes later

namespace Resolve

open Program

theorem proceeds_install (sound : world.OpeningsFail)
    (notes : world.Notes (FileSystem.Logs location) content) (version target : Bytes)
    (host : Platform) :
    Proceeds location content world (install version target host .download)
      fun _ content after => after.Notes (FileSystem.Logs location) content := by
  have lasts := FileSystem.Logs.lasts location
  refine .decides Cache.downloadsDisabled_deciding notes fun disabled _ _ notes descends => ?_
  have sound := descends.openingsFail sound
  split
  · exact .steps lasts (.request trivial) notes fun _ _ _ notes => .done notes
  cases host.asset with
  | error status =>
      exact .steps lasts (.request trivial) notes fun _ _ _ notes =>
        .steps lasts (.request trivial) notes fun _ _ _ notes => .done notes
  | ok asset =>
      refine .decides (.request trivial) notes fun _ _ _ notes descends => ?_
      have sound := descends.openingsFail sound
      refine .decides (.request trivial) notes fun _ _ _ notes descends => ?_
      have sound := descends.openingsFail sound
      refine .bind ((Install.proceeds_run sound notes _ _ _).mono fun status _ _ notes => ?_)
      split
      · exact .done notes
      · exact .steps lasts (.request trivial) notes fun _ _ _ notes => .done notes

/-- A resolution that downloads stays beside the log file. -/
theorem proceeds_run (sound : world.OpeningsFail)
    (notes : world.Notes (FileSystem.Logs location) content) (version : Bytes) (host : Platform)
    (reinstall : Bool) :
    Proceeds location content world
      (run (some ⟨some version, some host, .download, reinstall⟩))
      fun _ content after => after.Notes (FileSystem.Logs location) content := by
  have lasts := FileSystem.Logs.lasts location
  refine .decides Cache.overridePath_deciding notes fun override _ _ notes descends => ?_
  have sound := descends.openingsFail sound
  cases override with
  | some path => exact .steps lasts (.request trivial) notes fun _ _ _ notes => .done notes
  | none =>
      refine .decides (Cache.setUp_deciding _) notes fun prepared _ _ notes descends => ?_
      have sound := descends.openingsFail sound
      cases prepared with
      | error status => exact .done notes
      | ok directory =>
          refine .decides (Binary.isThere_deciding _) notes fun isThere _ _ notes descends => ?_
          have sound := descends.openingsFail sound
          split
          · cases reinstall with
            | true =>
                refine .decides (.request trivial) notes fun _ _ _ notes descends => ?_
                exact proceeds_install (descends.openingsFail sound) notes _ _ _
            | false =>
                exact .steps lasts (.request trivial) notes fun _ _ _ notes => .done notes
          · exact proceeds_install sound notes _ _ _

end Resolve

end Launcher
