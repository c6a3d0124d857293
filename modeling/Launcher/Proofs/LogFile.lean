/-
This file follows the file of an open log through the calls of a run. The log appends to it, and no
other call reaches it unless its path leads there.
-/

import Launcher.Proofs.Decision
import Launcher.Proofs.Tree.Beside
import Launcher.Proofs.Tree.Growth
import Launcher.Proofs.Tree.Output

namespace Launcher

/-! ### Files with an open log -/

namespace Tree

variable {base tree : Tree} {path : Bytes} {location : Location} {content : Bytes}

/-- The path does not open the file that the location holds. -/
structure Shelters (base : Tree) (path : Bytes) (location : Location) : Prop where
  file : ∃ mode content, base.get? location = some (.file mode content)
  apart : ∀ mode content, base.writable path ≠ .ok (.file location mode content)

/-- A sheltered file is not found under the path while no ways are new. -/
theorem Shelters.resolve {node : Node} (shelters : base.Shelters path location)
    (calm : tree.KeepsWays base) (noLink : ∀ target, node ≠ .link target) :
    tree.resolve .keep path ≠ .ok ⟨.taken location node, false⟩ := by
  intro resolved
  obtain ⟨mode, content, found⟩ := shelters.file
  have before := resolve_before calm noLink found (by simp) resolved .create
  exact shelters.apart mode content (by rw [writable, before])

theorem Shelters.unlinkable (shelters : base.Shelters path location)
    (calm : tree.KeepsWays base) (held : tree.content? location = some content) :
    tree.unlinkable path ≠ .ok location := by
  intro allowed
  obtain ⟨mode, isFile⟩ := file_of_content held
  obtain ⟨node, resolved, _, found⟩ := resolve_of_unlinkable allowed
  cases found.symm.trans isFile
  exact shelters.resolve calm (by simp) resolved

end Tree

namespace FileSystem

variable {base : Tree} {path : Bytes} {location : Location} {content : Bytes}
  {files after : FileSystem Channel}

/-- The log appends to the file at the location, and only directories are above it. -/
structure Logs (location : Location) (content : Bytes) (files : FileSystem Channel) : Prop where
  stream : ∃ position pending, files.streams .log = some ⟨.file location, true, position, pending⟩
  content : files.tree.content? location = some content
  anchored : files.tree.Anchored location

namespace Logs

theorem keep (logs : files.Logs location content)
    (stream : after.streams .log = files.streams .log)
    (beside : Tree.Beside location files.tree after.tree) : after.Logs location content := by
  refine ⟨?_, beside.content.trans logs.content, logs.anchored.keep beside⟩
  rw [stream]
  exact logs.stream

theorem nonRoot (logs : files.Logs location content) : location ≠ [] := by
  obtain ⟨mode, found⟩ := Tree.file_of_content logs.content
  exact Tree.nonRoot_of_get? found rfl

/-- A text goes to the end of the file. -/
theorem append_eq (logs : files.Logs location content) (text : Bytes) :
    ∃ mode position pending, files.append text = { files.setStream .log
        (some ⟨.file location, true, position, pending⟩) with
      tree := files.tree.put location (.file mode (content ++ text)) } := by
  obtain ⟨position, pending, stream⟩ := logs.stream
  obtain ⟨mode, held⟩ := Tree.file_of_content logs.content
  exact ⟨mode, position + text.length, pending, by
    simp [FileSystem.append, store, stream, held, Stream.overlay]⟩

/-- A log that appends to a file below directories is open. -/
theorem of_put (nonRoot : location ≠ []) (anchored : files.tree.Anchored location) {mode : Mode}
    {position : Nat} {pending : Bytes} :
    ({ files.setStream .log (some ⟨.file location, true, position, pending⟩) with
      tree := files.tree.put location (.file mode content) } : FileSystem Channel).Logs
        location content := by
  have look (other : Location) :=
    files.tree.get?_put location other (.file mode content) (absurd · nonRoot)
  refine ⟨⟨position, pending, by simp [setStream]⟩, ?_, ?_⟩
  · exact Tree.content?_file (by rw [look, if_pos rfl])
  · intro above isAbove distinct
    obtain ⟨mode, found⟩ := anchored above isAbove distinct
    exact ⟨mode, by rw [look, if_neg distinct, found]⟩

theorem append (logs : files.Logs location content) (text : Bytes) :
    (files.append text).Logs location (content ++ text) := by
  obtain ⟨mode, position, pending, stored⟩ := logs.append_eq text
  rw [stored]
  exact of_put logs.nonRoot logs.anchored

/-- The log is opened at a file that the path names. -/
theorem openStream (names : files.tree.Names path location content) (mode : Mode) :
    ∃ opened, files.openStream .log path true mode = .ok opened ∧ opened.Logs location content := by
  have anchored := names.anchored
  have nonRoot := names.nonRoot
  unfold FileSystem.openStream
  cases names with
  | vacant named =>
      rw [named]
      exact ⟨_, rfl, of_put nonRoot anchored⟩
  | file named =>
      rw [named]
      exact ⟨_, rfl, of_put nonRoot anchored⟩

end Logs

/-- The log file is open, and no way is new since the base. -/
structure Watches (base : Tree) (location : Location) (content : Bytes)
    (files : FileSystem Channel) : Prop where
  logs : files.Logs location content
  calm : files.tree.KeepsWays base

/-- The output leads elsewhere, too. -/
structure Tends (base : Tree) (location : Location) (content : Bytes)
    (files : FileSystem Channel) : Prop extends Watches base location content files where
  apart : files.target? .output ≠ some location

namespace Watches

theorem append (watches : files.Watches base location content) (text : Bytes) :
    (files.append text).Watches base location (content ++ text) := by
  refine ⟨watches.logs.append text, ?_⟩
  obtain ⟨mode, position, pending, stored⟩ := watches.logs.append_eq text
  rw [stored]
  exact (Tree.KeepsWays.of_put_file watches.logs.nonRoot).trans watches.calm

theorem setMode {mode : Mode} {tree : Tree} (watches : files.Watches base location content)
    (changed : files.tree.setMode path mode = .ok tree) :
    ({ files with tree } : FileSystem Channel).Watches base location content := by
  rcases Tree.setMode_put changed with rfl | ⟨other, node, found, rfl⟩
  · exact watches
  · exact ⟨watches.logs.keep rfl (.put_withMode found mode),
      (Tree.KeepsWays.of_put_withMode found mode).trans watches.calm⟩

theorem unlink (watches : files.Watches base location content)
    (shelters : base.Shelters path location) (removed : files.unlink path = .ok after) :
    after.Watches base location content := by
  unfold FileSystem.unlink at removed
  split at removed <;> cases removed
  rename_i other allowed
  have distinct : other ≠ location := by
    rintro rfl
    exact shelters.unlinkable watches.calm watches.logs.content allowed
  obtain ⟨node, _, noDirectory, found⟩ := Tree.resolve_of_unlinkable allowed
  have free (mode : Mode) : files.tree.get? other ≠ some (.directory mode) := by
    rw [found]
    rintro same
    cases same
    cases noDirectory
  refine ⟨watches.logs.keep ?_ (.erase distinct free),
    (Tree.KeepsWays.of_erase (Tree.nonRoot_of_noDirectory free)).trans watches.calm⟩
  obtain ⟨position, pending, stream⟩ := watches.logs.stream
  simp [relocate, stream, Stream.redirect, distinct.symm]

theorem answer (watches : files.Watches base location content)
    (shelters : base.Shelters path location) {call : FileCall} (handles : call.Handles path)
    (mask : Mode) : (files.answer .output mask call).2.Watches base location content := by
  cases call with
  | inspect other => exact watches
  | setMode other mode =>
      simp only [FileSystem.answer, commitTree]
      cases changed : files.tree.setMode other mode with
      | error errno => exact watches
      | ok tree => exact watches.setMode changed
  | unlink other =>
      have same : other = path := handles
      subst same
      simp only [FileSystem.answer]
      cases removed : files.unlink other with
      | error errno => exact watches
      | ok after => exact watches.unlink shelters removed
  | _ => exact handles.elim

end Watches

/-- Dealing with a file opens no output. -/
theorem target?_answer {call : FileCall} (handles : call.Handles path) (mask : Mode)
    (there : (files.answer .output mask call).2.target? .output = some location) :
    files.target? .output = some location := by
  cases call with
  | inspect other => exact there
  | setMode other mode =>
      simp only [FileSystem.answer, commitTree] at there
      cases changed : files.tree.setMode other mode with
      | error errno =>
          rw [changed] at there
          exact there
      | ok tree =>
          rw [changed] at there
          exact there
  | unlink other =>
      simp only [FileSystem.answer, FileSystem.unlink] at there
      cases allowed : files.tree.unlinkable other with
      | error errno =>
          rw [allowed] at there
          exact there
      | ok place =>
          rw [allowed] at there
          simp only [commit, target?_relocate, Option.bind_eq_some_iff] at there
          obtain ⟨earlier, leads, same⟩ := there
          split at same <;> cases same
          exact leads
  | _ => exact handles.elim

namespace Tends

theorem append (tends : files.Tends base location content) (text : Bytes) :
    (files.append text).Tends base location (content ++ text) := by
  refine ⟨tends.toWatches.append text, ?_⟩
  obtain ⟨mode, position, pending, stored⟩ := tends.logs.append_eq text
  have same : (files.append text).target? .output = files.target? .output := by
    rw [stored]
    simp [target?, setStream]
  rw [same]
  exact tends.apart

/-- Work on the output stays beside the log file. -/
theorem works (tends : files.Tends base location content) (works : Works .output files after) :
    after.Tends base location content := by
  have stream := works.streams .log (by decide)
  have apart : after.target? .output ≠ some location :=
    fun there => tends.apart (works.target location there)
  rcases works.tree with same | ⟨other, mode, old, new, there, found, same⟩
  · refine ⟨⟨tends.logs.keep stream ?_, ?_⟩, apart⟩
    · rw [same]
      exact .refl location files.tree
    · rw [same]
      exact tends.calm
  · have distinct : other ≠ location := by
      rintro rfl
      exact tends.apart there
    have nonRoot := Tree.nonRoot_of_get? found rfl
    refine ⟨⟨tends.logs.keep stream ?_, ?_⟩, apart⟩
    · rw [same]
      exact .put_file distinct nonRoot (.of_file found)
    · rw [same]
      exact (Tree.KeepsWays.of_put_file nonRoot).trans tends.calm

theorem answer (tends : files.Tends base location content) (shelters : base.Shelters path location)
    {call : FileCall} (allowed : call.Tends path) (mask : Mode) :
    (files.answer .output mask call).2.Tends base location content := by
  rcases allowed.handles_or_fills with handles | fills
  · exact ⟨tends.toWatches.answer shelters handles mask, fun there =>
      tends.apart (target?_answer handles mask there)⟩
  · exact tends.works (.answer files .output mask fills)

theorem refuse (tends : files.Tends base location content) {call : FileCall}
    (allowed : call.Tends path) (mask : Mode) (errno : Errno) :
    (files.refuse .output mask errno call).2.Tends base location content := by
  cases call with
  | close => exact tends.works (.of_close files .output)
  | _ => exact tends

end Tends

end FileSystem

/-- These calls look at files and make directories. -/
def FileCall.SetsUp : FileCall → Prop
  | .inspect _ => True
  | .access _ => True
  | .makeDirectory _ _ => True
  | _ => False

namespace FileSystem.Logs

variable {base : Tree} {path target : Bytes} {location : Location} {content : Bytes}
  {files after : FileSystem Channel}

theorem answer (logs : files.Logs location content) {call : FileCall} (allowed : call.SetsUp)
    (mask : Mode) : (files.answer .output mask call).2.Logs location content := by
  cases call with
  | inspect other => exact logs
  | access other => exact logs
  | makeDirectory other mode =>
      simp only [FileSystem.answer, commitTree]
      cases made : files.tree.makeDirectory other (mode.masked mask) with
      | error errno => exact logs
      | ok tree =>
          obtain ⟨parent, name, _, _, free, rfl⟩ := Tree.makeDirectory_ok made
          refine logs.keep rfl (.put ?_ (fun _ => rfl) fun _ _ => rfl)
          rintro rfl
          obtain ⟨mode, held⟩ := Tree.file_of_content logs.content
          cases free.symm.trans held
  | _ => exact allowed.elim

theorem refuse (logs : files.Logs location content) {call : FileCall} (allowed : call.SetsUp)
    (mask : Mode) (errno : Errno) :
    (files.refuse .output mask errno call).2.Logs location content := by
  cases call with
  | close => exact allowed.elim
  | _ => exact logs

theorem isOpen (logs : files.Logs location content) : (files.streams .log).isSome = true := by
  obtain ⟨position, pending, stream⟩ := logs.stream
  rw [stream]
  rfl

/-- An output that is opened beside the log file leads elsewhere. -/
theorem openOutput {mode : Mode} (logs : files.Logs location content)
    (shelters : files.tree.Shelters path location)
    (opened : files.openStream .output path false mode = .ok after) :
    after.Tends files.tree location content ∧ ∃ outlet, files.tree.writable path = .ok outlet := by
  have creates (other : Location) (kept : Mode) (distinct : other ≠ location)
      (nonRoot : other ≠ []) (room : files.tree.HasRoom other) :
      ({ files with tree := files.tree.put other (.file kept []) }.setStream .output
        (some ⟨.file other, false, 0, []⟩)).Tends files.tree location content := by
    refine ⟨⟨logs.keep (by simp [setStream]) (.put_file distinct nonRoot room),
      .of_put_file nonRoot⟩, ?_⟩
    simpa [target?, setStream] using distinct
  unfold FileSystem.openStream at opened
  split at opened
  · cases opened
  · rename_i device named
    cases opened
    exact ⟨⟨⟨logs.keep (by simp [setStream]) (.refl location files.tree), .refl files.tree⟩,
      by simp [target?, setStream]⟩, _, named⟩
  · rename_i other kept old named
    cases opened
    have found := Tree.get?_of_writable named
    have names : files.tree.Names path other old := .file named
    refine ⟨creates other kept ?_ names.nonRoot (.of_file found), _, named⟩
    rintro rfl
    exact shelters.apart kept old named
  · rename_i other named
    cases opened
    have names : files.tree.Names path other [] := .vacant named
    refine ⟨creates other mode ?_ names.nonRoot names.room, _, named⟩
    rintro rfl
    have free : files.tree.get? other = none :=
      (Tree.fits_of_writable (by simp) named).1
    obtain ⟨kept, held⟩ := Tree.file_of_content logs.content
    cases free.symm.trans held

end FileSystem.Logs

/-- A path that could be opened leads to no directory while no ways are new. -/
theorem Tree.noDirectory_of_writable {base tree : Tree} {path : Bytes} {location : Location}
    {node : Node} {asks : Bool} (calm : tree.KeepsWays base)
    (opened : ∃ outlet, base.writable path = .ok outlet)
    (found : tree.get? location = some node)
    (resolved : tree.resolve .keep path = .ok ⟨.taken location node, asks⟩) :
    node.isDirectory = false := by
  cases node with
  | directory mode =>
      obtain ⟨kept, before⟩ := calm.directory _ _ found
      have led := resolve_before calm (by simp) before (by simp) resolved .create
      obtain ⟨outlet, named⟩ := opened
      rw [writable, led] at named
      cases asks <;> cases named
  | file mode content => rfl
  | link target => rfl

/-- The file that was opened beside the log file is moved beside it. -/
theorem FileSystem.Tends.rename {base : Tree} {source target : Bytes} {location : Location}
    {content : Bytes} {files after : FileSystem Channel}
    (tends : files.Tends base location content) (shelters : base.Shelters source location)
    (opened : ∃ outlet, base.writable source = .ok outlet)
    (spared : ∀ occupant asks,
      files.tree.resolve .keep target ≠ .ok ⟨.taken location occupant, asks⟩)
    (renamed : files.rename source target = .ok after) : after.Logs location content := by
  unfold FileSystem.rename at renamed
  split at renamed
  · cases renamed
  rename_i old new allowed
  split at renamed <;> cases renamed
  · exact tends.logs
  rename_i distinct
  obtain ⟨node, asks, resolved, found, unasked, ends⟩ := Tree.resolve_of_renamable allowed
  obtain ⟨nonRoot, occupied⟩ := ends.resolve_left distinct
  have noDirectory := Tree.noDirectory_of_writable tends.calm opened found resolved
  obtain ⟨kept, held⟩ := Tree.file_of_content tends.logs.content
  have left : old ≠ location := by
    rintro rfl
    cases found.symm.trans held
    rw [unasked rfl] at resolved
    exact shelters.resolve tends.calm (by simp) resolved
  have right : new ≠ location := by
    rintro rfl
    rcases occupied with free | ⟨occupant, asked, _, led, _⟩
    · cases free.symm.trans held
    · exact spared occupant asked led
  have free (mode : Mode) : files.tree.get? new ≠ some (.directory mode) := by
    intro isDirectory
    rcases occupied with none | ⟨occupant, _, there, _, kind⟩
    · cases none.symm.trans isDirectory
    · cases there.symm.trans isDirectory
      cases kind noDirectory
  -- What is above the log file is a directory, so the stream of the log stays where it is.
  have outside : ¬ old <+: location := by
    intro isAbove
    obtain ⟨mode, directory⟩ := tends.logs.anchored old isAbove left
    cases found.symm.trans directory
    cases noDirectory
  refine tends.logs.keep ?_ (.move found noDirectory nonRoot left right free)
  obtain ⟨position, pending, stream⟩ := tends.logs.stream
  simp [FileSystem.relocate, stream, Stream.redirect, outside, right.symm]

end Launcher
