/-
This file says what a download leaves of the file tree. It leaves a whole file or no file, unless a
link leads to its output: then the link is removed in place of the file.
-/

import Launcher.Proofs.Download
import Launcher.Proofs.FirstFailure
import Launcher.Proofs.Tree.LastLink

namespace Launcher

namespace Download

variable {world : World} {address path : Bytes}

/-- What a download leaves of the tree. What it wrote to a file stays when the download succeeds,
and otherwise the node that the path names then is removed. -/
inductive Leaves (world : World) (path : Bytes) (status : Status) (after : Tree) : Prop
  | unopened {errno : Errno} (refused : (world.answerFile (.openOutput path)).1 = .error errno)
      (failed : status.failed = true) (same : after = world.files.tree)
  | device {device : Device} (opened : (world.answerFile (.openOutput path)).1 = .ok ())
      (named : world.files.tree.writable path = .ok (.device device))
      (same : after = world.files.tree)
  | filled {outlet : Outlet} {location : Location} {mode : Mode}
      (opened : (world.answerFile (.openOutput path)).1 = .ok ())
      (named : world.files.tree.writable path = .ok outlet)
      (isFile : outlet.file? world.fileMode = some (location, mode))
      (went : status.failed = false)
      (left : after = world.files.tree.put location
        (.file mode (Transfer.received world.surroundings.transport.events)))
  | removed {outlet : Outlet} {location victim : Location} {mode : Mode}
      (opened : (world.answerFile (.openOutput path)).1 = .ok ())
      (named : world.files.tree.writable path = .ok outlet)
      (isFile : outlet.file? world.fileMode = some (location, mode))
      (failed : status.failed = true)
      (removes : (world.files.tree.put location
        (.file mode world.surroundings.transport.delivered)).unlinkable path = .ok victim)
      (left : after = (world.files.tree.put location
        (.file mode world.surroundings.transport.delivered)).erase victim)

/-- A file that is written has its path, unless that is the path of a link that leads to it. -/
theorem resolve_put {tree : Tree} {outlet : Outlet} {created mode : Mode} {location : Location}
    (named : tree.writable path = .ok outlet)
    (isFile : outlet.file? created = some (location, mode)) (content : Bytes) :
    (¬ tree.NamesLink path → (tree.put location (.file mode content)).resolve .keep path =
        .ok ⟨.taken location (.file mode content), false⟩) ∧
      ∀ link target, tree.resolve .keep path = .ok ⟨.taken link (.link target), false⟩ →
        (tree.put location (.file mode content)).resolve .keep path =
          .ok ⟨.taken link (.link target), false⟩ := by
  obtain ⟨there, noDevice, noPlace⟩ := Outlet.place_of_file? isFile
  obtain ⟨old, names⟩ := Tree.Names.of_file? named isFile
  have ways : tree.KeepsWays (tree.put location (.file mode content)) :=
    (Tree.Touched.put_file names.room names.nonRoot mode content).ways
  constructor
  · intro noLink
    have created := Tree.resolve_of_writable noDevice named
    have kept := Tree.resolve_keep_of_create noPlace noLink created
    exact Tree.resolve_keep_taken ways (Tree.get?_put_self names.nonRoot _) (by simp) there noPlace
      kept
  · exact fun link target found => Tree.resolve_keep_link ways found

/-- Either the file or the link can be removed under the path. -/
theorem unlinkable_put {tree : Tree} {outlet : Outlet} {created mode : Mode} {location : Location}
    (named : tree.writable path = .ok outlet)
    (isFile : outlet.file? created = some (location, mode)) (content : Bytes) :
    ∃ victim, (tree.put location (.file mode content)).unlinkable path = .ok victim := by
  obtain ⟨own, linked⟩ := resolve_put named isFile content
  by_cases isLink : tree.NamesLink path
  · obtain ⟨link, target, found⟩ := isLink
    exact ⟨link, Tree.unlinkable_of_resolve (linked link target found) rfl⟩
  · exact ⟨location, Tree.unlinkable_of_resolve (own isLink) rfl⟩

theorem yields_leave (sound : world.FaultsFail) (sparing : world.Spares .unlink)
    {victim : Location} (removes : world.files.tree.unlinkable path = .ok victim)
    (status : Status) :
    world.Yields (leave path true status) fun left after => left = status ∧
      after.files.tree =
        if status.failed then world.files.tree.erase victim else world.files.tree := by
  unfold leave
  split
  · simp only [discard, if_true, World.yields_bind, Program.pure_eq, World.yields_done]
    apply World.Yields.unlink sound
    · intro files after removed _ same
      unfold FileSystem.unlink at removed
      rw [removes] at removed
      cases removed
      rw [same]
      exact ⟨trivial, rfl⟩
    · intro errno after refused _ _
      obtain ⟨refusal, never⟩ := refused sparing
      cases removes.symm.trans never
  · simp only [Program.pure_eq, World.yields_done]
    exact ⟨trivial, trivial⟩

/-- A device has nothing that a download could change or remove. -/
theorem yields_device {device : Device} {opened : World}
    (stream : opened.files.streams .output = some ⟨.device device, false, 0, []⟩)
    (headers : Option (List Bytes)) :
    opened.Yields (fill address headers >>= leave path (opened.files.isRegular .output))
      fun _ after => after.files.tree = opened.files.tree := by
  have noFile : opened.files.target? .output = none := by simp [FileSystem.target?, stream]
  have regular : opened.files.isRegular .output = false := by simp [FileSystem.isRegular, stream]
  rw [regular, World.yields_bind]
  apply (World.yields_works (fill_ofFill address headers) opened).mono
  intro status shut works
  have still := works.still noFile
  unfold leave
  split
  · simp only [discard, Bool.false_eq_true, if_false, World.yields_bind, Program.pure_eq,
      World.yields_done]
    exact still
  · simp only [Program.pure_eq, World.yields_done]
    exact still

/-- A file is written whole, or what its path names in the end is removed. -/
theorem yields_written {base : Tree} {location victim : Location} {mode : Mode} {opened : World}
    (sound : opened.FaultsFail) (sparing : opened.Spares .unlink)
    (writes : opened.files.Writes base .output location [] [])
    (empty : opened.files.tree = base.put location (.file mode []))
    (removes : (base.put location
      (.file mode opened.surroundings.transport.delivered)).unlinkable path = .ok victim)
    (headers : Option (List Bytes)) :
    opened.Yields (fill address headers >>= leave path (opened.files.isRegular .output))
      fun status after =>
        (status.failed = false ∧ after.files.tree = base.put location
          (.file mode (Transfer.received opened.surroundings.transport.events))) ∨
        (status.failed = true ∧ after.files.tree = (base.put location
          (.file mode opened.surroundings.transport.delivered)).erase victim) := by
  have regular : opened.files.isRegular .output = true := by
    simp [FileSystem.isRegular, writes.stream]
  have target : opened.files.target? .output = some location := by
    simp [FileSystem.target?, writes.stream]
  rw [regular, World.yields_bind]
  apply ((yields_fill sound writes headers).and
    (World.yields_works (fill_ofFill address headers) opened)).descends.mono
  rintro status shut ⟨⟨⟨went, _, kept, found⟩, works⟩, later⟩
  have written := works.put writes.nonRoot empty target found
  rw [← written] at removes
  apply (yields_leave (later.faultsFail sound) (later.spares sparing) removes status).mono
  rintro _ after ⟨rfl, left⟩
  rw [written] at left
  cases failed : Status.failed _ with
  | true =>
      rw [if_pos failed] at left
      exact .inr ⟨rfl, left⟩
  | false =>
      rw [if_neg (by simp [failed]), Transfer.Script.delivered, if_pos (went failed)] at left
      exact .inl ⟨rfl, left⟩

theorem yields_leaves (sound : world.FaultsFail) (sparing : world.Spares .unlink)
    (headers : Option (List Bytes)) :
    world.Yields (file (some address) (some path) headers) fun status after =>
      Leaves world path status after.files.tree := by
  have descends := world.answerBare_descends (.file (.openOutput path))
  change (world.answerFile (.openOutput path)).2.Descends world at descends
  rw [file_eq_fill, Program.openOutput, World.yields_bind, World.yields_request rfl]
  rcases world.answerFile_openOutput path with ⟨stream, opened⟩ | ⟨errno, refused, same⟩
  · rw [opened]
    dsimp only
    rw [World.yields_bind, World.yields_outputIsRegular]
    cases named : world.files.tree.writable path with
    | error errno =>
        rw [FileSystem.openStream, named] at stream
        cases stream
    | ok outlet =>
        rcases isFile : outlet.file? world.fileMode with _ | ⟨location, mode⟩
        · obtain ⟨device, rfl⟩ := Outlet.device_of_file? isFile
          rw [FileSystem.openStream, named] at stream
          have files := (Except.ok.inj stream).symm
          have leads : (world.answerFile (.openOutput path)).2.files.streams .output =
              some ⟨.device device, false, 0, []⟩ := by
            rw [files]
            simp [FileSystem.setStream]
          apply (yields_device leads headers).mono
          intro status after same
          exact .device opened named (by rw [same, files]; rfl)
        · obtain ⟨writes, empty⟩ := FileSystem.Writes.openFile named isFile stream
          obtain ⟨victim, removes⟩ := unlinkable_put named isFile
            world.surroundings.transport.delivered
          rw [← descends.surroundings] at removes
          apply (yields_written (descends.faultsFail sound) (descends.spares sparing) writes empty
            removes headers).mono
          rw [descends.surroundings] at removes ⊢
          rintro status after (⟨went, left⟩ | ⟨failed, left⟩)
          · exact .filled opened named isFile went left
          · exact .removed opened named isFile failed removes left
  · rw [refused]
    simp only [Program.pure_eq, World.yields_done]
    have fails := World.answerFile_refusal sound (.openOutput path) (by rw [refused]; rfl)
    exact .unopened refused (Status.failed_ofErrno fails) (by rw [same])

/-- While the log is closed, a run leaves the tree that the bare run leaves. -/
theorem run_leaves (closed : world.logIsOpen = false) (sound : world.FaultsFail)
    (sparing : world.Spares .unlink) (address path : Bytes) (headers : Option (List Bytes)) :
    ∃ status after, world.run (file (some address) (some path) headers) = (some status, after) ∧
      Leaves world path status after.files.tree := by
  obtain ⟨status, after, bare, ran, alike, _, leaves⟩ :=
    (yields_leaves sound sparing headers).run ((file_ofResolution (some address) (some path)
      headers).mono fun _ calls => calls.inner.plain) closed
  exact ⟨status, after, ran, alike.files ▸ leaves⟩

namespace Leaves

variable {status : Status} {after : Tree} (leaves : Leaves world path status after)
include leaves

theorem of_device {device : Device} (named : world.files.tree.writable path = .ok (.device device)) :
    after = world.files.tree := by
  cases leaves with
  | unopened refused failed same => exact same
  | device opened named same => exact same
  | filled opened other isFile went left =>
      cases named.symm.trans other
      cases isFile
  | removed opened other isFile failed removes left =>
      cases named.symm.trans other
      cases isFile

theorem of_file {outlet : Outlet} {location : Location} {mode : Mode}
    (opened : (world.answerFile (.openOutput path)).1 = .ok ())
    (named : world.files.tree.writable path = .ok outlet)
    (isFile : outlet.file? world.fileMode = some (location, mode)) :
    (status.failed = false ∧ after = world.files.tree.put location
        (.file mode (Transfer.received world.surroundings.transport.events))) ∨
      (status.failed = true ∧ ∃ victim, (world.files.tree.put location
          (.file mode world.surroundings.transport.delivered)).unlinkable path = .ok victim ∧
        after = (world.files.tree.put location
          (.file mode world.surroundings.transport.delivered)).erase victim) := by
  cases leaves with
  | unopened refused failed same => cases refused.symm.trans opened
  | device opened other same =>
      cases named.symm.trans other
      cases isFile
  | filled opened other isFile' went left =>
      cases named.symm.trans other
      cases isFile.symm.trans isFile'
      exact .inl ⟨went, left⟩
  | removed opened other isFile' failed removes left =>
      cases named.symm.trans other
      cases isFile.symm.trans isFile'
      exact .inr ⟨failed, _, removes, left⟩

/-- The whole file is there under its path when the download succeeds. -/
theorem written {outlet : Outlet} {location : Location} {mode : Mode}
    (opened : (world.answerFile (.openOutput path)).1 = .ok ())
    (named : world.files.tree.writable path = .ok outlet)
    (isFile : outlet.file? world.fileMode = some (location, mode)) (went : status.failed = false) :
    after = world.files.tree.put location
        (.file mode (Transfer.received world.surroundings.transport.events)) ∧
      after.writable path = .ok (.file location mode
        (Transfer.received world.surroundings.transport.events)) := by
  rcases leaves.of_file opened named isFile with ⟨_, left⟩ | ⟨failed, _⟩
  · obtain ⟨content, names⟩ := Tree.Names.of_file? named isFile
    exact ⟨left, left ▸ names.writable_put mode _⟩
  · rw [went] at failed
    cases failed

/-- No file is left when the download fails, unless a link leads to it. -/
theorem removed_file {outlet : Outlet} {location : Location} {mode : Mode}
    (opened : (world.answerFile (.openOutput path)).1 = .ok ())
    (named : world.files.tree.writable path = .ok outlet)
    (isFile : outlet.file? world.fileMode = some (location, mode)) (failed : status.failed = true)
    (noLink : ¬ world.files.tree.NamesLink path) :
    after = world.files.tree.erase location ∧ ¬ after.NamesNode path := by
  rcases leaves.of_file opened named isFile with ⟨went, _⟩ | ⟨_, victim, removes, left⟩
  · rw [failed] at went
    cases went
  · obtain ⟨content, names⟩ := Tree.Names.of_file? named isFile
    have own := (resolve_put named isFile world.surroundings.transport.delivered).1 noLink
    cases removes.symm.trans (Tree.unlinkable_of_resolve own rfl)
    refine ⟨by rw [left, Tree.erase_put names.nonRoot], ?_⟩
    rw [left]
    exact Tree.not_namesNode_erase names.nonRoot own

end Leaves

/-- The output of a download is opened, and its bytes go to this outlet. -/
structure Opens (world : World) (address output : Option Bytes) (path : Bytes) (outlet : Outlet) :
    Prop where
  addressed : address.isSome = true
  output : output = some path
  opened : (world.answerFile (.openOutput path)).1 = .ok ()
  named : world.files.tree.writable path = .ok outlet

theorem Leaves.unopened_or {status : Status} {after : Tree}
    (leaves : Leaves world path status after) (address : Bytes) :
    (status.failed = true ∧ after = world.files.tree) ∨
      ∃ outlet, Opens world (some address) (some path) path outlet := by
  cases leaves with
  | unopened refused failed same => exact .inl ⟨failed, same⟩
  | device opened named same => exact .inr ⟨_, rfl, rfl, opened, named⟩
  | filled opened named isFile went left => exact .inr ⟨_, rfl, rfl, opened, named⟩
  | removed opened named isFile failed removes left => exact .inr ⟨_, rfl, rfl, opened, named⟩

/-! ### Whole files -/

/-- A download that succeeds leaves the whole file, and one that fails leaves no file at its
output. -/
structure Delivers (world : World) (address output : Option Bytes) (headers : Option (List Bytes))
    (status : Status) (after : World) : Prop where
  succeeds_iff : status.failed = false ↔ ∃ origin path, address = some origin ∧
    output = some path ∧ (world.run (attempt origin path headers).run).1 = some (.ok ())
  ok : status.failed = false → status = .ok
  unopened : (∀ path outlet, ¬ Opens world address output path outlet) →
    after.files.tree = world.files.tree
  device : ∀ path device, Opens world address output path (.device device) →
    after.files.tree = world.files.tree
  filled : ∀ path outlet location mode, Opens world address output path outlet →
    outlet.file? world.fileMode = some (location, mode) → status.failed = false →
      after.files.tree = world.files.tree.put location
          (.file mode (Transfer.received world.surroundings.transport.events)) ∧
        after.files.tree.writable path = .ok (.file location mode
          (Transfer.received world.surroundings.transport.events))
  removed : ∀ path outlet location mode, Opens world address output path outlet →
    outlet.file? world.fileMode = some (location, mode) → status.failed = true →
      after.files.tree = world.files.tree.erase location ∧ ¬ after.files.tree.NamesNode path
  /-- The headers of the one transfer are the given ones, in their order. -/
  transfers : ∃ events, after.transcript.events = world.transcript.events ++ events ∧
    (events = [] ∨ ∃ origin request, address = some origin ∧ request.address = origin ∧
      request.headers.getD [] = headers.getD [] ∧ events = [.transfer request])

theorem headers_to (address : Bytes) (headers : Option (List Bytes)) :
    (Transfer.Request.to address headers).headers.getD [] = headers.getD [] := by
  cases headers with
  | none => rfl
  | some headers => cases headers <;> rfl

/-- Without an address or an output nothing is done. -/
theorem run_missing {address output : Option Bytes} (missing : address = none ∨ output = none)
    (headers : Option (List Bytes)) :
    world.run (file address output headers) =
      (some (.error .network .invalidArgument), world) := by
  unfold file
  split
  · rcases missing with none | none <;> cases none
  · rfl

theorem not_opens {address output : Option Bytes} (missing : address = none ∨ output = none)
    (path : Bytes) (outlet : Outlet) : ¬ Opens world address output path outlet := by
  intro opens
  rcases missing with rfl | rfl
  · cases opens.addressed
  · cases opens.output

theorem delivers_missing {address output : Option Bytes} (missing : address = none ∨ output = none)
    (headers : Option (List Bytes)) :
    Delivers world address output headers (.error .network .invalidArgument) world := by
  have never (path : Bytes) (outlet : Outlet) : ¬ Opens world address output path outlet :=
    not_opens missing path outlet
  refine ⟨?_, by simp, fun _ => rfl, fun path device opens => (never _ _ opens).elim,
    fun path outlet location mode opens => (never _ _ opens).elim,
    fun path outlet location mode opens => (never _ _ opens).elim, [], by simp⟩
  constructor
  · intro went
    simp at went
  · rintro ⟨origin, path, rfl, rfl, _⟩
    rcases missing with none | none <;> cases none

/-- The log is closed, faults fail, none is made for the removal, and the output is no link. -/
theorem file_delivers (closed : world.logIsOpen = false) (sound : world.FaultsFail)
    (sparing : world.Spares .unlink) {output : Option Bytes}
    (noLink : ∀ path, output = some path → ¬ world.files.tree.NamesLink path)
    (address : Option Bytes) (headers : Option (List Bytes)) :
    ∃ status after, world.run (file address output headers) = (some status, after) ∧
      Delivers world address output headers status after := by
  cases address with
  | none => exact ⟨_, _, run_missing (.inl rfl) headers, delivers_missing (.inl rfl) headers⟩
  | some address =>
  cases output with
  | none => exact ⟨_, _, run_missing (.inr rfl) headers, delivers_missing (.inr rfl) headers⟩
  | some path =>
  obtain ⟨status, after, ran, leaves⟩ := run_leaves closed sound sparing address path headers
  have reports := file_reports sound address path headers
  refine ⟨status, after, ran, ?_, reports.ok_of_not_failed ran, ?_, ?_, ?_, ?_, ?_⟩
  · rw [reports.failed_iff ran]
    constructor
    · exact fun went => ⟨address, path, rfl, rfl, went⟩
    · rintro ⟨_, _, ⟨⟩, ⟨⟩, went⟩
      exact went
  · intro never
    rcases leaves.unopened_or address with ⟨_, same⟩ | ⟨outlet, opens⟩
    · exact same
    · exact (never _ _ opens).elim
  · intro _ device opens
    cases opens.output
    exact leaves.of_device opens.named
  · intro _ outlet location mode opens isFile went
    cases opens.output
    exact leaves.written opens.opened opens.named isFile went
  · intro _ outlet location mode opens isFile failed
    cases opens.output
    exact leaves.removed_file opens.opened opens.named isFile failed (noLink path rfl)
  · have plain : (file (some address) (some path) headers).Only Call.IsPlain :=
      (file_ofResolution (some address) (some path) headers).mono fun _ calls => calls.inner.plain
    refine ⟨_, by rw [← (World.run_transcript plain closed).1, ran], ?_⟩
    rcases file_events world address path headers with none | once
    · exact .inl none
    · exact .inr ⟨address, .to address headers, rfl, rfl, headers_to address headers, once⟩

/-- A new file is written whole in an empty tree. -/
def servedWorld : World where
  surroundings := { transport := { events := [.data "ab", .data "c"] } }

theorem file_delivers_servedWorld :
    ∃ status after, servedWorld.run (file (some "https://h/f") (some "/f") none) =
        (some status, after) ∧
      Delivers servedWorld (some "https://h/f") (some "/f") none status after := by
  refine file_delivers rfl (by simp [World.FaultsFail, servedWorld])
    (by simp [World.Spares, servedWorld]) ?_ _ _
  rintro _ ⟨⟩ ⟨location, target, resolved⟩
  have vacant : servedWorld.files.tree.resolve .keep "/f" = .ok ⟨.vacant ["f"], false⟩ := by rfl
  cases vacant.symm.trans resolved

/-! ### Failed downloads -/

/-- Every file and every link was there before, and only the file that the output names may be
missing. -/
structure CleansUp (output : Option Bytes) (before after : Tree) : Prop where
  files : ∀ location mode content, after.get? location = some (.file mode content) →
    before.get? location = some (.file mode content)
  links : ∀ location target, before.get? location = some (.link target) →
    after.get? location = some (.link target)
  missing : ∀ location node, before.get? location = some node →
    after.get? location = some node ∨ after.get? location = none ∧
      ∃ path mode content, output = some path ∧ node = .file mode content ∧
        before.resolve .keep path = .ok ⟨.taken location node, false⟩

theorem CleansUp.refl (output : Option Bytes) (tree : Tree) : CleansUp output tree tree :=
  ⟨fun _ _ _ => id, fun _ _ => id, fun _ _ => .inl⟩

/-- A file goes, or nothing does. -/
theorem CleansUp.erase {tree : Tree} {outlet : Outlet} {created mode : Mode} {location : Location}
    (named : tree.writable path = .ok outlet)
    (isFile : outlet.file? created = some (location, mode)) (noLink : ¬ tree.NamesLink path) :
    CleansUp (some path) tree (tree.erase location) := by
  obtain ⟨content, names⟩ := Tree.Names.of_file? named isFile
  obtain ⟨there, noDevice, noPlace⟩ := Outlet.place_of_file? isFile
  have look (other : Location) := tree.get?_erase location other names.nonRoot
  have kept := Tree.resolve_keep_of_create noPlace noLink (Tree.resolve_of_writable noDevice named)
  refine ⟨fun other mode content found => ?_, fun other target found => ?_,
    fun other node found => ?_⟩
  · rw [look] at found
    split at found
    · cases found
    · exact found
  · rw [look, if_neg, found]
    rintro rfl
    exact names.room.noLink target found
  · rw [look]
    split
    · rename_i same
      subst same
      obtain ⟨mode, content, rfl⟩ := names.room node found
      refine .inr ⟨rfl, path, mode, content, rfl, rfl, ?_⟩
      have fits := Tree.fits_of_writable noDevice named
      rw [kept]
      cases outlet with
      | file place old latest =>
          cases there
          cases found.symm.trans fits
          rfl
      | vacant place =>
          cases there
          cases found.symm.trans fits.1
      | device device => cases isFile
    · exact .inl found

/-- The link to the output is removed, and the file that it leads to keeps what was written. -/
inductive LosesLink (world : World) (address : Option Bytes) (path : Bytes) (link : Location)
    (after : Tree) : Prop
  | unopened (never : ∀ outlet, ¬ Opens world address (some path) path outlet)
      (same : after = world.files.tree)
  | opened {outlet : Outlet} {location : Location} {mode : Mode}
      (opens : Opens world address (some path) path outlet)
      (isFile : outlet.file? world.fileMode = some (location, mode)) (apart : location ≠ link)
      (left : after = (world.files.tree.put location
        (.file mode world.surroundings.transport.delivered)).erase link)

/-- A download that fails cleans up, unless its output is a link. -/
structure FailsCleanly (world : World) (address output : Option Bytes) (after : Tree) : Prop where
  plain : (∀ path, output = some path → ¬ world.files.tree.NamesLink path) →
    CleansUp output world.files.tree after
  link : ∀ path link target, output = some path →
    world.files.tree.resolve .keep path = .ok ⟨.taken link (.link target), false⟩ →
      LosesLink world address path link after

theorem file_failsCleanly (closed : world.logIsOpen = false) (sound : world.FaultsFail)
    (sparing : world.Spares .unlink) (address output : Option Bytes)
    (headers : Option (List Bytes)) :
    ∃ status after, world.run (file address output headers) = (some status, after) ∧
      (status.failed = true → FailsCleanly world address output after.files.tree) := by
  by_cases missing : address = none ∨ output = none
  · refine ⟨_, _, run_missing missing headers, fun _ => ⟨fun _ => .refl output _, ?_⟩⟩
    rintro path link target rfl _
    exact .unopened (not_opens missing path) rfl
  obtain ⟨address, rfl⟩ := Option.ne_none_iff_exists'.mp (fun none => missing (.inl none))
  obtain ⟨path, rfl⟩ := Option.ne_none_iff_exists'.mp (fun none => missing (.inr none))
  obtain ⟨status, after, ran, leaves⟩ := run_leaves closed sound sparing address path headers
  refine ⟨status, after, ran, fun fails => ?_⟩
  cases leaves with
  | unopened refused failed same =>
      rw [same]
      refine ⟨fun _ => .refl _ _, ?_⟩
      rintro _ link target ⟨⟩ found
      exact .unopened (fun outlet opens => by cases refused.symm.trans opens.opened) rfl
  | device opened named same =>
      rw [same]
      refine ⟨fun _ => .refl _ _, ?_⟩
      rintro _ link target ⟨⟩ found
      exact (Tree.NamesLink.noDevice ⟨link, target, found⟩ _ named).elim
  | filled opened named isFile went left =>
      rw [fails] at went
      cases went
  | removed opened named isFile failed removes left =>
      obtain ⟨content, names⟩ := Tree.Names.of_file? named isFile
      obtain ⟨own, linked⟩ := resolve_put named isFile world.surroundings.transport.delivered
      constructor
      · intro noLink
        cases removes.symm.trans (Tree.unlinkable_of_resolve (own (noLink path rfl)) rfl)
        rw [left, Tree.erase_put names.nonRoot]
        exact .erase named isFile (noLink path rfl)
      · rintro _ link target ⟨⟩ found
        cases removes.symm.trans (Tree.unlinkable_of_resolve (linked link target found) rfl)
        refine .opened ⟨rfl, rfl, opened, named⟩ isFile ?_ left
        rintro rfl
        exact names.room.noLink target (Tree.walk_fits (Tree.walk_of_resolve (by simp) found))

/-- The link leads to a file that is not there yet, and the transfer breaks off. -/
def danglingWorld : World where
  surroundings := { transport := { events := [.data "abc"], ending := { code := 56 } } }
  files := ⟨Tree.empty.put ["l"] (.link "t"), fun _ => none⟩

theorem file_failsCleanly_danglingWorld :
    ∃ status after, danglingWorld.run (file (some "https://h/f") (some "/l") none) =
        (some status, after) ∧
      (status.failed = true →
        FailsCleanly danglingWorld (some "https://h/f") (some "/l") after.files.tree) :=
  file_failsCleanly rfl (by simp [World.FaultsFail, danglingWorld])
    (by simp [World.Spares, danglingWorld]) _ _ _

example : (danglingWorld.run (file (some "https://h/f") (some "/l") none)).2.files.tree =
    Tree.empty.put ["t"] (.file 0o644 "abc") := by
  decide +kernel

end Download

end Launcher
