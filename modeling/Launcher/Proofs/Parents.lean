/-
This file says when a directory can be made together with those on the way. It depends on the parts
of its path: each of them must be missing or lead to a directory.
-/

import Launcher.Proofs.Decision
import Launcher.Proofs.Parts
import Launcher.Proofs.Tree.Level

namespace Launcher

namespace Tree

/-- Nothing is there under the path, not even a link. -/
def Lacks (tree : Tree) (path : Bytes) : Prop :=
  ∀ place asked, tree.resolve .keep path = .ok ⟨place, asked⟩ → ∃ location, place = .vacant location

def FindsDirectory (tree : Tree) (path : Bytes) : Prop :=
  ∃ location mode, tree.find path = .ok (.taken location (.directory mode))

def FindsFile (tree : Tree) (path : Bytes) : Prop :=
  ∃ location mode content, tree.find path = .ok (.taken location (.file mode content))

/-- The directories are made one after the other. What exists already is passed over, and any other
refusal is the end. -/
def makeAll (mode : Mode) (tree : Tree) : List Bytes → Option Errno × Tree
  | [] => (none, tree)
  | path :: others => match tree.makeDirectory path mode with
      | .ok made => made.makeAll mode others
      | .error errno =>
          if errno = .alreadyExists then tree.makeAll mode others else (some errno, tree)

/-- A directory is refused because something is there already, or with a number that holds. -/
def Refuses (tree : Tree) (mode : Mode) (holds : Errno → Prop) (path : Bytes) : Prop :=
  tree.makeDirectory path mode = .error .alreadyExists ∨ ∃ errno,
    tree.makeDirectory path mode = .error errno ∧ errno ≠ .alreadyExists ∧ holds errno

variable {tree before after : Tree} {mode : Mode} {path : Bytes} {paths more : List Bytes}

theorem makeAll_append (made : tree.makeAll mode paths = (none, after)) :
    tree.makeAll mode (paths ++ more) = after.makeAll mode more := by
  induction paths generalizing tree with
  | nil =>
      cases made
      rfl
  | cons path others inductionHypothesis =>
      rw [makeAll] at made
      rw [List.cons_append, makeAll]
      split at made
      · exact inductionHypothesis made
      · split at made
        · rename_i already
          rw [if_pos already]
          exact inductionHypothesis made
        · cases made

/-- Where every path is refused, nothing is made. -/
theorem makeAll_refused {holds : Errno → Prop}
    (refused : ∀ path ∈ paths, tree.Refuses mode holds path) :
    (tree.makeAll mode paths).2 = tree ∧
      ∀ errno, (tree.makeAll mode paths).1 = some errno → holds errno := by
  induction paths with
  | nil => exact ⟨rfl, by simp [makeAll]⟩
  | cons path others inductionHypothesis =>
      have later := inductionHypothesis fun other among => refused other (by simp [among])
      rw [makeAll]
      rcases refused path (by simp) with already | ⟨errno, failed, other, number⟩
      · rw [already]
        exact later
      · rw [failed]
        dsimp only
        rw [if_neg other]
        refine ⟨rfl, ?_⟩
        rintro _ ⟨⟩
        exact number

theorem makeAll_one {made : Tree} (outcome : tree.makeDirectory path mode = .ok made ∨
    tree.makeDirectory path mode = .error .alreadyExists ∧ made = tree) :
    tree.makeAll mode [path] = (none, made) := by
  rcases outcome with success | ⟨already, rfl⟩
  · rw [makeAll, success]
    rfl
  · rw [makeAll, already]
    rfl

/-- When no part is in the way, the names of the path lead to a directory in the end. -/
theorem makeAll_reaches (whole : before.Whole) (mode : Mode)
    (walked : ∀ beginning ∈ Directory.beginnings path, Path.IsWalked beginning)
    (enters : ∀ name ∈ Path.names path, Path.Enters name)
    (fits : ∀ part, Path.IsPart part path → ∀ location node asked,
      before.resolve .keep part = .ok ⟨.taken location node, asked⟩ →
        ∃ location, before.Leads (Path.names part) location) :
    ∃ made location, before.makeAll mode (Directory.beginnings path) = (none, made) ∧
      Reaches before made (Path.names path) location := by
  induction path using Path.pieces_induction with
  | piece text free =>
      by_cases empty : text = []
      · subst empty
        exact ⟨before, [], rfl, .root before⟩
      have name : Path.names text = [] ++ [text] := Bytes.fields_of_notMem free empty
      rw [Directory.beginnings_piece free empty] at walked ⊢
      have self := Path.isPart_self empty (Path.getLast_piece free empty [])
      obtain ⟨made, location, outcome, reaches⟩ := (Reaches.root before).step whole
        (walked text (by simp)) name (enters text (by simp [name])) (fits text self) mode
      exact ⟨made, location, makeAll_one outcome, reaches⟩
  | append front last free inductionHypothesis =>
      rw [Directory.beginnings_append free] at walked ⊢
      have self : Path.IsWalked (front ++ Bytes.slash :: last) := walked _ (by simp)
      obtain ⟨more, names⟩ : ∃ more, Path.names (front ++ Bytes.slash :: last) =
        Path.names front ++ more := ⟨_, Bytes.fields_append_separator Bytes.slash front last⟩
      obtain ⟨after, parent, madeAll, reaches⟩ := inductionHypothesis
        (fun beginning among => walked beginning (by simp [among]))
        (fun name among => enters name (by simp [names, among]))
        (fun part isPart => fits part (isPart.append last))
      rw [makeAll_append madeAll]
      by_cases empty : last = []
      · subst empty
        have same := Path.names_append_nil front
        have leads := reaches.leads
        rw [← same] at leads reaches
        exact ⟨after, parent, makeAll_one (.inr ⟨leads.makeDirectory self mode, rfl⟩), reaches⟩
      · have shape := Path.names_append_piece free empty front
        have ends : (front ++ Bytes.slash :: last).getLast? ≠ some Bytes.slash := by
          have ends := Path.getLast_piece free empty (front ++ [Bytes.slash])
          rwa [List.append_assoc] at ends
        obtain ⟨made, location, outcome, reached⟩ := reaches.step whole self shape
          (enters last (by simp [shape])) (fits _ (Path.isPart_self self.nonempty ends)) mode
        exact ⟨made, location, makeAll_one outcome, reached⟩

end Tree

/-! ### Parts that are in the way -/

namespace Tree

variable {tree before after : Tree} {path : Bytes} {location : Location} {place : Place}

theorem findsDirectory_iff (walked : Path.IsWalked path) :
    tree.FindsDirectory path ↔ ∃ location, tree.Leads (Path.names path) location :=
  exists_congr fun _ => find_directory walked

theorem not_lacks_iff (walked : Path.IsWalked path) : ¬ tree.Lacks path ↔ tree.NamesNode path := by
  constructor
  · intro present
    simp only [Lacks, not_forall] at present
    obtain ⟨place, asked, resolved, occupied⟩ := present
    cases place with
    | taken location node => exact ⟨location, node, asked, resolved⟩
    | vacant location => exact absurd ⟨location, rfl⟩ occupied
    | device device => cases walked.noDevice.symm.trans (device_of_resolve resolved)
  · rintro ⟨location, node, asked, resolved⟩ lacks
    obtain ⟨_, vacant⟩ := lacks _ _ resolved
    cases vacant

theorem obstructs (walked : Path.IsWalked path) (present : ¬ tree.Lacks path)
    (noDirectory : ¬ tree.FindsDirectory path) : tree.Obstructs (Path.names path) := by
  obtain ⟨location, node, asked, resolved⟩ := (not_lacks_iff walked).mp present
  refine ⟨⟨_, location, node, asked, .of_walk (walk_of_resolve (by simp) resolved)⟩, ?_⟩
  exact fun location leads => noDirectory ((findsDirectory_iff walked).mpr ⟨location, leads⟩)

/-- A device is neither missing nor a directory. -/
theorem not_fits_device {device : Device} (known : Device.ofPath path = some device) :
    ¬ (tree.Lacks path ∨ tree.FindsDirectory path) := by
  have resolved (last : LastLink) : tree.resolve last path = .ok ⟨.device device, false⟩ := by
    rw [resolve, known]
  rintro (lacks | ⟨location, mode, found⟩)
  · obtain ⟨_, vacant⟩ := lacks _ _ (resolved .keep)
    cases vacant
  · rw [find, resolved] at found
    cases found

theorem FindsFile.walks (found : tree.FindsFile path) : ∃ location mode content asks asked,
    Walks tree .follow Path.linkLimit [] (Path.names path) asks
      ⟨.taken location (.file mode content), asked⟩ := by
  obtain ⟨location, mode, content, found⟩ := found
  obtain ⟨asked, resolved⟩ := resolve_of_find found
  exact ⟨location, mode, content, _, asked, .of_walk (walk_of_resolve (by simp) resolved)⟩

theorem FindsFile.obstructs (found : tree.FindsFile path) : tree.Obstructs (Path.names path) := by
  obtain ⟨location, mode, content, asks, asked, walks⟩ := found.walks
  constructor
  · rcases walks.keep_of_follow with kept | ⟨_, _, kept⟩
    · exact ⟨_, _, _, _, kept⟩
    · exact ⟨_, _, _, _, kept⟩
  · rintro passed ⟨_, others, _, leads⟩
    obtain ⟨_, again⟩ := walks.asking (by simp) others
    cases again.walk_eq.symm.trans leads.walk_eq

/-- What is found before the names lead to a directory is that directory. -/
theorem Reaches.findsDirectory (reaches : Reaches before after (Path.names path) location)
    (walked : Path.IsWalked path) (found : before.find path = .ok place) :
    before.FindsDirectory path := by
  obtain ⟨spot, node, rfl⟩ := find_noDevice walked.noDevice found
  obtain ⟨_, resolved⟩ := resolve_of_find found
  have walks := Walks.of_walk (walk_of_resolve (by simp) resolved)
  have noLink := walks.follow_ne_link (.root before) rfl
  have there : (Place.taken spot node).At spot := rfl
  have later := walks.keep_taken reaches.keepsWays (reaches.kept (walk_fits walks.walk_eq)) noLink
    there
  obtain ⟨mode, asks, _, leads⟩ := reaches.leads
  obtain ⟨_, again⟩ := later.asking (by simp) asks
  cases again.walk_eq.symm.trans leads.walk_eq
  exact ⟨location, mode, found⟩

end Tree

/-! ### What the tree decides -/

namespace Directory

variable {tree : Tree} {mode : Mode} {path part : Bytes}

/-- Without faults the tree alone decides what the status is. -/
def ensured (mode : Mode) (tree : Tree) (path : Bytes) : Status :=
  match tree.inspect path with
  | .ok found => check (.ok found)
  | .error _ => match tree.makeAll mode (beginnings path) with
      | (some errno, _) => .ofErrno errno
      | (none, made) => check (made.inspect path)

theorem check_found (found : tree.FindsDirectory path) : check (tree.inspect path) = .ok := by
  obtain ⟨location, mode, found⟩ := found
  rw [Tree.inspect, found]
  rfl

theorem check_inspect (tree : Tree) (path : Bytes) :
    (check (tree.inspect path)).failed = false ↔ tree.FindsDirectory path := by
  constructor
  · intro went
    cases seen : tree.inspect path with
    | error errno =>
        rw [seen, check, Status.failed_ofErrno (Tree.inspect_refusal seen)] at went
        cases went
    | ok found =>
        rw [seen, check] at went
        split at went
        · rename_i directory
          exact find_of_inspect seen directory
        · simp at went
  · intro found
    rw [check_found found, Status.failed_ok]

theorem ensured_device {device : Device} (known : Device.ofPath path = some device) :
    ensured mode tree path = .error .fileSystem .notDirectory := by
  have seen : tree.inspect path = .ok ⟨false, 0o666⟩ := by
    simp [Tree.inspect, Tree.find, Tree.resolve, known, Except.map, Place.attributes]
  rw [ensured, seen]
  rfl

/-- Where every beginning is refused, a refusal decides, or the first look does. -/
theorem ensured_refused {holds : Errno → Prop}
    (refused : ∀ front ∈ beginnings path, tree.Refuses mode holds front) :
    ensured mode tree path = check (tree.inspect path) ∨
      ∃ errno, ensured mode tree path = .ofErrno errno ∧ holds errno := by
  have outcome := Tree.makeAll_refused refused
  rw [ensured]
  cases seen : tree.inspect path with
  | ok found => exact .inl rfl
  | error errno =>
      generalize tree.makeAll mode (beginnings path) = making at outcome ⊢
      obtain ⟨_ | errno, made⟩ := making
      · obtain ⟨rfl, _⟩ := outcome
        exact .inl (congrArg check seen)
      · exact .inr ⟨errno, rfl, outcome.2 errno rfl⟩

/-- A beginning is on the way to a part of the path, or it goes on behind it. -/
theorem onWay {front : Bytes} (among : front ∈ beginnings path) (isPart : Path.IsPart part path) :
    Path.names front <+: Path.names part ∨ Path.names part <+: Path.names front := by
  obtain ⟨_, first⟩ := names_beginning among
  obtain ⟨_, second⟩ := isPart.names
  exact List.prefix_or_prefix_of_prefix ⟨_, first.symm⟩ ⟨_, second.symm⟩

/-- A part that is there and leads to no directory makes the whole path fail. -/
theorem ensured_obstructed (ordinary : Path.IsOrdinary path) (isPart : Path.IsPart part path)
    (present : ¬ tree.Lacks part) (noDirectory : ¬ tree.FindsDirectory part) (mode : Mode) :
    (ensured mode tree path).failed = true := by
  cases noDevice : Device.ofPath path with
  | some device =>
      rw [ensured_device noDevice]
      exact Status.failed_error _ _
  | none =>
      have obstructs := Tree.obstructs (ordinary.walked noDevice isPart.toIsBeginning) present
        noDirectory
      have never : ¬ (check (tree.inspect path)).failed = false := by
        rw [check_inspect, Tree.findsDirectory_iff (ordinary.walked noDevice
          (Path.isBeginning_self ordinary.nonempty))]
        rintro ⟨location, leads⟩
        obtain ⟨more, shape⟩ := isPart.names
        rw [shape] at leads
        exact obstructs.blocks location leads
      have refused : ∀ front ∈ beginnings path, tree.Refuses mode (·.number ≠ 0) front := by
        intro front among
        have walked := ordinary.walked noDevice (mem_beginnings among)
        refine (obstructs.refused walked (onWay among isPart) mode).imp_right ?_
        rintro ⟨errno, _, _, _, refused, failed⟩
        exact ⟨errno, failed, Tree.refused_ne_alreadyExists refused,
          Tree.makeDirectory_refusal failed⟩
      rcases ensured_refused refused with same | ⟨errno, same, fails⟩
      · rw [same, Bool.of_not_eq_false never]
      · rw [same, Status.failed_ofErrno fails]

/-- Behind a file no directory is found. -/
theorem check_file (walked : Path.IsWalked path) (isPart : Path.IsPart part path)
    (found : tree.FindsFile part) :
    check (tree.inspect path) = .error .fileSystem .notDirectory := by
  obtain ⟨location, mode, content, asks, asked, walks⟩ := found.walks
  obtain ⟨more, shape⟩ := isPart.names
  have resolved := Tree.resolve_walked walked tree .follow
  rw [shape] at resolved
  by_cases none : more = []
  · obtain ⟨_, again⟩ := walks.asking (by simp) (Path.asksDirectory path)
    rw [none, List.append_nil, again.walk_eq] at resolved
    rw [Tree.inspect, Tree.find, resolved]
    dsimp only
    split <;> rfl
  · rw [walks.file (.root tree) none rfl] at resolved
    rw [Tree.inspect, Tree.find, resolved]
    rfl

/-- A part that is a file makes the whole path fail for want of a directory. -/
theorem ensured_file (ordinary : Path.IsOrdinary path) (isPart : Path.IsPart part path)
    (found : tree.FindsFile part) (mode : Mode) :
    ensured mode tree path = .error .fileSystem .notDirectory := by
  cases noDevice : Device.ofPath path with
  | some device => exact ensured_device noDevice
  | none =>
      obtain ⟨location, fileMode, content, asks, asked, walks⟩ := found.walks
      have refused : ∀ front ∈ beginnings path, tree.Refuses mode (· = .notDirectory) front := by
        intro front among
        have walked := ordinary.walked noDevice (mem_beginnings among)
        refine (found.obstructs.refused walked (onWay among isPart) mode).imp_right ?_
        rintro ⟨errno, more, further, _, refused, failed⟩
        rw [walks.file (.root tree) further rfl] at refused
        cases refused
        exact ⟨.notDirectory, failed, by decide, rfl⟩
      rcases ensured_refused refused with same | ⟨errno, same, rfl⟩
      · have walked := ordinary.walked noDevice (Path.isBeginning_self ordinary.nonempty)
        rw [same, check_file walked isPart found]
      · rw [same]
        rfl

/-- When every part is missing or leads to a directory, the whole path does in the end. -/
theorem ensured_open (whole : tree.Whole) (ordinary : Path.IsOrdinary path)
    (fits : ∀ part, Path.IsPart part path → tree.Lacks part ∨ tree.FindsDirectory part)
    (mode : Mode) : (ensured mode tree path).failed = false := by
  cases noDevice : Device.ofPath path with
  | some device =>
      exact absurd (fits path (Device.isPart noDevice)) (Tree.not_fits_device noDevice)
  | none =>
      have walked := ordinary.walked noDevice (Path.isBeginning_self ordinary.nonempty)
      have leads : ∀ part, Path.IsPart part path → ∀ location node asked,
          tree.resolve .keep part = .ok ⟨.taken location node, asked⟩ →
            ∃ location, tree.Leads (Path.names part) location := by
        intro part isPart location node asked taken
        have walked := ordinary.walked noDevice isPart.toIsBeginning
        rcases fits part isPart with lacks | found
        · exact absurd lacks ((Tree.not_lacks_iff walked).mpr ⟨location, node, asked, taken⟩)
        · exact (Tree.findsDirectory_iff walked).mp found
      obtain ⟨made, location, all, reaches⟩ := Tree.makeAll_reaches whole mode
        (fun front among => ordinary.walked noDevice (mem_beginnings among)) ordinary.enters leads
      rw [ensured]
      cases seen : tree.inspect path with
      | error errno =>
          rw [all]
          exact (check_inspect made path).mpr
            ((Tree.findsDirectory_iff walked).mpr ⟨location, reaches.leads⟩)
      | ok attributes =>
          cases found : tree.find path with
          | error errno =>
              rw [Tree.inspect, found] at seen
              cases seen
          | ok place =>
              have went := (check_inspect tree path).mpr (reaches.findsDirectory walked found)
              rwa [seen] at went

/-- Only the parts of a path matter. -/
theorem ensured_iff (whole : tree.Whole) (ordinary : Path.IsOrdinary path) (mode : Mode) :
    (ensured mode tree path).failed = false ↔
      ∀ part, Path.IsPart part path → tree.Lacks part ∨ tree.FindsDirectory part := by
  refine ⟨fun went part isPart => ?_, fun fits => ensured_open whole ordinary fits mode⟩
  by_cases missing : tree.Lacks part
  · exact .inl missing
  by_cases found : tree.FindsDirectory part
  · exact .inr found
  · cases went.symm.trans (ensured_obstructed ordinary isPart missing found mode)

end Directory

/-! ### Directories that are made -/

/-- What is new is a directory at one of the paths. It has the mode that is asked for, and the bit
that passes on the group comes from the directory it is in. -/
theorem Tree.Made.origin {before after : Tree} {mode : Mode} {paths : List Bytes}
    {location : Location} {node : Node} (made : Tree.Made mode paths before after)
    (free : before.get? location = none) (held : after.get? location = some node) :
    node = .directory (mode.inherited (after.parentMode location)) ∧
      ∃ path ∈ paths, ∃ asked, after.resolve .keep path = .ok ⟨.taken location node, asked⟩ := by
  induction made with
  | refl => cases free.symm.trans held
  | step among made later inductionHypothesis =>
      rename_i first second third path
      have whole := Tree.Made.step among made later
      obtain ⟨parent, name, _, ⟨asked, resolved⟩, _, rfl⟩ := Tree.makeDirectory_ok made
      have look := first.get?_put (parent ++ [name]) location
        (.directory (mode.inherited (first.parentMode (parent ++ [name])))) (by simp)
      by_cases same : location = parent ++ [name]
      · subst same
        rw [if_pos rfl] at look
        cases (later.kept look).symm.trans held
        have there : (Place.vacant (parent ++ [name])).At (parent ++ [name]) := rfl
        have anchored := (Tree.Walks.of_walk (Tree.walk_of_resolve (by simp) resolved)).anchored
          (.root first) there (by simp)
        obtain ⟨parentMode, directory⟩ := anchored.parent
        have sameMode : third.parentMode (parent ++ [name]) =
            first.parentMode (parent ++ [name]) := by
          rw [Tree.parentMode, Tree.parentMode, List.dropLast_concat, directory,
            whole.kept directory]
        exact ⟨by rw [sameMode], path, among, asked,
          Tree.resolve_keep_taken whole.keepsWays held (by simp) there (by simp) resolved⟩
      · rw [if_neg same] at look
        exact inductionHypothesis (look.trans free) held

/-! ### Runs without faults -/

namespace Directory

variable {world : World} {path : Bytes}

theorem yields_makeAll_calm (calm : world.faults = []) (paths : List Bytes) :
    world.Yields (makeAll paths) fun stopped after =>
      let making := world.files.tree.makeAll (Mode.masked 0o755 world.surroundings.mask) paths
      stopped = making.1.map Status.ofErrno ∧ after = { world with files.tree := making.2 } := by
  induction paths generalizing world with
  | nil => simp [makeAll, Tree.makeAll]
  | cons path others inductionHypothesis =>
      simp only [makeAll, World.yields_bind, World.yields_makeDirectory_calm calm, Tree.makeAll]
      cases made : world.files.tree.makeDirectory path
          (Mode.masked 0o755 world.surroundings.mask) with
      | ok tree => exact inductionHypothesis calm
      | error errno =>
          dsimp only
          split
          · exact inductionHypothesis calm
          · simp

/-- Without faults the status is the one that the tree decides on. -/
theorem yields_ensure_calm (calm : world.faults = []) (nonempty : path ≠ []) :
    world.Yields (ensure (some path)) fun status _ =>
      status = ensured (Mode.masked 0o755 world.surroundings.mask) world.files.tree path := by
  simp only [ensure, if_neg nonempty, World.yields_bind, World.yields_inspect_calm calm, ensured]
  cases seen : world.files.tree.inspect path with
  | ok found => simp
  | error errno =>
      simp only [World.yields_bind]
      apply (yields_makeAll_calm calm (beginnings path)).mono
      rintro stopped after ⟨rfl, rfl⟩
      rcases world.files.tree.makeAll (Mode.masked 0o755 world.surroundings.mask)
        (beginnings path) with ⟨_ | errno, made⟩
      · simp [World.yields_inspect_calm, calm]
      · simp

theorem run_ensure_calm {status : Status} {after : World} (closed : world.logIsOpen = false)
    (calm : world.faults = []) (nonempty : path ≠ [])
    (ran : world.run (ensure (some path)) = (some status, after)) :
    status = ensured (Mode.masked 0o755 world.surroundings.mask) world.files.tree path := by
  obtain ⟨_, _, _, again, _, _, same⟩ := (yields_ensure_calm calm nonempty).run
    ((ensure_local (some path)).mono fun _ => Call.IsLocal.plain) closed
  cases ran.symm.trans again
  exact same

/-- A directory that is found is ensured already, and nothing changes. -/
theorem run_ensure_found (calm : world.faults = []) (nonempty : path ≠ [])
    (found : world.files.tree.FindsDirectory path) :
    world.run (ensure (some path)) = (some .ok, world) := by
  have looked : world.run (Program.inspect path) =
      (some (world.files.tree.inspect path), world) := by
    have answered : world.answerFile (.inspect path) = (world.files.tree.inspect path, world) :=
      world.answerFile_calm calm (.inspect path)
    exact congrArg (fun outcome => (some outcome.1, outcome.2)) answered
  obtain ⟨location, mode, there⟩ := found
  have seen : world.files.tree.inspect path = .ok ⟨true, mode⟩ := by
    rw [Tree.inspect, there]
    rfl
  rw [ensure, if_neg nonempty, World.run_bind, looked, seen]
  rfl

/-! ### Parents -/

/-- A directory is made with its parents. A success leaves a directory that is found from then on.
Nothing that was there changes, and what is new are directories at beginnings of the path. Without
faults only the parts of the path matter: each is missing or leads to a directory. -/
structure MakesParents (world : World) (path : Option Bytes) (status : Status) (after : World) :
    Prop where
  found : status.failed = false →
    ∃ text, path = some text ∧ text ≠ [] ∧ after.files.tree.FindsDirectory text
  again : status.failed = false → ∀ later : World, later.files.tree = after.files.tree →
    later.faults = [] → later.run (ensure path) = (some .ok, later)
  kept : ∀ location node, world.files.tree.get? location = some node →
    after.files.tree.get? location = some node
  made : ∀ location node, world.files.tree.get? location = none →
    after.files.tree.get? location = some node →
      node = .directory (0o755 &&& ~~~world.surroundings.mask |||
        after.files.tree.parentMode location &&& 0o2000) ∧
      ∃ text front asked, path = some text ∧ Path.IsBeginning front text ∧
        after.files.tree.resolve .keep front = .ok ⟨.taken location node, asked⟩
  succeeds : world.faults = [] → world.files.tree.Whole →
    ∀ text, path = some text → Path.IsOrdinary text →
      (status.failed = false ↔ ∀ part, Path.IsPart part text →
        world.files.tree.Lacks part ∨ world.files.tree.FindsDirectory part)
  notDirectory : world.faults = [] → ∀ text, path = some text → Path.IsOrdinary text →
    ∀ part, Path.IsPart part text → world.files.tree.FindsFile part →
      status = .error .fileSystem .notDirectory

theorem makesParents_none (world : World) :
    MakesParents world none (.error .fileSystem .invalidArgument) world where
  found went := by simp at went
  again went := by simp at went
  kept _ _ found := found
  made _ _ free held := by cases free.symm.trans held
  succeeds _ _ text some := by cases some
  notDirectory _ text some := by cases some

/-- Every call of a run without an open log makes the parents in this sense. -/
theorem ensure_makesParents (closed : world.logIsOpen = false) (sound : world.FaultsFail)
    (path : Option Bytes) :
    ∃ status after, world.run (ensure path) = (some status, after) ∧
      MakesParents world path status after := by
  rcases path with _ | text
  · exact ⟨_, world, rfl, makesParents_none world⟩
  obtain ⟨status, after, bare, ran, alike, _, making, _, verdict⟩ := (yields_ensure sound text).run
    ((ensure_local (some text)).mono fun _ => Call.IsLocal.plain) closed
  rw [← alike.files] at making verdict
  have nonempty (went : status.failed = false) : text ≠ [] := by
    rintro rfl
    cases ran
    simp at went
  have found (went : status.failed = false) : after.files.tree.FindsDirectory text := by
    rcases verdict with failed | ⟨_, found⟩
    · cases went.symm.trans failed
    · exact found
  refine ⟨status, after, ran, fun went => ⟨text, rfl, nonempty went, found went⟩, ?_,
    fun _ _ => making.kept, ?_, ?_, ?_⟩
  · intro went later same calm
    have still := found went
    rw [← same] at still
    exact run_ensure_found calm (nonempty went) still
  · intro location node free held
    obtain ⟨shape, front, among, asked, resolved⟩ := making.origin free held
    rw [Mode.masked_eq (by decide)] at shape
    exact ⟨shape, text, front, asked, rfl, mem_beginnings among, resolved⟩
  · rintro calm whole _ ⟨⟩ ordinary
    rw [run_ensure_calm closed calm ordinary.nonempty ran]
    exact ensured_iff whole ordinary _
  · rintro calm _ ⟨⟩ ordinary part isPart found
    rw [run_ensure_calm closed calm ordinary.nonempty ran]
    exact ensured_file ordinary isPart found _

/-! ### A fixed world -/

/-- The only directory of this world passes on its group. -/
def groupWorld : World where
  files := ⟨Tree.empty.put ["d"] (.directory 0o2755), fun _ => none⟩

theorem groupWorld_faultsFail : groupWorld.FaultsFail := by simp [World.FaultsFail, groupWorld]

theorem groupWorld_whole : groupWorld.files.tree.Whole :=
  Tree.whole_empty.put_vacant ((Tree.Enterable.root Tree.empty).child "d")
    (Tree.get?_empty (by simp))

/-- A directory is made in the one that is there. -/
theorem ensure_makesParents_groupWorld :
    groupWorld.faults = [] ∧ groupWorld.files.tree.Whole ∧ Path.IsOrdinary "/d/x" ∧
      ∃ after, groupWorld.run (ensure (some "/d/x")) = (some .ok, after) ∧
        MakesParents groupWorld (some "/d/x") .ok after := by
  refine ⟨rfl, groupWorld_whole, ⟨by decide, by decide, by decide, ?_⟩, ?_⟩
  · intro front rest shape _
    have short := congrArg List.length shape
    rw [List.length_append, show (("/d/x" : Bytes)).length = 4 by decide] at short
    exact Device.ofPath_short (by omega)
  · have went : (groupWorld.run (ensure (some "/d/x"))).1 = some .ok := by decide +kernel
    obtain ⟨status, after, ran, makes⟩ :=
      ensure_makesParents rfl groupWorld_faultsFail (some "/d/x")
    rw [ran] at went
    cases went
    exact ⟨after, ran, makes⟩

/-- New directories do not always have the plain mode, because the bit that passes on the group is
added. A device on the way does not always stop the making, because only its own path names it. -/
theorem ensure_departs :
    (groupWorld.logIsOpen = false ∧ groupWorld.FaultsFail ∧ ∃ status after,
      groupWorld.run (ensure (some "/d/x")) = (some status, after) ∧
        ¬ ∀ location node, groupWorld.files.tree.get? location = none →
          after.files.tree.get? location = some node →
            node = .directory (0o755 &&& ~~~groupWorld.surroundings.mask)) ∧
    (({} : World).logIsOpen = false ∧ ({} : World).faults = [] ∧
      (∀ name ∈ Path.names "/dev/null/", Path.Enters name) ∧ ∃ status after,
      ({} : World).run (ensure (some "/dev/null/")) = (some status, after) ∧
        ¬ (status.failed = false ↔ ∀ part, Path.IsPart part "/dev/null/" →
          ({} : World).files.tree.Lacks part ∨ ({} : World).files.tree.FindsDirectory part)) := by
  constructor
  · have went : (groupWorld.run (ensure (some "/d/x"))).1 = some .ok := by decide +kernel
    have free : groupWorld.files.tree.get? ["d", "x"] = none := by decide +kernel
    have held : (groupWorld.run (ensure (some "/d/x"))).2.files.tree.get? ["d", "x"] =
        some (.directory 0o2755) := by
      decide +kernel
    refine ⟨rfl, groupWorld_faultsFail, .ok, _, Prod.ext went rfl, fun plain => ?_⟩
    have same := plain _ _ free held
    revert same
    decide
  · have went : (({} : World).run (ensure (some "/dev/null/"))).1 = some .ok := by decide +kernel
    refine ⟨rfl, rfl, by decide, .ok, _, Prod.ext went rfl, fun same => ?_⟩
    have isPart : Path.IsPart "/dev/null" "/dev/null/" :=
      ⟨⟨by decide, "/", by decide, by decide⟩, by decide⟩
    have known : Device.ofPath "/dev/null" = some .null := by decide
    exact Tree.not_fits_device known (same.mp Status.failed_ok _ isPart)

end Directory

end Launcher
