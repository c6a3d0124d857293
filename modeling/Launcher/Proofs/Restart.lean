/-
This file says what opening the log leaves behind. The settings, the terminal, the tree and the
faults determine it, and of the session before only its end marker stays.
-/

import Launcher.Proofs.Journal
import Launcher.Proofs.Platforms
import Launcher.Proofs.Start
import Launcher.Proofs.Tree.Content

namespace Launcher

/-! ### Levels by name -/

namespace Bytes

theorem sameLetter_lowerByte (byte : UInt8) : SameLetter byte (lowerByte byte) := by
  unfold lowerByte
  split
  · rename_i capital
    exact .inr (.inl ⟨capital.1, capital.2, rfl⟩)
  · exact .inl rfl

theorem sameLetters_lower (text : Bytes) : SameLetters text text.lower := by
  rw [SameLetters, lower, List.forall₂_map_right_iff, List.forall₂_same]
  exact fun byte _ => sameLetter_lowerByte byte

/-- The texts with the letters of a small name are those that become it in small letters. -/
theorem sameLetters_iff {text name : Bytes} (small : name.lower = name) :
    text.SameLetters name ↔ text.lower = name := by
  constructor
  · intro same
    exact (lower_sameLetters same).trans small
  · rintro rfl
    exact text.sameLetters_lower

end Bytes

namespace Level

/-- No name is longer than the limit, so a text beyond the limit would not be found either. -/
theorem ofName_eq (text : Bytes) : ofName text = (names.lookup text.lower).getD information := by
  have short : ∀ entry ∈ names, entry.1.length ≤ nameLimit := by decide
  unfold ofName
  split
  · rename_i long
    have notFound : names.lookup text.lower = none := by
      rw [List.lookup_eq_none_iff]
      intro entry among
      have bound := short entry among
      rw [bne_iff_ne]
      rintro same
      rw [← same, Bytes.lower, List.length_map] at bound
      omega
    rw [notFound]
    rfl
  · rfl

/-- Only four names select another level than the usual one. -/
theorem lookup_names (small : Bytes) : (names.lookup small).getD information =
    if small = "none" then silent else if small = "error" then error
    else if small = "warn" then warning else if small = "debug" then debug else information := by
  split_ifs with isNone isError isWarning isDebug
  · rw [isNone]
    decide
  · rw [isError]
    decide
  · rw [isWarning]
    decide
  · rw [isDebug]
    decide
  · by_cases isInformation : small = "info"
    · rw [isInformation]
      decide
    · have notFound : names.lookup small = none := by
        rw [List.lookup_eq_none_iff]
        simp [names, isNone, isError, isWarning, isInformation, isDebug]
      rw [notFound]
      rfl

end Level

namespace Surroundings

variable {surroundings : Surroundings}

/-- The setting for the level is the name, whatever the case of its letters. -/
def NamesLevel (surroundings : Surroundings) (name : Bytes) : Prop :=
  ∃ text, surroundings.environment .logLevel = some text ∧ text.SameLetters name

/-- Each level but `information` has one name, and `information` is for all other settings. -/
structure SelectsLevel (surroundings : Surroundings) (level : Level) : Prop where
  silent : level = .silent ↔ surroundings.NamesLevel "none"
  error : level = .error ↔ surroundings.NamesLevel "error"
  warning : level = .warning ↔ surroundings.NamesLevel "warn"
  debug : level = .debug ↔ surroundings.NamesLevel "debug"
  information : level = .information ↔ ∀ name ∈ (["none", "error", "warn", "debug"] : List Bytes),
    ¬ surroundings.NamesLevel name

theorem namesLevel_iff {text : Bytes} (set : surroundings.environment .logLevel = some text)
    {name : Bytes} (small : name.lower = name) :
    surroundings.NamesLevel name ↔ text.lower = name := by
  rw [← Bytes.sameLetters_iff small]
  constructor
  · rintro ⟨other, known, same⟩
    cases set.symm.trans known
    exact same
  · exact fun same => ⟨text, set, same⟩

theorem selectsLevel (surroundings : Surroundings) :
    surroundings.SelectsLevel surroundings.logLevel := by
  unfold logLevel
  rcases set : surroundings.environment .logLevel with _ | text
  · have unnamed (name : Bytes) : ¬ surroundings.NamesLevel name := by
      rintro ⟨text, known, _⟩
      rw [set] at known
      cases known
    constructor <;> simp [unnamed] <;> decide
  · dsimp only
    rw [Level.ofName_eq, Level.lookup_names]
    have named (name : Bytes) (small : name.lower = name) := namesLevel_iff set small
    have none := named "none" (by decide)
    have error := named "error" (by decide)
    have warning := named "warn" (by decide)
    have debug := named "debug" (by decide)
    have distinct : (["none", "error", "warn", "debug"] : List Bytes).Nodup := by decide
    simp only [List.nodup_cons, List.mem_cons, List.not_mem_nil] at distinct
    constructor
    all_goals simp only [none, error, warning, debug, List.forall_mem_cons, List.not_mem_nil]
    all_goals grind [Level.silent, Level.error, Level.warning, Level.debug, Level.information]

end Surroundings

/-! ### Files of the log -/

namespace Outlet

/-- The sink that a stream to the outlet leads to. -/
def sink : Outlet → Sink
  | .file location _ _ => .file location
  | .vacant location => .file location
  | .device other => .device other

/-- An outlet that is not there yet holds nothing. -/
def content : Outlet → Bytes
  | .file _ _ held => held
  | _ => []

/-- The stream of a log to the outlet, after the marker that starts a session. The full device did
not take it. -/
def stream (outlet : Outlet) (moment : Int) : Stream where
  sink := outlet.sink
  appending := true
  position := if outlet = .device .full then 0 else (Log.startMarker moment).length
  pending := []

end Outlet

namespace FileSystem

variable {moment : Int} {created : Mode} {outlet : Outlet} {path : Bytes}
  {before after files : FileSystem Channel}

/-- The session of the log is over. Its file has the end marker and a blank line behind what it held,
and everything else is as it was. -/
structure Ends (moment : Int) (before after : FileSystem Channel) : Prop where
  stream : after.streams .log = none
  streams : ∀ channel, channel ≠ .log → after.streams channel = before.streams channel
  file : ∀ location position pending mode content,
    before.streams .log = some ⟨.file location, true, position, pending⟩ →
      before.tree.get? location = some (.file mode content) →
        after.tree.get? location = some (.file mode (content ++
          ("=== Log session ended at " ++ Calendar.stamp moment ++ " ===\n" ++ "\n")))
  elsewhere : ∀ location, before.target? .log ≠ some location →
    after.tree.get? location = before.tree.get? location

/-- A session of the log has begun. Its file has the start marker behind what it held, and a file
that is new has the mode. Everything else is as it was. -/
structure Begins (moment : Int) (created : Mode) (outlet : Outlet)
    (before after : FileSystem Channel) : Prop where
  stream : after.streams .log = some (outlet.stream moment)
  streams : ∀ channel, channel ≠ .log → after.streams channel = before.streams channel
  file : ∀ location mode, outlet.file? created = some (location, mode) →
    after.tree.get? location = some (.file mode (outlet.content ++
        ("=== Log session started at " ++ Calendar.stamp moment ++ " ===\n"))) ∧
      ∀ other, other ≠ location → after.tree.get? other = before.tree.get? other
  device : outlet.file? created = none → after.tree = before.tree

theorem works_append (files : FileSystem Channel) (text : Bytes) :
    Works .log files (files.append text) := by
  unfold append
  split
  · rename_i stored success
    exact .of_store success
  · exact .refl .log files

theorem ends_append (moment : Int) (files : FileSystem Channel) :
    files.Ends moment ((files.append (Log.endMarker moment)).setStream .log none) := by
  have works := (files.works_append (Log.endMarker moment)).close
  refine ⟨by simp [setStream], works.streams, ?_, ?_⟩
  · intro location position pending mode content stream held
    have nonRoot := Tree.nonRoot_of_get? held rfl
    simp [setStream, append, store, stream, held, Stream.overlay, Tree.get?_put_self nonRoot,
      Log.endMarker_eq]
  · intro location elsewhere
    rcases works.tree with same | ⟨other, mode, old, new, target, held, same⟩
    · rw [same]
    · have distinct : location ≠ other := by
        rintro rfl
        exact elsewhere target
      have nonRoot := Tree.nonRoot_of_get? held rfl
      rw [same, files.tree.get?_put other location _ (absurd · nonRoot), if_neg distinct]

/-- The files with a new stream of the log to the outlet, where a file is there from now on. -/
def attach (files : FileSystem Channel) (created : Mode) (outlet : Outlet) : FileSystem Channel :=
  ({ files with
    tree := match outlet.file? created with
      | some (location, mode) => files.tree.put location (.file mode outlet.content)
      | none => files.tree } : FileSystem Channel).setStream .log (some ⟨outlet.sink, true, 0, []⟩)

theorem openStream_eq (files : FileSystem Channel) (path : Bytes) (created : Mode) :
    files.openStream .log path true created =
      (files.tree.writable path).map (files.attach created) := by
  unfold openStream
  rcases files.tree.writable path with errno | outlet
  · rfl
  · cases outlet <;> rfl

/-- A file that an outlet writes is not the root. -/
theorem nonRoot_of_writable {location : Location} {mode : Mode}
    (named : files.tree.writable path = .ok outlet)
    (isFile : outlet.file? created = some (location, mode)) : location ≠ [] := by
  obtain ⟨content, names⟩ := Tree.Names.of_file? named isFile
  exact names.nonRoot

/-- What a log appends to a file that it has just opened comes behind what the file held. -/
theorem append_attach_file {location : Location} {mode : Mode} (nonRoot : location ≠ [])
    (isFile : outlet.file? created = some (location, mode)) (text : Bytes) :
    (files.attach created outlet).append text =
      ({ files with tree := files.tree.put location (.file mode (outlet.content ++ text)) } :
        FileSystem Channel).setStream .log (some ⟨outlet.sink, true, text.length, []⟩) := by
  have sink : outlet.sink = .file location := by
    cases outlet <;> cases isFile <;> rfl
  unfold append store attach
  simp only [isFile, sink, setStream, if_true, Tree.get?_put_self nonRoot, Stream.overlay,
    Tree.put_put nonRoot, Nat.zero_add]
  congr 1
  funext other
  split <;> rfl

theorem append_attach_device (device : Device) {text : Bytes} (nonempty : text ≠ []) :
    (files.attach created (.device device)).append text =
      files.setStream .log (some
        ⟨.device device, true, if device = .full then 0 else text.length, []⟩) := by
  unfold append store attach
  cases device with
  | full => simp [setStream, Outlet.sink, Outlet.file?, nonempty]
  | null =>
      simp only [setStream, Outlet.sink, Outlet.file?, if_true, Nat.zero_add, reduceCtorEq,
        if_false]
      congr 1
      funext other
      split <;> rfl

theorem attach_begins (named : files.tree.writable path = .ok outlet) (moment : Int) :
    files.Begins moment created outlet
      ((files.attach created outlet).append (Log.startMarker moment)) := by
  have nonempty : Log.startMarker moment ≠ [] := List.append_ne_nil_of_right_ne_nil _ (by decide)
  cases isFile : outlet.file? created with
  | none =>
      obtain ⟨device, rfl⟩ := Outlet.device_of_file? isFile
      rw [append_attach_device device nonempty]
      refine ⟨?_, ?_, ?_, fun _ => rfl⟩
      · simp [setStream, Outlet.stream, Outlet.sink]
      · intro channel other
        simp [setStream, other]
      · intro location mode file
        rw [isFile] at file
        cases file
  | some place =>
      obtain ⟨location, mode⟩ := place
      have nonRoot := nonRoot_of_writable named isFile
      rw [append_attach_file nonRoot isFile]
      refine ⟨?_, ?_, ?_, ?_⟩
      · have noDevice := (Outlet.place_of_file? isFile).2.1 .full
        simp [setStream, Outlet.stream, noDevice]
      · intro channel other
        simp [setStream, other]
      · intro other kept file
        rw [isFile] at file
        cases file
        refine ⟨Tree.get?_put_self nonRoot _, fun other distinct => ?_⟩
        exact (files.tree.get?_put location other _ (absurd · nonRoot)).trans (if_neg distinct)
      · intro noFile
        rw [isFile] at noFile
        cases noFile

end FileSystem

/-! ### What opening the log does -/

namespace World

variable {world after : World} {path : Bytes} {status : Status}

/-- The outlet at which the log is opened. A fault comes before the tree. -/
def logOutlet (world : World) (path : Bytes) : Except Errno Outlet :=
  match (world.strike .openStream (some path)).1 with
  | some errno => .error errno
  | none => world.files.tree.writable path

/-- The mode of a log file that is new. -/
def logMode (world : World) : Mode := Mode.masked 0o666 world.surroundings.mask

/-- The file is opened at its outlet, and a refusal is reported. -/
theorem openLogFile_eq (world : World) (path : Bytes) :
    world.openLogFile path =
      let struck := (world.strike .openStream (some path)).2
      match world.logOutlet path with
      | .error errno => (.ofErrno errno, struck.writeEntry
          (.status .warning .launcher (.ofErrno errno) (some "Failed to open log file")))
      | .ok outlet => (.ok, { struck with
          files := (world.files.attach world.logMode outlet).append
            (Log.startMarker world.clock) }) := by
  unfold openLogFile logOutlet strike
  rcases Fault.intercept .openStream (some path) world.faults with ⟨_ | errno, faults⟩
  · simp only [FileSystem.openStream_eq]
    rcases world.files.tree.writable path with errno | outlet
    · rfl
    · simp only [Except.map, appendToLog_eq]
      rfl
  · rfl

theorem started_ends (world : World) : world.files.Ends world.clock world.started.files ∧
    world.started.files.tree.SameButContent world.files.tree := by
  have files : world.started.files = if world.logIsOpen then
      (world.files.append (Log.endMarker world.clock)).setStream .log none
      else world.files := by
    rw [started, closeLog_eq]
  rw [files]
  split
  · exact ⟨world.files.ends_append world.clock,
      (world.files.works_append (Log.endMarker world.clock)).close.sameButContent⟩
  · rename_i closed
    have none : world.files.streams .log = none := by simpa [logIsOpen] using closed
    refine ⟨⟨none, fun _ _ => rfl, ?_, fun _ _ => rfl⟩, .refl _⟩
    intro location position pending mode content stream
    rw [none] at stream
    cases stream

/-- What is left of the session before is of no account for the outlet. -/
theorem logOutlet_started (world : World) (path : Bytes) :
    world.started.logOutlet path = world.logOutlet path ∨ ∃ location mode left right,
      world.started.logOutlet path = .ok (.file location mode left) ∧
        world.logOutlet path = .ok (.file location mode right) := by
  have faults : world.started.faults = world.faults := by rw [started, closeLog_eq]
  unfold logOutlet strike
  rw [faults]
  rcases (Fault.intercept .openStream (some path) world.faults).1 with _ | errno
  · exact world.started_ends.2.writable path
  · exact .inl rfl

/-- The four ways in which the log is opened. -/
inductive Reopens (world : World) : Status → World → Prop
  | silent (level : world.surroundings.logLevel = .silent) :
      Reopens world (.make .success .configuration .canceled) world.started
  | unset (loud : world.surroundings.logLevel ≠ .silent)
      (noFile : world.surroundings.setting .logFile = none) : Reopens world .ok world.started
  | refused {path : Bytes} {errno : Errno} {after : World}
      (loud : world.surroundings.logLevel ≠ .silent)
      (set : world.surroundings.setting .logFile = some path)
      (refused : world.logOutlet path = .error errno) (log : after.log = world.started.log)
      (files : after.files = world.started.files) : Reopens world (.ofErrno errno) after
  | opened {path : Bytes} {outlet found : Outlet} {after : World}
      (loud : world.surroundings.logLevel ≠ .silent)
      (set : world.surroundings.setting .logFile = some path)
      (opens : world.logOutlet path = .ok outlet)
      (names : world.started.files.tree.writable path = .ok found)
      (stream : found.stream world.clock = outlet.stream world.clock)
      (log : after.log = world.started.log)
      (files : world.started.files.Begins world.clock world.logMode found after.files) :
      Reopens world .ok after

/-- An outlet at which the log is opened is offered by the tree. -/
theorem writable_of_logOutlet {outlet : Outlet} (opens : world.logOutlet path = .ok outlet) :
    world.files.tree.writable path = .ok outlet := by
  unfold logOutlet at opens
  split at opens
  · cases opens
  · exact opens

/-- Reporting a refusal leaves a closed log and its settings alone. -/
theorem writeStatus_closed (world : World) (closed : world.logIsOpen = false) (level : Level)
    (origin : Log.Origin) (status : Status) (context : Option Bytes) :
    (world.writeEntry (.status level origin status context)).log = world.log ∧
      (world.writeEntry (.status level origin status context)).files = world.files := by
  rw [writeEntry_eq]
  exact ⟨rfl, filesAfter_of_closed closed _⟩

theorem openLog_reopens (world : World) : world.Reopens world.openLog.1 world.openLog.2 := by
  rw [openLog_eq]
  split
  · exact .silent ‹_›
  rename_i loud
  split
  · exact .unset loud ‹_›
  rename_i path set
  rw [openLogFile_eq]
  have same := world.logOutlet_started path
  cases opening : world.started.logOutlet path with
  | error errno =>
      have refused : world.logOutlet path = .error errno := by
        rcases same with same | ⟨_, _, _, _, opens, _⟩
        · exact same.symm.trans opening
        · cases opening.symm.trans opens
      have reported := writeStatus_closed (world.started.strike .openStream (some path)).2
        world.started_closed .warning .launcher (.ofErrno errno) (some "Failed to open log file")
      exact .refused loud set refused reported.1 reported.2
  | ok found =>
      have clock : world.started.clock = world.clock := by rw [started, closeLog_eq]
      have mode : world.started.logMode = world.logMode := by
        rw [logMode, logMode, started, closeLog_eq]
      have begins : world.started.files.Begins world.clock world.logMode found _ :=
        FileSystem.attach_begins (writable_of_logOutlet opening) world.clock
      obtain ⟨outlet, opens, stream⟩ : ∃ outlet, world.logOutlet path = .ok outlet ∧
          found.stream world.clock = outlet.stream world.clock := by
        rcases same with same | ⟨location, mode, left, right, opens, before⟩
        · exact ⟨found, same.symm.trans opening, rfl⟩
        · cases opening.symm.trans opens
          exact ⟨_, before, rfl⟩
      rw [clock, mode]
      exact .opened loud set opens (writable_of_logOutlet opening) stream rfl begins

/-- The status of an opening is known before the session before is closed. -/
def logStatus (world : World) : Status :=
  if world.surroundings.logLevel = .silent then .make .success .configuration .canceled
  else match world.surroundings.setting .logFile with
    | none => .ok
    | some path => match world.logOutlet path with
        | .ok _ => .ok
        | .error errno => .ofErrno errno

/-- So is the stream of the new session. -/
def logStream (world : World) : Option Stream :=
  if world.surroundings.logLevel = .silent then none
  else match world.surroundings.setting .logFile with
    | none => none
    | some path => match world.logOutlet path with
        | .ok outlet => some (outlet.stream world.clock)
        | .error _ => none

theorem started_log (world : World) : world.started.log =
    ⟨world.surroundings.logLevel, world.surroundings.terminal, world.log.drawnAt⟩ := by
  rw [started, closeLog_eq]

theorem started_stream (world : World) : world.started.files.streams .log = none :=
  world.started_ends.1.stream

theorem Reopens.determined (reopens : world.Reopens status after) :
    status = world.logStatus ∧ after.files.streams .log = world.logStream ∧ after.log =
      ⟨world.surroundings.logLevel, world.surroundings.terminal, world.log.drawnAt⟩ := by
  have startedLog := world.started_log
  have startedStream := world.started_stream
  unfold logStatus logStream
  cases reopens with
  | silent level => simp [level, startedStream, startedLog]
  | unset loud noFile => simp [loud, noFile, startedStream, startedLog]
  | refused loud set refused log files =>
      simp [loud, set, refused, files, log, startedStream, startedLog]
  | opened loud set opens names stream log files =>
      simp [loud, set, opens, files.stream, stream, log, startedLog]

/-- This is what opening the log leaves behind. A silent log is no failure, and its file is not
tried. Otherwise the file is opened if one is set, and then the log is open. Whatever session was
there before, it has ended, and only the moment of the last reading is still the old one. -/
structure Restarts (world : World) (status : Status) (after : World) : Prop where
  level : world.surroundings.SelectsLevel after.log.level
  terminal : after.log.terminal = world.surroundings.terminal
  drawnAt : after.log.drawnAt = world.log.drawnAt
  isOpen : after.logIsOpen = true ↔ after.log.level ≠ .silent ∧ ∃ path outlet,
    world.surroundings.setting .logFile = some path ∧ world.logOutlet path = .ok outlet
  canceled : after.log.level = .silent →
    status = .make .success .configuration .canceled ∧ status.failed = false ∧
      after.faults = world.faults
  refused : after.log.level ≠ .silent → ∀ path errno,
    world.surroundings.setting .logFile = some path → world.logOutlet path = .error errno →
      status = .ofErrno errno ∧ status.failed = true
  went : after.log.level ≠ .silent → (∀ path errno,
    world.surroundings.setting .logFile = some path → world.logOutlet path ≠ .error errno) →
      status = .ok
  closed : after.logIsOpen = false → world.files.Ends world.clock after.files
  opened : after.logIsOpen = true → ∃ path ended outlet,
    world.surroundings.setting .logFile = some path ∧ world.files.Ends world.clock ended ∧
      ended.tree.writable path = .ok outlet ∧
        ended.Begins world.clock world.logMode outlet after.files
  fresh : ∀ (session : Log.Session) (stream : Option Stream),
    let other := { world with log := session, files := world.files.setStream .log stream }
    other.openLog.1 = status ∧
      other.openLog.2.files.streams .log = after.files.streams .log ∧
      other.openLog.2.log = { after.log with drawnAt := session.drawnAt }

theorem logOutlet_refusal (sound : world.FaultsFail) {errno : Errno}
    (refused : world.logOutlet path = .error errno) : errno.number ≠ 0 := by
  unfold logOutlet strike at refused
  split at refused
  · rename_i struck
    cases refused
    obtain ⟨fault, among, _, rfl⟩ := Fault.intercept_some struck
    exact sound fault among
  · exact Tree.writable_refusal refused

theorem isSome_logStream (world : World) : world.logStream.isSome = true ↔
    world.surroundings.logLevel ≠ .silent ∧ ∃ path outlet,
      world.surroundings.setting .logFile = some path ∧ world.logOutlet path = .ok outlet := by
  unfold logStream
  split
  · rename_i silent
    simp [silent]
  · rename_i loud
    split
    · rename_i noFile
      simp [noFile]
    · rename_i path set
      cases opening : world.logOutlet path <;> simp [loud, set, opening]

/-- A log that ended up closed has only ended its session, and an open one has begun another. -/
theorem Reopens.files (reopens : world.Reopens status after) :
    (after.logIsOpen = false → world.files.Ends world.clock after.files) ∧
      (after.logIsOpen = true → ∃ path ended outlet,
        world.surroundings.setting .logFile = some path ∧ world.files.Ends world.clock ended ∧
          ended.tree.writable path = .ok outlet ∧
            ended.Begins world.clock world.logMode outlet after.files) := by
  have ends := world.started_ends.1
  have closed := world.started_closed
  cases reopens with
  | silent level => exact ⟨fun _ => ends, fun opened => absurd opened (by simp [closed])⟩
  | unset loud noFile => exact ⟨fun _ => ends, fun opened => absurd opened (by simp [closed])⟩
  | refused loud set refused log files =>
      have notOpen : after.logIsOpen = false := by
        rw [logIsOpen, files]
        exact closed
      rw [files]
      exact ⟨fun _ => ends, fun opened => absurd opened (by simp [notOpen])⟩
  | @opened path outlet found _ loud set opens names stream log files =>
      have isOpen : after.logIsOpen = true := by simp [logIsOpen, files.stream]
      exact ⟨fun notOpen => absurd isOpen (by simp [notOpen]),
        fun _ => ⟨path, _, found, set, ends, names, files⟩⟩

theorem openLog_restarts (sound : world.FaultsFail) :
    world.Restarts world.openLog.1 world.openLog.2 := by
  have reopens := world.openLog_reopens
  obtain ⟨status, stream, log⟩ := reopens.determined
  obtain ⟨closed, opened⟩ := reopens.files
  have level : world.openLog.2.log.level = world.surroundings.logLevel := by rw [log]
  refine ⟨?level, by rw [log], by rw [log], ?isOpen, ?canceled, ?refused, ?went, closed, opened,
    ?fresh⟩
  case level =>
    rw [level]
    exact world.surroundings.selectsLevel
  case isOpen =>
    rw [logIsOpen, stream, level]
    exact world.isSome_logStream
  case canceled =>
    rw [level]
    intro silent
    have still : world.openLog.2.faults = world.faults := by
      rw [openLog_eq, if_pos silent, started, closeLog_eq]
    rw [status, logStatus, if_pos silent]
    exact ⟨rfl, by decide, still⟩
  case refused =>
    rw [level]
    intro loud path errno set refused
    rw [status, logStatus, if_neg loud, set]
    simp only [refused]
    exact ⟨trivial, Status.failed_ofErrno (logOutlet_refusal sound refused)⟩
  case went =>
    rw [level]
    intro loud allowed
    rw [status, logStatus, if_neg loud]
    split
    · rfl
    · rename_i path set
      split
      · rfl
      · rename_i errno refused
        exact absurd refused (allowed path errno set)
  case fresh =>
    intro session former other
    obtain ⟨otherStatus, otherStream, otherLog⟩ := other.openLog_reopens.determined
    refine ⟨otherStatus.trans status.symm, otherStream.trans stream.symm, ?_⟩
    rw [otherLog, log]

/-- A session is open here, and its file is also the one that is set. The first fault lets one file
be opened. -/
def loggedTwice : World where
  surroundings := {
    terminal := true
    environment := fun setting => match setting with
      | .logLevel => some "WaRn"
      | .logFile => some "/log"
      | _ => none }
  files := ⟨Tree.empty.put ["log"] (.file 0o600 "a\n"), fun channel =>
    if channel = .log then some ⟨.file ["log"], true, 2, []⟩ else none⟩
  faults := [{ operation := .openStream, errno := .accessDenied, skip := 1 }]
  log := { level := .debug, drawnAt := 3 }

theorem openLog_restarts_loggedTwice :
    loggedTwice.FaultsFail ∧ loggedTwice.Restarts loggedTwice.openLog.1 loggedTwice.openLog.2 := by
  have sound : loggedTwice.FaultsFail := by simp [FaultsFail, loggedTwice, Errno.accessDenied]
  exact ⟨sound, openLog_restarts sound⟩

example : loggedTwice.openLog.2.files.tree.get? ["log"] = some (.file 0o600
    ("a\n=== Log session ended at 2023-11-14 22:13:20 ===\n\n" ++
      "=== Log session started at 2023-11-14 22:13:20 ===\n" : Bytes)) := by
  decide +kernel

end World

/-! ### Open logs append -/

namespace Stream

theorem appending_redirect (relocation : Location → Option Location) (stream : Stream) :
    (stream.redirect relocation).appending = stream.appending := by
  unfold redirect
  split
  · split <;> rfl
  · rfl

end Stream

namespace FileSystem

variable {files after : FileSystem Channel}

/-- If the log is open, its stream appends. -/
def LogAppends (files : FileSystem Channel) : Prop :=
  ∀ stream, files.streams .log = some stream → stream.appending = true

namespace LogAppends

theorem of_closed (closed : files.streams .log = none) : files.LogAppends := by
  intro stream opened
  rw [closed] at opened
  cases opened

theorem keep (appends : files.LogAppends) (same : after.streams .log = files.streams .log) :
    after.LogAppends := by
  intro stream opened
  exact appends stream (same.symm.trans opened)

theorem append (appends : files.LogAppends) (text : Bytes) : (files.append text).LogAppends := by
  unfold FileSystem.append store
  cases opened : files.streams .log with
  | none => exact appends
  | some stream =>
      have kept := appends stream opened
      have moved (position : Nat) :
          (files.setStream .log (some { stream with position })).LogAppends := by
        intro later found
        simp only [setStream, if_true, Option.some.injEq] at found
        rw [← found]
        exact kept
      rcases stream with ⟨location | device | _, appending, position, pending⟩
      · dsimp only
        cases files.tree.get? location with
        | none => exact moved _
        | some node => cases node <;> exact moved _
      · cases device with
        | null => exact moved _
        | full =>
            dsimp only
            by_cases empty : text = []
            · rw [if_pos empty]
              exact appends
            · rw [if_neg empty]
              exact appends
      · exact moved _

theorem relocate (appends : files.LogAppends) (tree : Tree)
    (relocation : Location → Option Location) :
    (files.relocate tree relocation).LogAppends := by
  intro stream opened
  obtain ⟨former, found, rfl⟩ := Option.map_eq_some_iff.mp opened
  rw [Stream.appending_redirect]
  exact appends former found

theorem works (appends : files.LogAppends) (works : Works .output files after) :
    after.LogAppends := appends.keep (works.streams .log nofun)

/-- No call of the output reaches the stream of the log, but a renaming may take it along. -/
theorem answer (appends : files.LogAppends) (mask : Mode) (call : FileCall) :
    (files.answer .output mask call).2.LogAppends := by
  cases call with
  | inspect path => exact appends
  | access path => exact appends
  | makeDirectory path mode =>
      simp only [FileSystem.answer, commitTree]
      cases files.tree.makeDirectory path (mode.masked mask) <;> exact appends
  | setMode path mode =>
      simp only [FileSystem.answer, commitTree]
      cases files.tree.setMode path mode <;> exact appends
  | unlink path =>
      simp only [FileSystem.answer, FileSystem.unlink]
      cases files.tree.unlinkable path with
      | error errno => exact appends
      | ok location => exact appends.relocate _ _
  | rename source target =>
      simp only [FileSystem.answer, FileSystem.rename]
      cases files.tree.renamable source target with
      | error errno => exact appends
      | ok places =>
          dsimp only
          split
          · exact appends
          · exact appends.relocate _ _
  | openOutput path =>
      simp only [FileSystem.answer, openStream]
      cases files.tree.writable path with
      | error errno => exact appends
      | ok outlet => cases outlet <;> exact appends.keep (by simp [commit, setStream])
  | outputIsRegular => exact appends
  | write bytes =>
      have fills : (FileCall.write bytes).Fills := trivial
      exact appends.works (.answer files .output mask fills)
  | flush =>
      have fills : FileCall.flush.Fills := trivial
      exact appends.works (.answer files .output mask fills)
  | close => exact appends.works (.of_close files .output)

theorem refuse (appends : files.LogAppends) (mask : Mode) (errno : Errno) (call : FileCall) :
    (files.refuse .output mask errno call).2.LogAppends := by
  cases call with
  | close => exact appends.works (.of_close files .output)
  | _ => exact appends

end LogAppends

end FileSystem

namespace World

variable {world : World}

theorem appending_logStream {stream : Stream} (begins : world.logStream = some stream) :
    stream.appending = true := by
  unfold logStream at begins
  split at begins
  · cases begins
  split at begins
  · cases begins
  split at begins <;> cases begins
  rfl

theorem filesAfter_logAppends (appends : world.files.LogAppends) (messages : List Log.Message) :
    (world.filesAfter messages).LogAppends := by
  unfold filesAfter
  apply List.foldlRecOn _ _ appends
  exact fun files before message _ => before.append (message.fileEntry world.clock)

theorem answer_logAppends (appends : world.files.LogAppends) (call : Call) :
    (world.answer call).2.files.LogAppends := by
  cases call with
  | file call =>
      rw [World.answer, answerFile_eq]
      split
      · exact appends.answer _ call
      · exact appends.refuse _ _ call
  | openLog =>
      obtain ⟨_, begins, _⟩ := world.openLog_reopens.determined
      intro stream opened
      exact appending_logStream (begins.symm.trans opened)
  | closeLog =>
      rw [World.answer, closeLog_eq]
      dsimp only
      split
      · exact .of_closed (by simp [FileSystem.setStream])
      · exact appends
  | log entry =>
      rw [World.answer, writeEntry_eq]
      exact filesAfter_logAppends appends _
  | _ => exact appends

/-- The log appends in every world that a program leaves. -/
theorem run_logAppends {Answer : Type} (appends : world.files.LogAppends)
    (program : Program Answer) : (world.run program).2.files.LogAppends := by
  induction program generalizing world with
  | done answer => exact appends
  | ask call next inductionHypothesis =>
      have step := world.answer_logAppends appends call
      rw [World.run]
      generalize world.answer call = outcome at step ⊢
      rcases outcome with ⟨_ | reply, after⟩
      · exact step
      · exact inductionHypothesis reply step

end World

end Launcher
