/-
This file says which verbs a list stands for. The list is cut into its longest runs without a
separator, and these are read one after the other until help is asked for.
-/

import Launcher.Proofs.Report

namespace Launcher

/-! ### Runs of a text -/

namespace Bytes

/-- The runs of a text are nonempty and free of the separator, and each one goes on up to a separator
or to the end of the text. Nothing but separators is between them. -/
inductive Runs (separator : UInt8) : Bytes → List Bytes → Prop where
  | nil : Runs separator [] []
  | separator {text : Bytes} {runs : List Bytes} (later : Runs separator text runs) :
      Runs separator (separator :: text) runs
  | run {first text : Bytes} {runs : List Bytes} (nonempty : first ≠ [])
      (free : separator ∉ first) (ends : text = [] ∨ text.head? = some separator)
      (later : Runs separator text runs) : Runs separator (first ++ text) (first :: runs)

variable {separator : UInt8} {text : Bytes} {runs : List Bytes}

/-- A text has its fields as runs, and no others. -/
theorem Runs.eq_fields (cut : Runs separator text runs) : runs = text.fields separator := by
  induction cut with
  | nil => rfl
  | separator _ inductionHypothesis =>
      rw [inductionHypothesis]
      exact (fields_append_separator separator [] _).symm
  | run nonempty free ends _ inductionHypothesis =>
      rename_i first text runs
      rcases ends with rfl | begins
      · rw [inductionHypothesis, List.append_nil, fields_of_notMem free nonempty]
        rfl
      · obtain ⟨rest, rfl⟩ := List.head?_eq_some_iff.mp begins
        have gap : fields separator (separator :: rest) = fields separator rest :=
          fields_append_separator separator [] rest
        rw [inductionHypothesis, fields_append_separator, fields_of_notMem free nonempty, gap]
        rfl

theorem runs_fields (separator : UInt8) (text : Bytes) :
    Runs separator text (text.fields separator) := by
  have cut : ∃ runs, Runs separator text runs := by
    induction text with
    | nil => exact ⟨[], .nil⟩
    | cons byte rest inductionHypothesis =>
        obtain ⟨runs, later⟩ := inductionHypothesis
        by_cases same : byte = separator
        · subst same
          exact ⟨runs, .separator later⟩
        have free : separator ∉ [byte] := fun among => same (List.mem_singleton.mp among).symm
        -- The byte begins a run of its own, unless the rest begins with one.
        cases later with
        | nil => exact ⟨_, .run (by simp) free (.inl rfl) .nil⟩
        | separator later => exact ⟨_, .run (by simp) free (.inr rfl) (.separator later)⟩
        | run nonempty freeToo ends later =>
            rename_i first text runs
            have longer : separator ∉ byte :: first := by
              simpa using ⟨fun equal => same equal.symm, freeToo⟩
            exact ⟨_, .run (by simp) longer ends later⟩
  obtain ⟨runs, cut⟩ := cut
  exact cut.eq_fields ▸ cut

end Bytes

/-! ### Names of verbs -/

namespace Verb

def name : Verb → Bytes
  | .version => "version"
  | .help => "help"
  | .path => "path"
  | .reinstall => "reinstall"

def all : List Verb := [.version, .help, .path, .reinstall]

theorem mem_all (verb : Verb) : verb ∈ all := by cases verb <;> decide

variable {token : Bytes} {verb : Verb}

theorem ofToken_eq_some : ofToken token = some verb ↔ token.lower = verb.name := by
  constructor
  · intro read
    simp only [ofToken] at read
    split at read
    · cases read
      assumption
    split at read
    · cases read
      assumption
    split at read
    · cases read
      assumption
    split at read
    · cases read
      assumption
    · cases read
  · intro same
    simp only [ofToken, same]
    cases verb <;> decide

/-- A token is recognised when it is the name of a verb, whatever the case of its letters is. -/
def Recognised (token : Bytes) : Prop := ∃ verb ∈ all, token.lower = verb.name

instance (token : Bytes) : Decidable (Recognised token) :=
  inferInstanceAs (Decidable (∃ verb ∈ all, token.lower = verb.name))

theorem ofToken_eq_none : ofToken token = none ↔ ¬ Recognised token := by
  rw [Option.eq_none_iff_forall_ne_some]
  constructor
  · rintro unread ⟨verb, _, same⟩
    exact unread verb (ofToken_eq_some.mpr same)
  · intro unknown verb read
    exact unknown ⟨verb, mem_all verb, ofToken_eq_some.mp read⟩

end Verb

namespace Verbs

variable {verbs : Verbs} {token : Bytes} {tokens others : List Bytes} {index count : Nat}

def has (verbs : Verbs) : Verb → Bool
  | .version => verbs.version
  | .help => verbs.help
  | .path => verbs.path
  | .reinstall => verbs.reinstall

theorem eq_of_has {first second : Verbs}
    (same : ∀ verb, first.has verb = true ↔ second.has verb = true) : first = second := by
  have version := Bool.eq_iff_iff.mpr (same .version)
  have help := Bool.eq_iff_iff.mpr (same .help)
  have path := Bool.eq_iff_iff.mpr (same .path)
  have reinstall := Bool.eq_iff_iff.mpr (same .reinstall)
  cases first
  cases second
  simp_all [has]

theorem has_set (verbs : Verbs) (verb other : Verb) :
    (verbs.set verb).has other = true ↔ verbs.has other = true ∨ verb = other := by
  cases verb <;> cases other <;> simp [set, has]

/-- A token sets the flag of the verb that it names, when there is one. -/
def read (verbs : Verbs) (token : Bytes) : Verbs :=
  match Verb.ofToken token with
  | none => verbs
  | some verb => verbs.set verb

theorem has_read (verbs : Verbs) (token : Bytes) (verb : Verb) :
    (verbs.read token).has verb = true ↔ verbs.has verb = true ∨ token.lower = verb.name := by
  rw [← Verb.ofToken_eq_some]
  unfold read
  split
  · rename_i unknown
    simp [unknown]
  · rename_i other named
    rw [has_set, named, Option.some.injEq]

theorem has_readAll (verbs : Verbs) (tokens : List Bytes) (verb : Verb) :
    (tokens.foldl read verbs).has verb = true ↔
      verbs.has verb = true ∨ ∃ token ∈ tokens, token.lower = verb.name := by
  induction tokens generalizing verbs with
  | nil => simp
  | cons token others inductionHypothesis =>
      simp only [List.foldl_cons, inductionHypothesis, has_read, List.mem_cons, exists_eq_or_imp,
        or_assoc]

/-! ### The end of the reading -/

/-- The token is a verb, and with it help is asked for. -/
def StopsAt (verbs : Verbs) (tokens : List Bytes) (index : Nat) : Prop :=
  ∃ token, tokens[index]? = some token ∧ Verb.Recognised token ∧
    (verbs.has .help = true ∨ ∃ other ∈ tokens.take (index + 1), other.lower = Verb.help.name)

/-- What is said about a token that is no verb. -/
def unknown (token : Bytes) : Log.Message :=
  ⟨.information, .launcher, "Unknown " ++ Setting.verbs.name ++ " token: " ++ token⟩

/-- Every token that is no verb is reported once, in the order of the list. -/
def unknowns (tokens : List Bytes) : List Log.Message :=
  (tokens.filter fun token => ¬ Verb.Recognised token).map unknown

theorem unknowns_cons (token : Bytes) (tokens : List Bytes) :
    unknowns (token :: tokens) = unknowns [token] ++ unknowns tokens := by
  rw [unknowns, unknowns, unknowns, ← List.map_append, ← List.filter_append, List.singleton_append]

theorem unknowns_verb (recognised : Verb.Recognised token) : unknowns [token] = [] := by
  simp [unknowns, recognised]

theorem unknowns_other (other : ¬ Verb.Recognised token) : unknowns [token] = [unknown token] := by
  simp [unknowns, other]

/-- What is said when the reading stops before the end of the list. -/
def early : Log.Message := ⟨.debug, .launcher, "Returning early, got help token"⟩

/-- Tokens are read up to the first one at which the reading stops, or all of them. -/
inductive ReadTo (verbs : Verbs) (tokens : List Bytes) : Nat → List Log.Message → Prop where
  | stopped (index : Nat) (stops : StopsAt verbs tokens index)
      (first : ∀ earlier < index, ¬ StopsAt verbs tokens earlier) :
      ReadTo verbs tokens (index + 1) [early]
  | all (never : ∀ index, ¬ StopsAt verbs tokens index) : ReadTo verbs tokens tokens.length []

theorem stopsAt_zero : StopsAt verbs (token :: others) 0 ↔
    Verb.Recognised token ∧ (verbs.read token).help = true := by
  have help := has_read verbs token .help
  simp only [StopsAt, List.getElem?_cons_zero, Option.some.injEq, exists_eq_left', Nat.zero_add,
    List.take_succ_cons, List.take_zero, List.mem_singleton, exists_eq_left]
  exact and_congr_right fun _ => help.symm

theorem stopsAt_succ : StopsAt verbs (token :: others) (index + 1) ↔
    StopsAt (verbs.read token) others index := by
  simp only [StopsAt, List.getElem?_cons_succ, List.take_succ_cons, List.mem_cons,
    exists_eq_or_imp, has_read, or_assoc]

theorem ReadTo.cons {last : List Log.Message} (on : ¬ StopsAt verbs (token :: others) 0)
    (later : ReadTo (verbs.read token) others count last) :
    ReadTo verbs (token :: others) (count + 1) last := by
  cases later with
  | stopped index stops first =>
      refine .stopped (index + 1) (stopsAt_succ.mpr stops) fun earlier before => ?_
      cases earlier with
      | zero => exact on
      | succ earlier =>
          exact fun stops => first earlier (Nat.lt_of_succ_lt_succ before) (stopsAt_succ.mp stops)
  | all never =>
      refine .all fun index => ?_
      cases index with
      | zero => exact on
      | succ index => exact fun stops => never index (stopsAt_succ.mp stops)

/-- One token is read, or reported, and the reading goes on unless help is asked for. -/
theorem addTokens_cons (verbs : Verbs) (token : Bytes) (others : List Bytes) :
    addTokens verbs (token :: others) =
      if Verb.Recognised token then
        if (verbs.read token).help then
          Program.request (.log (.message early)) >>= fun _ => pure (verbs.read token)
        else addTokens (verbs.read token) others
      else Program.request (.log (.message (unknown token))) >>= fun _ =>
        addTokens (verbs.read token) others := by
  rw [addTokens, read]
  cases named : Verb.ofToken token with
  | none => rw [if_neg (Verb.ofToken_eq_none.mp named)]; rfl
  | some verb =>
      have recognised : Verb.Recognised token := by
        by_contra unknown
        rw [Verb.ofToken_eq_none.mpr unknown] at named
        cases named
      rw [if_pos recognised]
      rfl

/-- What is read is the part of the list up to the end of the reading. -/
theorem run_addTokens (world : World) (verbs : Verbs) (tokens : List Bytes) :
    ∃ count last, ReadTo verbs tokens count last ∧ world.run (addTokens verbs tokens) =
      (some ((tokens.take count).foldl read verbs),
        (unknowns (tokens.take count) ++ last).foldl World.writeMessage world) := by
  induction tokens generalizing world verbs with
  | nil => exact ⟨0, [], .all fun index => by simp [StopsAt], rfl⟩
  | cons token others inductionHypothesis =>
      have onward (on : ¬ StopsAt verbs (token :: others) 0) :
          ∃ count last, ReadTo verbs (token :: others) count last ∧
            ((unknowns [token]).foldl World.writeMessage world).run
                (addTokens (verbs.read token) others) =
              (some (((token :: others).take count).foldl read verbs),
                (unknowns ((token :: others).take count) ++ last).foldl
                  World.writeMessage world) := by
        obtain ⟨count, last, readTo, ran⟩ :=
          inductionHypothesis ((unknowns [token]).foldl World.writeMessage world) (verbs.read token)
        refine ⟨count + 1, last, readTo.cons on, ?_⟩
        rw [ran, List.take_succ_cons, List.foldl_cons, unknowns_cons token (others.take count),
          List.append_assoc, List.foldl_append, List.foldl_append, List.foldl_append]
      rw [addTokens_cons]
      split
      · rename_i recognised
        split
        · rename_i helped
          refine ⟨1, [early], .stopped 0 (stopsAt_zero.mpr ⟨recognised, helped⟩) (by simp), ?_⟩
          rw [World.run_request rfl, List.take_succ_cons, List.take_zero, unknowns_verb recognised]
          rfl
        · rename_i notHelped
          have further := onward fun stops => notHelped (stopsAt_zero.mp stops).2
          rwa [unknowns_verb recognised] at further
      · rename_i other
        have further := onward fun stops => other (stopsAt_zero.mp stops).1
        rw [unknowns_other other] at further
        rw [World.run_request rfl]
        exact further

/-- The tokens behind the one at which the reading stops have no part in it. -/
theorem addTokens_take (stops : StopsAt verbs tokens index) (more : List Bytes) :
    addTokens verbs (tokens.take (index + 1) ++ more) = addTokens verbs tokens := by
  induction tokens generalizing verbs index with
  | nil => simp [StopsAt] at stops
  | cons token others inductionHypothesis =>
      rw [List.take_succ_cons, List.cons_append, addTokens_cons, addTokens_cons]
      cases index with
      | zero =>
          obtain ⟨recognised, helped⟩ := stopsAt_zero.mp stops
          rw [if_pos recognised, if_pos helped, if_pos recognised, if_pos helped]
      | succ index => rw [inductionHypothesis (stopsAt_succ.mp stops)]

/-- Without help the whole list is read. -/
theorem ReadTo.count_eq {last : List Log.Message} (readTo : ReadTo verbs tokens count last)
    (noHelp : verbs.help = false) (plain : ∀ token ∈ tokens, token.lower ≠ Verb.help.name) :
    count = tokens.length := by
  cases readTo with
  | all never => rfl
  | stopped index stops first =>
      obtain ⟨_, _, _, helped | ⟨token, among, isHelp⟩⟩ := stops
      · rw [has, noHelp] at helped
        cases helped
      · exact absurd isHelp (plain token (List.mem_of_mem_take among))

/-! ### The list in the environment -/

variable {world : World} {list other : Bytes}

theorem withVerbs_self (given : world.surroundings.environment .verbs = some list) :
    world.withVerbs list = world := by
  have same : (fun setting => if setting = .verbs then some list
      else world.surroundings.environment setting) = world.surroundings.environment := by
    funext setting
    split
    · rename_i isVerbs
      rw [isVerbs, given]
    · rfl
  rw [World.withVerbs, same]

theorem withVerbs_withVerbs (world : World) (list other : Bytes) :
    (world.withVerbs list).withVerbs other = world.withVerbs other := by
  have same : (fun setting => if setting = .verbs then some other
      else (world.withVerbs list).surroundings.environment setting) =
        (world.withVerbs other).surroundings.environment := by
    funext setting
    simp only [World.withVerbs]
    split <;> rfl
  rw [World.withVerbs, same]
  rfl

/-- A list is read when there is memory for a copy of it, and only the copy costs a fault. -/
theorem run_list (given : world.surroundings.environment .verbs = some list)
    (copied : (world.strike .duplicate none).1 = none) (verbs : Verbs) :
    world.run (fromEnvironment (some verbs)) = (world.strike .duplicate none).2.run
      (addTokens verbs (list.fields separator) >>= fun read => pure (.ok, some read)) := by
  have run := fromEnvironment_withVerbs world verbs list
  have still : (world.strike .duplicate none).2.withVerbs list = (world.strike .duplicate none).2 :=
    withVerbs_self given
  rwa [withVerbs_self given, still, copied, Option.isNone_none, if_pos rfl] at run

theorem run_unread (given : world.surroundings.environment .verbs = some list) {errno : Errno}
    (refused : (world.strike .duplicate none).1 = some errno) (verbs : Verbs) :
    world.run (fromEnvironment (some verbs)) =
      (some (.error .configuration .outOfMemory, some verbs), (world.strike .duplicate none).2) := by
  have run := fromEnvironment_withVerbs world verbs list
  have still : (world.strike .duplicate none).2.withVerbs list = (world.strike .duplicate none).2 :=
    withVerbs_self given
  rwa [withVerbs_self given, still, refused, if_neg (by simp)] at run

/-- Reading the list ends well. It sets the flags of the verbs up to the end of the reading and
reports the other tokens there. -/
structure ReadsList (world : World) (verbs : Verbs) (tokens : List Bytes) (count : Nat)
    (last : List Log.Message) (final : Verbs) : Prop where
  readTo : ReadTo verbs tokens count last
  run : world.run (fromEnvironment (some verbs)) = (some (.ok, some final),
    (unknowns (tokens.take count) ++ last).foldl World.writeMessage
      (world.strike .duplicate none).2)
  flags : ∀ verb, final.has verb = true ↔
    verbs.has verb = true ∨ ∃ token ∈ tokens.take count, token.lower = verb.name

theorem readsList (given : world.surroundings.environment .verbs = some list)
    (copied : (world.strike .duplicate none).1 = none) (verbs : Verbs)
    (cut : list.Runs separator tokens) :
    ∃ count last final, ReadsList world verbs tokens count last final := by
  obtain ⟨count, last, readTo, ran⟩ :=
    run_addTokens (world.strike .duplicate none).2 verbs tokens
  refine ⟨count, last, (tokens.take count).foldl read verbs, readTo, ?_, has_readAll verbs _⟩
  rw [run_list given copied, ← cut.eq_fields, World.run_bind, ran]
  rfl

/-- The tokens behind the end of the reading may be any others. -/
theorem run_beyond {tokensToo : List Bytes} (cut : list.Runs separator tokens)
    (cutToo : other.Runs separator tokensToo) (stops : StopsAt verbs tokens index)
    (same : tokensToo.take (index + 1) = tokens.take (index + 1)) :
    (world.withVerbs other).run (fromEnvironment (some verbs)) =
      (((world.withVerbs list).run (fromEnvironment (some verbs))).1,
        ((world.withVerbs list).run (fromEnvironment (some verbs))).2.withVerbs other) := by
  have program : addTokens verbs tokensToo = addTokens verbs tokens := by
    rw [← addTokens_take stops (tokensToo.drop (index + 1)), ← same, List.take_append_drop]
  rw [fromEnvironment_withVerbs, fromEnvironment_withVerbs, ← cut.eq_fields, ← cutToo.eq_fields,
    program]
  split
  · have skips : (addTokens verbs tokens >>= fun read =>
        pure ((.ok : Status), some read)).Only Call.SkipsVerbs :=
      .bind (addTokens_skipsVerbs verbs tokens) fun _ => trivial
    rw [World.run_withVerbs skips, World.run_withVerbs skips, withVerbs_withVerbs]
  · rw [withVerbs_withVerbs]

/-- Without help only the verbs among the tokens matter. -/
theorem run_reordered {tokensToo : List Bytes} (cut : list.Runs separator tokens)
    (cutToo : other.Runs separator tokensToo) (noHelp : verbs.help = false)
    (plain : ∀ token ∈ tokens ++ tokensToo, token.lower ≠ Verb.help.name)
    (same : ∀ verb : Verb, (∃ token ∈ tokens, token.lower = verb.name) ↔
      ∃ token ∈ tokensToo, token.lower = verb.name) :
    ((world.withVerbs list).run (fromEnvironment (some verbs))).1 =
      ((world.withVerbs other).run (fromEnvironment (some verbs))).1 := by
  have copying (list : Bytes) : ((world.withVerbs list).strike .duplicate none).1 =
      (world.strike .duplicate none).1 := rfl
  have given (list : Bytes) :
      (world.withVerbs list).surroundings.environment .verbs = some list := rfl
  cases copied : (world.strike .duplicate none).1 with
  | some errno =>
      rw [run_unread (given list) ((copying list).trans copied),
        run_unread (given other) ((copying other).trans copied)]
  | none =>
      obtain ⟨_, _, first, readTo, ran, flags⟩ :=
        readsList (given list) ((copying list).trans copied) verbs cut
      obtain ⟨_, _, second, readToToo, ranToo, flagsToo⟩ :=
        readsList (given other) ((copying other).trans copied) verbs cutToo
      have all := readTo.count_eq noHelp fun token among => plain token (by simp [among])
      have allToo := readToToo.count_eq noHelp fun token among => plain token (by simp [among])
      rw [all, List.take_length] at flags
      rw [allToo, List.take_length] at flagsToo
      have equal : first = second := eq_of_has fun verb => by rw [flags, flagsToo, same]
      rw [ran, ranToo, equal]

/-- What the verbs in the environment do to those that are in force already. -/
structure FollowsEnvironment (world : World) (verbs : Verbs) : Prop where
  absent : world.run (fromEnvironment none) =
    (some (.error .configuration .invalidArgument, none), world)
  unset : world.surroundings.environment .verbs = none →
    world.run (fromEnvironment (some verbs)) = (some (.ok, some verbs), world)
  refused : ∀ list errno, world.surroundings.environment .verbs = some list →
    (world.strike .duplicate none).1 = some errno → world.run (fromEnvironment (some verbs)) =
      (some (.error .configuration .outOfMemory, some verbs), (world.strike .duplicate none).2)
  reads : ∀ list tokens, world.surroundings.environment .verbs = some list →
    (world.strike .duplicate none).1 = none → list.Runs separator tokens →
      ∃ count last final, ReadsList world verbs tokens count last final
  keeps : ∀ status final after,
    world.run (fromEnvironment (some verbs)) = (some (status, some final), after) →
      ∀ verb, verbs.has verb = true → final.has verb = true
  beyond : ∀ list other tokens others index, list.Runs separator tokens →
    other.Runs separator others → StopsAt verbs tokens index →
      others.take (index + 1) = tokens.take (index + 1) →
        (world.withVerbs other).run (fromEnvironment (some verbs)) =
          (((world.withVerbs list).run (fromEnvironment (some verbs))).1,
            ((world.withVerbs list).run (fromEnvironment (some verbs))).2.withVerbs other)
  reordered : ∀ list other tokens others, list.Runs separator tokens →
    other.Runs separator others → verbs.help = false →
      (∀ token ∈ tokens ++ others, token.lower ≠ Verb.help.name) →
        (∀ verb : Verb, (∃ token ∈ tokens, token.lower = verb.name) ↔
          ∃ token ∈ others, token.lower = verb.name) →
            ((world.withVerbs list).run (fromEnvironment (some verbs))).1 =
              ((world.withVerbs other).run (fromEnvironment (some verbs))).1

theorem fromEnvironment_keeps (world : World) (verbs : Verbs) {status : Status} {final : Verbs}
    {after : World}
    (ran : world.run (fromEnvironment (some verbs)) = (some (status, some final), after))
    (verb : Verb) (inForce : verbs.has verb = true) : final.has verb = true := by
  cases given : world.surroundings.environment .verbs with
  | none =>
      have looked : world.answer (.lookUp .verbs) = (some none, world) := by
        rw [World.answer, given]
      rw [fromEnvironment, Program.lookUp, World.run_request looked] at ran
      cases ran
      exact inForce
  | some list =>
      cases copied : (world.strike .duplicate none).1 with
      | some errno =>
          rw [run_unread given copied] at ran
          cases ran
          exact inForce
      | none =>
          obtain ⟨_, _, _, reads⟩ :=
            readsList given copied verbs (list.runs_fields separator)
          cases ran.symm.trans reads.run
          exact (reads.flags verb).mpr (.inl inForce)

/-- The verbs in the environment are a list of tokens that is read in its order. -/
theorem fromEnvironment_follows (world : World) (verbs : Verbs) :
    FollowsEnvironment world verbs where
  absent := rfl
  unset := by
    intro unset
    have looked : world.answer (.lookUp .verbs) = (some none, world) := by
      rw [World.answer, unset]
    rw [fromEnvironment, Program.lookUp, World.run_request looked]
    rfl
  refused := fun _ _ given refused => run_unread given refused verbs
  reads := fun _ _ given copied => readsList given copied verbs
  keeps := fun _ _ _ => fromEnvironment_keeps world verbs
  beyond := fun _ _ _ _ _ => run_beyond
  reordered := fun _ _ _ _ => run_reordered

example : ((({} : World).withVerbs ";PATH;;other;help;version").run
    (fromEnvironment (some {}))).1 = some (.ok, some { path := true, help := true }) := by decide

end Verbs

end Launcher
