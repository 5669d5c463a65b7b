import SimpleQuery.Proofs.Quotes
import SimpleQuery.Session.Opening

/-!
# What goes before the environment

An argument that is given for a setting goes before the variable of that setting, whatever the variable
holds: settings, sessions and runs of the program are as they would be without it, up to the order in which
arguments are quoted where a setting is missing. Only the word for autocommit is read although an argument
goes before it, so one that stands for no flag is a fault all the same.

* `overrides_shadow_variable_iff` — when a variable makes no difference.
-/

set_option autoImplicit false

namespace SimpleQuery

/-- Environments that hold the same for all settings but one. -/
def Environment.AgreesBut (setting : Setting) (env env' : Environment) : Prop :=
  ∀ other, other ≠ setting → env.raw other = env'.raw other

variable {codecs : Codecs} {setting : Setting} {env env' : Environment}

theorem Environment.AgreesBut.given (h : env.AgreesBut setting env') {other : Setting}
    (hother : other ≠ setting) : env.given other = env'.given other := by
  have held := h other hother
  cases other <;> simp only [Environment.given, held]

/-- Environments that differ in another setting are readable alike. -/
theorem Environment.AgreesBut.readable (h : env.AgreesBut setting env') (other : setting ≠ .autocommit)
    (readable : env.Readable) : env'.Readable := by
  intro word held
  rw [← h .autocommit other.symm] at held
  exact readable word held

/-- A setting is found again by the name of its variable. -/
theorem Environment.find_variableName? {name : String} (h : variableName? setting = some name) :
    (Setting.all.find? fun other => variableName? other == some name) = some setting := by
  cases setting <;> cases h <;> decide

/-- Environments that differ in one variable agree but for its setting. -/
theorem Environment.agreesBut_of_variable
    (h : ∀ name, variableName? setting ≠ some name → env name = env' name) : env.AgreesBut setting env' := by
  intro other differs
  unfold raw
  cases hname : variableName? other with
  | none => rfl
  | some name =>
    refine h name fun named => differs ?_
    exact Option.some.inj ((find_variableName? hname).symm.trans (find_variableName? named))

/-- An environment in which one more variable is set differs in its setting alone. -/
theorem Environment.agreesBut_of_lookup {name : String} (named : variableName? setting = some name)
    (value : String) (held : List (String × String)) :
    AgreesBut setting (fun other => List.lookup other ((name, value) :: held))
      fun other => List.lookup other held := by
  refine agreesBut_of_variable fun other differs => ?_
  have aside : (other == name) = false := by
    simp only [beq_eq_false_iff_ne, ne_eq]
    rintro rfl
    exact differs named
  simp only [List.lookup_cons, aside]

/-- What is given for a setting goes before the environments' difference there. -/
theorem Environment.AgreesBut.orElse (h : env.AgreesBut setting env') {arguments : Arguments}
    (given : arguments setting ≠ none) : arguments.orElse env.given = arguments.orElse env'.given := by
  funext other
  by_cases same : other = setting
  · subst same
    obtain ⟨value, some⟩ := Option.ne_none_iff_exists'.1 given
    rw [Arguments.orElse_of_some some, Arguments.orElse_of_some some]
  · unfold Arguments.orElse
    rw [h.given same]

namespace Settings

theorem ofEnvironment_congr_of_readable (h : env.AgreesBut setting env') {overrides : Arguments}
    (given : overrides.present setting ≠ none) (readable : env.Readable) (readable' : env'.Readable) :
    ofEnvironment codecs env overrides = ofEnvironment codecs env' overrides := by
  rw [ofEnvironment_of_readable readable, ofEnvironment_of_readable readable', h.orElse given]

/-- Of environments with words for autocommit that differ, two give the same settings only if both words can
be read. -/
theorem readable_of_ofEnvironment_eq {overrides : Arguments}
    (same : ofEnvironment codecs env overrides = ofEnvironment codecs env' overrides)
    (differ : env.raw .autocommit ≠ env'.raw .autocommit) : env.Readable := by
  rcases env.readable_or with readable | ⟨word, held, unread⟩
  · exact readable
  rw [ofEnvironment_of_unreadable held unread] at same
  rcases env'.readable_or with readable' | ⟨word', held', unread'⟩
  · rw [ofEnvironment_of_readable readable', read] at same
    cases hr : ofArguments codecs (overrides.present.orElse env'.given) <;> rw [hr] at same <;> cases same
  · rw [ofEnvironment_of_unreadable held' unread'] at same
    cases same
    exact absurd (held.trans held'.symm) differ

end Settings

/-- Environments between which it makes no difference what they hold for a setting that an argument is given
for. That holds of all settings but autocommit, whose word is read all the same. -/
def Environment.Interchangeable (setting : Setting) (env env' : Environment) : Prop :=
  setting = .autocommit → env.raw .autocommit = env'.raw .autocommit ∨ env.Readable ∧ env'.Readable

theorem Settings.ofEnvironment_eq_iff (agree : env.AgreesBut setting env') {overrides : Arguments}
    (given : overrides.present setting ≠ none) :
    ofEnvironment codecs env overrides = ofEnvironment codecs env' overrides ↔ env.Interchangeable setting env' := by
  constructor
  · rintro same rfl
    by_cases differ : env.raw .autocommit = env'.raw .autocommit
    · exact .inl differ
    · exact .inr ⟨readable_of_ofEnvironment_eq same differ,
        readable_of_ofEnvironment_eq same.symm (Ne.symm differ)⟩
  · intro alike
    have word : env.raw .autocommit = env'.raw .autocommit ∨ env.Readable ∧ env'.Readable := by
      by_cases flag : setting = .autocommit
      · exact alike flag
      · exact .inl (agree .autocommit (Ne.symm flag))
    rcases word with held | ⟨readable, readable'⟩
    · rcases env.readable_or with readable | ⟨word, some, unread⟩
      · exact ofEnvironment_congr_of_readable agree given readable fun word some =>
          readable word (held.trans some)
      · rw [ofEnvironment_of_unreadable some unread,
          ofEnvironment_of_unreadable (held.symm.trans some) unread]
    · exact ofEnvironment_congr_of_readable agree given readable readable'

theorem Settings.forConnection_congr (agree : env.AgreesBut setting env')
    (alike : env.Interchangeable setting env') (given : Option Settings) {overrides : List (String × Value)}
    (named : (Arguments.ofPairs overrides).present setting ≠ none) :
    forConnection codecs env given overrides = forConnection codecs env' given overrides := by
  cases given with
  | none => exact (ofEnvironment_eq_iff agree named).2 alike
  | some settings => cases overrides <;> rfl

namespace CommandLine

variable {installed : Installation} {invocation : Invocation}

/-- An option goes before the difference of the environments. -/
theorem found_congr (agree : env.AgreesBut setting env') (optioned : invocation.overrides.present setting ≠ none) :
    found env invocation = found env' invocation := agree.orElse optioned

/-- Runs whose settings are found alike come to the same. -/
theorem alike_of_found_eq {arguments : List String} (link : Link)
    (same : ∀ invocation, Invocation.ofArguments arguments = .ok invocation →
      found env invocation = found env' invocation ∧
        settings installed env invocation = settings installed env' invocation) :
    Alike installed arguments env env' link := by
  refine alike_of_found fun invocation accepted => ?_
  obtain ⟨sameFound, sameSettings⟩ := same invocation accepted
  rw [sameFound, sameSettings]
  exact ⟨fun _ _ _ => rfl, .refl _⟩

end CommandLine

/-- **What is given for a setting shadows its variable.** Of two environments that agree but for one setting,
arguments with a value for that setting make the same settings, or the same fault. So do a session that is
opened with such a value and a run of the program with such an option: the run finds the same arguments, and
where a setting that has to be given is missing, it may quote them in another order. Only for autocommit the
word in the variable has to stand for a flag, or be the same in both: otherwise they differ. -/
theorem overrides_shadow_variable_iff (agree : env.AgreesBut setting env') :
    (∀ codecs (overrides : Arguments), overrides.present setting ≠ none →
      (Settings.ofEnvironment codecs env overrides = Settings.ofEnvironment codecs env' overrides ↔
        env.Interchangeable setting env')) ∧
    (env.Interchangeable setting env' →
      (∀ codecs given overrides handling link, (Arguments.ofPairs overrides).present setting ≠ none →
        Session.openOn codecs env given overrides handling link =
          Session.openOn codecs env' given overrides handling link) ∧
      ∀ installed arguments link,
        (∀ invocation, CommandLine.Invocation.ofArguments arguments = .ok invocation →
          invocation.overrides setting ≠ none) →
        CommandLine.Alike installed arguments env env' link ∧ env.listed.Perm env'.listed ∧
          ∀ invocation, CommandLine.Invocation.ofArguments arguments = .ok invocation →
            CommandLine.found env invocation = CommandLine.found env' invocation) := by
  refine ⟨fun codecs overrides given => Settings.ofEnvironment_eq_iff agree given, fun alike => ⟨?_, ?_⟩⟩
  · intro codecs given overrides handling link named
    unfold Session.openOn
    rw [Settings.forConnection_congr agree alike given named]
  · intro installed arguments link optioned
    have present (invocation : CommandLine.Invocation)
        (accepted : CommandLine.Invocation.ofArguments arguments = .ok invocation) :
        invocation.overrides.present setting ≠ none := by
      rw [CommandLine.Invocation.present_overrides accepted]
      exact optioned invocation accepted
    refine ⟨CommandLine.alike_of_found_eq link fun invocation accepted => ?_, env.listed_perm env', ?_⟩
    · have optioned := present invocation accepted
      exact ⟨CommandLine.found_congr agree optioned, (Settings.ofEnvironment_eq_iff agree optioned).2 alike⟩
    · exact fun invocation accepted => CommandLine.found_congr agree (present invocation accepted)

/-- A port that is no number does not matter to a run with an option for it. A word for autocommit that
stands for no flag matters although an argument is given. -/
theorem unreadable_word_is_not_shadowed :
    let base := [("PGWIRE_DATABASE", "d"), ("PGWIRE_USER", "u")]
    let env : Environment := fun name => base.lookup name
    let mistaken : Environment := fun name => (("PGWIRE_PORT", "x") :: base).lookup name
    let unread : Environment := fun name => (("PGWIRE_AUTOCOMMIT", "maybe") :: base).lookup name
    let overrides := Arguments.ofPairs [("autocommit", .flag false)]
    let codecs : Codecs := fun _ => none
    CommandLine.run {} ["-p", "5433", "q"] mistaken {} = CommandLine.run {} ["-p", "5433", "q"] env {} ∧
      Settings.ofEnvironment codecs unread overrides = .error (.autocommitWord "maybe") ∧
      Settings.ofEnvironment codecs unread overrides ≠ Settings.ofEnvironment codecs env overrides := by
  intro base env mistaken unread overrides codecs
  have port : mistaken.AgreesBut .port env := Environment.agreesBut_of_lookup rfl "x" base
  have word : unread.AgreesBut .autocommit env := Environment.agreesBut_of_lookup rfl "maybe" base
  refine ⟨?_, Settings.ofEnvironment_of_unreadable (by decide +kernel) (by decide +kernel) _, fun same => ?_⟩
  · have optioned : (CommandLine.Invocation.ofArguments ["-p", "5433", "q"]).toOption.map
        (fun invocation => invocation.overrides .port) = some (some (.integer 5433)) := by decide +kernel
    have valid : ((CommandLine.Invocation.ofArguments ["-p", "5433", "q"]).toOption.bind fun invocation =>
        (CommandLine.settings {} mistaken invocation).toOption).isSome = true := by decide +kernel
    have ⟨alike, _, _⟩ := ((overrides_shadow_variable_iff port).2 Setting.noConfusion).2 {}
      ["-p", "5433", "q"] {} fun invocation accepted none => by
        rw [accepted] at optioned
        cases none.symm.trans (Option.some.inj optioned)
    refine alike.run_eq ?_
    intro invocation lacks
    obtain ⟨all, refused⟩ := lacks.refused {}
    rw [lacks.accepted, Except.toOption, Option.bind_some, refused] at valid
    cases valid
  · have given : overrides.present .autocommit ≠ none := by decide +kernel
    rcases ((overrides_shadow_variable_iff word).1 codecs overrides given).1 same rfl with
      held | ⟨readable, -⟩
    · revert held
      decide +kernel
    · have flag := readable "maybe" (by decide +kernel)
      revert flag
      decide +kernel

end SimpleQuery
