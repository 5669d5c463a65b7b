import SimpleQuery.Proofs.Fields

/-!
# Settings from variables

What an environment gives is read as any arguments are, once its word for autocommit has been read on its
own. A word that stands for no flag is a fault whatever else is given.

* `Settings.ofEnvironment_of_readable`, `Settings.ofEnvironment_of_unreadable` — the two cases.
* `Settings.ofEnvironment_ok_iff` — when there are settings.
-/

set_option autoImplicit false

namespace SimpleQuery

namespace Arguments

variable {arguments : Arguments} {setting : Setting}

/-- Arguments none of which is null are all present. -/
theorem present_eq_self (h : ∀ setting, arguments setting ≠ some .null) : arguments.present = arguments := by
  funext setting
  unfold present
  cases given : arguments setting with
  | none => rfl
  | some value =>
    have filled : value ≠ .null := fun null => h setting (null ▸ given)
    simp [Option.filter, filled]

theorem orElse_of_some {others : Arguments} {value : Value} (h : arguments setting = some value) :
    arguments.orElse others setting = some value := by
  unfold orElse
  rw [h]
  rfl

theorem orElse_of_none {others : Arguments} (h : arguments setting = none) :
    arguments.orElse others setting = others setting := by
  unfold orElse
  rw [h]
  rfl

end Arguments

namespace Environment

/-- The word for autocommit, if there is one, stands for a flag. -/
def Readable (env : Environment) : Prop :=
  ∀ word, env.raw .autocommit = some word → (flag? word).isSome = true

variable {env : Environment}

theorem readable_or (env : Environment) :
    env.Readable ∨ ∃ word, env.raw .autocommit = some word ∧ flag? word = none := by
  cases held : env.raw .autocommit with
  | none =>
    refine .inl fun word some => ?_
    cases held.symm.trans some
  | some word =>
    cases hflag : flag? word with
    | none => exact .inr ⟨word, rfl, hflag⟩
    | some autocommit =>
      refine .inl fun other some => ?_
      cases held.symm.trans some
      rw [hflag]
      rfl

theorem arguments_of_readable (h : env.Readable) : env.arguments = .ok env.given := by
  unfold Environment.arguments
  cases held : env.raw .autocommit with
  | none => rfl
  | some word => exact if_pos (h word held)

theorem arguments_of_unreadable {word : String} (held : env.raw .autocommit = some word)
    (unread : flag? word = none) : env.arguments = .error (.autocommitWord word) := by
  unfold Environment.arguments
  simp only [held, unread]
  exact if_neg (by decide)

end Environment

namespace Settings

variable {codecs : Codecs} {env : Environment} {overrides : Arguments} {settings : Settings}

theorem ofEnvironment_of_readable (h : env.Readable) (overrides : Arguments) :
    ofEnvironment codecs env overrides = read codecs (overrides.present.orElse env.given) := by
  unfold ofEnvironment
  rw [Environment.arguments_of_readable h]
  rfl

theorem ofEnvironment_of_unreadable {word : String} (held : env.raw .autocommit = some word)
    (unread : Environment.flag? word = none) (overrides : Arguments) :
    ofEnvironment codecs env overrides = .error (.autocommitWord word) := by
  unfold ofEnvironment
  rw [Environment.arguments_of_unreadable held unread]
  rfl

theorem ofEnvironment_ok_iff :
    ofEnvironment codecs env overrides = .ok settings ↔
      env.Readable ∧ ofArguments codecs (overrides.present.orElse env.given) = .ok settings := by
  rcases env.readable_or with readable | ⟨word, held, unread⟩
  · rw [ofEnvironment_of_readable readable, read, mapError_ok_iff]
    exact (and_iff_right readable).symm
  · rw [ofEnvironment_of_unreadable held unread]
    constructor
    · intro h
      cases h
    · rintro ⟨readable, -⟩
      have some := readable word held
      rw [unread] at some
      cases some

end Settings

end SimpleQuery
