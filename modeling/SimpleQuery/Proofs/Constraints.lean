import SimpleQuery.Proofs.Fields

/-!
# What settings keep to

Settings promise a port from 1 to 65535, names that are not empty, a timeout greater than zero if there is
one, and a charset that is found by its name. A timeout is refused if it is zero or less, and what is not a number is
neither that nor greater than zero: it passes, and it is all that passes against the promise.

* `Settings.Valid` — what is promised.
* `Settings.accepted_iff` — settings are accepted, from arguments or from the environment, exactly if they
  are sound.
* `accepted_iff_valid_or_nan` — in terms of the promise.
-/

set_option autoImplicit false

namespace SimpleQuery

/-- What settings promise. -/
structure Settings.Valid (codecs : Codecs) (settings : Settings) : Prop where
  port : 1 ≤ settings.port ∧ settings.port ≤ 65535
  database : settings.database ≠ ""
  user : settings.user ≠ ""
  connectTimeout : ∀ timeout, settings.connectTimeout = some timeout → timeout.isPositive = true
  encoding : settings.encoding.charset = NamedCharset.ofName codecs settings.encoding.name ∧
    settings.encoding.charset.isFound = true

namespace Settings

/-- Settings that come from some arguments, or from some environment. -/
def Accepted (codecs : Codecs) (settings : Settings) : Prop :=
  (∃ arguments, ofArguments codecs arguments = .ok settings) ∨
    ∃ env overrides, ofEnvironment codecs env overrides = .ok settings

/-- Whether there is a timeout that is not a number. -/
def timeoutIsNaN (settings : Settings) : Bool := settings.connectTimeout.any Binary64.isNaN

/-- The settings without a timeout. -/
def untimed (settings : Settings) : Settings := { settings with connectTimeout := none }

variable {codecs : Codecs} {settings : Settings}

/-- The environment gives no settings that arguments could not give. -/
theorem accepted_iff : settings.Accepted codecs ↔ settings.Sound codecs := by
  rw [← exists_ofArguments_iff]
  constructor
  · rintro (given | ⟨env, overrides, h⟩)
    · exact given
    · obtain ⟨arguments, -, h⟩ := exists_of_bind h
      exact ⟨_, mapError_ok_iff.1 h⟩
  · exact .inl

theorem Valid.sound (h : settings.Valid codecs) : settings.Sound codecs := by
  intro setting
  cases setting with
  | host | password | autocommit => trivial
  | port => exact h.port
  | database => exact h.database
  | user => exact h.user
  | connectTimeout =>
    intro timeout given
    exact ((Binary64.isPositive_iff timeout).1 (h.connectTimeout timeout given)).1
  | encoding => exact h.encoding

/-- Only what is not a number comes between what is checked and what is promised. -/
theorem valid_iff : settings.Valid codecs ↔ settings.Sound codecs ∧ settings.timeoutIsNaN = false := by
  constructor
  · intro h
    refine ⟨h.sound, ?_⟩
    unfold timeoutIsNaN
    cases given : settings.connectTimeout with
    | none => rfl
    | some timeout => exact ((Binary64.isPositive_iff timeout).1 (h.connectTimeout timeout given)).2
  · rintro ⟨h, number⟩
    refine ⟨h .port, h .database, h .user, fun timeout given => ?_, h .encoding⟩
    rw [timeoutIsNaN, given, Option.any_some] at number
    exact (Binary64.isPositive_iff timeout).2 ⟨h .connectTimeout timeout given, number⟩

theorem Sound.untimed (h : settings.Sound codecs) : settings.untimed.Sound codecs := by
  intro setting
  cases setting with
  | connectTimeout =>
    intro timeout given
    cases given
  | host | port | database | user | password | autocommit | encoding => exact h _

/-- What is not a number passes as a timeout. -/
theorem Valid.sound_of_nan (h : settings.untimed.Valid codecs)
    (nan : settings.timeoutIsNaN = true) : settings.Sound codecs := by
  intro setting
  cases setting with
  | connectTimeout =>
    intro timeout given
    have given : settings.connectTimeout = some timeout := given
    rw [timeoutIsNaN, given, Option.any_some] at nan
    simp [Binary64.isAtMostZero, nan]
  | host | port | database | user | password | autocommit | encoding => exact h.sound _

/-- A timeout that is not a number has been given as one. -/
theorem timeoutIsNaN_iff {arguments : Arguments} (h : ofArguments codecs arguments = .ok settings) :
    settings.timeoutIsNaN = true ↔
      ∃ given timeout, arguments .connectTimeout = some given ∧ given.real? = .ok timeout ∧
        timeout.isNaN = true := by
  have found : arguments.reading codecs .connectTimeout = .ok settings.connectTimeout :=
    ofArguments_ok_iff.1 h .connectTimeout
  unfold timeoutIsNaN
  rcases Arguments.reading_ok_iff.1 found with ⟨given, hgiven, read⟩ | ⟨hgiven, default⟩
  · rcases readTimeout_ok_iff.1 read with ⟨rfl, none⟩ | ⟨x, hx, -, some⟩
    · simp [none, hgiven, Value.real?]
    · simp [some, hgiven, hx]
  · have none : settings.connectTimeout = none := (Option.some.inj default).symm
    simp [none, hgiven]

end Settings

/-- **Accepted settings keep to what is promised, but for a timeout that is not a number.** The settings that
arguments give, or an environment and arguments that go before it, are exactly these: those that keep to
the promise, and those with a timeout that is not a number which keep to it in all else. Such a timeout is
there exactly if what is given for it is read as not a number. -/
theorem accepted_iff_valid_or_nan (codecs : Codecs) (settings : Settings) :
    (settings.Accepted codecs ↔
      settings.Valid codecs ∨ settings.timeoutIsNaN = true ∧ settings.untimed.Valid codecs) ∧
    ∀ arguments, Settings.ofArguments codecs arguments = .ok settings →
      (settings.Valid codecs ↔ ¬∃ given timeout, arguments .connectTimeout = some given ∧
        given.real? = .ok timeout ∧ timeout.isNaN = true) := by
  refine ⟨?_, fun arguments h => ?_⟩
  · rw [Settings.accepted_iff]
    constructor
    · intro sound
      by_cases nan : settings.timeoutIsNaN = true
      · exact .inr ⟨nan, Settings.valid_iff.2 ⟨sound.untimed, rfl⟩⟩
      · exact .inl (Settings.valid_iff.2 ⟨sound, by simpa using nan⟩)
    · rintro (valid | ⟨nan, valid⟩)
      · exact valid.sound
      · exact valid.sound_of_nan nan
  · have sound : settings.Sound codecs := Settings.exists_ofArguments_iff.1 ⟨arguments, h⟩
    rw [← Settings.timeoutIsNaN_iff h, Settings.valid_iff, Bool.not_eq_true]
    exact and_iff_right sound

/-- An environment with `nan` for the timeout gives settings that are against the promise. -/
theorem nan_timeout_is_accepted :
    let env : Environment := fun name => List.lookup name
      [("PGWIRE_DATABASE", "d"), ("PGWIRE_USER", "u"), ("PGWIRE_CONNECT_TIMEOUT", "nan")]
    let codecs : Codecs := fun _ => none
    ∃ settings, Settings.ofEnvironment codecs env (fun _ => none) = .ok settings ∧
      settings.timeoutIsNaN = true ∧ ¬settings.Valid codecs ∧ settings.untimed.Valid codecs := by
  intro env codecs
  have found : ((Settings.ofEnvironment codecs env fun _ => none).toOption.map Settings.timeoutIsNaN) =
      some true := by decide +kernel
  cases h : Settings.ofEnvironment codecs env fun _ => none with
  | error fault =>
    rw [h] at found
    cases found
  | ok settings =>
    rw [h] at found
    have nan : settings.timeoutIsNaN = true := Option.some.inj found
    refine ⟨settings, rfl, nan, fun valid => ?_, ?_⟩
    · cases nan.symm.trans (Settings.valid_iff.1 valid).2
    · rcases (accepted_iff_valid_or_nan codecs settings).1.1 (.inr ⟨env, _, h⟩) with valid | ⟨-, untimed⟩
      · cases nan.symm.trans (Settings.valid_iff.1 valid).2
      · exact untimed

end SimpleQuery
