import SimpleQuery.CommandLine.Run
import SimpleQuery.Proofs.Variables

/-!
# The settings of an invocation

No option of the command line names a charset, and no variable does: an invocation runs in UTF-8. Of
autocommit it decides only that it is off.

* `Invocation.Kept.ofArguments` — what holds of the arguments of an invocation because every option keeps it.
* `Invocation.encoding_of_ofArguments` — options leave the charset open.
* `fields_of_settings` — what comes of both.
-/

set_option autoImplicit false

namespace SimpleQuery

namespace CommandLine

namespace Invocation

variable {invocation after : Invocation}

/-- The arguments with a value for the setting of an option. -/
def assign (opt : Opt) (given : Value) (arguments : Arguments) : Arguments := fun setting =>
  if opt.setting? == some setting then some given else arguments setting

/-- What holds of the arguments still holds when an option has given a value. -/
def Kept (holds : Arguments → Prop) : Prop :=
  ∀ opt text given arguments, value opt text = .ok given → holds arguments → holds (assign opt given arguments)

theorem arguments_withFlag {opt : Opt} (h : withFlag opt invocation = .ok after) :
    after.arguments = invocation.arguments := by
  cases opt <;> cases h <;> rfl

theorem arguments_withFlags {flags : List Opt}
    (h : flags.foldlM (fun i o => withFlag o i) invocation = .ok after) :
    after.arguments = invocation.arguments := by
  induction flags generalizing invocation with
  | nil =>
    cases h
    rfl
  | cons opt flags ih =>
    rw [List.foldlM_cons] at h
    cases ho : withFlag opt invocation with
    | error fault =>
      rw [ho] at h
      cases h
    | ok next =>
      rw [ho] at h
      exact (ih h).trans (arguments_withFlag ho)

theorem arguments_withOperands (run : List Token) :
    (invocation.withOperands run).arguments = invocation.arguments := by
  unfold withOperands
  simp only
  split <;> rfl

section Kept

variable {holds : Arguments → Prop} (kept : Kept holds)

include kept

theorem Kept.withValue {opt : Opt} {text : String} (h : withValue opt text invocation = .ok after)
    (before : holds invocation.arguments) : holds after.arguments := by
  unfold Invocation.withValue at h
  obtain ⟨given, hgiven, h⟩ := exists_of_bind h
  cases h
  exact kept opt text given _ hgiven before

theorem Kept.withOption {opt : Opt} {attached : Attached} {next : Option String} {taken : Bool}
    (h : withOption opt attached next invocation = .ok (after, taken))
    (before : holds invocation.arguments) : holds after.arguments := by
  unfold Invocation.withOption at h
  obtain ⟨unfolded, -, h⟩ := exists_of_bind h
  extract_lets last flags text at h
  by_cases missing : (takesValue last && text.isNone) = true
  · rw [if_pos missing] at h
    cases h
  rw [if_neg missing] at h
  obtain ⟨flagged, hflags, h⟩ := exists_of_bind h
  rw [← arguments_withFlags hflags] at before
  cases ht : text with
  | none =>
    rw [ht] at h
    cases h
    exact before
  | some given =>
    rw [ht] at h
    obtain ⟨valued, hvalue, h⟩ := exists_of_bind h
    cases h
    exact kept.withValue hvalue before

omit kept in
/-- The operands since the last option are taken in before the next. -/
theorem arguments_taken (run : List Token) :
    (if run.isEmpty then invocation else invocation.withOperands run).arguments =
      invocation.arguments := by
  split
  · rfl
  · exact arguments_withOperands run

theorem Kept.ofTokens (tokens run : List Token) (h : ofTokens invocation run tokens = .ok after)
    (before : holds invocation.arguments) : holds after.arguments := by
  fun_induction Invocation.ofTokens invocation run tokens with
  | case1 invocation run =>
    cases h
    rwa [arguments_taken]
  | case2 invocation run text rest ih | case3 invocation run rest ih => exact ih h before
  | case4 invocation run text rest next ih =>
    refine ih h ?_
    rwa [← arguments_taken run] at before
  -- The option may have taken the operand behind it, or not: the rest is read on in both cases.
  | case5 invocation run opt attached rest next ihTaken ih =>
    obtain ⟨⟨given, taken⟩, hoption, h⟩ := exists_of_bind h
    rw [← arguments_taken run] at before
    have later := kept.withOption hoption before
    cases taken with
    | true => exact ihTaken given h later
    | false => exact ih given h later

/-- What holds where nothing is given, and is kept by every value, holds of an invocation. -/
theorem Kept.ofArguments {arguments : List String} (h : ofArguments arguments = .ok after)
    (nothing : holds fun _ => none) : holds after.arguments := by
  unfold Invocation.ofArguments at h
  obtain ⟨tokens, -, h⟩ := exists_of_bind h
  obtain ⟨invocation, hi, h⟩ := exists_of_bind h
  have same : after = invocation := by
    by_cases unstated : invocation.statements.isNone = true
    · rw [if_pos unstated] at h
      cases h
    by_cases misplaced : (!invocation.extras.isEmpty) = true
    · rw [if_neg unstated, if_pos misplaced] at h
      cases h
    · rw [if_neg unstated, if_neg misplaced] at h
      cases h
      rfl
  rw [same]
  exact kept.ofTokens tokens [] hi nothing

end Kept

/-- No option names a charset. -/
theorem encoding_of_ofArguments {arguments : List String} (h : ofArguments arguments = .ok after) :
    after.arguments .encoding = none := by
  have kept : Kept fun arguments => arguments .encoding = none := by
    intro opt text given arguments _ before
    cases opt <;> exact before
  exact kept.ofArguments h rfl

theorem ne_null_of_value {opt : Opt} {text : String} {given : Value} (h : value opt text = .ok given) :
    given ≠ .null := by
  rintro rfl
  unfold value at h
  split at h
  · cases h
  · split at h
    · split at h <;> cases h
    · cases h

/-- No option gives null. -/
theorem ne_null_of_ofArguments {arguments : List String} (h : ofArguments arguments = .ok after)
    (setting : Setting) : after.arguments setting ≠ some .null := by
  have kept : Kept fun arguments => arguments setting ≠ some .null := by
    intro opt text given arguments hgiven before
    simp only [assign]
    split
    · exact fun null => ne_null_of_value hgiven (Option.some.inj null)
    · exact before
  exact kept.ofArguments h (Option.some_ne_none _).symm

end Invocation

end CommandLine

/-- The flag that the environment holds for autocommit, where it may be left out. -/
def Environment.autocommit (env : Environment) : Bool :=
  ((env.raw .autocommit).bind flag?).getD true

namespace CommandLine

/-- No option gives null, so every one that is given goes before the environment. -/
theorem Invocation.present_overrides {arguments : List String} {invocation : Invocation}
    (accepted : Invocation.ofArguments arguments = .ok invocation) :
    invocation.overrides.present = invocation.overrides := by
  refine Arguments.present_eq_self fun setting => ?_
  cases setting with
  | autocommit =>
    unfold overrides
    cases invocation.noAutocommit <;> simp
  | _ => exact ne_null_of_ofArguments accepted _

/-- An invocation runs in UTF-8, and with autocommit unless the flag or the environment turns it off. -/
theorem fields_of_settings {arguments : List String} {installed : Installation} {env : Environment}
    {invocation : Invocation} {settings : Settings}
    (accepted : Invocation.ofArguments arguments = .ok invocation)
    (valid : CommandLine.settings installed env invocation = .ok settings) :
    settings.encoding = {} ∧ settings.autocommit = (!invocation.noAutocommit && env.autocommit) := by
  rw [CommandLine.settings, Settings.ofEnvironment_ok_iff, Invocation.present_overrides accepted] at valid
  have read := Settings.ofArguments_ok_iff.1 valid.2
  have encoding := read .encoding
  have autocommit := read .autocommit
  constructor
  · have unnamed : invocation.overrides.orElse env.given .encoding = none :=
      Arguments.orElse_of_none (Invocation.encoding_of_ofArguments accepted)
    rw [Arguments.reading_of_none unnamed] at encoding
    exact (Except.ok.inj encoding).symm
  · unfold Environment.autocommit
    cases off : invocation.noAutocommit with
    | true =>
      have flagged : invocation.overrides.orElse env.given .autocommit = some (.flag false) :=
        Arguments.orElse_of_some (if_pos off)
      rw [Arguments.reading_of_some flagged] at autocommit
      exact (Except.ok.inj autocommit).symm
    | false =>
      have held : invocation.overrides.orElse env.given .autocommit =
          ((env.raw .autocommit).bind Environment.flag?).map .flag :=
        Arguments.orElse_of_none (if_neg (by simp [off]))
      cases hflag : (env.raw .autocommit).bind Environment.flag? with
      | none =>
        rw [hflag] at held
        rw [Arguments.reading_of_none held] at autocommit
        exact (Except.ok.inj autocommit).symm
      | some flag =>
        rw [hflag] at held
        rw [Arguments.reading_of_some held] at autocommit
        exact (Except.ok.inj autocommit).symm

end CommandLine

end SimpleQuery
