import SimpleQuery.Proofs.Precedence

/-!
# Settings from settings

Settings may be made from the environment and named values, or first from the environment alone and then
again from those settings and the named values. Both ways come to the same, because what a setting holds is
read back as it is, and what is given for one setting is read without regard to the others.

* `Settings.ofArguments_orElse` — arguments that stand for the same settings are the same behind others.
* `settings_rebuilt_alike` — the two ways.
-/

set_option autoImplicit false

namespace SimpleQuery

/-- What is given for a setting is one of the named values. -/
theorem Arguments.mem_of_ofPairs {pairs : List (String × Value)} {setting : Setting} {given : Value}
    (h : ofPairs pairs setting = some given) : ∃ pair ∈ pairs, pair.2 = given := by
  obtain ⟨pair, found, rfl⟩ := Option.map_eq_some_iff.1 h
  exact ⟨pair, List.mem_reverse.1 (List.mem_of_find?_eq_some found), rfl⟩

theorem Arguments.present_ofPairs {pairs : List (String × Value)} (h : ∀ pair ∈ pairs, pair.2 ≠ .null) :
    (ofPairs pairs).present = ofPairs pairs := by
  refine present_eq_self fun setting null => ?_
  obtain ⟨pair, member, isNull⟩ := mem_of_ofPairs null
  exact h pair member isNull

namespace Settings

variable {codecs : Codecs} {settings : Settings}

/-- Where others go first, arguments that stand for the same settings come to the same. -/
theorem ofArguments_orElse {a b : Arguments} (ha : ofArguments codecs a = .ok settings)
    (hb : ofArguments codecs b = .ok settings) (others : Arguments) :
    ofArguments codecs (others.orElse a) = ofArguments codecs (others.orElse b) := by
  refine ofArguments_congr fun setting => ?_
  cases given : others setting with
  | some value =>
    refine Arguments.reading_congr ?_
    rw [Arguments.orElse_of_some given, Arguments.orElse_of_some given]
  | none =>
    calc (others.orElse a).reading codecs setting
      _ = a.reading codecs setting := Arguments.reading_congr (Arguments.orElse_of_none given)
      _ = .ok (settings.content setting) := ofArguments_ok_iff.1 ha setting
      _ = b.reading codecs setting := (ofArguments_ok_iff.1 hb setting).symm
      _ = (others.orElse b).reading codecs setting :=
        (Arguments.reading_congr (Arguments.orElse_of_none given)).symm

/-- What an environment alone comes to. -/
theorem ofEnvironment_alone_iff {env : Environment} :
    ofEnvironment codecs env (fun _ => none) = .ok settings ↔
      env.Readable ∧ ofArguments codecs env.given = .ok settings :=
  ofEnvironment_ok_iff

/-- Settings that were accepted are accepted again as they are. -/
theorem ofArguments_toArguments {arguments : Arguments}
    (h : ofArguments codecs arguments = .ok settings) :
    ofArguments codecs settings.toArguments = .ok settings :=
  (exists_ofArguments_iff.1 ⟨arguments, h⟩).ofArguments_toArguments

end Settings

/-- **Settings are rebuilt alike.** Let an environment come to settings. Named values, valid or not and none
of them null, come to the same behind those settings as behind the environment: the same settings, or the
same complaints in the same order. So the sessions that are opened in the two ways are the same, with all
that happened on the link. With no named values the settings are made again as they are. -/
theorem settings_rebuilt_alike {codecs : Codecs} {env : Environment} {settings : Settings}
    (found : Settings.ofEnvironment codecs env (fun _ => none) = .ok settings)
    {overrides : List (String × Value)} (filled : ∀ pair ∈ overrides, pair.2 ≠ .null) :
    Settings.forConnection codecs env (some settings) overrides =
        Settings.forConnection codecs env none overrides ∧
      Settings.read codecs settings.toArguments = .ok settings ∧
      ∀ handling link, Session.openOn codecs env (some settings) overrides handling link =
        Session.openOn codecs env none overrides handling link := by
  obtain ⟨readable, given⟩ := Settings.ofEnvironment_alone_iff.1 found
  have again := Settings.ofArguments_toArguments given
  have same : Settings.forConnection codecs env (some settings) overrides =
      Settings.forConnection codecs env none overrides := by
    cases overrides with
    | nil => exact found.symm
    | cons pair rest =>
      show Settings.read codecs ((Arguments.ofPairs (pair :: rest)).orElse settings.toArguments) =
        Settings.ofEnvironment codecs env (Arguments.ofPairs (pair :: rest))
      rw [Settings.ofEnvironment_of_readable readable, Arguments.present_ofPairs filled, Settings.read,
        Settings.read, Settings.ofArguments_orElse again given]
  refine ⟨same, mapError_ok_iff.2 again, fun handling link => ?_⟩
  unfold Session.openOn
  rw [same]

/-- Of a timeout that is not a number and a port in digits with a plus, and of named values that are wrong. -/
theorem rebuilt_with_mistaken_values :
    let env : Environment := fun name => List.lookup name
      [("PGWIRE_DATABASE", "d"), ("PGWIRE_USER", "u"), ("PGWIRE_PORT", "+6_000"),
       ("PGWIRE_AUTOCOMMIT", "off"), ("PGWIRE_CONNECT_TIMEOUT", "nan")]
    let overrides := [("user", Value.text ""), ("port", .text "x")]
    let codecs : Codecs := fun _ => none
    ∃ settings, Settings.ofEnvironment codecs env (fun _ => none) = .ok settings ∧
      (∀ pair ∈ overrides, pair.2 ≠ .null) ∧
      Settings.forConnection codecs env none overrides =
        .error (.complaints [⟨"port", .notIntegerText⟩, ⟨"user", .emptyName .user⟩]) ∧
      Settings.forConnection codecs env (some settings) overrides =
        Settings.forConnection codecs env none overrides ∧
      Settings.read codecs settings.toArguments = .ok settings := by
  intro env overrides codecs
  have found : (Settings.ofEnvironment codecs env fun _ => none).toOption.map Settings.port =
      some 6000 := by decide +kernel
  have filled : ∀ pair ∈ overrides, pair.2 ≠ .null := by decide +kernel
  cases h : Settings.ofEnvironment codecs env fun _ => none with
  | error fault =>
    rw [h] at found
    cases found
  | ok settings =>
    obtain ⟨same, again, -⟩ := settings_rebuilt_alike h filled
    refine ⟨settings, rfl, filled, ?_, same, again⟩
    have readable := (Settings.ofEnvironment_alone_iff.1 h).1
    have complaints : Settings.ofArguments codecs ((Arguments.ofPairs overrides).present.orElse env.given) =
        .error [⟨"port", .notIntegerText⟩, ⟨"user", .emptyName .user⟩] :=
      Settings.ofArguments_error_iff.2 ⟨by decide +kernel, by decide +kernel⟩
    show Settings.ofEnvironment codecs env (Arguments.ofPairs overrides) = _
    rw [Settings.ofEnvironment_of_readable readable, Settings.read, complaints]
    rfl

end SimpleQuery
