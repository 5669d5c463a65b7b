import SimpleQuery.Settings.Environment

/-!
# Settings one by one

Arguments are read setting by setting, and the readings do not see one another. Here each setting has
what it holds, how it is read and what it may hold as functions of the setting, so that a fact about all
of them is one statement.

* `Settings.ofArguments_ok_iff`, `Settings.ofArguments_error_iff` — what arguments come to, in terms of
  the reading of each setting.
* `Settings.exists_ofArguments_iff` — which settings some arguments give: those of which each holds what
  it may.
* `Settings.Sound.ofArguments_toArguments` — such settings are read back as they are.
-/

set_option autoImplicit false

namespace SimpleQuery

/-- A result of two parts is a result of the second behind one of the first. -/
theorem exists_of_bind {ε α β : Type} {x : Except ε α} {next : α → Except ε β} {b : β}
    (h : x >>= next = .ok b) : ∃ a, x = .ok a ∧ next a = .ok b := by
  cases x with
  | error fault => cases h
  | ok a => exact ⟨a, rfl, h⟩

theorem mapError_ok_iff {ε ε' α : Type} {x : Except ε α} {f : ε → ε'} {a : α} :
    x.mapError f = .ok a ↔ x = .ok a := by
  constructor
  · intro h
    cases x with
    | error fault => cases h
    | ok b =>
      cases h
      rfl
  · rintro rfl
    rfl

namespace Setting

/-- The type of what a setting holds. -/
abbrev Content : Setting → Type
  | .host | .database | .user | .password => String
  | .port => Nat
  | .autocommit => Bool
  | .connectTimeout => Option Binary64
  | .encoding => Encoding

/-- What a setting holds if nothing is given for it. -/
def default? : (setting : Setting) → Option setting.Content
  | .host => some "localhost"
  | .port => some 5432
  | .database | .user => none
  | .password => some ""
  | .autocommit => some true
  | .connectTimeout => some none
  | .encoding => some {}

/-- How a value is read as the content of a setting. -/
def read (codecs : Codecs) : (setting : Setting) → Value → Except Objection setting.Content
  | .host | .password => Value.text?
  | .port => Settings.readPort
  | .database => Settings.readName .database
  | .user => Settings.readName .user
  | .autocommit => Value.flag?
  | .connectTimeout => Settings.readTimeout
  | .encoding => Settings.readEncoding codecs

/-- The value that stands for a content. -/
def value : (setting : Setting) → setting.Content → Value
  | .host | .database | .user | .password => .text
  | .port => fun n : Nat => .integer n
  | .autocommit => .flag
  | .connectTimeout => fun timeout : Option Binary64 => timeout.elim .null .real
  | .encoding => fun encoding : Encoding => .text encoding.name

/-- What a setting may hold. -/
def Admits (codecs : Codecs) : (setting : Setting) → setting.Content → Prop
  | .host | .password | .autocommit => fun _ => True
  | .port => fun n : Nat => 1 ≤ n ∧ n ≤ 65535
  | .database | .user => fun name : String => name ≠ ""
  | .connectTimeout => fun timeout : Option Binary64 =>
    ∀ x, timeout = some x → x.isAtMostZero = false
  | .encoding => fun encoding : Encoding =>
    encoding.charset = NamedCharset.ofName codecs encoding.name ∧ encoding.charset.isFound = true

end Setting

/-- What settings hold for one of them. -/
def Settings.content (settings : Settings) : (setting : Setting) → setting.Content
  | .host => settings.host
  | .port => settings.port
  | .database => settings.database
  | .user => settings.user
  | .password => settings.password
  | .autocommit => settings.autocommit
  | .connectTimeout => settings.connectTimeout
  | .encoding => settings.encoding

/-- Settings of which each holds what it may. -/
def Settings.Sound (codecs : Codecs) (settings : Settings) : Prop :=
  ∀ setting : Setting, setting.Admits codecs (settings.content setting)

theorem Settings.toArguments_eq (settings : Settings) (setting : Setting) :
    settings.toArguments setting = some (setting.value (settings.content setting)) := by
  cases setting with
  | connectTimeout =>
    simp only [toArguments, content]
    cases settings.connectTimeout <;> rfl
  | _ => rfl

/-! ## One value -/

/-- Whatever codecs there are, settings travel in UTF-8 where they name no charset. -/
theorem NamedCharset.ofName_utf8 (codecs : Codecs) : ofName codecs "utf-8" = .known .utf8 := by
  have plain : ("utf-8".toList.contains (Char.ofNat 0)) = false := by decide +kernel
  have named : Charset.named? "utf-8" = some .utf8 := by decide +kernel
  simp only [ofName, plain, named, Bool.false_eq_true, if_false]

variable {codecs : Codecs}

namespace Settings

variable {given : Value}

theorem readPort_ok_iff {port : Nat} :
    readPort given = .ok port ↔ given.integer? = .ok (port : Int) ∧ 1 ≤ port ∧ port ≤ 65535 := by
  constructor
  · intro h
    obtain ⟨n, hn, h⟩ := exists_of_bind h
    by_cases within : 1 ≤ n ∧ n ≤ 65535
    · rw [if_pos within] at h
      cases h
      rw [hn]
      exact ⟨congrArg Except.ok (by omega), by omega, by omega⟩
    · rw [if_neg within] at h
      cases h
  · rintro ⟨hn, least, most⟩
    have within : (1 : Int) ≤ port ∧ (port : Int) ≤ 65535 := by omega
    simp only [readPort, hn, bind, Except.bind, if_pos within]
    rfl

theorem readName_ok_iff {setting : Setting} {name : String} :
    readName setting given = .ok name ↔ given.text? = .ok name ∧ name ≠ "" := by
  constructor
  · intro h
    obtain ⟨text, htext, h⟩ := exists_of_bind h
    by_cases empty : text = ""
    · rw [if_pos empty] at h
      cases h
    · rw [if_neg empty] at h
      cases h
      exact ⟨htext, empty⟩
  · rintro ⟨htext, filled⟩
    simp only [readName, htext, bind, Except.bind, if_neg filled]
    rfl

theorem readTimeout_ok_iff {timeout : Option Binary64} :
    readTimeout given = .ok timeout ↔ given = .null ∧ timeout = none ∨
      ∃ x, given.real? = .ok x ∧ x.isAtMostZero = false ∧ timeout = some x := by
  by_cases null : given = .null
  · subst null
    constructor
    · intro h
      cases h
      exact .inl ⟨rfl, rfl⟩
    · rintro (⟨-, rfl⟩ | ⟨x, hx, -⟩)
      · rfl
      · cases hx
  have steps : readTimeout given = given.real? >>= fun x =>
      if x.isAtMostZero then throw (.timeoutNotPositive x) else pure (some x) := by
    cases given <;> first | rfl | contradiction
  rw [steps]
  constructor
  · intro h
    obtain ⟨x, hx, h⟩ := exists_of_bind h
    by_cases least : x.isAtMostZero = true
    · rw [if_pos least] at h
      cases h
    · rw [if_neg least] at h
      cases h
      exact .inr ⟨x, hx, by simpa using least, rfl⟩
  · rintro (⟨isNull, -⟩ | ⟨x, hx, least, rfl⟩)
    · exact absurd isNull null
    · simp only [hx, bind, Except.bind, least, Bool.false_eq_true, if_false]
      rfl

theorem readEncoding_ok_iff {encoding : Encoding} :
    readEncoding codecs given = .ok encoding ↔
      given.text? = .ok encoding.name ∧ encoding.charset = NamedCharset.ofName codecs encoding.name ∧
        encoding.charset.isFound = true := by
  constructor
  · intro h
    obtain ⟨text, htext, h⟩ := exists_of_bind h
    cases named : NamedCharset.ofName codecs text with
    | known charset | other codec =>
      rw [named] at h
      cases h
      exact ⟨htext, named.symm, rfl⟩
    | unknown | malformed =>
      rw [named] at h
      cases h
  · obtain ⟨name, charset⟩ := encoding
    rintro ⟨htext, named, found⟩
    simp only at htext named found
    rw [readEncoding, htext]
    cases charset with
    | known charset | other codec =>
      simp only [bind, Except.bind, ← named]
      rfl
    | unknown | malformed => cases found

end Settings

namespace Setting

theorem admits_of_read {setting : Setting} {given : Value} {content : setting.Content}
    (h : setting.read codecs given = .ok content) : setting.Admits codecs content := by
  cases setting with
  | host | password | autocommit => trivial
  | port => exact (Settings.readPort_ok_iff.1 h).2
  | database | user => exact (Settings.readName_ok_iff.1 h).2
  | connectTimeout =>
    intro timeout some
    rcases Settings.readTimeout_ok_iff.1 h with ⟨-, none⟩ | ⟨x, -, least, found⟩
    · cases some.symm.trans none
    · cases some.symm.trans found
      exact least
  | encoding => exact (Settings.readEncoding_ok_iff.1 h).2

/-- Every default is admitted. -/
theorem admits_of_default {setting : Setting} {content : setting.Content}
    (h : setting.default? = some content) : setting.Admits codecs content := by
  cases setting with
  | host | password | autocommit => trivial
  | port =>
    cases h
    exact ⟨by decide, by decide⟩
  | database | user => cases h
  | connectTimeout =>
    cases h
    intro x hx
    cases hx
  | encoding =>
    cases h
    exact ⟨(NamedCharset.ofName_utf8 codecs).symm, rfl⟩

/-- What a setting may hold is read back from the value that stands for it. -/
theorem read_value {setting : Setting} {content : setting.Content}
    (h : setting.Admits codecs content) : setting.read codecs (setting.value content) = .ok content := by
  cases setting with
  | host | password | autocommit => rfl
  | port => exact Settings.readPort_ok_iff.2 ⟨rfl, h⟩
  | database | user => exact Settings.readName_ok_iff.2 ⟨rfl, h⟩
  | connectTimeout =>
    refine Settings.readTimeout_ok_iff.2 ?_
    cases content with
    | none => exact .inl ⟨rfl, rfl⟩
    | some timeout => exact .inr ⟨timeout, rfl, h timeout rfl, rfl⟩
  | encoding => exact Settings.readEncoding_ok_iff.2 ⟨rfl, h⟩

end Setting

namespace Arguments

/-- What arguments give for a setting. -/
def reading (codecs : Codecs) (arguments : Arguments) (setting : Setting) :
    Except Complaint setting.Content :=
  Settings.readSetting arguments setting setting.default? (setting.read codecs)

/-- The complaints about arguments, in the order of the settings. -/
def complaints (codecs : Codecs) (arguments : Arguments) : List Complaint :=
  Setting.all.flatMap fun setting => Settings.complaint (arguments.reading codecs setting)

variable {a b : Arguments} {setting : Setting}

/-- A reading depends on nothing but what is given for its setting. -/
theorem reading_congr (h : a setting = b setting) : a.reading codecs setting = b.reading codecs setting := by
  unfold reading Settings.readSetting
  rw [h]

theorem reading_of_some {given : Value} (h : a setting = some given) :
    a.reading codecs setting = (setting.read codecs given).mapError fun objection => ⟨setting.name, objection⟩ := by
  unfold reading Settings.readSetting
  rw [h]

theorem reading_of_none (h : a setting = none) :
    a.reading codecs setting = setting.default?.elim (.error ⟨setting.name, .missing⟩) .ok := by
  unfold reading Settings.readSetting
  rw [h]
  cases setting.default? <;> rfl

/-- A setting is read from what is given for it, and holds its default where nothing is. -/
theorem reading_ok_iff {content : setting.Content} :
    a.reading codecs setting = .ok content ↔
      (∃ given, a setting = some given ∧ setting.read codecs given = .ok content) ∨
        a setting = none ∧ setting.default? = some content := by
  cases hgiven : a setting with
  | some given =>
    rw [reading_of_some hgiven, mapError_ok_iff]
    simp
  | none =>
    rw [reading_of_none hgiven]
    cases setting.default? <;> simp

/-- What is read for a setting is admitted. -/
theorem admits_of_reading {content : setting.Content} (h : a.reading codecs setting = .ok content) :
    setting.Admits codecs content := by
  rcases reading_ok_iff.1 h with ⟨given, -, read⟩ | ⟨-, default⟩
  · exact Setting.admits_of_read read
  · exact Setting.admits_of_default default

/-- A complaint names the setting that it is about. -/
theorem setting_of_reading {complaint : Complaint} (h : a.reading codecs setting = .error complaint) :
    complaint.setting = setting.name := by
  cases hgiven : a setting with
  | some given =>
    rw [reading_of_some hgiven] at h
    cases hread : setting.read codecs given with
    | ok content =>
      rw [hread] at h
      cases h
    | error objection =>
      rw [hread] at h
      cases h
      rfl
  | none =>
    rw [reading_of_none hgiven] at h
    cases hdefault : setting.default? with
    | some content =>
      rw [hdefault] at h
      cases h
    | none =>
      rw [hdefault] at h
      cases h
      rfl

end Arguments

namespace Settings

variable {arguments a b : Arguments} {settings : Settings}

/-! ## All settings -/

theorem complaint_eq_nil_iff {α : Type} {result : Except Complaint α} :
    complaint result = [] ↔ ∃ content, result = .ok content := by
  cases result <;> simp [complaint]

/-- There is nothing to complain about exactly if every setting can be read. -/
theorem complaints_eq_nil_iff :
    arguments.complaints codecs = [] ↔ ∀ setting, ∃ content, arguments.reading codecs setting = .ok content := by
  rw [Arguments.complaints, List.flatMap_eq_nil_iff]
  constructor
  · intro h setting
    exact complaint_eq_nil_iff.1 (h setting (by cases setting <;> decide))
  · intro h setting _
    exact complaint_eq_nil_iff.2 (h setting)

/-- Arguments give settings exactly if each is read as what they hold. -/
theorem ofArguments_ok_iff :
    ofArguments codecs arguments = .ok settings ↔
      ∀ setting, arguments.reading codecs setting = .ok (settings.content setting) := by
  unfold ofArguments
  constructor
  · intro h setting
    simp only at h
    split at h
    · cases h
      cases setting <;> assumption
    · cases h
  · intro h
    have host : readSetting arguments .host (some "localhost") Value.text? = .ok settings.host := h .host
    have port : readSetting arguments .port (some 5432) readPort = .ok settings.port := h .port
    have database : readSetting arguments .database none (readName .database) = .ok settings.database :=
      h .database
    have user : readSetting arguments .user none (readName .user) = .ok settings.user := h .user
    have password : readSetting arguments .password (some "") Value.text? = .ok settings.password :=
      h .password
    have autocommit : readSetting arguments .autocommit (some true) Value.flag? = .ok settings.autocommit :=
      h .autocommit
    have timeout : readSetting arguments .connectTimeout (some none) readTimeout =
      .ok settings.connectTimeout := h .connectTimeout
    have encoding : readSetting arguments .encoding (some {}) (readEncoding codecs) = .ok settings.encoding :=
      h .encoding
    simp only [host, port, database, user, password, autocommit, timeout, encoding]

/-- Settings are found exactly if there is nothing to complain about. -/
theorem complaints_eq_nil_iff_ofArguments :
    arguments.complaints codecs = [] ↔ ∃ settings, ofArguments codecs arguments = .ok settings := by
  rw [complaints_eq_nil_iff]
  constructor
  · intro h
    obtain ⟨host, hhost⟩ := h .host
    obtain ⟨port, hport⟩ := h .port
    obtain ⟨database, hdatabase⟩ := h .database
    obtain ⟨user, huser⟩ := h .user
    obtain ⟨password, hpassword⟩ := h .password
    obtain ⟨autocommit, hautocommit⟩ := h .autocommit
    obtain ⟨connectTimeout, htimeout⟩ := h .connectTimeout
    obtain ⟨encoding, hencoding⟩ := h .encoding
    refine ⟨⟨host, port, database, user, password, autocommit, connectTimeout, encoding⟩, ?_⟩
    rw [ofArguments_ok_iff]
    intro setting
    cases setting <;> assumption
  · intro ⟨settings, h⟩ setting
    exact ⟨_, ofArguments_ok_iff.1 h setting⟩

theorem eq_complaints_of_error {complaints : List Complaint}
    (h : ofArguments codecs arguments = .error complaints) : complaints = arguments.complaints codecs := by
  unfold ofArguments at h
  simp only at h
  split at h
  · cases h
  · cases h
    simp only [Arguments.complaints, Setting.all, List.flatMap_cons, List.flatMap_nil,
      List.append_assoc, List.append_nil]
    rfl

/-- Otherwise they come to all complaints about them, of which there are some. -/
theorem ofArguments_error_iff {complaints : List Complaint} :
    ofArguments codecs arguments = .error complaints ↔
      complaints = arguments.complaints codecs ∧ complaints ≠ [] := by
  constructor
  · intro h
    have all := eq_complaints_of_error h
    refine ⟨all, fun none => ?_⟩
    obtain ⟨settings, found⟩ := complaints_eq_nil_iff_ofArguments.1 (all.symm.trans none)
    rw [h] at found
    cases found
  · rintro ⟨rfl, some⟩
    cases h : ofArguments codecs arguments with
    | ok settings => exact absurd (complaints_eq_nil_iff_ofArguments.2 ⟨settings, h⟩) some
    | error complaints => rw [eq_complaints_of_error h]

/-- Arguments that are read alike come to the same. -/
theorem ofArguments_congr (h : ∀ setting, a.reading codecs setting = b.reading codecs setting) :
    ofArguments codecs a = ofArguments codecs b := by
  have complaints : a.complaints codecs = b.complaints codecs := by
    simp only [Arguments.complaints, h]
  cases ha : ofArguments codecs a with
  | ok settings =>
    rw [ofArguments_ok_iff] at ha
    refine (ofArguments_ok_iff.2 fun setting => ?_).symm
    rw [← h, ha]
  | error all =>
    rw [ofArguments_error_iff, complaints] at ha
    exact (ofArguments_error_iff.2 ha).symm

/-- Sound settings are given by the arguments that stand for them. -/
theorem Sound.ofArguments_toArguments (h : settings.Sound codecs) :
    ofArguments codecs settings.toArguments = .ok settings := by
  refine ofArguments_ok_iff.2 fun setting => Arguments.reading_ok_iff.2 (.inl ?_)
  exact ⟨_, settings.toArguments_eq setting, Setting.read_value (h setting)⟩

/-- No others are given by any arguments. -/
theorem exists_ofArguments_iff :
    (∃ arguments, ofArguments codecs arguments = .ok settings) ↔ settings.Sound codecs := by
  constructor
  · rintro ⟨arguments, h⟩ setting
    exact Arguments.admits_of_reading (ofArguments_ok_iff.1 h setting)
  · intro h
    exact ⟨_, h.ofArguments_toArguments⟩

end Settings

end SimpleQuery
