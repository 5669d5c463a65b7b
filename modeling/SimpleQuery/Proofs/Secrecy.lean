import SimpleQuery.Proofs.Precedence
import SimpleQuery.Proofs.SideBySide

/-!
# Where the password shows

Settings carry a password, and what a client does in a session does not depend on it: not what it sends, logs
and asks the transport for, not what its operations come to, and not which faults there are. Settings that
differ in the password are shown alike, too, unless one of them has none.

A client is run twice, the second time with another password. Its sessions stay the same but for that, which
none of their primitives sees; and settings that are found from arguments differ in no more than the
arguments do. Only the text of a fault of the settings quotes all arguments where a setting is missing, and
the password stands among them.

* `Session.unseen_withPassword`, `Session.runAll_withPassword` — operations of a session, and runs of them.
* `Arguments.DifferInPassword`, `Session.openOn_withPassword` — settings that are found, and a session that
  is opened with them.
* `CommandLine.alike_of_agreesBut_password` — the program.
* `password_shows_only_where_setting_is_missing` — all of it.
-/

set_option autoImplicit false

namespace SimpleQuery

open Act (Respects Alike)

namespace Settings

variable {settings : Settings} {password : String}

/-- The settings with another password. -/
def withPassword (password : String) (settings : Settings) : Settings := { settings with password }

theorem content_withPassword {setting : Setting} (other : setting ≠ .password) :
    (settings.withPassword password).content setting = settings.content setting := by
  cases setting <;> first | rfl | contradiction

/-- What is shown instead of a password does not depend on it. -/
theorem masked_withPassword (filled : password ≠ "") :
    (settings.withPassword password).masked = settings.withPassword "***" := if_neg filled

end Settings

namespace Session

variable {password : String}

/-- The session with another password. -/
def withPassword (password : String) (session : Session) : Session :=
  { session with settings := session.settings.withPassword password }

/-- Two sessions of which the second has the given password and is the first in all else. -/
def Twins (password : String) (a b : Session) : Prop := b = a.withPassword password

/-! ## One operation -/

theorem greet_withPassword (stream : Stream) : Respects (Twins password) (greet stream) := by
  refine Respects.of_change fun session => ?_
  -- The handshake reads the names, the charset and autocommit.
  have same : handshake (session.withPassword password).settings (session.withPassword password).handling
      stream = handshake session.settings session.handling stream := rfl
  unfold greet
  rw [same]
  cases handshake session.settings session.handling stream with
  | ok _ t => rfl
  | error fault t => cases fault <;> rfl

theorem connect_withPassword : Respects (Twins password) connect := by
  rintro session _ rfl
  have greeted (stream : Stream) :
      Alike (Twins password) Eq (greet stream session) (greet stream (session.withPassword password)) :=
    greet_withPassword stream session _ rfl
  have phase : (session.withPassword password).phase = session.phase := rfl
  unfold connect
  rw [phase]
  cases session.phase with
  | «open» stream => exact .ok rfl rfl
  | broken stream => exact greeted _
  | fresh link =>
    have same : dial (session.withPassword password).settings
        (link.log (connecting (session.withPassword password).settings)) =
      dial session.settings (link.log (connecting session.settings)) := rfl
    simp only
    rw [same]
    cases dial session.settings (link.log (connecting session.settings)) with
    | ok stream => exact greeted stream
    | error failed => exact .error rfl

theorem onStream_withPassword {α : Type} (act : Act Stream α) : Respects (Twins password) (onStream act) := by
  refine Respects.of_change fun session => ?_
  have phase : (session.withPassword password).phase = session.phase := rfl
  unfold onStream
  rw [phase]
  cases session.phase with
  | fresh link | broken stream => rfl
  | «open» stream =>
    simp only
    cases act stream <;> rfl

theorem close_withPassword (session : Session) :
    (session.withPassword password).close = session.close.withPassword password := by
  have phase : (session.withPassword password).phase = session.phase := rfl
  unfold close
  rw [phase]
  cases session.phase <;> rfl

/-- Sessions do not see the password. -/
theorem unseen_withPassword : Unseen (Twins password) where
  connect := connect_withPassword
  requireOpen := onStream_withPassword _
  execute _ _ := onStream_withPassword _
  noteAutocommit _ := Respects.of_change fun _ => rfl
  handling := by
    rintro session _ rfl
    rfl
  autocommit := by
    rintro session _ rfl
    rfl
  isOpen := by
    rintro session _ rfl
    rfl
  property := by
    rintro name session _ rfl
    cases name <;> rfl
  describe := by
    rintro id session _ rfl
    rfl
  setReadOnly := by
    rintro readOnly session _ rfl
    rfl
  setCursorName := by
    rintro cursorName session _ rfl
    rfl
  close := by
    rintro session _ rfl
    exact close_withPassword session
  feed := by
    rintro more session _ rfl
    rfl

/-- **A run of a session does not observe the password**: step by step it comes to the same with another, and
leaves the same session but for that. -/
theorem runAll_withPassword (password : String) (steps : List Step) (session : Session) :
    runAll steps (session.withPassword password) =
      ((runAll steps session).1, (runAll steps session).2.withPassword password) := by
  have twins : Twins password session (session.withPassword password) := rfl
  obtain ⟨outcomes, states⟩ := unseen_withPassword.runAll steps twins
  exact Prod.ext outcomes.symm states

end Session

/-! ## Settings that are found -/

/-- Nothing, or a text: what may be given for the password. -/
def Value.Plain (given : Option Value) : Prop := ∀ value, given = some value → ∃ text, value = .text text

namespace Arguments

variable {codecs : Codecs} {a b c d : Arguments}

/-- Arguments that are the same for all settings but the password, for which each gives a text or nothing
where they differ. -/
structure DifferInPassword (a b : Arguments) : Prop where
  others : ∀ setting, setting ≠ .password → a setting = b setting
  password : a .password = b .password ∨ Value.Plain (a .password) ∧ Value.Plain (b .password)

theorem plain_orElse (ha : Value.Plain (a .password)) (hc : Value.Plain (c .password)) :
    Value.Plain (a.orElse c .password) := by
  cases given : a .password with
  | none => rwa [orElse_of_none given]
  | some value => rwa [orElse_of_some given, ← given]

theorem plain_present (h : Value.Plain (a .password)) : Value.Plain (a.present .password) := by
  intro value some
  exact h value (Option.filter_eq_some_iff.1 some).1

/-- There is nothing to complain about a text, nor about nothing. -/
theorem complaint_of_plain (h : Value.Plain (a .password)) :
    Settings.complaint (a.reading codecs .password) = [] := by
  refine Settings.complaint_eq_nil_iff.2 ?_
  cases given : a .password with
  | none => exact ⟨"", reading_ok_iff.2 (.inr ⟨given, rfl⟩)⟩
  | some value =>
    obtain ⟨text, rfl⟩ := h value given
    exact ⟨text, reading_ok_iff.2 (.inl ⟨_, given, rfl⟩)⟩

namespace DifferInPassword

theorem refl (a : Arguments) : a.DifferInPassword a := ⟨fun _ _ => rfl, .inl rfl⟩

theorem present (h : a.DifferInPassword b) : a.present.DifferInPassword b.present := by
  refine ⟨fun setting other => ?_, ?_⟩
  · unfold Arguments.present
    rw [h.others setting other]
  · rcases h.password with same | ⟨ha, hb⟩
    · refine .inl ?_
      unfold Arguments.present
      rw [same]
    · exact .inr ⟨plain_present ha, plain_present hb⟩

/-- What goes first may differ in the password, and what is behind it too. -/
theorem orElse (h : a.DifferInPassword b) (others : ∀ setting, setting ≠ .password → c setting = d setting)
    (hc : Value.Plain (c .password)) (hd : Value.Plain (d .password)) :
    (a.orElse c).DifferInPassword (b.orElse d) := by
  refine ⟨fun setting other => ?_, ?_⟩
  · unfold Arguments.orElse
    rw [h.others setting other, others setting other]
  -- Where neither gives a password, what is behind them may differ.
  rcases h.password with same | ⟨ha, hb⟩
  · cases given : a .password with
    | none =>
      rw [orElse_of_none given, orElse_of_none (same.symm.trans given)]
      exact .inr ⟨hc, hd⟩
    | some value =>
      rw [orElse_of_some given, orElse_of_some (same.symm.trans given)]
      exact .inl rfl
  · exact .inr ⟨plain_orElse ha hc, plain_orElse hb hd⟩

theorem complaint_eq (h : a.DifferInPassword b) (setting : Setting) :
    Settings.complaint (a.reading codecs setting) = Settings.complaint (b.reading codecs setting) := by
  by_cases other : setting = .password
  · subst other
    rcases h.password with same | ⟨ha, hb⟩
    · rw [reading_congr same]
    · rw [complaint_of_plain ha, complaint_of_plain hb]
  · rw [reading_congr (h.others setting other)]

/-- Whatever is complained about, such arguments give the same for it. -/
theorem complainAlike (h : a.DifferInPassword b) : a.ComplainAlike codecs b := by
  intro setting complaint refused
  by_cases other : setting = .password
  · subst other
    rcases h.password with same | ⟨plain, -⟩
    · exact same
    · obtain ⟨content, read⟩ := Settings.complaint_eq_nil_iff.1 (complaint_of_plain plain)
      cases read.symm.trans refused
  · exact h.others setting other

/-- Such arguments come to the same complaints, or to settings that differ in the password. -/
theorem read (h : a.DifferInPassword b) :
    ∃ password, Settings.read codecs b = (Settings.read codecs a).map (Settings.withPassword password) := by
  have complaints : a.complaints codecs = b.complaints codecs := by simp only [Arguments.complaints, h.complaint_eq]
  unfold Settings.read
  cases found : Settings.ofArguments codecs a with
  | error all =>
    rw [Settings.ofArguments_error_iff, complaints] at found
    refine ⟨"", ?_⟩
    rw [Settings.ofArguments_error_iff.2 found]
    rfl
  | ok settings =>
    have reading := Settings.ofArguments_ok_iff.1 found
    have silent := Settings.complaint_eq_nil_iff.2 ⟨_, reading .password⟩
    rw [h.complaint_eq] at silent
    obtain ⟨password, hpassword⟩ := Settings.complaint_eq_nil_iff.1 silent
    have again : Settings.ofArguments codecs b = .ok (settings.withPassword password) := by
      refine Settings.ofArguments_ok_iff.2 fun setting => ?_
      by_cases other : setting = .password
      · subst other
        exact hpassword
      · rw [← reading_congr (h.others setting other), reading, Settings.content_withPassword other]
    refine ⟨password, ?_⟩
    rw [again]
    rfl

end DifferInPassword

end Arguments

section Environments

variable {codecs : Codecs} {env env' : Environment}

theorem Environment.plain_given (env : Environment) : Value.Plain (env.given .password) := by
  intro value some
  obtain ⟨text, -, rfl⟩ := Option.map_eq_some_iff.1 some
  exact ⟨text, rfl⟩

namespace Settings

/-- The arguments that the settings of a new session are read from. -/
def sought (env : Environment) (given : Option Settings) (overrides : Arguments) : Arguments :=
  match given with
  | none => overrides.present.orElse env.given
  | some settings => overrides.orElse settings.toArguments

theorem plain_toArguments (settings : Settings) : Value.Plain (settings.toArguments .password) := by
  rintro _ ⟨⟩
  exact ⟨_, rfl⟩

theorem differInPassword_sought (agree : env.AgreesBut .password env') (given : Option Settings)
    {a b : Arguments} (h : a.DifferInPassword b) (password : String) :
    (sought env given a).DifferInPassword (sought env' (given.map (withPassword password)) b) := by
  cases given with
  | none => exact h.present.orElse (fun setting other => agree.given other) env.plain_given env'.plain_given
  | some settings =>
    refine h.orElse ?_ settings.plain_toArguments (settings.withPassword password).plain_toArguments
    intro setting other
    rw [toArguments_eq, toArguments_eq, content_withPassword other]

/-- Environments that differ in the password come to the same fault, or to settings that differ in it. -/
theorem ofEnvironment_withPassword (agree : env.AgreesBut .password env') {a b : Arguments}
    (h : a.DifferInPassword b) :
    ∃ password, ofEnvironment codecs env' b = (ofEnvironment codecs env a).map (withPassword password) := by
  rcases env.readable_or with readable | ⟨word, held, unread⟩
  · rw [ofEnvironment_of_readable readable,
      ofEnvironment_of_readable (agree.readable Setting.noConfusion readable)]
    exact (differInPassword_sought agree none h "").read
  · have held' := (agree .autocommit Setting.noConfusion).symm.trans held
    rw [ofEnvironment_of_unreadable held unread, ofEnvironment_of_unreadable held' unread]
    exact ⟨"", rfl⟩

theorem Sound.withPassword {settings : Settings} (h : settings.Sound codecs) (password : String) :
    (settings.withPassword password).Sound codecs := by
  intro setting
  by_cases other : setting = .password
  · subst other
    trivial
  · rw [content_withPassword other]
    exact h setting

/-- Settings that are given are as if they were read again behind the named values. -/
theorem Sound.forConnection_eq {settings : Settings} (h : settings.Sound codecs)
    (overrides : List (String × Value)) :
    forConnection codecs env (some settings) overrides =
      read codecs ((Arguments.ofPairs overrides).orElse settings.toArguments) := by
  cases overrides with
  | nil =>
    show Except.ok settings = read codecs settings.toArguments
    rw [read, h.ofArguments_toArguments]
    rfl
  | cons pair rest => rfl

/-- So does a new session for which settings are given that differ in the password, behind such named
values. -/
theorem forConnection_withPassword (agree : env.AgreesBut .password env') {given : Option Settings}
    (sound : ∀ settings, given = some settings → settings.Sound codecs)
    {overrides overrides' : List (String × Value)}
    (h : (Arguments.ofPairs overrides).DifferInPassword (Arguments.ofPairs overrides')) (password : String) :
    ∃ found, forConnection codecs env' (given.map (withPassword password)) overrides' =
      (forConnection codecs env given overrides).map (withPassword found) := by
  cases given with
  | none => exact ofEnvironment_withPassword agree h
  | some settings =>
    have accepted := sound settings rfl
    rw [Option.map_some, accepted.forConnection_eq, (accepted.withPassword password).forConnection_eq]
    exact (differInPassword_sought agree (some settings) h password).read

/-- What is complained about are the arguments that the settings are read from. -/
theorem complaints_of_forConnection {given : Option Settings} {overrides : List (String × Value)}
    {all : List Complaint} (h : forConnection codecs env given overrides = .error (.complaints all)) :
    all = (sought env given (Arguments.ofPairs overrides)).complaints codecs := by
  cases given with
  | none => exact (ofEnvironment_complaints_iff.1 h).2.1
  | some settings =>
    cases overrides with
    | nil => cases h
    | cons pair rest =>
      simp only [forConnection, read] at h
      cases found : ofArguments codecs ((Arguments.ofPairs (pair :: rest)).orElse settings.toArguments) with
      | ok _ =>
        rw [found] at h
        cases h
      | error complaints =>
        rw [found] at h
        cases h
        exact eq_complaints_of_error found

end Settings

/-! ## Sessions that are opened, and the program -/

/-- What comes of opening a session, with another password. -/
def Opening.withPassword (password : String) : Opening → Opening
  | .opened session => .opened (session.withPassword password)
  | .unsettled fault => .unsettled fault
  | .failed fault link => .failed fault link

theorem Session.openOn_withPassword (agree : env.AgreesBut .password env') {given : Option Settings}
    (sound : ∀ settings, given = some settings → settings.Sound codecs) {overrides overrides' : List (String × Value)}
    (h : (Arguments.ofPairs overrides).DifferInPassword (Arguments.ofPairs overrides')) (password : String)
    (handling : NoticeHandling) (link : Link) :
    ∃ found, openOn codecs env' (given.map (Settings.withPassword password)) overrides' handling link =
      (openOn codecs env given overrides handling link).withPassword found := by
  obtain ⟨found, same⟩ := Settings.forConnection_withPassword agree sound h password
  refine ⟨found, ?_⟩
  unfold openOn
  rw [same]
  cases Settings.forConnection codecs env given overrides with
  | error fault => rfl
  | ok settings =>
    have connected : connect { settings := settings.withPassword found, handling, phase := .fresh link } =
        Act.seen (withPassword found) (connect { settings, handling, phase := .fresh link }) :=
      connect_withPassword.change { settings, handling, phase := .fresh link }
    simp only [Except.map]
    rw [connected]
    cases connect { settings, handling, phase := .fresh link } <;> rfl

namespace CommandLine

theorem runStatements_withPassword (charset : NamedCharset) (password : String) (statements : List String)
    (session : Session) :
    runStatements charset statements (session.withPassword password) =
      ((runStatements charset statements session).1, (runStatements charset statements session).2.1,
        (runStatements charset statements session).2.2.withPassword password) := by
  induction statements generalizing session with
  | nil =>
    simp only [runStatements]
    rw [(Session.unseen_withPassword.setAutocommit true).change session, Act.outcome_seen, Act.state_seen]
  | cons statement rest ih =>
    have answered : Session.query statement (session.withPassword password) =
        Act.seen (Session.withPassword password) (Session.query statement session) :=
      (Session.unseen_withPassword.query statement).change session
    unfold runStatements
    rw [answered]
    cases Session.query statement session with
    | error fault after => rfl
    | ok bundle after =>
      simp only [Act.seen]
      cases bundle.lines charset with
      | error fault => rfl
      | ok lines => simp only [ih]

/-- What the program does in a session does not depend on the password. -/
theorem runSession_withPassword (settings : Settings) (password : String) (statements : List String)
    (link : Link) :
    runSession (settings.withPassword password) statements link = runSession settings statements link := by
  have connected : Session.connect { settings := settings.withPassword password, phase := .fresh link } =
      Act.seen (Session.withPassword password) (Session.connect { settings, phase := .fresh link }) :=
    Session.connect_withPassword.change { settings, phase := .fresh link }
  unfold runSession
  rw [connected]
  cases Session.connect { settings, phase := .fresh link } with
  | error fault session => rfl
  | ok _ session =>
    simp only [Act.seen, runStatements_withPassword, Session.close_withPassword]
    rfl

theorem alike_of_agreesBut_password (agree : env.AgreesBut .password env') (installed : Installation)
    (arguments : List String) (link : Link) : Alike installed arguments env env' link := by
  refine alike_of_found fun invocation _ => ?_
  have refl := Arguments.DifferInPassword.refl invocation.overrides
  refine ⟨(Settings.differInPassword_sought agree none refl "").complainAlike, ?_⟩
  obtain ⟨password, same⟩ := @Settings.ofEnvironment_withPassword installed.codecs _ _ agree _ _ refl
  unfold settings
  rw [same]
  cases Settings.ofEnvironment installed.codecs env invocation.overrides with
  | error fault => exact .refused fault
  | ok settings =>
    exact .found fun statements => (runSession_withPassword settings password statements link).symm

end CommandLine

/-- The texts of complaints about two lists of arguments differ only in what they quote of all arguments, and
only where a setting is missing. -/
def Complaint.ToldAlike (all : List Complaint) (a b : Arguments) : Prop :=
  ∀ hint listed listed',
    (SettingsFault.complaints all).text hint listed a = (SettingsFault.complaints all).text hint listed' b ↔
      (a.Lacking → Text.shortened (a.quoted listed) = Text.shortened (b.quoted listed'))

/-- What opening a session complains about differs in the password alone. -/
theorem Session.toldAlike_of_openOn (agree : env.AgreesBut .password env') {given : Option Settings}
    {overrides overrides' : List (String × Value)}
    (h : (Arguments.ofPairs overrides).DifferInPassword (Arguments.ofPairs overrides')) (password : String)
    {handling : NoticeHandling} {link : Link} {all : List Complaint}
    (unsettled : openOn codecs env given overrides handling link = .unsettled (.complaints all)) :
    Complaint.ToldAlike all (Settings.sought env given (Arguments.ofPairs overrides))
      (Settings.sought env' (given.map (Settings.withPassword password)) (Arguments.ofPairs overrides')) := by
  have refused : Settings.forConnection codecs env given overrides = .error (.complaints all) := by
    unfold openOn at unsettled
    cases found : Settings.forConnection codecs env given overrides with
    | error fault =>
      rw [found] at unsettled
      cases unsettled
      rfl
    | ok settings =>
      simp only [found] at unsettled
      split at unsettled <;> cases unsettled
  obtain rfl := Settings.complaints_of_forConnection refused
  exact SettingsFault.text_eq_iff (Settings.differInPassword_sought agree given h password).complainAlike

/-- **The password shows only where a setting is missing.** With two environments that differ in the password
alone the program does the same, up to the last log entry; only where a setting that has to be given is
missing, it tells what it was given, cut short, and the password may show in that. A session that is opened
with them, where settings and named values that go before them may differ in the password as well, fails in
the same way or is the same but for the password, and what is told of its settings shows no more; and so is a
session that is used with two passwords, in which every step comes to the same. Settings with two passwords
that are not empty are shown alike. -/
theorem password_shows_only_where_setting_is_missing (agree : env.AgreesBut .password env') :
    (∀ installed arguments link, CommandLine.Alike installed arguments env env' link) ∧
    (∀ codecs (given : Option Settings) (overrides overrides' : List (String × Value)) password handling link,
      (∀ settings, given = some settings → settings.Sound codecs) →
      (Arguments.ofPairs overrides).DifferInPassword (Arguments.ofPairs overrides') →
      (∃ found,
        Session.openOn codecs env' (given.map (Settings.withPassword password)) overrides' handling link =
          (Session.openOn codecs env given overrides handling link).withPassword found) ∧
      ∀ all, Session.openOn codecs env given overrides handling link = .unsettled (.complaints all) →
        Complaint.ToldAlike all (Settings.sought env given (Arguments.ofPairs overrides))
          (Settings.sought env' (given.map (Settings.withPassword password)) (Arguments.ofPairs overrides'))) ∧
    (∀ password steps session, Session.runAll steps (Session.withPassword password session) =
      ((Session.runAll steps session).1, (Session.runAll steps session).2.withPassword password)) ∧
    ∀ (settings : Settings) password password', password ≠ "" → password' ≠ "" →
      (settings.withPassword password).masked = (settings.withPassword password').masked := by
  refine ⟨CommandLine.alike_of_agreesBut_password agree, ?_, Session.runAll_withPassword, ?_⟩
  · intro codecs given overrides overrides' password handling link sound differ
    exact ⟨Session.openOn_withPassword agree sound differ password handling link,
      fun all unsettled => Session.toldAlike_of_openOn agree differ password unsettled⟩
  · intro settings password password' filled filled'
    rw [Settings.masked_withPassword filled, Settings.masked_withPassword filled']

end Environments

/-- Of a program without a database, which tells the password, and with one, which does not; and of a session
that is opened with settings that are given and a password that goes before theirs, or does not. -/
theorem password_shows_without_database :
    let env (password : String) : Environment := fun name => List.lookup name [("PGWIRE_PASSWORD", password)]
    let settings : Settings := { database := "d", user := "u" }
    let overrides := [("password", Value.text "pw")]
    let codecs : Codecs := fun _ => none
    let run arguments password := CommandLine.run {} arguments (env password) {}
    (run ["-U", "u", "select 1"] "hunter2").stderr ≠ (run ["-U", "u", "select 1"] "other").stderr ∧
      run ["-U", "u", "-d", "d", "q"] "hunter2" = run ["-U", "u", "-d", "d", "q"] "other" ∧
      (run ["-U", "u", "-d", "d", "q"] "other").stderr = "ConnectionError: Error reading from backend: EOF\n" ∧
      ∃ found, Session.openOn codecs (env "other") (some (settings.withPassword "hunter2")) [] .logged {} =
        (Session.openOn codecs (env "hunter2") (some settings) overrides .logged {}).withPassword found := by
  intro env settings overrides codecs run
  have agree : (env "hunter2").AgreesBut .password (env "other") := by
    refine Environment.agreesBut_of_variable fun name differs => ?_
    have aside : (name == "PGWIRE_PASSWORD") = false := beq_eq_false_iff_ne.2 fun same => differs (same ▸ rfl)
    simp only [env, List.lookup_cons, aside]
  have sound : settings.Sound codecs := by
    intro setting
    cases setting with
    | host | password | autocommit => trivial
    | port => exact ⟨by decide, by decide⟩
    | database => exact (by decide : "d" ≠ "")
    | user => exact (by decide : "u" ≠ "")
    | connectTimeout =>
      intro timeout some
      cases some
    | encoding => exact ⟨(NamedCharset.ofName_utf8 _).symm, rfl⟩
  have differ : (Arguments.ofPairs overrides).DifferInPassword (Arguments.ofPairs []) := by
    refine ⟨fun setting other => ?_, .inr ⟨?_, ?_⟩⟩
    · cases setting <;> first | contradiction | decide +kernel
    · intro value some
      have text : Arguments.ofPairs overrides .password = Option.some (.text "pw") := by decide +kernel
      exact ⟨"pw", Option.some.inj (some.symm.trans text)⟩
    · intro value some
      cases some
  obtain ⟨alike, opening, -, -⟩ := password_shows_only_where_setting_is_missing agree
  refine ⟨fun same => ?_, (alike _ _ _).run_eq fun invocation lacks => ?_, by decide +kernel, ?_⟩
  · have missing : (CommandLine.Invocation.ofArguments ["-U", "u", "select 1"]).toOption.map
        (fun invocation => CommandLine.found (env "hunter2") invocation .database) = some none := by decide +kernel
    have shows : (CommandLine.Invocation.ofArguments ["-U", "u", "select 1"]).toOption.map
        (fun invocation => CommandLine.shown (env "hunter2") invocation ==
          CommandLine.shown (env "other") invocation) = some false := by decide +kernel
    cases accepted : CommandLine.Invocation.ofArguments ["-U", "u", "select 1"] with
    | error fault =>
      rw [accepted] at missing
      cases missing
    | ok invocation =>
      rw [accepted] at missing shows
      have readable : (env "hunter2").Readable := by
        intro word held
        cases held
      have shown := (alike {} _ {}).told_iff.1 same invocation
        ⟨accepted, readable, .database, rfl, Option.some.inj missing⟩
      exact absurd shown (beq_eq_false_iff_ne.1 (Option.some.inj shows))
  · have given : (CommandLine.Invocation.ofArguments ["-U", "u", "-d", "d", "q"]).toOption.map
        (fun invocation => (CommandLine.found (env "hunter2") invocation .database,
          CommandLine.found (env "hunter2") invocation .user)) =
        some (some (.text "d"), some (.text "u")) := by decide +kernel
    rw [lacks.accepted] at given
    obtain ⟨database, user⟩ := Prod.mk.inj (Option.some.inj given)
    obtain ⟨setting, default, none⟩ := lacks.lacking
    cases setting with
    | database => cases none.symm.trans database
    | user => cases none.symm.trans user
    | host | port | password | autocommit | connectTimeout | encoding => cases default
  · refine (opening codecs (some settings) _ _ "hunter2" _ _ ?_ differ).1
    rintro _ ⟨⟩
    exact sound

end SimpleQuery
