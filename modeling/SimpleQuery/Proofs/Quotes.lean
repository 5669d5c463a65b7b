import Mathlib.Data.List.Basic
import SimpleQuery.Proofs.Invocation

/-!
# What a fault of the settings shows

A complaint quotes the value that it is about. Only a complaint about a setting that is missing quotes all
arguments, in the order in which they are listed; so where no setting is missing, neither that order nor a
value without a complaint shows. Where one is missing, what is quoted of the arguments is all that shows of
them.

* `Arguments.ComplainAlike.quotes_cases` — what a complaint quotes.
* `SettingsFault.text_eq_iff` — when the faults of two lists of arguments have the same text.
* `CommandLine.alike_of_found` — runs of the program whose settings come to the same.
-/

set_option autoImplicit false

namespace SimpleQuery

/-! ## Texts with gaps -/

/-- A text of given pieces, with one more text where a piece is left open. -/
def filled (gap : List Char) (pieces : List (Option (List Char))) : List Char :=
  pieces.flatMap (·.getD gap)

section Filled

variable {gap gap' : List Char} {pieces : List (Option (List Char))}

theorem length_filled (gap : List Char) (pieces : List (Option (List Char))) :
    (filled gap pieces).length = (filled [] pieces).length + pieces.count none * gap.length := by
  induction pieces with
  | nil => simp [filled]
  | cons piece pieces ih =>
    simp only [filled, List.flatMap_cons, List.length_append] at ih ⊢
    cases piece with
    | none => simp only [Option.getD_none, List.count_cons_self, List.length_nil, ih, Nat.add_mul]; omega
    | some text => simp only [Option.getD_some, ih, List.count_cons_of_ne (Option.some_ne_none text)]; omega

theorem eq_of_filled_eq (same : gap.length = gap'.length) (gapped : none ∈ pieces)
    (h : filled gap pieces = filled gap' pieces) : gap = gap' := by
  induction pieces with
  | nil => cases gapped
  | cons piece pieces ih =>
    simp only [filled, List.flatMap_cons] at h
    cases piece with
    | none => exact (List.append_inj h same).1
    | some text =>
      refine ih ?_ (List.append_cancel_left h)
      simpa using gapped

/-- Where a piece is left open, the text shows what is put there. -/
theorem filled_eq_iff (gapped : none ∈ pieces) : filled gap pieces = filled gap' pieces ↔ gap = gap' := by
  constructor
  · intro h
    have lengths := congrArg List.length h
    rw [length_filled, length_filled gap', Nat.add_left_cancel_iff] at lengths
    exact eq_of_filled_eq (Nat.eq_of_mul_eq_mul_left (List.count_pos_iff.2 gapped) lengths) gapped h
  · rintro rfl
    rfl

end Filled

/-! ## What complaints quote -/

/-- A setting that has to be given is not. -/
def Arguments.Lacking (arguments : Arguments) : Prop :=
  ∃ setting : Setting, setting.default? = none ∧ arguments setting = none

/-- A complaint is about the setting that it names. -/
theorem Complaint.about?_of_name {complaint : Complaint} {setting : Setting}
    (h : complaint.setting = setting.name) : complaint.about? = some setting := by
  unfold about?
  rw [h]
  cases setting <;> decide +kernel

section Arguments

variable {codecs : Codecs} {a b : Arguments} {complaint : Complaint} {listed listed' : List Setting}

theorem Arguments.exists_reading_of_mem (h : complaint ∈ a.complaints codecs) :
    ∃ setting : Setting, complaint.setting = setting.name ∧ a.reading codecs setting = .error complaint := by
  obtain ⟨setting, -, member⟩ := List.mem_flatMap.1 h
  cases reads : a.reading codecs setting with
  | ok content =>
    rw [reads] at member
    cases member
  | error other =>
    rw [reads] at member
    obtain rfl := List.mem_singleton.1 member
    exact ⟨setting, setting_of_reading reads, reads⟩

theorem Complaint.quotes_of_some {setting : Setting} {value : Value} (h : complaint.setting = setting.name)
    (given : a setting = some value) : complaint.quotes listed a = (value.quoted, value.typeName) := by
  simp only [quotes, about?_of_name h, Option.bind_some, given]

theorem Complaint.quotesAll_of_none {setting : Setting} (h : complaint.setting = setting.name)
    (given : a setting = none) : complaint.quotes listed a = (a.quoted listed, "dict") := by
  simp only [quotes, about?_of_name h, Option.bind_some, given]

/-- Where two lists of arguments give the same for whatever is complained about. -/
def Arguments.ComplainAlike (codecs : Codecs) (a b : Arguments) : Prop :=
  ∀ setting complaint, a.reading codecs setting = .error complaint → a setting = b setting

/-- A complaint that quotes all arguments. -/
def Complaint.QuotesAll (listed : List Setting) (arguments : Arguments) (complaint : Complaint) : Prop :=
  complaint.quotes listed arguments = (arguments.quoted listed, "dict")

namespace Arguments.ComplainAlike

/-- A complaint about a setting that is given quotes its value, and any other quotes all arguments. -/
theorem quotes_cases (alike : ComplainAlike codecs a b) (h : complaint ∈ a.complaints codecs)
    (listed listed' : List Setting) :
    (a.Lacking ∧ complaint.QuotesAll listed a ∧ complaint.QuotesAll listed' b) ∨
      complaint.quotes listed a = complaint.quotes listed' b := by
  obtain ⟨setting, named, reads⟩ := exists_reading_of_mem h
  have same := alike setting complaint reads
  cases given : a setting with
  | some value =>
    rw [given] at same
    exact .inr ((Complaint.quotes_of_some named given).trans (Complaint.quotes_of_some named same.symm).symm)
  | none =>
    rw [given] at same
    refine .inl ⟨⟨setting, ?_, given⟩, Complaint.quotesAll_of_none named given,
      Complaint.quotesAll_of_none named same.symm⟩
    rw [reading_of_none given] at reads
    cases default : setting.default? with
    | none => rfl
    | some content =>
      rw [default] at reads
      cases reads

/-- A setting that is missing is complained about, and there all arguments are quoted. -/
theorem exists_quotesAll (alike : ComplainAlike codecs a b) (lacking : a.Lacking)
    (listed listed' : List Setting) :
    ∃ complaint ∈ a.complaints codecs, complaint.QuotesAll listed a ∧ complaint.QuotesAll listed' b := by
  obtain ⟨setting, default, given⟩ := lacking
  have reads : a.reading codecs setting = .error ⟨setting.name, .missing⟩ := by
    rw [reading_of_none given, default]
    rfl
  refine ⟨⟨setting.name, .missing⟩, List.mem_flatMap.2 ⟨setting, ?_, ?_⟩, Complaint.quotesAll_of_none rfl given,
    Complaint.quotesAll_of_none rfl ((alike setting _ reads).symm.trans given)⟩
  · cases setting <;> decide
  · rw [reads]
    exact List.mem_singleton.2 rfl

end Arguments.ComplainAlike

/-- The lines of some complaints. -/
def complaintLines (hint : String → String) (listed : List Setting) (arguments : Arguments)
    (all : List Complaint) : List Char :=
  all.flatMap fun complaint => '\n' :: (complaint.text hint listed arguments).toList

/-- The lines about two lists of arguments, up to what they quote of all arguments. -/
theorem exists_pieces (hint : String → String) {all : List Complaint}
    (h : ∀ complaint ∈ all, (complaint.QuotesAll listed a ∧ complaint.QuotesAll listed' b) ∨
      complaint.quotes listed a = complaint.quotes listed' b) :
    ∃ pieces,
      complaintLines hint listed a all = filled (Text.shortened (a.quoted listed)).toList pieces ∧
      complaintLines hint listed' b all = filled (Text.shortened (b.quoted listed')).toList pieces ∧
      ((∃ complaint ∈ all, complaint.QuotesAll listed a ∧ complaint.QuotesAll listed' b) → none ∈ pieces) := by
  induction all with
  | nil =>
    refine ⟨[], rfl, rfl, ?_⟩
    rintro ⟨complaint, member, -⟩
    cases member
  | cons complaint all ih =>
    obtain ⟨pieces, first, second, gapped⟩ := ih fun c member => h c (List.mem_cons_of_mem _ member)
    simp only [complaintLines, List.flatMap_cons] at first second ⊢
    rw [first, second]
    by_cases both : complaint.QuotesAll listed a ∧ complaint.QuotesAll listed' b
    · let before := complaint.setting ++ "\n  " ++ complaint.objection.message ++ " [type=" ++
        complaint.objection.kind ++ ", input_value="
      let after := ", input_type=" ++ ("dict" ++ ("]" ++ hint complaint.objection.kind))
      have text {listed : List Setting} {c : Arguments} (h : complaint.QuotesAll listed c) :
          (complaint.text hint listed c).toList =
            before.toList ++ ((Text.shortened (c.quoted listed)).toList ++ after.toList) := by
        unfold Complaint.QuotesAll at h
        simp [Complaint.text, h, before, after]
      refine ⟨some ('\n' :: before.toList) :: none :: some after.toList :: pieces, ?_, ?_,
        fun _ => List.mem_cons_of_mem _ List.mem_cons_self⟩
      · simp [text both.1, filled]
      · simp [text both.2, filled]
    · have same := (h complaint List.mem_cons_self).resolve_left both
      refine ⟨some ('\n' :: (complaint.text hint listed a).toList) :: pieces, ?_, ?_, ?_⟩
      · simp [filled]
      · simp [filled, Complaint.text, same]
      · rintro ⟨other, member, quotes⟩
        rcases List.mem_cons.1 member with rfl | member
        · exact absurd quotes both
        · exact List.mem_cons_of_mem _ (gapped ⟨other, member, quotes⟩)

theorem Text.intercalate_newline_cons (text : List Char) (texts : List (List Char)) :
    ['\n'].intercalate (text :: texts) = text ++ texts.flatMap ('\n' :: ·) := by
  induction texts generalizing text with
  | nil => simp
  | cons next texts ih => rw [List.intercalate_cons_cons, ih]; simp

/-- The text of complaints is a headline and their lines. -/
theorem SettingsFault.toList_text (hint : String → String) (listed : List Setting) (arguments : Arguments)
    (all : List Complaint) :
    ((SettingsFault.complaints all).text hint listed arguments).toList =
      (SettingsFault.complaints all).headline.toList ++ complaintLines hint listed arguments all := by
  simp only [SettingsFault.text, String.toList_intercalate, List.map_cons, List.map_map]
  rw [show "\n".toList = ['\n'] from rfl, Text.intercalate_newline_cons, List.flatMap_map]
  rfl

/-- Complaints about two lists of arguments, which are the same for whatever is complained about, have the
same text; where a setting is missing, only if the same is quoted of all arguments. -/
theorem SettingsFault.text_eq_iff (alike : a.ComplainAlike codecs b) (hint : String → String)
    (listed listed' : List Setting) :
    (complaints (a.complaints codecs)).text hint listed a =
        (complaints (a.complaints codecs)).text hint listed' b ↔
      (a.Lacking → Text.shortened (a.quoted listed) = Text.shortened (b.quoted listed')) := by
  have quotes (complaint : Complaint) (member : complaint ∈ a.complaints codecs) :=
    alike.quotes_cases member listed listed'
  rw [← String.toList_inj, toList_text, toList_text, List.append_cancel_left_eq]
  by_cases lacking : a.Lacking
  · obtain ⟨pieces, first, second, gapped⟩ := exists_pieces hint fun complaint member =>
      (quotes complaint member).imp_left And.right
    rw [first, second, filled_eq_iff (gapped (alike.exists_quotesAll lacking listed listed')),
      String.toList_inj]
    exact ⟨fun same _ => same, fun same => same lacking⟩
  · refine ⟨fun _ given => absurd given lacking, fun _ => List.flatMap_congr fun complaint member => ?_⟩
    have same := (quotes complaint member).resolve_left fun both => lacking both.1
    simp only [Complaint.text, same]

end Arguments

/-- What an environment comes to complain about are all complaints about what it gives and what goes before
it. It does so where its word for autocommit can be read. -/
theorem Settings.ofEnvironment_complaints_iff {codecs : Codecs} {env : Environment} {overrides : Arguments}
    {all : List Complaint} :
    ofEnvironment codecs env overrides = .error (.complaints all) ↔
      env.Readable ∧ all = (overrides.present.orElse env.given).complaints codecs ∧ all ≠ [] := by
  rcases env.readable_or with readable | ⟨word, held, unread⟩
  · rw [ofEnvironment_of_readable readable, ← ofArguments_error_iff, and_iff_right readable, read]
    cases found : ofArguments codecs (overrides.present.orElse env.given) with
    | ok settings =>
      constructor <;>
      · intro h
        cases h
    | error complaints =>
      show Except.error _ = Except.error _ ↔ _
      rw [Except.error.injEq, Except.error.injEq, SettingsFault.complaints.injEq]
  · rw [ofEnvironment_of_unreadable held unread]
    constructor
    · intro h
      cases h
    · rintro ⟨readable, -⟩
      have some := readable word held
      rw [unread] at some
      cases some

/-- Environments list the same settings, each in its own order. -/
theorem Environment.listed_perm (env env' : Environment) : env.listed.Perm env'.listed := by
  have sorted (env : Environment) : env.listed.Perm searched := by
    have rest : (fun setting => (env.raw setting).isNone) = fun setting => !(env.raw setting).isSome := by
      funext setting
      cases env.raw setting <;> rfl
    unfold listed
    rw [rest]
    exact List.filter_append_perm _ _
  exact (sorted env).trans (sorted env').symm

namespace CommandLine

/-- The same ending, but for what is told about a fault. -/
def Ending.untold (ending : Ending) : Ending := { ending with stderr := "" }

theorem Ending.eq_of_untold {a b : Ending} (untold : a.untold = b.untold) (told : a.stderr = b.stderr) : a = b := by
  cases a
  cases b
  simp_all [Ending.untold]

/-- Some arguments are read as an invocation for which a setting that has to be given is missing. -/
structure Lacks (arguments : List String) (env : Environment) (invocation : Invocation) : Prop where
  accepted : Invocation.ofArguments arguments = .ok invocation
  readable : env.Readable
  lacking : (found env invocation).Lacking

/-- What is quoted of all arguments where one is missing. -/
def shown (env : Environment) (invocation : Invocation) : String :=
  Text.shortened ((found env invocation).quoted env.listed)

/-- Runs of the program in two environments that come to the same. Where a setting is missing, what they tell
shows what is quoted of all arguments, and nothing else that differs. -/
structure Alike (installed : Installation) (arguments : List String) (env env' : Environment) (link : Link) :
    Prop where
  untold : (run installed arguments env link).untold = (run installed arguments env' link).untold
  told_iff : (run installed arguments env link).stderr = (run installed arguments env' link).stderr ↔
    ∀ invocation, Lacks arguments env invocation → shown env invocation = shown env' invocation

/-- Two readings of settings that are refused alike, or under which sessions run alike. -/
inductive Equivalent (link : Link) : Except SettingsFault Settings → Except SettingsFault Settings → Prop where
  | refused (fault : SettingsFault) : Equivalent link (.error fault) (.error fault)
  | found {a b : Settings} (runs : ∀ statements, runSession a statements link = runSession b statements link) :
    Equivalent link (.ok a) (.ok b)

variable {installed : Installation} {env env' : Environment} {invocation : Invocation} {link : Link}

theorem Equivalent.refl (given : Except SettingsFault Settings) : Equivalent link given given := by
  cases given with
  | error fault => exact .refused fault
  | ok settings => exact .found fun _ => rfl

/-- The settings are refused then. -/
theorem Lacks.refused {arguments : List String} (lacks : Lacks arguments env invocation)
    (installed : Installation) : ∃ all, settings installed env invocation = .error (.complaints all) := by
  have alike : (found env invocation).ComplainAlike installed.codecs (found env invocation) :=
    fun _ _ _ => rfl
  obtain ⟨complaint, member, -⟩ := alike.exists_quotesAll lacks.lacking [] []
  exact ⟨_, Settings.ofEnvironment_complaints_iff.2 ⟨lacks.readable, rfl, List.ne_nil_of_mem member⟩⟩

/-- What is told about a fault of the settings. -/
theorem invalidLine_eq_iff {fault : SettingsFault}
    (alike : (found env invocation).ComplainAlike installed.codecs (found env' invocation))
    (refused : settings installed env invocation = .error fault) :
    invalidLine installed env invocation fault = invalidLine installed env' invocation fault ↔
      (env.Readable → (found env invocation).Lacking → shown env invocation = shown env' invocation) := by
  unfold invalidLine
  rw [String.append_left_inj, String.append_right_inj]
  cases fault with
  | autocommitWord raw =>
    refine ⟨fun _ readable => ?_, fun _ => rfl⟩
    rw [settings, Settings.ofEnvironment_of_readable readable, Settings.read] at refused
    cases given : Settings.ofArguments installed.codecs (invocation.overrides.present.orElse env.given) with
    | ok _ | error _ =>
      rw [given] at refused
      cases refused
  | complaints all =>
    obtain ⟨readable, rfl, -⟩ := Settings.ofEnvironment_complaints_iff.1 refused
    exact (SettingsFault.text_eq_iff alike installed.hint env.listed env'.listed).trans
      ⟨fun same _ => same, fun same => same readable⟩

/-- **Runs come to the same** where whatever is complained about is given alike and the settings come to the
same. -/
theorem alike_of_found {arguments : List String}
    (same : ∀ invocation, Invocation.ofArguments arguments = .ok invocation →
      (found env invocation).ComplainAlike installed.codecs (found env' invocation) ∧
        Equivalent link (settings installed env invocation) (settings installed env' invocation)) :
    Alike installed arguments env env' link := by
  cases accepted : Invocation.ofArguments arguments with
  | error fault =>
    have ends : run installed arguments env link = run installed arguments env' link := by
      unfold run
      rw [accepted]
      cases fault <;> rfl
    refine ⟨by rw [ends], ⟨?_, fun _ => by rw [ends]⟩⟩
    rintro - invocation lacks
    cases accepted.symm.trans lacks.accepted
  | ok invocation =>
    obtain ⟨alike, equivalent⟩ := same invocation accepted
    have ends (env : Environment) :
        run installed arguments env link = runInvocation installed env link invocation := by
      simp only [run, accepted]
    generalize given : settings installed env invocation = a at equivalent
    generalize given' : settings installed env' invocation = b at equivalent
    cases equivalent with
    | refused fault =>
      have refused := ends env
      have refused' := ends env'
      simp only [runInvocation, given] at refused
      simp only [runInvocation, given'] at refused'
      refine ⟨by simp only [refused, refused', Ending.untold], ?_⟩
      rw [refused, refused']
      refine (invalidLine_eq_iff alike given).trans ⟨?_, ?_⟩
      · rintro shows other ⟨accepted', readable, lacking⟩
        cases accepted.symm.trans accepted'
        exact shows readable lacking
      · intro shows readable lacking
        exact shows invocation ⟨accepted, readable, lacking⟩
    | found runs =>
      have same : run installed arguments env link = run installed arguments env' link := by
        simp only [ends, runInvocation, given, given', runs]
      refine ⟨by rw [same], ⟨?_, fun _ => by rw [same]⟩⟩
      rintro - other lacks
      cases accepted.symm.trans lacks.accepted
      obtain ⟨all, refused⟩ := lacks.refused installed
      cases given.symm.trans refused

/-- Runs that come to the same, with no setting missing, end alike. -/
theorem Alike.run_eq {arguments : List String} (alike : Alike installed arguments env env' link)
    (full : ∀ invocation, ¬Lacks arguments env invocation) :
    run installed arguments env link = run installed arguments env' link :=
  Ending.eq_of_untold alike.untold (alike.told_iff.2 fun invocation lacks => absurd lacks (full invocation))

end CommandLine

end SimpleQuery
