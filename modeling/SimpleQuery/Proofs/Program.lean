import SimpleQuery.Proofs.Invocation
import SimpleQuery.Proofs.OwnFaults
import SimpleQuery.Proofs.Transactions
import SimpleQuery.Proofs.Written

/-!
# What a run of the program comes to

The program makes its calls one after another: it connects, runs each statement, and turns autocommit on
again, which ends the transaction. The first call that fails is the last, so that nothing is ended unless
every statement has succeeded.

* `Session.Course` — calls that are made in order until one fails.
* `CommandLine.shows_runSession` — a run of the program is one, and shows the results of those that succeed.
* `CommandLine.Spoke` — what the calls send: the texts of those that succeeded, and at most those of the
  next.
* `program_commits_all_or_nothing` — the code, the output and the messages of a run, and what is left.
-/

set_option autoImplicit false

namespace SimpleQuery

namespace Session

/-- Calls that are made in order until one fails: those that succeeded and what they answered, how it
ended, and the session that is left. -/
inductive Course :
    List Command → Session → List Command → List Answer → Except Fault Unit → Session → Prop where
  | finished (session : Session) : Course [] session [] [] (.ok ()) session
  | failed {call : Command} {rest : List Command} {session after : Session} {fault : Fault}
      (fails : perform call session = .error fault after) :
      Course (call :: rest) session [] [] (.error fault) after
  | answered {call : Command} {rest done : List Command} {session after last : Session}
      {answer : Answer} {answers : List Answer} {outcome : Except Fault Unit}
      (succeeds : perform call session = .ok answer after)
      (later : Course rest after done answers outcome last) :
      Course (call :: rest) session (call :: done) (answer :: answers) outcome last

namespace Course

variable {calls done done' : List Command} {session last last' : Session} {answers answers' : List Answer}
  {outcome outcome' : Except Fault Unit}

/-- All calls have succeeded where none has failed. -/
theorem outcome_ok_iff (h : Course calls session done answers outcome last) :
    outcome = .ok () ↔ done = calls := by
  induction h with
  | finished => simp
  | failed => simp
  | answered _ _ ih => simp [ih]

/-- Calls can be made in one way only. -/
theorem unique (h : Course calls session done answers outcome last)
    (h' : Course calls session done' answers' outcome' last') :
    done' = done ∧ answers' = answers ∧ outcome' = outcome ∧ last' = last := by
  induction h generalizing done' answers' outcome' last' with
  | finished =>
    cases h'
    exact ⟨rfl, rfl, rfl, rfl⟩
  | failed fails =>
    cases h' with
    | failed fails' =>
      cases fails.symm.trans fails'
      exact ⟨rfl, rfl, rfl, rfl⟩
    | answered succeeds' => cases fails.symm.trans succeeds'
  | answered succeeds _ ih =>
    cases h' with
    | failed fails' => cases succeeds.symm.trans fails'
    | answered succeeds' later' =>
      cases succeeds.symm.trans succeeds'
      obtain ⟨rfl, rfl, rfl, rfl⟩ := ih later'
      exact ⟨rfl, rfl, rfl, rfl⟩

/-- A run of calls succeeds exactly where all of them can be made. -/
theorem succeeds_iff (h : Course calls session done answers outcome last) :
    outcome = .ok () ↔ ∃ answers last, Course calls session calls answers (.ok ()) last := by
  constructor
  · rintro rfl
    obtain rfl := h.outcome_ok_iff.1 rfl
    exact ⟨answers, last, h⟩
  · rintro ⟨answers', last', whole⟩
    exact (h.unique whole).2.2.1.symm

theorem leads (h : Course calls session done answers outcome last) : session.Leads last := by
  induction h with
  | finished session => exact .refl session
  | @failed call _ session after _ fails =>
    have step := (Leads.refl session).tail call
    rwa [fails] at step
  | @answered call _ _ session after _ _ _ _ succeeds _ ih =>
    have step := (Leads.refl session).tail call
    rw [succeeds] at step
    exact step.trans ih

/-- Calls on a plain session, if they do not connect, give up only with a fault of the client's own. -/
theorem own (h : Course calls session done answers outcome last) (plain : session.Plain)
    (others : .connect ∉ calls) : ∀ fault, outcome = .error fault → fault.isOwn = true := by
  induction h with
  | finished =>
    intro fault hf
    cases hf
  | @failed call _ session _ cause fails =>
    intro fault hf
    cases hf
    have other : call ≠ .connect := fun same => others (same ▸ List.mem_cons_self)
    exact (owns_perform other session plain).2 cause (by rw [fails]; rfl)
  | @answered call _ _ session after _ _ _ _ succeeds _ ih =>
    have other : call ≠ .connect := fun same => others (same ▸ List.mem_cons_self)
    have kept := (owns_perform other session plain).1
    rw [succeeds] at kept
    exact ih kept fun member => others (List.mem_cons_of_mem _ member)

end Course

end Session

namespace CommandLine

open Session (Command Course)

/-! ## The calls of a run -/

/-- The calls for some statements in an open session. -/
def statementCalls (statements : List String) : List Command :=
  statements.map .query ++ [.setAutocommit true]

/-- All calls of a run. -/
def calls (statements : List String) : List Command := .connect :: statementCalls statements

/-- No call but the first connects. -/
theorem connect_notMem_statementCalls (statements : List String) : .connect ∉ statementCalls statements := by
  simp [statementCalls]

/-- The lines that an answer is shown as. -/
def shownLines (cs : Charset) : Answer → List String
  | .bundle bundle => bundle.written cs
  | _ => []

/-- A part of a run that shows some lines. -/
structure Shows (cs : Charset) (calls : List Command) (session : Session) (lines : List String)
    (outcome : Except Fault Unit) (last : Session) (done : List Command) (answers : List Answer) :
    Prop where
  course : Course calls session done answers outcome last
  lines : lines = answers.flatMap (shownLines cs)

theorem shows_runStatements (cs : Charset) (statements : List String) (session : Session) :
    let result := runStatements (.known cs) statements session
    ∃ done answers, Shows cs (statementCalls statements) session result.1 result.2.1 result.2.2 done
      answers := by
  induction statements generalizing session with
  | nil =>
    simp only [runStatements]
    cases hs : Session.setAutocommit true session with
    | error fault after =>
      have fails : Session.perform (.setAutocommit true) session = .error fault after :=
        Act.answered_error_iff.2 hs
      exact ⟨[], [], .failed fails, rfl⟩
    | ok _ after =>
      have succeeds : Session.perform (.setAutocommit true) session = .ok .done after :=
        Act.answered_ok_iff.2 ⟨(), hs, rfl⟩
      exact ⟨[.setAutocommit true], [.done], .answered succeeds (.finished after), rfl⟩
  | cons statement rest ih =>
    simp only [runStatements]
    cases hq : Session.query statement session with
    | error fault after =>
      have fails : Session.perform (.query statement) session = .error fault after :=
        Act.answered_error_iff.2 hq
      exact ⟨[], [], .failed fails, rfl⟩
    | ok bundle after =>
      have succeeds : Session.perform (.query statement) session = .ok (.bundle bundle) after :=
        Act.answered_ok_iff.2 ⟨bundle, hq, rfl⟩
      obtain ⟨done, answers, course, more⟩ := ih after
      simp only [Bundle.lines_known]
      refine ⟨.query statement :: done, .bundle bundle :: answers, .answered succeeds course, ?_⟩
      rw [more, List.flatMap_cons]
      rfl

/-! ## What the calls send -/

/-- The texts that a call asks for, with autocommit or without it. -/
def texts (autocommit : Bool) : Command → List String
  | .connect => " " :: if autocommit then [] else ["begin"]
  | .query statement => [statement]
  | .setAutocommit _ => if autocommit then [] else ["end"]
  | _ => []

/-- Between two sessions the texts of some calls were asked for, and at most those of the next besides. -/
def Spoke (autocommit : Bool) (calls done : List Command) (session last : Session) : Prop :=
  ∃ payloads said, last.phase.link.sent = session.phase.link.sent ++ payloads ∧
    Query.Asking session.charset said payloads ∧ done.flatMap (texts autocommit) <+: said ∧
      said <+: (calls.take (done.length + 1)).flatMap (texts autocommit)

namespace Spoke

variable {autocommit : Bool} {call : Command} {rest done : List Command} {session after last : Session}

theorem finished (session : Session) : Spoke autocommit [] [] session session :=
  ⟨[], [], (List.append_nil _).symm, .nil, List.nil_prefix, List.nil_prefix⟩

theorem failed {fault : Fault}
    (said : Session.Said (texts autocommit call) session (.error fault after : EStateM.Result _ _ Answer)) :
    Spoke autocommit (call :: rest) [] session after := by
  obtain ⟨payloads, sent, some, first, -, asking⟩ := said.asked
  refine ⟨payloads, some, sent, asking, List.nil_prefix, ?_⟩
  rwa [List.length_nil, List.take_succ_cons, List.take_zero, List.flatMap_singleton]

theorem answered {answer : Answer}
    (said : Session.Said (texts autocommit call) session (.ok answer after : EStateM.Result _ _ Answer))
    (later : Spoke autocommit rest done after last) :
    Spoke autocommit (call :: rest) (call :: done) session last := by
  obtain ⟨payloads, sent, all, -, succeeded, asking⟩ := said.asked
  obtain rfl := succeeded ⟨answer, rfl⟩
  obtain ⟨payloads', said', sent', asking', least, most⟩ := later
  rw [show after.charset = session.charset from said.charset] at asking'
  refine ⟨payloads ++ payloads', texts autocommit call ++ said', ?_, asking.append asking', ?_, ?_⟩
  · rw [sent', show after.phase.link.sent = _ from sent, List.append_assoc]
  · rw [List.flatMap_cons]
    exact (List.prefix_append_right_inj _).2 least
  · rw [List.length_cons, List.take_succ_cons, List.flatMap_cons]
    exact (List.prefix_append_right_inj _).2 most

end Spoke

/-- Running a statement leaves autocommit as it is. -/
theorem autocommit_of_query {statement : String} {session after : Session} {answer : Answer}
    (h : Session.perform (.query statement) session = .ok answer after) :
    after.autocommit = session.autocommit := by
  obtain ⟨bundle, hq, -⟩ := Act.answered_ok_iff.1 h
  have settles := Session.settles_query statement session
  rw [hq] at settles
  exact settles.autocommit

/-- What the statements of a run send in an open session. -/
theorem spoke_statements {statements : List String} {session last : Session} {done : List Command}
    {answers : List Answer} {outcome : Except Fault Unit} (tidy : session.Tidy)
    (h : Course (statementCalls statements) session done answers outcome last) :
    Spoke session.autocommit (statementCalls statements) done session last := by
  -- A statement leaves autocommit as it is, so that what the last call asks for is known from the start.
  induction statements generalizing session done answers with
  | nil =>
    have other : Command.setAutocommit true ≠ .connect := by simp
    have said : Session.Said (texts session.autocommit (.setAutocommit true)) session
        (Session.perform (.setAutocommit true) session) := Session.said_perform other tidy
    cases h with
    | failed fails =>
      rw [fails] at said
      exact .failed said
    | answered succeeds later =>
      rw [succeeds] at said
      cases later
      exact .answered said (.finished last)
  | cons statement rest ih =>
    have other : Command.query statement ≠ .connect := by simp
    have said : Session.Said (texts session.autocommit (.query statement)) session
        (Session.perform (.query statement) session) := Session.said_perform other tidy
    cases h with
    | failed fails =>
      rw [fails] at said
      exact .failed said
    | @answered _ _ _ _ after _ _ _ _ succeeds later =>
      rw [succeeds] at said
      have spoke := ih (show after.Tidy from said.tidy) later
      rw [autocommit_of_query succeeds] at spoke
      exact .answered said spoke

/-! ## A whole run -/

/-- The session of a run, before it is connected. -/
def newSession (settings : Settings) (link : Link) : Session := { settings, phase := .fresh link }

theorem shows_runSession {settings : Settings} {cs : Charset}
    (hcs : settings.encoding.charset = .known cs) (statements : List String) (link : Link) :
    let result := runSession settings statements link
    ∃ done answers last,
      Shows cs (calls statements) (newSession settings link) result.1 result.2.1 last done answers ∧
        result.2.2 = (if done = [] then last else last.close).phase.link := by
  unfold runSession
  cases hc : Session.connect (newSession settings link) with
  | error fault after =>
    have fails : Session.perform .connect (newSession settings link) = .error fault after :=
      Act.answered_error_iff.2 hc
    rw [newSession] at hc
    simp only [hc]
    exact ⟨[], [], after, ⟨.failed fails, rfl⟩, rfl⟩
  | ok _ after =>
    have succeeds : Session.perform .connect (newSession settings link) = .ok .done after :=
      Act.answered_ok_iff.2 ⟨(), hc, rfl⟩
    rw [newSession] at hc
    simp only [hc, hcs]
    obtain ⟨done, answers, course, lines⟩ := shows_runStatements cs statements after
    refine ⟨.connect :: done, .done :: answers, _, ⟨.answered succeeds course, ?_⟩, ?_⟩
    · rw [lines, List.flatMap_cons]
      rfl
    · rw [if_neg (List.cons_ne_nil _ _)]

theorem unused_newSession (settings : Settings) {link : Link} (untouched : link.journal = [])
    (isUp : link.hungUp = false) : (newSession settings link).Unused :=
  ⟨rfl, untouched, isUp, rfl, fun s hs => by cases hs⟩

/-- Connecting has opened the session, with the autocommit of its settings. -/
theorem opened_of_connect {session after : Session} {answer : Answer} (start : session.Unused)
    (h : Session.perform .connect session = .ok answer after) :
    after.isOpen = true ∧ after.autocommit = session.settings.autocommit ∧
      Act.state (Session.connect session) = after := by
  obtain ⟨_, hc, -⟩ := Act.answered_ok_iff.1 h
  obtain ⟨packet, s, t, u, opens⟩ := Session.opens_of_connect start.tidy start.notOpen hc
  obtain ⟨entry, left⟩ := opens.left
  refine ⟨?_, ?_, by rw [hc]; rfl⟩
  · rw [left]
    rfl
  · rw [left, start.autocommit]
    exact Bool.and_true _

/-- A run sends the startup packet, and behind it the texts of the calls that succeeded, and at most those
of the next. -/
theorem spoke_run {statements : List String} {session last : Session} {done : List Command}
    {answers : List Answer} {outcome : Except Fault Unit} (start : session.Unused)
    (h : Course (calls statements) session done answers outcome last) :
    ∃ packets payloads said, last.phase.link.sent = packets ++ payloads ∧
      (packets = [] ∧ payloads = [] ∧ done = [] ∨
        ∃ packet, Startup.packetOf session.settings = .ok packet ∧ packets = [packet]) ∧
      Query.Asking session.charset said payloads ∧
      done.flatMap (texts session.settings.autocommit) <+: said ∧
      said <+: ((calls statements).take (done.length + 1)).flatMap (texts session.settings.autocommit) := by
  obtain ⟨packets, payloads, starts⟩ := Session.starts_connect start.tidy start.notOpen
  have sent := starts.sent
  rw [start.sent, List.nil_append] at sent
  cases h with
  | @failed _ _ _ _ fault fails =>
    have state := Session.state_perform_connect session
    rw [fails, Act.state_error] at state
    rw [← state] at sent
    obtain ⟨said, first, -, asking⟩ := starts.asked
    refine ⟨packets, payloads, said, sent, ?_, asking, List.nil_prefix, ?_⟩
    · rcases starts.packed with ⟨none, silent⟩ | packed
      · exact .inl ⟨none, silent, rfl⟩
      · exact .inr packed
    · rw [List.length_nil, calls, List.take_succ_cons, List.take_zero, List.flatMap_singleton]
      exact first
  | @answered _ _ done _ after _ _ _ _ succeeds later =>
    obtain ⟨isOpen, autocommit, state⟩ := opened_of_connect start succeeds
    rw [state] at starts sent
    obtain ⟨packed, asking⟩ := starts.of_open isOpen
    obtain ⟨payloads', said, sent', asking', least, most⟩ := spoke_statements starts.tidy later
    rw [autocommit] at least most
    rw [starts.charset] at asking'
    refine ⟨packets, payloads ++ payloads', texts session.settings.autocommit .connect ++ said, ?_,
      .inr packed, asking.append asking', ?_, ?_⟩
    · rw [sent', sent, List.append_assoc]
    · rw [List.flatMap_cons]
      exact (List.prefix_append_right_inj _).2 least
    · rw [List.length_cons, calls, List.take_succ_cons, List.flatMap_cons]
      exact (List.prefix_append_right_inj _).2 most

/-- A session that has had a stream has one. -/
theorem stream_of_passes {p q : Phase} {s : Stream} (h : p.Passes q) (hs : p.stream? = some s) :
    ∃ t, q.stream? = some t := by
  cases h with
  | waits | dials => cases hs
  | rests | opens | works | breaks => exact ⟨_, rfl⟩

/-- A run gives up only with a fault of the client's own, unless it cannot attempt to connect. -/
theorem own_run {statements : List String} {session last : Session} {done : List Command}
    {answers : List Answer} {outcome : Except Fault Unit} (start : session.Unused) (plain : session.Plain)
    (h : Course (calls statements) session done answers outcome last) {fault : Fault}
    (failed : outcome = .error fault) :
    fault.isOwn = true ∨ ∃ cause, session.unreached = some (.foreign cause) ∧ fault = .foreign cause := by
  cases h with
  | @failed _ _ _ _ cause fails =>
    cases failed
    exact Session.own_of_connect plain (Act.answered_error_iff.1 fails)
  | @answered _ _ _ _ after _ _ _ _ succeeds later =>
    have kept := Session.plain_connect plain
    rw [(opened_of_connect start succeeds).2.2] at kept
    exact .inl (later.own kept (connect_notMem_statementCalls statements) fault failed)

/-- The transport that a run reached is closed behind it. -/
theorem hungUp_run {statements : List String} {session last : Session} {done : List Command}
    {answers : List Answer} {outcome : Except Fault Unit} (start : session.Unused)
    (plain : session.Plain) (reached : session.unreached = none)
    (h : Course (calls statements) session done answers outcome last) :
    (if done = [] then last else last.close).phase.link.hungUp = true := by
  -- A failed attempt to connect has closed its stream itself; any other run leaves that to the end.
  have own {fault : Fault} (failed : outcome = .error fault) : fault.isOwn = true := by
    refine (own_run start plain h failed).resolve_right ?_
    rintro ⟨cause, unreached, -⟩
    cases reached.symm.trans unreached
  have leads := h.leads
  cases h with
  | @failed _ _ _ _ fault fails =>
    have connects : Session.connect session = .error fault last := Act.answered_error_iff.1 fails
    obtain ⟨-, -, closed⟩ := Session.closed_of_own start.tidy connects (own rfl)
    obtain ⟨t, ht, hclosed⟩ := closed reached
    have standing := leads.standing start.new
    rw [if_pos rfl, ht]
    rw [ht] at standing
    exact standing.hungUp.trans hclosed
  | @answered _ _ done _ after _ _ _ _ succeeds later =>
    obtain ⟨isOpen, -, -⟩ := opened_of_connect start succeeds
    obtain ⟨s, hs⟩ := Session.open_of_isOpen isOpen
    have passes : Phase.Passes (.open s) last.phase := hs ▸ later.leads.passes
    obtain ⟨t, ht⟩ := stream_of_passes passes rfl
    have standing := (leads.tail .close).standing start.new
    rw [if_neg (List.cons_ne_nil _ _)]
    rcases Session.close_cases last with ⟨link, phase, -⟩ | ⟨_, u, -, hclose, closed, -⟩
    · rw [phase] at ht
      cases ht
    · have standing : last.close.phase.Standing := standing
      rw [hclose] at standing ⊢
      exact standing.hungUp.trans closed

/-! ## How a run ends -/

/-- The program tells of a fault of the client's own: its class and its text. -/
theorem complaintLine?_of_own {fault : Fault} (own : fault.isOwn = true) :
    ∃ kind text, kind? fault = some kind ∧ fault.message? = some text ∧
      complaintLine? fault = some (kind ++ ": " ++ text ++ "\n") := by
  cases fault with
  | loss cause | refusal cause => exact ⟨_, _, rfl, rfl, rfl⟩
  | _ => cases own

section Conclude

variable (verbose : Bool) (lines : List String) (outcome : Except Fault Unit) (link : Link)

theorem exitCode_conclude : (conclude verbose lines outcome link).exitCode = 0 ↔ outcome = .ok () := by
  cases outcome with
  | ok _ => simp [conclude]
  | error fault => cases h : complaintLine? fault <;> simp [conclude, h]

theorem stdout_conclude :
    (conclude verbose lines outcome link).stdout = String.join (lines.map (· ++ "\n")) := by
  cases outcome with
  | ok _ => rfl
  | error fault => cases h : complaintLine? fault <;> simp only [conclude, h]

theorem link_conclude : (conclude verbose lines outcome link).link = link := by
  cases outcome with
  | ok _ => rfl
  | error fault => cases h : complaintLine? fault <;> simp only [conclude, h]

end Conclude

end CommandLine

variable {installed : CommandLine.Installation} {arguments : List String} {env : Environment}
  {invocation : CommandLine.Invocation} {settings : Settings}

/-- How a run ends whose arguments and settings are accepted. -/
theorem CommandLine.run_of_valid (accepted : Invocation.ofArguments arguments = .ok invocation)
    (valid : CommandLine.settings installed env invocation = .ok settings) (link : Link) :
    let result := runSession settings (invocation.statements.getD []) link
    run installed arguments env link = conclude invocation.verbose result.1 result.2.1 result.2.2 := by
  simp only [run, accepted, runInvocation, valid]

open CommandLine (newSession calls texts shownLines)

/-- **The program commits all or nothing.** With arguments and settings that are accepted, it connects, runs
the statements in order and turns autocommit on again, up to the first of these calls that fails. It exits
with 0 if and only if all of them succeed. Its output is the results of the statements that succeeded. A
fault is one of the client's own, unless the attempt to connect cannot be made; then the program exits with
1, and what it tells, behind the log, is the class and the text of the fault. Behind the fault nothing is
sent: there are the startup packet, the texts of the calls that succeeded, and at most those of the one that
failed. So `begin` comes before the first statement if autocommit is off, and `end` only once all of them
have succeeded. Where the transport was reached, it is closed. -/
theorem program_commits_all_or_nothing {link : Link}
    (accepted : CommandLine.Invocation.ofArguments arguments = .ok invocation)
    (valid : CommandLine.settings installed env invocation = .ok settings)
    (untouched : link.journal = []) (isUp : link.hungUp = false) :
    let all := calls (invocation.statements.getD [])
    let ending := CommandLine.run installed arguments env link
    settings.autocommit = (!invocation.noAutocommit && env.autocommit) ∧
    (ending.exitCode = 0 ↔
      ∃ answers last, Session.Course all (newSession settings link) all answers (.ok ()) last) ∧
    ∃ done answers outcome last,
      Session.Course all (newSession settings link) done answers outcome last ∧
      (outcome = .ok () → CommandLine.told ending = CommandLine.logged ending) ∧
      (∀ fault, outcome = .error fault → fault.isOwn = true ∨
        ∃ cause, Link.nextFault link.dialFaults = some (.foreign cause) ∧ fault = .foreign cause) ∧
      (∀ fault, outcome = .error fault → fault.isOwn = true →
        ending.exitCode = 1 ∧ ending.escaped = none ∧ ∃ kind text,
          CommandLine.kind? fault = some kind ∧ fault.message? = some text ∧
          CommandLine.told ending = CommandLine.logged ending ++ (kind ++ ": " ++ text ++ "\n")) ∧
      ending.stdout = String.join ((answers.flatMap (shownLines .utf8)).map (· ++ "\n")) ∧
      ending.link.sent = last.phase.link.sent ∧
      (∃ packets payloads said, last.phase.link.sent = packets ++ payloads ∧
        (packets = [] ∧ payloads = [] ∧ done = [] ∨
          ∃ packet, Startup.packetOf settings = .ok packet ∧ packets = [packet]) ∧
        Query.Asking (.known .utf8) said payloads ∧
        done.flatMap (texts settings.autocommit) <+: said ∧
        said <+: (all.take (done.length + 1)).flatMap (texts settings.autocommit)) ∧
      (Link.nextFault link.dialFaults = none → ending.link.hungUp = true) := by
  intro all ending
  obtain ⟨encoding, autocommit⟩ := CommandLine.fields_of_settings accepted valid
  have utf8 : settings.encoding.charset = .known .utf8 := by rw [encoding]
  have start := CommandLine.unused_newSession settings untouched isUp
  have plain : (newSession settings link).Plain :=
    ⟨NoticeHandling.willing_logged, utf8, utf8, start.tidy⟩
  obtain ⟨done, answers, last, ⟨course, lines⟩, left⟩ :=
    CommandLine.shows_runSession utf8 (invocation.statements.getD []) link
  have ends : ending = _ := CommandLine.run_of_valid accepted valid link
  generalize CommandLine.runSession settings (invocation.statements.getD []) link = result at *
  obtain ⟨shown, outcome, rest⟩ := result
  simp only at course lines left ends
  rw [ends, CommandLine.exitCode_conclude, CommandLine.stdout_conclude, CommandLine.link_conclude, left]
  have sent : (if done = [] then last else last.close).phase.link.sent = last.phase.link.sent := by
    split
    · rfl
    · exact (Session.kept_of_close last).1
  have spoke := CommandLine.spoke_run start course
  rw [plain.charset] at spoke
  refine ⟨autocommit, course.succeeds_iff, done, answers, outcome, last, course, ?_, ?_, ?_, by rw [lines],
    sent, spoke, fun reached => CommandLine.hungUp_run start plain reached course⟩
  · rintro rfl
    exact String.append_empty
  · exact fun fault failed => CommandLine.own_run start plain course failed
  · rintro fault rfl own
    obtain ⟨kind, text, hkind, htext, complaint⟩ := CommandLine.complaintLine?_of_own own
    simp only [CommandLine.conclude, complaint]
    exact ⟨trivial, trivial, kind, text, hkind, htext, rfl⟩

/-- The second of three statements is answered with an error: the first was shown, and neither the third nor
`end` is sent. -/
theorem program_stops_at_failed_statement :
    let arguments := ["-d", "d", "-U", "u", "--no-autocommit", "insert", "boom", "never"]
    let env : Environment := fun _ => none
    let link : Link := { incoming := [.bytes [0x49, 0, 0x43, 0x42, 0, 0x49, 0],
      .bytes [0x43, 0x4F, 0x4B, 0, 0x49, 0, 0x45, 0x6E, 0x6F, 0]] }
    let ending := CommandLine.run {} arguments env link
    ending.exitCode = 1 ∧ ending.stdout = "OK\n" ∧ ending.stderr = "ServerError: no\n" ∧
      ending.link.sent.length = 7 ∧
      ∃ invocation settings, CommandLine.Invocation.ofArguments arguments = .ok invocation ∧
        CommandLine.settings {} env invocation = .ok settings ∧
        ∃ done answers fault last,
          Session.Course (calls (invocation.statements.getD [])) (newSession settings link) done answers
            (.error fault) last ∧
          ending.link.sent = last.phase.link.sent ∧ ending.link.hungUp = true := by
  intro arguments env link ending
  have runs : ((CommandLine.Invocation.ofArguments arguments).toOption.bind fun invocation =>
      (CommandLine.settings {} env invocation).toOption).isSome = true := by decide +kernel
  have exits : ending.exitCode = 1 := by decide +kernel
  refine ⟨exits, by decide +kernel, by decide +kernel, by decide +kernel, ?_⟩
  cases accepted : CommandLine.Invocation.ofArguments arguments with
  | error fault =>
    rw [accepted] at runs
    cases runs
  | ok invocation =>
    rw [accepted] at runs
    cases valid : CommandLine.settings {} env invocation with
    | error fault =>
      simp only [Except.toOption, Option.bind_some, valid] at runs
      cases runs
    | ok settings =>
      obtain ⟨-, zero, done, answers, outcome, last, course, -, -, -, -, sent, -, closed⟩ :=
        program_commits_all_or_nothing accepted valid (show link.journal = [] from rfl)
          (show link.hungUp = false from rfl)
      refine ⟨invocation, settings, rfl, valid, ?_⟩
      cases outcome with
      | error fault => exact ⟨done, answers, fault, last, course, sent, closed rfl⟩
      | ok _ =>
        obtain rfl := course.outcome_ok_iff.1 rfl
        have none := zero.2 ⟨answers, last, course⟩
        cases exits.symm.trans none

/-- The class and the text of a fault are not all that is told of it: an attempt to connect that the system
refuses is in the log, too. -/
theorem refused_attempt_is_told_twice :
    let ending := CommandLine.run {} ["-d", "d", "-U", "u", "q"] (fun _ => none)
      { dialFaults := [some (.refused "refused")] }
    ending.exitCode = 1 ∧ CommandLine.told ending ≠ "ConnectionError: Connection failed: refused\n" ∧
      CommandLine.told ending = "error: Backend connection failed\n" ++
        "ConnectionError: Connection failed: refused\n" := by
  decide +kernel

end SimpleQuery
