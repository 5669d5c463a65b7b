import SimpleQuery.Proofs.Agreement
import SimpleQuery.Proofs.Finality
import SimpleQuery.Proofs.Handshake

/-!
# What a session sends

Each call that sends something carries one whole message: the startup packet, or one query. What was put
together by a step that failed is never part of a later message.

* `Session.Said` — an action asks for the first of some texts, and for all of them if it succeeds.
* `Session.said_perform` — what each operation but connecting asks for.
* `Session.idles_perform` — what they do to a session that is not open: close its stream, or nothing.
* `Session.Greets.starts` — connecting sends the packet, and then asks for what opens a session.
* `Session.sends_perform` — all of it for one operation, and `Session.Leads.tidy` for any number of them.
* `each_send_is_one_message` — what the calls of a whole run carry, and in which order.
-/

set_option autoImplicit false

namespace SimpleQuery

namespace Session

variable {α β : Type} {texts texts' : List String} {session : Session}

/-- The charset of the texts that a session sends. -/
def charset (session : Session) : NamedCharset :=
  match session.phase with
  | .fresh _ => session.settings.encoding.charset
  | .broken s | .open s => s.charset

/-! ## Actions that ask for texts -/

/-- A run from a session sent the queries for the first of some texts, and for all of them if it
succeeded. -/
structure Said (texts : List String) (session : Session) (result : EStateM.Result Fault Session α) :
    Prop where
  asked : ∃ payloads, (Act.state result).phase.link.sent = session.phase.link.sent ++ payloads ∧
    Query.Asked session.charset texts (∃ a, Act.outcome result = .ok a) payloads
  charset : (Act.state result).charset = session.charset
  settings : (Act.state result).settings = session.settings
  tidy : (Act.state result).Tidy

namespace Said

theorem pure (tidy : session.Tidy) (a : α) : Said [] session ((Pure.pure a : Act Session α) session) where
  asked := ⟨[], (List.append_nil _).symm, .none _ _⟩
  charset := rfl
  settings := rfl
  tidy := tidy

theorem throw (tidy : session.Tidy) (texts : List String) (fault : Fault) :
    Said texts session (.error fault session : EStateM.Result Fault Session α) where
  asked := by
    refine ⟨[], (List.append_nil _).symm, .nothing _ _ ?_⟩
    rintro ⟨a, ha⟩
    cases ha
  charset := rfl
  settings := rfl
  tidy := tidy

theorem bind {act : Act Session α} {next : α → Act Session β} (h : Said texts session (act session))
    (hn : ∀ a after, act session = .ok a after → after.Tidy → Said texts' after (next a after)) :
    Said (texts ++ texts') session ((act >>= next) session) := by
  simp only [Bind.bind, EStateM.bind]
  obtain ⟨payloads, sent, asked⟩ := h.asked
  have charset := h.charset
  have settings := h.settings
  have tidy := h.tidy
  cases hr : act session with
  | ok a after =>
    rw [hr] at sent asked charset settings tidy
    simp only [Act.state_ok] at sent charset settings tidy
    have later := hn a after hr tidy
    obtain ⟨payloads', sent', asked'⟩ := later.asked
    rw [charset] at asked'
    obtain ⟨said, first, all, asking⟩ := asked
    refine ⟨⟨payloads ++ payloads', ?_, .append ⟨said, first, fun _ => all ⟨a, rfl⟩, asking⟩ asked'⟩,
      later.charset.trans charset, later.settings.trans settings, later.tidy⟩
    rw [sent', sent, List.append_assoc]
  | error fault after =>
    rw [hr] at sent asked charset settings tidy
    refine ⟨⟨payloads, sent, asked.extend ?_⟩, charset, settings, tidy⟩
    rintro ⟨b, hb⟩
    cases hb

end Said

/-- On an open session an action on the stream comes to what it comes to there, and a loss breaks the
session. -/
theorem onStream_eq (act : Act Stream α) {s : Stream} (h : session.phase = .open s) :
    Act.outcome (onStream act session) = Act.outcome (act s) ∧
      Act.state (onStream act session) = { session with
        phase := if Act.isLost (act s) then .broken (Act.state (act s)) else .open (Act.state (act s)) } := by
  rw [onStream_of_open act h]
  cases act s with
  | ok a t => exact ⟨rfl, rfl⟩
  | error fault t => exact ⟨rfl, rfl⟩

/-- What an action on the stream asks for, the session asks for while it is open. -/
theorem said_onStream {act : Act Stream α} (tidy : session.Tidy)
    (h : ∀ s : Stream, s.Usable → Stream.Said texts s (act s)) :
    Said texts session (onStream act session) := by
  cases ho : session.isOpen with
  | false =>
    rw [onStream_of_not_open act ho]
    exact .throw tidy _ _
  | true =>
    obtain ⟨s, hs⟩ := open_of_isOpen ho
    have usable : s.Usable := by
      unfold Tidy at tidy
      rwa [hs] at tidy
    obtain ⟨⟨payloads, sent, asked⟩, charset, usable, closed⟩ := h s usable
    obtain ⟨outcome, state⟩ := onStream_eq act hs
    have here : session.charset = s.charset := by rw [Session.charset, hs]
    rw [← outcome, ← here] at asked
    constructor
    · refine ⟨payloads, ?_, asked⟩
      rw [state, hs]
      cases Act.isLost (act s) <;> exact sent
    · rw [state, here]
      cases Act.isLost (act s) <;> exact charset
    · rw [state]
    · rw [state]
      cases hl : Act.isLost (act s) with
      | true => exact .inl (.inr (closed hl))
      | false => exact usable hl

theorem said_query (tidy : session.Tidy) (statement : String) :
    Said [statement] session (query statement session) :=
  said_onStream tidy fun _ => Stream.said_execute session.handling statement

theorem said_control (tidy : session.Tidy) (statement : Control) :
    Said [statement.statement] session (control statement session) :=
  (said_query tidy _).bind fun _ _ _ htidy => .pure htidy ()

theorem said_requireOpen (tidy : session.Tidy) : Said [] session (requireOpen session) :=
  said_onStream tidy fun _ hs => .pure hs ()

/-- Noting the flag says nothing. -/
theorem Said.noting {after : Session} (tidy : after.Tidy) (autocommit : Bool) :
    Said [] after (noteAutocommit autocommit after) where
  asked := ⟨[], (List.append_nil _).symm, .none _ _⟩
  charset := rfl
  settings := rfl
  tidy := tidy

/-- The statement that switching autocommit takes. -/
def switchTexts (session : Session) (autocommit : Bool) : List String :=
  if session.autocommit = autocommit then [] else [(if autocommit then Control.end else .begin).statement]

/-- The statements that ending a transaction takes. -/
def finishTexts (session : Session) (statement : Control) : List String :=
  if session.autocommit then [] else [statement.statement, Control.begin.statement]

theorem requireOpen_of_ok {after : Session} (h : requireOpen session = .ok () after) :
    after = session := by
  have := state_requireOpen session
  rwa [h] at this

theorem said_setAutocommit (tidy : session.Tidy) (autocommit : Bool) :
    Said (session.switchTexts autocommit) session (setAutocommit autocommit session) := by
  rw [← List.nil_append (session.switchTexts autocommit)]
  refine (said_requireOpen tidy).bind fun _ after hr _ => ?_
  obtain rfl := requireOpen_of_ok hr
  show Said _ after ((if after.autocommit != autocommit then
    control (if autocommit then .end else .begin) >>= fun _ => noteAutocommit autocommit
    else pure () : Act Session Unit) after)
  unfold switchTexts
  by_cases ha : after.autocommit = autocommit
  · simp only [ha, bne_self_eq_false, Bool.false_eq_true, if_false, if_true]
    exact .pure tidy ()
  · simp only [ha, bne_iff_ne, ne_eq, not_false_eq_true, if_true, if_false]
    exact (said_control tidy _).bind fun _ _ _ htidy => .noting htidy _

theorem said_finish (tidy : session.Tidy) (statement : Control) :
    Said (session.finishTexts statement) session (finish statement session) := by
  rw [← List.nil_append (session.finishTexts statement)]
  refine (said_requireOpen tidy).bind fun _ after hr _ => ?_
  obtain rfl := requireOpen_of_ok hr
  show Said _ after ((if !after.autocommit then (do
    control statement
    noteAutocommit true
    control .begin
    noteAutocommit false : Act Session Unit) else pure ()) after)
  unfold finishTexts
  cases ha : after.autocommit with
  | true => exact .pure tidy ()
  | false =>
    refine (said_control tidy statement).bind fun _ _ _ htidy => ?_
    refine (Said.noting htidy true).bind fun _ _ _ htidy => ?_
    refine (said_control htidy .begin).bind fun _ _ _ htidy => ?_
    exact .noting htidy false

/-! ## One operation -/

/-- The texts that an operation asks for, if it succeeds. -/
def textsOf (session : Session) : Command → List String
  | .connect => if session.isOpen then [] else openingTexts session.settings
  | .query statement => [statement]
  | .setAutocommit autocommit => session.switchTexts autocommit
  | .commit => session.finishTexts .commit
  | .rollback => session.finishTexts .rollback
  | _ => []

/-- A session without a stream is not closed, and one whose stream is closed only has its phase named for
what it is. -/
theorem close_cases (session : Session) :
    (∃ link, session.phase = .fresh link ∧ session.close = session) ∨
    ∃ s t, session.phase.stream? = some s ∧ session.close = { session with phase := .broken t } ∧
      t.closed = true ∧ (t = s ∨ t = s.close.log .sessionClosed) := by
  unfold close
  cases hp : session.phase with
  | fresh link => exact .inl ⟨link, rfl, rfl⟩
  | broken s | «open» s =>
    refine .inr ⟨s, _, rfl, rfl, ?_⟩
    cases hc : s.closed with
    | true => exact ⟨hc, .inl rfl⟩
    | false => exact ⟨Stream.closed_close s, .inr rfl⟩

/-- Closing sends nothing, and leaves the charset as it is. -/
theorem kept_of_close (session : Session) :
    session.close.phase.link.sent = session.phase.link.sent ∧ session.close.charset = session.charset := by
  rcases close_cases session with ⟨link, -, hclose⟩ | ⟨s, t, hs, hclose, -, kept⟩
  · rw [hclose]
    exact ⟨rfl, rfl⟩
  have unsaid : t.link.sent = s.link.sent ∧ t.charset = s.charset := by
    rcases kept with rfl | rfl
    · exact ⟨rfl, rfl⟩
    · exact ⟨(Stream.keeps_log _ _).sent.trans (Stream.sent_close s), charset_close s⟩
  have here : session.phase.link = s.link ∧ session.charset = s.charset := by
    unfold charset
    cases hp : session.phase <;> rw [hp] at hs <;> cases hs <;> exact ⟨rfl, rfl⟩
  rw [hclose, here.1, here.2]
  exact unsaid

theorem said_close (tidy : session.Tidy) (a : α) :
    Said [] session (.ok a session.close : EStateM.Result Fault Session α) := by
  obtain ⟨sent, charset⟩ := kept_of_close session
  refine ⟨⟨[], sent.trans (List.append_nil _).symm, .none _ _⟩, charset, ?_, ?_⟩ <;>
    rcases close_cases session with ⟨link, -, hclose⟩ | ⟨s, t, -, hclose, closed, -⟩ <;>
    simp only [Act.state_ok, hclose]
  · exact tidy
  · exact .inl (.inr closed)

theorem said_feed (tidy : session.Tidy) (more : List Delivery) (a : α) :
    Said [] session (.ok a { session with phase := session.phase.mapLink (Link.feed more) } :
      EStateM.Result Fault Session α) := by
  unfold Tidy at tidy
  constructor
  · refine ⟨[], ?_, .none _ _⟩
    rw [List.append_nil]
    show (session.phase.mapLink _).link.sent = _
    cases session.phase <;> rfl
  · unfold charset
    simp only [Act.state_ok]
    cases session.phase <;> rfl
  · rfl
  · unfold Tidy
    revert tidy
    simp only [Act.state_ok]
    cases session.phase with
    | fresh link | broken s => exact id
    | «open» s => exact fun usable => ⟨usable.isOpen, usable.staged⟩

/-- What an operation other than connecting asks for. -/
theorem said_perform {command : Command} (h : command ≠ .connect) (tidy : session.Tidy) :
    Said (session.textsOf command) session (perform command session) := by
  have answers {γ : Type} {texts : List String} {act : Act Session γ} (answer : γ → Answer)
      (said : Said texts session (act session)) :
      Said texts session ((act >>= fun a => Pure.pure (answer a)) session) := by
    rw [← List.append_nil texts]
    exact said.bind fun a _ _ htidy => .pure htidy (answer a)
  cases command with
  | connect => exact absurd rfl h
  | query statement => exact answers _ (said_query tidy statement)
  | setAutocommit autocommit => exact answers _ (said_setAutocommit tidy autocommit)
  | commit | rollback => exact answers _ (said_finish tidy _)
  | close => exact said_close tidy _
  | feed more => exact said_feed tidy more _
  | setIsolation | metadata | prepareCall => exact .throw tidy _ _
  | setReadOnly | setCursorName => exact ⟨⟨[], (List.append_nil _).symm, .none _ _⟩, rfl, rfl, tidy⟩
  | isOpen | get | describe | setCatalog | clearWarnings | nativeStatement => exact .pure tidy _

/-- What is left of a phase that is not open when the session is not asked to connect: the backend
delivers more, or the stream is closed. -/
inductive Idles : Phase → Phase → Prop where
  | same (p : Phase) : Idles p p
  | fed (p : Phase) (more : List Delivery) : Idles p (p.mapLink (Link.feed more))
  | closed (s : Stream) : Idles (.broken s) (.broken (s.close.log .sessionClosed))

/-- All that an operation other than connecting does to a session that is not open. -/
theorem idles_perform {command : Command} (h : command ≠ .connect) (notOpen : session.isOpen = false) :
    Idles session.phase (Act.state (perform command session)).phase := by
  cases command with
  | connect => exact absurd rfl h
  | query | setAutocommit | commit | rollback =>
    rw [perform_of_not_open notOpen rfl]
    exact .same _
  | close =>
    show Idles session.phase session.close.phase
    rcases close_cases session with ⟨link, -, hclose⟩ | ⟨s, t, hs, hclose, -, kept⟩
    · rw [hclose]
      exact .same _
    have broken : session.phase = .broken s := by
      unfold isOpen at notOpen
      cases hp : session.phase <;> rw [hp] at hs notOpen <;> cases hs
      · rfl
      · cases notOpen
    rw [hclose, broken]
    rcases kept with rfl | rfl
    · exact .same _
    · exact .closed s
  | feed more => exact .fed _ more
  | _ => exact .same _

theorem Idles.sent {p q : Phase} (h : Idles p q) : q.link.sent = p.link.sent := by
  cases h with
  | same => rfl
  | fed p more => cases p <;> rfl
  | closed s => exact (Stream.keeps_log _ _).sent.trans (Stream.sent_close s)

theorem Idles.notOpen {after : Session} (h : Idles session.phase after.phase)
    (notOpen : session.isOpen = false) : after.isOpen = false := by
  unfold isOpen at *
  generalize session.phase = p at *
  generalize after.phase = q at *
  cases h with
  | same => exact notOpen
  | fed p more => cases p <;> exact notOpen
  | closed s => rfl

/-! ## Connecting -/

/-- Connecting sends the packet or nothing, and behind the packet what opens a session. Where it could have
sent the packet, it did. Where the probe is not the first behind it, the stream is closed, or the charset
cannot spell the probe. -/
structure Starts (session after : Session) (packets payloads : List Bytes) : Prop where
  sent : after.phase.link.sent = session.phase.link.sent ++ packets ++ payloads
  unsent : packets = [] → ∀ s, session.phase = .broken s →
    (∃ fault, Startup.packetOf session.settings = .error fault) ∨ s.closed = true ∨
      Link.nextFault s.link.sendFaults ≠ none
  packed : packets = [] ∧ payloads = [] ∨
    ∃ packet, Startup.packetOf session.settings = .ok packet ∧ packets = [packet]
  asked : Query.Asked session.charset (openingTexts session.settings) (after.isOpen = true) payloads
  second : packets = [] ∨ (∃ s, after.phase = .broken s ∧ s.closed = true) ∨
    (∃ fault, Text.encodeIn session.charset Query.blank = .error fault) ∨
    ∃ bytes more, Text.encodeIn session.charset Query.blank = .ok bytes ∧
      payloads = Query.frame bytes :: more
  charset : after.charset = session.charset
  settings : after.settings = session.settings
  tidy : after.Tidy

/-- Connecting that opens the session has sent the packet, and asked for all that opens one. -/
theorem Starts.of_open {after : Session} {packets payloads : List Bytes}
    (h : Starts session after packets payloads) (isOpen : after.isOpen = true) :
    (∃ packet, Startup.packetOf session.settings = .ok packet ∧ packets = [packet]) ∧
      Query.Asking session.charset (openingTexts session.settings) payloads := by
  obtain ⟨said, -, all, asking⟩ := h.asked
  obtain rfl := all isOpen
  refine ⟨?_, asking⟩
  rcases h.packed with ⟨-, rfl⟩ | packed
  · cases asking
  · exact packed

/-- Where the packet was not sent, nothing was. -/
theorem Starts.nothing {after : Session} (sent : after.phase.link.sent = session.phase.link.sent)
    (unsent : ∀ s, session.phase = .broken s →
      (∃ fault, Startup.packetOf session.settings = .error fault) ∨ s.closed = true ∨
        Link.nextFault s.link.sendFaults ≠ none)
    (notOpen : after.isOpen = false) (charset : after.charset = session.charset)
    (settings : after.settings = session.settings) (tidy : after.Tidy) : Starts session after [] [] where
  sent := by rw [sent, List.append_nil, List.append_nil]
  unsent _ := unsent
  packed := .inl ⟨rfl, rfl⟩
  asked := .nothing _ _ (by rw [notOpen]; exact Bool.false_ne_true)
  second := .inl rfl
  charset := charset
  settings := settings
  tidy := tidy

/-- Where it was, what the statements behind it came to is left. -/
theorem Starts.packet {after : Session} {packet : Bytes} {s t u : Stream}
    (spelled : Startup.packetOf session.settings = .ok packet) (packed : Packed packet s t)
    (here : s.link.sent = session.phase.link.sent ∧ s.charset = session.charset)
    (left : after.phase.stream? = some u) (settings : after.settings = session.settings)
    (tidy : after.Tidy)
    (kept : let result := probing session.settings session.handling t
      u.link.sent = (Act.state result).link.sent ∧ u.charset = (Act.state result).charset ∧
        (Act.isLost result = true → after.phase = .broken u ∧ u.closed = true) ∧
        (after.isOpen = true → Act.outcome result = .ok ())) :
    ∃ payloads, Starts session after [packet] payloads := by
  obtain ⟨hsent, hcharset, hlost, hopen⟩ := kept
  obtain ⟨⟨payloads, sent, said, first, all, asking⟩, charset, -, -⟩ :=
    said_probing session.settings session.handling packed.usable
  rw [packed.charset, here.2] at asking charset
  have left : after.phase.link = u.link ∧ after.charset = u.charset := by
    unfold Session.charset
    cases hp : after.phase <;> rw [hp] at left <;> cases left <;> exact ⟨rfl, rfl⟩
  refine ⟨payloads, ?_, fun none => (by cases none), .inr ⟨packet, spelled, rfl⟩,
    ⟨said, first, fun isOpen => all ⟨(), hopen isOpen⟩, asking⟩, .inr ?_,
    left.2.trans (hcharset.trans charset), settings, tidy⟩
  · rw [left.1, hsent, sent, packed.sent, here.1]
  · rcases probing_cases session.settings session.handling packed.usable with ⟨fault, unspelled⟩ |
      lost | ⟨bytes, more, hbytes, hmore⟩
    · rw [Stream.encode, packed.charset, here.2] at unspelled
      exact .inr (.inl ⟨fault, unspelled⟩)
    · exact .inl ⟨u, hlost lost⟩
    · rw [Stream.encode, packed.charset, here.2] at hbytes
      rw [sent, List.append_cancel_left_eq] at hmore
      exact .inr (.inr ⟨bytes, more, hbytes, hmore⟩)

/-- What opening a session on its stream sends. -/
theorem Greets.starts {s : Stream} {result : EStateM.Result Fault Session Unit}
    (h : Greets session s result)
    (here : s.link.sent = session.phase.link.sent ∧ s.charset = session.charset)
    (logged : ∀ r, session.phase = .broken r → r.closed = s.closed ∧ r.link.sendFaults = s.link.sendFaults) :
    ∃ packets payloads, Starts session (Act.state result) packets payloads := by
  cases h with
  | unspelled unspelled _ =>
    exact ⟨[], [], .nothing here.1 (fun _ _ => .inl ⟨_, unspelled⟩) rfl here.2 rfl (.inr ⟨_, unspelled⟩)⟩
  | unsent spelled failed closed charset sent =>
    refine ⟨[], [], .nothing (sent.trans here.1) (fun r hr => .inr ?_) rfl (charset.trans here.2) rfl
      (.inl (.inr closed))⟩
    obtain ⟨hclosed, hfaults⟩ := logged r hr
    rwa [hclosed, hfaults]
  | @opened packet t u spelled packed probed =>
    have usable := (said_probing session.settings session.handling packed.usable).usable
    rw [probed] at usable
    refine ⟨[packet], Starts.packet spelled packed here rfl rfl ⟨(usable rfl).isOpen, (usable rfl).staged⟩ ?_⟩
    rw [probed]
    exact ⟨(Stream.keeps_log _ _).sent, rfl, fun lost => Bool.noConfusion lost, fun _ => rfl⟩
  | @failed packet t u fault cause spelled packed probed own =>
    refine ⟨[packet], Starts.packet spelled packed here rfl rfl (.inl (.inr (Stream.closed_close u))) ?_⟩
    rw [probed]
    exact ⟨Stream.sent_close u, charset_close u, fun _ => ⟨rfl, Stream.closed_close u⟩,
      fun isOpen => Bool.noConfusion isOpen⟩
  | @abandoned packet t u fault spelled packed probed foreign =>
    have kept := Fault.isLoss_of_foreign foreign
    have usable := (said_probing session.settings session.handling packed.usable).usable
    rw [probed] at usable
    refine ⟨[packet], Starts.packet spelled packed here rfl rfl (.inl (usable kept).clear) ?_⟩
    rw [probed]
    refine ⟨rfl, rfl, fun lost => ?_, fun isOpen => Bool.noConfusion isOpen⟩
    rw [Act.isLost, kept] at lost
    cases lost

/-- What connecting sends. -/
theorem starts_connect (tidy : session.Tidy) (notOpen : session.isOpen = false) :
    ∃ packets payloads, Starts session (Act.state (connect session)) packets payloads := by
  have connects := connects_connect tidy
  generalize connect session = result at *
  cases connects with
  | already isOpen =>
    rw [notOpen] at isOpen
    cases isOpen
  | undialled phase dials =>
    refine ⟨[], [], .nothing ?_ (fun s hs => ?_) rfl ?_ rfl trivial⟩
    · rw [phase]
      exact sent_of_vain_dial dials
    · rw [phase] at hs
      cases hs
    · simp only [charset, phase, Act.state_error]
  | @dialled link s _ phase dials greets =>
    have just := justDialled_of_dial dials
    refine greets.starts ⟨?_, ?_⟩ fun r hr => ?_
    · rw [just.sent, phase]
      exact Link.sent_log _ link
    · rw [just.charset, charset, phase]
    · rw [phase] at hr
      cases hr
  | @again s _ phase greets =>
    refine greets.starts ⟨?_, ?_⟩ fun r hr => ?_
    · rw [phase]
      exact (Stream.keeps_log _ _).sent
    · rw [charset, phase]
      rfl
    · rw [phase] at hr
      cases hr
      exact ⟨rfl, rfl⟩

/-- One operation sends the packet, if it is to connect and the session is not open, and then asks for the
first of its texts. -/
structure Sends (command : Command) (session after : Session) (packets payloads : List Bytes) : Prop where
  sent : after.phase.link.sent = session.phase.link.sent ++ packets ++ payloads
  packed : packets = [] ∨ command = .connect ∧ ∃ packet,
    Startup.packetOf session.settings = .ok packet ∧ packets = [packet]
  asked : Query.Asked session.charset (session.textsOf command) False payloads
  charset : after.charset = session.charset
  settings : after.settings = session.settings
  tidy : after.Tidy

theorem state_perform_connect (session : Session) :
    Act.state (perform .connect session) = Act.state (connect session) := Act.state_answered

theorem sends_perform (tidy : session.Tidy) (command : Command) :
    ∃ packets payloads, Sends command session (Act.state (perform command session)) packets payloads := by
  by_cases h : command = .connect
  · subst h
    rw [state_perform_connect]
    cases ho : session.isOpen with
    | true =>
      obtain ⟨s, hs⟩ := open_of_isOpen ho
      have already : connect session = .ok () session := by simp only [connect, hs]
      rw [already]
      exact ⟨[], [], by simp, .inl rfl, .nothing _ _ id, rfl, rfl, tidy⟩
    | false =>
      obtain ⟨packets, payloads, starts⟩ := starts_connect tidy ho
      obtain ⟨said, first, -, asking⟩ := starts.asked
      refine ⟨packets, payloads, starts.sent, ?_, ⟨said, ?_, False.elim, asking⟩, starts.charset,
        starts.settings, starts.tidy⟩
      · rcases starts.packed with none | packed
        · exact .inl none.1
        · exact .inr ⟨rfl, packed⟩
      · rwa [textsOf, ho]
  · obtain ⟨⟨payloads, sent, said, first, -, asking⟩, charset, settings, htidy⟩ := said_perform h tidy
    refine ⟨[], payloads, ?_, .inl rfl, ⟨said, first, False.elim, asking⟩, charset, settings, htidy⟩
    rw [List.append_nil]
    exact sent

/-- In every session that is reached from a tidy one, charset and settings are what they were, and it is
tidy. -/
theorem Leads.tidy {now : Session} (h : session.Leads now) (tidy : session.Tidy) :
    now.Tidy ∧ now.charset = session.charset ∧ now.settings = session.settings := by
  induction h with
  | refl => exact ⟨tidy, rfl, rfl⟩
  | tail _ command ih =>
    obtain ⟨htidy, hcharset, hsettings⟩ := ih
    obtain ⟨packets, payloads, sends⟩ := sends_perform htidy command
    exact ⟨sends.tidy, sends.charset.trans hcharset, sends.settings.trans hsettings⟩

/-! ## What is sent first, and what is never sent -/

/-- A session that sends no more: its stream is closed, or there is none that its startup packet could be
spelled for. -/
def Mute (session : Session) : Prop :=
  ∃ s, session.phase = .broken s ∧
    (s.closed = true ∨ ∃ fault, Startup.packetOf session.settings = .error fault)

theorem Mute.tidy (h : session.Mute) : session.Tidy := by
  obtain ⟨s, phase, hs⟩ := h
  rw [Tidy, phase]
  rcases hs with closed | unspelled
  · exact .inl (.inr closed)
  · exact .inr unspelled

theorem mute_perform (h : session.Mute) (command : Command) :
    (Act.state (perform command session)).Mute ∧
      (Act.state (perform command session)).phase.link.sent = session.phase.link.sent := by
  have tidy := h.tidy
  obtain ⟨packets, payloads, sends⟩ := sends_perform tidy command
  have settings := sends.settings
  -- Connecting is all that could send, and it fails before the packet is out.
  obtain ⟨s, phase, hs⟩ := h
  by_cases hcommand : command = .connect
  · subst hcommand
    rw [state_perform_connect] at settings ⊢
    have connects := connects_connect tidy
    generalize connect session = result at *
    cases connects with
    | already isOpen =>
      rw [Session.isOpen, phase] at isOpen
      cases isOpen
    | undialled hphase | dialled hphase =>
      rw [phase] at hphase
      cases hphase
    | @again t _ hphase greets =>
      rw [phase] at hphase
      cases hphase
      have never {packet : Bytes} (spelled : Startup.packetOf session.settings = .ok packet)
          (isOpen : s.closed = false) : False := by
        rcases hs with closed | ⟨fault, unspelled⟩
        · rw [isOpen] at closed
          cases closed
        · rw [spelled] at unspelled
          cases unspelled
      rw [phase]
      cases greets with
      | unspelled unspelled foreign => exact ⟨⟨_, rfl, .inr ⟨_, unspelled⟩⟩, (Stream.keeps_log s _).sent⟩
      | unsent spelled _ closed charset sent =>
        exact ⟨⟨_, rfl, .inl closed⟩, sent.trans (Stream.keeps_log s _).sent⟩
      | opened spelled packed | failed spelled packed | abandoned spelled packed =>
        exact (never spelled packed.isOpen).elim
  · have notOpen : session.isOpen = false := by rw [isOpen, phase]
    have idles := idles_perform hcommand notOpen
    refine ⟨?_, idles.sent⟩
    unfold Mute
    rw [settings]
    rw [phase] at idles
    generalize (Act.state (perform command session)).phase = q at *
    cases idles with
    | same => exact ⟨s, rfl, hs⟩
    | fed => exact ⟨_, rfl, hs⟩
    | closed => exact ⟨_, rfl, .inl (Stream.closed_close s)⟩

theorem Leads.mute {now : Session} (h : session.Leads now) (mute : session.Mute) :
    now.Mute ∧ now.phase.link.sent = session.phase.link.sent := by
  induction h with
  | refl => exact ⟨mute, rfl⟩
  | tail _ command ih =>
    obtain ⟨hmute, hsent⟩ := mute_perform ih.1 command
    exact ⟨hmute, hsent.trans ih.2⟩

/-- What a session has sent begins with its startup packet, and then comes the probe; only where that
cannot be spelled it is the packet again. -/
inductive Ordered (session : Session) : Prop where
  | silent (notOpen : session.isOpen = false) (sent : session.phase.link.sent = [])
  | spoken {packet bytes : Bytes} {more : List Bytes}
      (spelled : Startup.packetOf session.settings = .ok packet)
      (blank : Text.encodeIn session.charset Query.blank = .ok bytes)
      (sent : session.phase.link.sent = packet :: Query.frame bytes :: more)
  | hushed {packet : Bytes} (spelled : Startup.packetOf session.settings = .ok packet)
      (mute : session.Mute) (sent : session.phase.link.sent = [packet])
  | repeating {packet : Bytes} {fault : Fault} (notOpen : session.isOpen = false)
      (spelled : Startup.packetOf session.settings = .ok packet)
      (unspelled : Text.encodeIn session.charset Query.blank = .error fault)
      (sent : ∀ payload ∈ session.phase.link.sent, payload = packet)

/-- What connecting does to the order. -/
theorem ordered_connect (tidy : session.Tidy) (notOpen : session.isOpen = false)
    (silent : session.phase.link.sent = []) : Ordered (Act.state (connect session)) := by
  obtain ⟨packets, payloads, starts⟩ := starts_connect tidy notOpen
  generalize Act.state (connect session) = after at *
  have sent := starts.sent
  rw [silent, List.nil_append] at sent
  obtain ⟨said, first, all, asking⟩ := starts.asked
  rcases starts.packed with ⟨rfl, rfl⟩ | ⟨packet, spelled, rfl⟩
  · refine .silent (eq_false_of_ne_true fun isOpen => ?_) sent
    cases asking
    cases all isOpen
  have spelled : Startup.packetOf after.settings = .ok packet := by rwa [starts.settings]
  rcases asking with _ | @⟨text, texts, bytes, more, count, encoded, rest⟩
  · rcases starts.second with none | ⟨s, hs, closed⟩ | ⟨fault, unspelled⟩ | ⟨bytes, more, -, hmore⟩
    · cases none
    · exact .hushed spelled ⟨s, hs, .inl closed⟩ sent
    · rw [← starts.charset] at unspelled
      refine .repeating (eq_false_of_ne_true fun isOpen => ?_) spelled unspelled ?_
      · cases all isOpen
      · simp [sent]
    · cases hmore
  · have blank : text = Query.blank := (List.cons_prefix_cons.1 first).1
    rw [blank, ← starts.charset] at encoded
    exact .spoken spelled encoded sent

/-- Where the probe cannot be spelled, connecting sends the packet again, if anything, and opens nothing. -/
theorem ordered_again {packet : Bytes} {fault : Fault} (tidy : session.Tidy) (notOpen : session.isOpen = false)
    (spelled : Startup.packetOf session.settings = .ok packet)
    (unspelled : Text.encodeIn session.charset Query.blank = .error fault)
    (sent : ∀ payload ∈ session.phase.link.sent, payload = packet) :
    Ordered (Act.state (connect session)) := by
  obtain ⟨packets, payloads, starts⟩ := starts_connect tidy notOpen
  obtain ⟨said, first, all, asking⟩ := starts.asked
  obtain ⟨rfl, rfl⟩ := asking.eq_nil first unspelled
  have again : ∀ payload ∈ packets, payload = packet := by
    rcases starts.packed with ⟨rfl, -⟩ | ⟨packet', spelled', rfl⟩
    · simp
    · cases spelled.symm.trans spelled'
      simp
  rw [← starts.settings] at spelled
  rw [← starts.charset] at unspelled
  refine .repeating (eq_false_of_ne_true fun isOpen => ?_) spelled unspelled ?_
  · cases all isOpen
  · rw [starts.sent, List.append_nil]
    intro payload hmem
    exact (List.mem_append.1 hmem).elim (sent payload) (again payload)

/-- Every operation keeps the order. -/
theorem ordered_perform (tidy : session.Tidy) (h : session.Ordered) (command : Command) :
    Ordered (Act.state (perform command session)) := by
  obtain ⟨packets, payloads, sends⟩ := sends_perform tidy command
  -- Only connecting can begin what is sent. From then on the beginning stays as it is, and what is added
  -- behind it is of interest only where nothing but packets can be.
  cases h with
  | silent notOpen silent =>
    by_cases hcommand : command = .connect
    · subst hcommand
      rw [state_perform_connect]
      exact ordered_connect tidy notOpen silent
    · have idles := idles_perform hcommand notOpen
      exact .silent (idles.notOpen notOpen) (idles.sent.trans silent)
  | @spoken packet bytes more spelled blank sent =>
    rw [← sends.settings] at spelled
    rw [← sends.charset] at blank
    have := sends.sent
    rw [sent, List.append_assoc, List.cons_append, List.cons_append] at this
    exact .spoken spelled blank this
  | hushed spelled mute sent =>
    obtain ⟨hmute, hsent⟩ := mute_perform mute command
    rw [← sends.settings] at spelled
    exact .hushed spelled hmute (hsent.trans sent)
  | repeating notOpen spelled unspelled sent =>
    by_cases hcommand : command = .connect
    · subst hcommand
      rw [state_perform_connect]
      exact ordered_again tidy notOpen spelled unspelled sent
    · have idles := idles_perform hcommand notOpen
      rw [← sends.settings] at spelled
      rw [← sends.charset] at unspelled
      refine .repeating (idles.notOpen notOpen) spelled unspelled ?_
      rwa [idles.sent]

theorem Leads.ordered {now : Session} (h : session.Leads now) (tidy : session.Tidy)
    (ordered : session.Ordered) : now.Ordered := by
  induction h with
  | refl => exact ordered
  | tail reached command ih => exact ordered_perform (reached.tidy tidy).1 ih command

/-- A session with something staged sends no more. -/
theorem mute_of_staged {s : Stream} (tidy : session.Tidy) (hs : session.phase.stream? = some s)
    (staged : s.staged ≠ []) : session.Mute := by
  unfold Tidy at tidy
  cases hp : session.phase with
  | fresh link =>
    rw [hp] at hs
    cases hs
  | broken t =>
    rw [hp] at hs tidy
    cases hs
    refine ⟨s, hp, ?_⟩
    rcases tidy with (empty | closed) | unspelled
    · exact absurd empty staged
    · exact .inl closed
    · exact .inr unspelled
  | «open» t =>
    rw [hp] at hs tidy
    cases hs
    exact absurd tidy.staged staged

end Session

/-- The startup packet, spelled out. -/
theorem Startup.packet_eq (database user : Bytes) :
    packet database user = [0, 0, 1, 0x20, 0, 0, 0, 7] ++
      (Stream.padded 64 database ++ Stream.padded 216 user) := by
  rw [packet, List.append_assoc, List.append_assoc]
  rfl

/-- **Each call that sends carries one message.** In every session that is reached from an unused one, an
operation sends at most the startup packet of the session's settings, and only to connect, and then queries:
those for the first of its own texts, each in front of flush queries. The first that is sent is the packet.
The second is the probe; only where the charset of the stream cannot spell the probe, it is the packet
again, and so is all that is ever sent. Once anything is left staged, nothing is sent any more. -/
theorem each_send_is_one_message {session now : Session} (start : session.Unused)
    (reached : session.Leads now) :
    (∀ command, ∃ packets payloads said,
      (Act.state (Session.perform command now)).phase.link.sent =
        now.phase.link.sent ++ packets ++ payloads ∧
      (packets = [] ∨ command = .connect ∧ ∃ database user,
        Text.encodeIn session.settings.encoding.charset session.settings.database = .ok database ∧
        Text.encodeIn session.settings.encoding.charset session.settings.user = .ok user ∧
        packets = [[0, 0, 1, 0x20, 0, 0, 0, 7] ++
          (Stream.padded 64 database ++ Stream.padded 216 user)]) ∧
      (∀ packet ∈ packets, packet.length = 288) ∧
      Query.Asking session.charset said payloads ∧ said <+: now.textsOf command) ∧
    (∀ first rest, now.phase.link.sent = first :: rest →
      Startup.packetOf session.settings = .ok first ∧
      (∀ bytes second more, Text.encodeIn session.charset Query.blank = .ok bytes →
        rest = second :: more → second = Query.frame bytes) ∧
      (∀ fault, Text.encodeIn session.charset Query.blank = .error fault →
        ∀ payload ∈ rest, payload = first)) ∧
    (∀ s, now.phase.stream? = some s → s.staged ≠ [] → ∀ later, now.Leads later →
      later.phase.link.sent = now.phase.link.sent) := by
  obtain ⟨tidy, charset, settings⟩ := reached.tidy start.tidy
  refine ⟨fun command => ?_, fun first rest hsent => ?_, fun s hs staged later hlater => ?_⟩
  · obtain ⟨packets, payloads, sends⟩ := Session.sends_perform tidy command
    obtain ⟨said, first, -, asking⟩ := sends.asked
    rw [charset] at asking
    refine ⟨packets, payloads, said, sends.sent, ?_, ?_, asking, first⟩
    · rcases sends.packed with none | ⟨connecting, packet, spelled, rfl⟩
      · exact .inl none
      · rw [settings] at spelled
        obtain ⟨database, user, hd, hu, rfl⟩ := Startup.names_of_packetOf spelled
        exact .inr ⟨connecting, database, user, hd, hu, by rw [Startup.packet_eq]⟩
    · rcases sends.packed with rfl | ⟨-, packet, spelled, rfl⟩
      · simp
      · obtain ⟨database, user, -, -, rfl⟩ := Startup.names_of_packetOf spelled
        intro packet hmem
        rw [List.mem_singleton.1 hmem]
        exact Startup.length_packet database user
  · have ordered := reached.ordered start.tidy (.silent start.notOpen start.sent)
    rw [← settings, ← charset]
    cases ordered with
    | silent notOpen silent =>
      rw [silent] at hsent
      cases hsent
    | @spoken packet blank more spelled hblank sent =>
      rw [hsent] at sent
      cases sent
      refine ⟨spelled, fun bytes second more hbytes hrest => ?_, fun fault unspelled => ?_⟩
      · rw [hblank] at hbytes
        cases hbytes
        cases hrest
        rfl
      · rw [hblank] at unspelled
        cases unspelled
    | hushed spelled mute sent =>
      rw [hsent] at sent
      cases sent
      exact ⟨spelled, fun bytes second more _ hrest => (by cases hrest), fun _ _ => by simp⟩
    | repeating notOpen spelled unspelled sent =>
      rw [hsent] at sent
      obtain rfl := sent first List.mem_cons_self
      refine ⟨spelled, fun bytes second more hbytes => ?_, fun _ _ payload hmem => ?_⟩
      · rw [unspelled] at hbytes
        cases hbytes
      · exact sent payload (List.mem_cons_of_mem _ hmem)
  · exact (hlater.mute (Session.mute_of_staged tidy hs staged)).2

/-- A stream that was made with an encoding that nobody knows: each attempt to connect sends the packet and
nothing else. -/
theorem packet_is_sent_again :
    let session : Session :=
      { settings := { database := "d", user := "u" }
        phase := .broken { link := { incoming := [.bytes [0x49, 0]] }, charset := .unknown } }
    let now := Act.state (Session.perform .connect (Act.state (Session.perform .connect session)))
    session.Unused ∧ now.phase.link.sent.length = 2 ∧
      ∀ first rest, now.phase.link.sent = first :: rest → ∀ payload ∈ rest, payload = first := by
  intro session now
  have start : session.Unused := ⟨rfl, rfl, rfl, rfl, fun s hs => by cases hs; exact ⟨rfl, rfl, rfl⟩⟩
  have reached : session.Leads now := ((Session.Leads.refl session).tail .connect).tail .connect
  have unspelled : Text.encodeIn session.charset Query.blank = .error .unknownCharset := by decide +kernel
  obtain ⟨-, order, -⟩ := each_send_is_one_message start reached
  exact ⟨start, by decide +kernel, fun first rest hsent => (order first rest hsent).2.2 _ unspelled⟩

end SimpleQuery
