import SimpleQuery.Proofs.Account
import SimpleQuery.Proofs.Framing

/-!
# The handshake

A session is opened by its startup packet, an empty statement as a probe, and, with autocommit off, the
first `begin`. What comes out of that hangs on two things only: whether the packet goes out, and what the
statements behind it come to.

* `Startup.send_cases` — the packet cannot be spelled, or not be sent, or it is sent whole.
* `Session.execute_cases` — a statement on a stream that can be used is refused, or lost, or sent.
* `Query.Asking` — what was sent, read as the statements that were asked.
* `Stream.said_probing` — what follows the packet asks for the probe, and then for `begin`.
* `Session.greets_greet` — all that a handshake can come to.
-/

set_option autoImplicit false

namespace SimpleQuery

theorem Fault.isLoss_of_foreign {fault : Fault} (h : fault.isOwn = false) : fault.isLoss = false := by
  cases fault with
  | loss cause => cases h
  | _ => rfl

theorem Text.isOwn_of_encodeIn {charset : NamedCharset} {text : String} {fault : Fault}
    (h : encodeIn charset text = .error fault) : fault.isOwn = false := by
  unfold encodeIn at h
  cases charset with
  | malformed | unknown =>
    cases h
    rfl
  | other codec =>
    simp only at h
    cases encoded : codec.encode text with
    | ok bytes =>
      rw [encoded] at h
      cases h
    | error cause =>
      rw [encoded] at h
      cases h
      rfl
  | known cs =>
    simp only at h
    split at h <;> cases h
    rfl

/-! ## The startup packet -/

namespace Startup

/-- The startup packet for settings, if their charset spells both names. -/
def packetOf (settings : Settings) : Except Fault Bytes := do
  let database ← Text.encodeIn settings.encoding.charset settings.database
  let user ← Text.encodeIn settings.encoding.charset settings.user
  return packet database user

/-- The two names in the packet. -/
theorem names_of_packetOf {settings : Settings} {bytes : Bytes} (h : packetOf settings = .ok bytes) :
    ∃ database user,
      Text.encodeIn settings.encoding.charset settings.database = .ok database ∧
      Text.encodeIn settings.encoding.charset settings.user = .ok user ∧
      bytes = packet database user := by
  unfold packetOf at h
  cases hd : Text.encodeIn settings.encoding.charset settings.database with
  | error fault =>
    rw [hd] at h
    cases h
  | ok database =>
    cases hu : Text.encodeIn settings.encoding.charset settings.user with
    | error fault =>
      rw [hd, hu] at h
      cases h
    | ok user =>
      rw [hd, hu] at h
      cases h
      exact ⟨database, user, rfl, rfl, rfl⟩

/-- Where both names can be spelled, the parts are staged as one packet. -/
theorem send_of_packet {settings : Settings} {bytes : Bytes} (h : packetOf settings = .ok bytes) :
    send settings = Stream.stage bytes >>= fun _ => Stream.flush >>= fun _ =>
      Stream.logged (.startupSent length) := by
  obtain ⟨database, user, hd, hu, rfl⟩ := names_of_packetOf h
  funext s
  simp only [send, Stream.stageInteger, Stream.stagePadded, Stream.stage, bind, EStateM.bind, hd, hu,
    Act.ofExcept, pure, EStateM.pure, packet, List.append_assoc]

/-- Where a name cannot be spelled, what was put together up to there stays behind. -/
theorem send_of_unspelled {settings : Settings} {fault : Fault} (h : packetOf settings = .error fault)
    (s : Stream) :
    fault.isOwn = false ∧ ∃ part, send settings s = .error fault { s with staged := s.staged ++ part } := by
  unfold packetOf at h
  simp only [send, Stream.stageInteger, Stream.stagePadded, Stream.stage, bind, EStateM.bind,
    List.append_assoc]
  cases hd : Text.encodeIn settings.encoding.charset settings.database with
  | error cause =>
    rw [hd] at h
    cases h
    exact ⟨Text.isOwn_of_encodeIn hd, _, rfl⟩
  | ok database =>
    cases hu : Text.encodeIn settings.encoding.charset settings.user with
    | error cause =>
      rw [hd, hu] at h
      cases h
      refine ⟨Text.isOwn_of_encodeIn hu,
        Width.four.encode length ++ Width.four.encode code ++ Stream.padded databaseWidth database, ?_⟩
      simp only [Act.ofExcept, pure, EStateM.pure, List.append_assoc]
      rfl
    | ok user =>
      rw [hd, hu] at h
      cases h

/-- A name cannot be spelled, or the packet cannot be sent, or it is sent behind what was staged. -/
theorem send_cases (settings : Settings) (s : Stream) :
    (∃ fault part, packetOf settings = .error fault ∧ fault.isOwn = false ∧
      send settings s = .error fault { s with staged := s.staged ++ part }) ∨
    ∃ bytes, packetOf settings = .ok bytes ∧
      ((∃ cause t, send settings s = .error (.loss cause) t ∧
          (s.closed = true ∨ Link.nextFault s.link.sendFaults ≠ none) ∧ t.charset = s.charset ∧
          t.link.sent = s.link.sent) ∨
        ∃ t, send settings s = .ok () t ∧ s.closed = false ∧ t.Usable ∧ t.charset = s.charset ∧
          t.unread = s.unread ∧ t.link.sent = s.link.sent ++ [s.staged ++ bytes]) := by
  cases h : packetOf settings with
  | error fault =>
    obtain ⟨foreign, part, hs⟩ := send_of_unspelled h s
    exact .inl ⟨fault, part, rfl, foreign, hs⟩
  | ok bytes =>
    refine .inr ⟨bytes, rfl, ?_⟩
    obtain ⟨database, user, -, -, rfl⟩ := names_of_packetOf h
    have hne : s.staged ++ packet database user ≠ [] := by
      intro hnil
      have := congrArg List.length hnil
      rw [List.length_append, length_packet, length] at this
      simp at this
    rw [send_of_packet h]
    simp only [Stream.stage, Stream.flush, bind, EStateM.bind, if_neg hne]
    by_cases hc : s.closed = true
    · rw [if_pos hc]
      exact .inl ⟨_, _, rfl, .inl hc, rfl, rfl⟩
    have isOpen : s.closed = false := eq_false_of_ne_true hc
    rw [if_neg hc]
    simp only [Link.send]
    cases hf : Link.nextFault s.link.sendFaults with
    | none =>
      refine .inr ⟨_, rfl, isOpen, ⟨isOpen, rfl⟩, rfl, rfl, ?_⟩
      rw [(Stream.keeps_log _ _).sent]
      exact Link.sent_record _ _
    | some reason =>
      refine .inl ⟨_, _, rfl, .inr (by simp), rfl, ?_⟩
      rw [(Stream.keeps_log _ _).sent]
      exact Link.sent_of_unsaid rfl _

end Startup

/-! ## What was asked -/

namespace Query

/-- Payloads that are the queries for some texts, in this order, each in front of flush queries. -/
inductive Asking (charset : NamedCharset) : List String → List Bytes → Prop where
  | nil : Asking charset [] []
  | cons {text : String} {texts : List String} {bytes : Bytes} {payloads : List Bytes} (count : Nat)
      (encoded : Text.encodeIn charset text = .ok bytes) (rest : Asking charset texts payloads) :
      Asking charset (text :: texts)
        (frame bytes :: List.replicate count (frame blankBytes) ++ payloads)

namespace Asking

variable {charset : NamedCharset} {texts texts' : List String} {payloads payloads' : List Bytes}

theorem append (h : Asking charset texts payloads) (h' : Asking charset texts' payloads') :
    Asking charset (texts ++ texts') (payloads ++ payloads') := by
  induction h with
  | nil => exact h'
  | cons count encoded _ ih =>
    rw [List.cons_append, List.append_assoc]
    exact .cons count encoded ih

/-- What is asked by the queries for one text. -/
theorem one {text : String} {bytes : Bytes} (count : Nat)
    (encoded : Text.encodeIn charset text = .ok bytes) :
    Asking charset [text] (frame bytes :: List.replicate count (frame blankBytes)) := by
  have := Asking.cons count encoded (.nil : Asking charset [] [])
  rwa [List.append_nil] at this

/-- Nothing is asked where the first text cannot be spelled. -/
theorem eq_nil {text : String} {fault : Fault} (h : Asking charset texts payloads)
    (first : texts <+: text :: texts') (unspelled : Text.encodeIn charset text = .error fault) :
    texts = [] ∧ payloads = [] := by
  cases h with
  | nil => exact ⟨rfl, rfl⟩
  | cons count encoded _ =>
    rw [(List.cons_prefix_cons.1 first).1] at encoded
    cases encoded.symm.trans unspelled

end Asking

/-- Payloads that ask for the first of some texts, and for all of them if that is so. -/
def Asked (charset : NamedCharset) (texts : List String) (all : Prop) (payloads : List Bytes) : Prop :=
  ∃ said, said <+: texts ∧ (all → said = texts) ∧ Asking charset said payloads

namespace Asked

variable {charset : NamedCharset} {texts texts' : List String} {all all' : Prop}
  {payloads payloads' : List Bytes}

theorem nothing (charset : NamedCharset) (texts : List String) (h : ¬all) :
    Asked charset texts all [] :=
  ⟨[], List.nil_prefix, fun ha => absurd ha h, .nil⟩

theorem none (charset : NamedCharset) (all : Prop) : Asked charset [] all [] :=
  ⟨[], List.nil_prefix, fun _ => rfl, .nil⟩

/-- What asks for the first of some texts asks for the first of more. -/
theorem extend (h : Asked charset texts all payloads) (hall : ¬all') :
    Asked charset (texts ++ texts') all' payloads := by
  obtain ⟨said, first, -, asking⟩ := h
  exact ⟨said, first.trans (List.prefix_append _ _), fun ha => absurd ha hall, asking⟩

theorem append (h : Asked charset texts True payloads) (h' : Asked charset texts' all' payloads') :
    Asked charset (texts ++ texts') all' (payloads ++ payloads') := by
  obtain ⟨said, -, rest, asking⟩ := h
  obtain rfl := rest trivial
  obtain ⟨said', first', rest', asking'⟩ := h'
  exact ⟨said ++ said', (List.prefix_append_right_inj said).2 first',
    fun ha => congrArg (said ++ ·) (rest' ha), asking.append asking'⟩

end Asked

end Query

/-! ## A statement on a stream that can be used -/

namespace Session

/-- A statement is refused before anything is staged, or it cannot be sent, which loses the stream, or it
is sent in front of flush queries. -/
theorem execute_cases (handling : NoticeHandling) (statement : String) {s : Stream} (h : s.Usable) :
    (∃ fault, execute handling statement s = .error fault s ∧ fault.isLoss = false ∧
      (maxStatementLength < statement.length ∨ s.encode statement = .error fault)) ∨
    ∃ bytes, s.encode statement = .ok bytes ∧
      ((∃ cause t, execute handling statement s = .error (.loss cause) t ∧
          t.link.sent = s.link.sent) ∨
        ∃ count, (Act.state (execute handling statement s)).link.sent = s.link.sent ++
          Query.frame bytes :: List.replicate count (Query.frame Query.blankBytes)) := by
  by_cases hl : maxStatementLength < statement.length
  · refine .inl ⟨.refusal (.statementTooLong statement.length), ?_, rfl, .inl hl⟩
    simp only [execute, Stream.query_of_long hl]
  have hquery : s.query handling statement = _ := Stream.query_of_short (Nat.le_of_not_lt hl) s
  cases he : s.encode statement with
  | error fault =>
    have foreign := Text.isOwn_of_encodeIn he
    refine .inl ⟨fault, ?_, Fault.isLoss_of_foreign foreign, .inr rfl⟩
    have hfault : s.query handling statement = .error fault s := by
      rw [hquery, he]
      rfl
    simp only [execute, hfault]
    cases fault with
    | loss cause => cases foreign
    | _ => rfl
  | ok bytes =>
    refine .inr ⟨bytes, rfl, ?_⟩
    have hrun : s.query handling statement =
        (Stream.sendQuery bytes >>= fun _ => Stream.receiveAnswer handling : Act Stream Bundle) s := by
      rw [hquery, he]
      rfl
    simp only [bind, EStateM.bind] at hrun
    rcases Stream.sendQuery_alone h.staged bytes with ⟨t, hs, -, staged, sent, -⟩ |
      ⟨cause, t, hs, -, sent, -⟩
    · right
      rw [hs] at hrun
      obtain ⟨-, -, answered⟩ := (Stream.alongAnswers_addsFlushes handling).receiveAnswer t
      obtain ⟨-, count, hcount⟩ := answered (.inl staged)
      refine ⟨count, ?_⟩
      rw [sent_execute_eq, hrun, hcount, sent, List.append_assoc, List.singleton_append]
    · left
      rw [hs] at hrun
      have lost : execute handling statement s = .error (.loss cause) (t.log .sessionBroken).close := by
        simp only [execute, hrun]
      refine ⟨cause, _, lost, ?_⟩
      rw [Stream.sent_close, (Stream.keeps_log _ _).sent, sent]

theorem charset_close (s : Stream) : s.close.charset = s.charset := by
  unfold Stream.close
  simp only
  split <;> rfl

/-- A statement leaves the charset as it is. -/
theorem charset_execute (handling : NoticeHandling) (statement : String) :
    Act.Moves (fun s t : Stream => t.charset = s.charset) (execute handling statement) := by
  intro s
  have hcharset := Stream.charset_query handling statement s
  unfold execute
  cases hq : s.query handling statement with
  | ok bundle t =>
    rw [hq] at hcharset
    exact hcharset
  | error fault t =>
    rw [hq] at hcharset
    cases fault with
    | loss cause => exact (charset_close _).trans hcharset
    | _ => exact hcharset

end Session

namespace Stream

variable {α β : Type} {texts texts' : List String} {s : Stream}

/-- A run from `s` sent the queries for the first of some texts, and for all of them if it succeeded. What
it leaves can be used, or it was lost and is closed. -/
structure Said (texts : List String) (s : Stream) (result : EStateM.Result Fault Stream α) : Prop where
  asked : ∃ payloads, (Act.state result).link.sent = s.link.sent ++ payloads ∧
    Query.Asked s.charset texts (∃ a, Act.outcome result = .ok a) payloads
  charset : (Act.state result).charset = s.charset
  usable : Act.isLost result = false → (Act.state result).Usable
  closed : Act.isLost result = true → (Act.state result).closed = true

namespace Said

theorem pure (h : s.Usable) (a : α) : Said [] s ((Pure.pure a : Act Stream α) s) where
  asked := ⟨[], (List.append_nil _).symm, .none _ _⟩
  charset := rfl
  usable _ := h
  closed lost := by cases lost

theorem bind {act : Act Stream α} {next : α → Act Stream β} (h : Said texts s (act s))
    (hn : ∀ a t, act s = .ok a t → t.Usable → Said texts' t (next a t)) :
    Said (texts ++ texts') s ((act >>= next) s) := by
  simp only [Bind.bind, EStateM.bind]
  obtain ⟨payloads, sent, asked⟩ := h.asked
  have charset := h.charset
  have usable := h.usable
  have closed := h.closed
  cases hr : act s with
  | ok a t =>
    rw [hr] at sent asked charset usable
    simp only [Act.state_ok] at sent charset
    have later := hn a t hr (usable rfl)
    obtain ⟨payloads', sent', asked'⟩ := later.asked
    rw [charset] at asked'
    obtain ⟨said, first, all, asking⟩ := asked
    refine ⟨⟨payloads ++ payloads', ?_, .append ⟨said, first, fun _ => all ⟨a, rfl⟩, asking⟩ asked'⟩,
      later.charset.trans charset, later.usable, later.closed⟩
    rw [sent', sent, List.append_assoc]
  | error fault t =>
    rw [hr] at sent asked charset usable closed
    refine ⟨⟨payloads, sent, asked.extend ?_⟩, charset, usable, closed⟩
    rintro ⟨b, hb⟩
    cases hb

end Said

/-- A statement asks for itself, or for nothing. -/
theorem said_execute (handling : NoticeHandling) (statement : String) (h : s.Usable) :
    Said [statement] s (Session.execute handling statement s) where
  asked := by
    rcases Session.execute_cases handling statement h with ⟨fault, he, -⟩ |
      ⟨bytes, hb, ⟨cause, t, he, sent⟩ | ⟨count, sent⟩⟩
    · rw [he]
      refine ⟨[], (List.append_nil _).symm, .nothing _ _ ?_⟩
      rintro ⟨b, hb⟩
      cases hb
    · rw [he]
      refine ⟨[], sent.trans (List.append_nil _).symm, .nothing _ _ ?_⟩
      rintro ⟨b, hb⟩
      cases hb
    · exact ⟨_, sent, [statement], List.prefix_rfl, fun _ => rfl, .one count hb⟩
  charset := Session.charset_execute handling statement s
  usable := Session.usable_of_execute handling statement h
  closed := Session.closed_of_lost

end Stream

/-! ## The whole handshake -/

namespace Session

/-- With autocommit off, the first `begin`. -/
def beginning (settings : Settings) (handling : NoticeHandling) : Act Stream Unit := do
  if !settings.autocommit then
    let _ ← execute handling Control.begin.statement

/-- What follows the startup packet: the probe, and then `begin` if that is wanted. -/
def probing (settings : Settings) (handling : NoticeHandling) : Act Stream Unit := do
  let _ ← execute handling Query.blank
  beginning settings handling

theorem handshake_eq (settings : Settings) (handling : NoticeHandling) :
    handshake settings handling = Startup.send settings >>= fun _ => probing settings handling := rfl

/-- The texts that open a transaction, if one is kept open. -/
def beginningTexts (settings : Settings) : List String :=
  if settings.autocommit then [] else [Control.begin.statement]

/-- The texts that follow the startup packet. -/
def openingTexts (settings : Settings) : List String := Query.blank :: beginningTexts settings

theorem said_beginning (settings : Settings) (handling : NoticeHandling) {s : Stream} (h : s.Usable) :
    Stream.Said (beginningTexts settings) s (beginning settings handling s) := by
  unfold beginning beginningTexts
  cases settings.autocommit with
  | true => exact .pure h ()
  | false => exact (Stream.said_execute handling _ h).bind fun _ _ _ ht => .pure ht ()

/-- What follows the packet asks for the probe, and then for `begin`. -/
theorem said_probing (settings : Settings) (handling : NoticeHandling) {s : Stream} (h : s.Usable) :
    Stream.Said (openingTexts settings) s (probing settings handling s) :=
  (Stream.said_execute handling Query.blank h).bind fun _ _ _ ht => said_beginning settings handling ht

/-- The probe cannot be spelled, or the stream is lost, or the probe is the first that is sent. -/
theorem probing_cases (settings : Settings) (handling : NoticeHandling) {s : Stream} (h : s.Usable) :
    (∃ fault, s.encode Query.blank = .error fault) ∨
      Act.isLost (probing settings handling s) = true ∨
      ∃ bytes more, s.encode Query.blank = .ok bytes ∧
        (Act.state (probing settings handling s)).link.sent =
          s.link.sent ++ Query.frame bytes :: more := by
  simp only [probing, bind, EStateM.bind]
  rcases execute_cases handling Query.blank h with ⟨fault, -, -, long | unspelled⟩ |
    ⟨bytes, spelled, ⟨cause, t, lost, -⟩ | ⟨count, sent⟩⟩
  · exact absurd long (by decide)
  · exact .inl ⟨fault, unspelled⟩
  · rw [lost]
    exact .inr (.inl rfl)
  · refine .inr (.inr ⟨bytes, ?_⟩)
    have said := Stream.said_execute handling Query.blank h
    cases he : execute handling Query.blank s with
    | error fault t =>
      rw [he] at sent
      exact ⟨_, spelled, sent⟩
    | ok bundle t =>
      rw [he] at sent said
      obtain ⟨payloads, later, -⟩ := (said_beginning settings handling (said.usable rfl)).asked
      refine ⟨List.replicate count (Query.frame Query.blankBytes) ++ payloads, spelled, ?_⟩
      rw [sent, List.append_assoc, List.cons_append] at later
      exact later

/-- The answer to a statement was read to its end, and no error was in it. -/
def Answered (handling : NoticeHandling) (statement : String) (s t : Stream) : Prop :=
  ∃ bytes u r entry, s.encode statement = .ok bytes ∧ Stream.sendQuery bytes s = .ok () u ∧
    Reader.readFrom handling { stream := u } = .ok () r ∧ r.response.done = true ∧
    r.response.error = none ∧ t = r.stream.log entry

theorem answered_of_receiveAnswer {handling : NoticeHandling} {s t : Stream} {bundle : Bundle}
    (h : Stream.receiveAnswer handling s = .ok bundle t) :
    ∃ r, Reader.readFrom handling { stream := s } = .ok () r ∧ r.response.done = true ∧
      r.response.error = none ∧ t = r.stream := by
  simp only [Stream.receiveAnswer, Reader.read, bind, EStateM.bind] at h
  cases hr : Reader.readFrom handling { stream := s } with
  | error fault r =>
    rw [hr] at h
    cases h
  | ok _ r =>
    rw [hr] at h
    simp only [Reader.finish, Response.result] at h
    refine ⟨r, rfl, Reader.done_of_readFrom hr, ?_⟩
    cases he : r.response.error with
    | some message =>
      rw [he] at h
      cases h
    | none =>
      rw [he] at h
      cases h
      exact ⟨rfl, rfl⟩

theorem answered_of_execute {handling : NoticeHandling} {statement : String} {s t : Stream}
    {bundle : Bundle} (h : execute handling statement s = .ok bundle t) :
    Answered handling statement s t := by
  have hquery : ∃ v entry, s.query handling statement = .ok bundle v ∧ t = v.log entry := by
    unfold execute at h
    split at h <;> cases h
    exact ⟨_, _, by assumption, rfl⟩
  obtain ⟨v, entry, hquery, rfl⟩ := hquery
  by_cases hl : maxStatementLength < statement.length
  · rw [Stream.query_of_long hl] at hquery
    cases hquery
  rw [Stream.query_of_short (Nat.le_of_not_lt hl)] at hquery
  cases he : s.encode statement with
  | error fault =>
    rw [he] at hquery
    cases hquery
  | ok bytes =>
    rw [he] at hquery
    change (Stream.sendQuery bytes >>= fun _ => Stream.receiveAnswer handling : Act Stream Bundle) s = _
      at hquery
    simp only [bind, EStateM.bind] at hquery
    cases hs : Stream.sendQuery bytes s with
    | error fault u =>
      rw [hs] at hquery
      cases hquery
    | ok _ u =>
      rw [hs] at hquery
      obtain ⟨r, hr, done, unfailed, rfl⟩ := answered_of_receiveAnswer hquery
      exact ⟨bytes, u, r, entry, he, hs, hr, done, unfailed, rfl⟩

theorem answered_of_beginning {settings : Settings} {handling : NoticeHandling} {s t : Stream}
    (h : beginning settings handling s = .ok () t) :
    if settings.autocommit then t = s else Answered handling Control.begin.statement s t := by
  unfold beginning at h
  cases ha : settings.autocommit with
  | true =>
    rw [ha] at h
    cases h
    rfl
  | false =>
    rw [ha] at h
    simp only [Bool.not_false, if_true, bind, EStateM.bind] at h
    cases hb : execute handling Control.begin.statement s with
    | error fault u =>
      rw [hb] at h
      cases h
    | ok bundle u =>
      rw [hb] at h
      cases h
      exact answered_of_execute hb

/-- An opening that succeeds has read the answers to all that it asked. -/
theorem answered_of_probing {settings : Settings} {handling : NoticeHandling} {s t : Stream}
    (h : probing settings handling s = .ok () t) :
    ∃ u, Answered handling Query.blank s u ∧
      if settings.autocommit then t = u else Answered handling Control.begin.statement u t := by
  simp only [probing, bind, EStateM.bind] at h
  cases hp : execute handling Query.blank s with
  | error fault u =>
    rw [hp] at h
    cases h
  | ok bundle u =>
    rw [hp] at h
    exact ⟨u, answered_of_execute hp, answered_of_beginning h⟩

/-- The packet was sent, and the stream can be used. -/
structure Packed (packet : Bytes) (s t : Stream) : Prop where
  isOpen : s.closed = false
  usable : t.Usable
  charset : t.charset = s.charset
  unread : t.unread = s.unread
  sent : t.link.sent = s.link.sent ++ [packet]

/-- All that opening a session on a stream can come to. The handshake ends before the packet is sent, or
the packet is followed by the probe and what comes of it: an open session, a loss with the stream closed,
or, where a handler or a charset gave up, a stream that is left as it is. -/
inductive Greets (session : Session) (s : Stream) : EStateM.Result Fault Session Unit → Prop where
  | unspelled {fault : Fault} {part : Bytes} (unspelled : Startup.packetOf session.settings = .error fault)
      (foreign : fault.isOwn = false) :
      Greets session s
        (.error fault { session with phase := .broken { s with staged := s.staged ++ part } })
  | unsent {packet : Bytes} {cause : Loss} {t : Stream}
      (spelled : Startup.packetOf session.settings = .ok packet)
      (failed : s.closed = true ∨ Link.nextFault s.link.sendFaults ≠ none) (closed : t.closed = true)
      (charset : t.charset = s.charset) (sent : t.link.sent = s.link.sent) :
      Greets session s (.error (.loss cause) { session with phase := .broken t })
  | opened {packet : Bytes} {t u : Stream} (spelled : Startup.packetOf session.settings = .ok packet)
      (packed : Packed packet s t) (probed : probing session.settings session.handling t = .ok () u) :
      Greets session s (.ok () { session with
        phase := .open (u.log (.established (session.settings.autocommit && session.autocommit)))
        autocommit := session.settings.autocommit && session.autocommit })
  | failed {packet : Bytes} {t u : Stream} {fault : Fault} {cause : Loss}
      (spelled : Startup.packetOf session.settings = .ok packet) (packed : Packed packet s t)
      (probed : probing session.settings session.handling t = .error fault u)
      (own : fault.isOwn = true) :
      Greets session s (.error (.loss cause) { session with phase := .broken u.close })
  | abandoned {packet : Bytes} {t u : Stream} {fault : Fault}
      (spelled : Startup.packetOf session.settings = .ok packet) (packed : Packed packet s t)
      (probed : probing session.settings session.handling t = .error fault u)
      (foreign : fault.isOwn = false) :
      Greets session s (.error fault { session with phase := .broken u })

/-- A stream on which no message can be sent behind a part of another: nothing waits on it, or it is
closed, or the startup packet cannot be spelled. -/
def TidyStream (settings : Settings) (s : Stream) : Prop :=
  s.Clear ∨ ∃ fault, Startup.packetOf settings = .error fault

/-- A handshake on such a stream is one of these. -/
theorem greets_greet {session : Session} {s : Stream} (tidy : TidyStream session.settings s) :
    Greets session s (greet s session) := by
  unfold greet
  rw [handshake_eq]
  simp only [bind, EStateM.bind]
  rcases Startup.send_cases session.settings s with ⟨fault, part, unspelled, foreign, hs⟩ |
    ⟨packet, spelled, ⟨cause, t, hs, failed, charset, sent⟩ | ⟨t, hs, isOpen, usable, charset, unread, sent⟩⟩
  · rw [hs]
    cases fault with
    | loss cause | refusal cause => cases foreign
    | _ => exact .unspelled unspelled foreign
  · rw [hs]
    refine .unsent spelled failed (Stream.closed_close t) ((charset_close t).trans charset) ?_
    rw [Stream.sent_close, sent]
  · rw [hs]
    -- The packet went out, so nothing can have been in front of it: on a tidy stream only a packet that
    -- cannot be spelled leaves a part of itself.
    have staged : s.staged = [] := by
      rcases tidy with clear | ⟨fault, unspelled⟩
      · exact (clear.usable isOpen).staged
      · rw [spelled] at unspelled
        cases unspelled
    rw [staged, List.nil_append] at sent
    have packed : Packed packet s t := ⟨isOpen, usable, charset, unread, sent⟩
    simp only
    cases hp : probing session.settings session.handling t with
    | ok _ u => exact .opened spelled packed hp
    | error fault u =>
      cases fault with
      | loss cause | refusal cause => exact .failed spelled packed hp rfl
      | _ => exact .abandoned spelled packed hp rfl

/-- All that connecting can come to. -/
inductive Connects (session : Session) : EStateM.Result Fault Session Unit → Prop where
  | already (isOpen : session.isOpen = true) : Connects session (.ok () session)
  | undialled {link m : Link} {fault : Fault} (phase : session.phase = .fresh link)
      (dials : dial session.settings (link.log (connecting session.settings)) = .error (fault, m)) :
      Connects session (.error fault { session with phase := .fresh m })
  | dialled {link : Link} {s : Stream} {result : EStateM.Result Fault Session Unit}
      (phase : session.phase = .fresh link)
      (dials : dial session.settings (link.log (connecting session.settings)) = .ok s)
      (greets : Greets session s result) : Connects session result
  | again {s : Stream} {result : EStateM.Result Fault Session Unit} (phase : session.phase = .broken s)
      (greets : Greets session (s.log (connecting session.settings)) result) : Connects session result

/-- A session on whose stream no message can be sent behind a part of another. -/
def Tidy (session : Session) : Prop :=
  match session.phase with
  | .fresh _ => True
  | .broken s => TidyStream session.settings s
  | .open s => s.Usable

/-- A session that was not used yet: nothing has happened on its link, and if it was made over a stream,
that is open and nothing waits on it. -/
structure Unused (session : Session) : Prop where
  autocommit : session.autocommit = true
  journal : session.phase.link.journal = []
  hungUp : session.phase.link.hungUp = false
  notOpen : session.isOpen = false
  stream : ∀ s, session.phase = .broken s → s.closed = false ∧ s.unread = [] ∧ s.staged = []

theorem Unused.tidy {session : Session} (h : session.Unused) : session.Tidy := by
  have notOpen := h.notOpen
  unfold isOpen at notOpen
  unfold Tidy
  cases hp : session.phase with
  | fresh link => trivial
  | broken s => exact .inl (.inl (h.stream s hp).2.2)
  | «open» s =>
    rw [hp] at notOpen
    cases notOpen

theorem Unused.sent {session : Session} (h : session.Unused) : session.phase.link.sent = [] := by
  rw [Link.sent, Link.history, h.journal]
  rfl

/-- A stream as it is when it was just dialled. -/
structure JustDialled (settings : Settings) (link : Link) (s : Stream) : Prop where
  isOpen : s.closed = false
  staged : s.staged = []
  unread : s.unread = []
  charset : s.charset = settings.encoding.charset
  sent : s.link.sent = link.sent
  receives : s.link.receives = link.receives

theorem justDialled_of_dial {settings : Settings} {link : Link} {s : Stream}
    (h : dial settings link = .ok s) : JustDialled settings link s := by
  unfold dial at h
  simp only [Link.dial] at h
  cases hf : Link.nextFault link.dialFaults with
  | some cause =>
    rw [hf] at h
    cases cause <;> cases h
  | none =>
    rw [hf] at h
    cases h
    refine ⟨rfl, rfl, rfl, rfl, ?_, ?_⟩
    · simp only [Link.log, Link.sent_record, Event.payload?, Option.toList_none, List.append_nil]
      rfl
    · simp only [Link.receives_log, Link.receives_record]
      rfl

/-- What happens when a link is dialled in vain, the latest first. Only what the system refuses is logged. -/
def vainPast (settings : Settings) : DialFault → List Event
  | .refused reason =>
    [.logged (.dialFailed settings.host settings.port reason),
      .dialled settings.host settings.port settings.connectTimeout false]
  | .foreign _ => [.dialled settings.host settings.port settings.connectTimeout false]

/-- The link once it was dialled in vain. -/
theorem link_of_dial {settings : Settings} {link m : Link} {fault : Fault}
    (h : dial settings link = .error (fault, m)) :
    ∃ cause, Link.nextFault link.dialFaults = some cause ∧ fault = cause.fault ∧
      m = { link with
        dialFaults := link.dialFaults.tail
        journal := vainPast settings cause ++ link.journal } := by
  unfold dial at h
  simp only [Link.dial] at h
  cases hf : Link.nextFault link.dialFaults with
  | none =>
    rw [hf] at h
    cases h
  | some cause =>
    rw [hf] at h
    refine ⟨cause, rfl, ?_⟩
    cases cause <;>
    · cases h
      exact ⟨rfl, rfl⟩

theorem sent_of_vain_dial {settings : Settings} {link m : Link} {fault : Fault} {entry : Log.Entry}
    (h : dial settings (link.log entry) = .error (fault, m)) : m.sent = link.sent := by
  obtain ⟨cause, -, -, rfl⟩ := link_of_dial h
  cases cause <;> simp [Link.sent, Link.history, vainPast, Link.log, Link.record, Event.payload?]

theorem receives_of_vain_dial {settings : Settings} {link m : Link} {fault : Fault}
    {entry : Log.Entry} (h : dial settings (link.log entry) = .error (fault, m)) :
    m.receives = link.receives := by
  obtain ⟨cause, -, -, rfl⟩ := link_of_dial h
  cases cause <;> simp [Link.receives, Link.history, vainPast, Link.log, Link.record, Event.isReceive]

theorem connects_connect {session : Session} (tidy : session.Tidy) :
    Connects session (connect session) := by
  unfold Tidy at tidy
  unfold connect
  cases hp : session.phase with
  | «open» s => exact .already (by rw [isOpen, hp])
  | broken s =>
    rw [hp] at tidy
    exact .again hp (greets_greet tidy)
  | fresh link =>
    simp only
    cases hd : dial session.settings (link.log (connecting session.settings)) with
    | error failure => exact .undialled hp hd
    | ok s => exact .dialled hp hd (greets_greet (.inl (.inl (justDialled_of_dial hd).staged)))

/-- The bytes that wait to be read. -/
def unread (session : Session) : Bytes := (session.phase.stream?.map Stream.unread).getD []

/-- How a session is opened: the packet was sent on what is then the stream `s`, and behind it the answers
to the probe and to the first `begin` were read to their ends. -/
structure Opens (session after : Session) (packet : Bytes) (s t u : Stream) : Prop where
  spelled : Startup.packetOf session.settings = .ok packet
  usable : s.Usable
  unread : s.unread = session.unread
  sent : s.link.sent = session.phase.link.sent ++ [packet]
  probed : Answered session.handling Query.blank s t
  begun : if session.settings.autocommit then u = t
    else Answered session.handling Control.begin.statement t u
  left : ∃ entry, after = { session with
    phase := .open (u.log entry)
    autocommit := session.settings.autocommit && session.autocommit }

theorem Greets.opens {session after : Session} {r : Stream} (h : Greets session r (.ok () after))
    (sent : r.link.sent = session.phase.link.sent) (unread : r.unread = session.unread) :
    ∃ packet s t u, Opens session after packet s t u := by
  cases h with
  | @opened packet s u spelled packed probed =>
    obtain ⟨t, answered, begun⟩ := answered_of_probing probed
    exact ⟨packet, s, t, u, spelled, packed.usable, packed.unread.trans unread,
      packed.sent.trans (congrArg (· ++ [packet]) sent), answered, begun, _, rfl⟩

/-- Connecting that succeeds on a session that is not open opens it. -/
theorem opens_of_connect {session after : Session} (tidy : session.Tidy) (notOpen : session.isOpen = false)
    (h : connect session = .ok () after) : ∃ packet s t u, Opens session after packet s t u := by
  have connects := connects_connect tidy
  rw [h] at connects
  cases connects with
  | already isOpen =>
    rw [notOpen] at isOpen
    cases isOpen
  | dialled phase dials greets =>
    have just := justDialled_of_dial dials
    refine greets.opens ?_ ?_
    · rw [just.sent, phase]
      exact Link.sent_log _ _
    · rw [just.unread, unread, phase]
      rfl
  | again phase greets =>
    refine greets.opens ?_ ?_
    · rw [phase]
      exact (Stream.keeps_log _ _).sent
    · rw [unread, phase]
      rfl

theorem Greets.notOpen {session after : Session} {s : Stream} {fault : Fault}
    (h : Greets session s (.error fault after)) : after.isOpen = false := by
  cases h <;> rfl

/-- A session is not open behind an attempt to connect that failed. -/
theorem notOpen_of_connect {session after : Session} {fault : Fault} (tidy : session.Tidy)
    (h : connect session = .error fault after) : after.isOpen = false := by
  have connects := connects_connect tidy
  rw [h] at connects
  cases connects with
  | undialled => rfl
  | dialled _ _ greets | again _ greets => exact greets.notOpen

end Session

end SimpleQuery
