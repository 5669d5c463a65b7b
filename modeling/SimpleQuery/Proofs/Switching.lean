import SimpleQuery.Proofs.Handshake
import SimpleQuery.Proofs.Journal
import SimpleQuery.Proofs.Truncation

/-!
# Autocommit off from the start, or switched off later

A session whose settings have autocommit off begins its first transaction while it connects. A session that
connects with autocommit on and switches it off behind that begins the same transaction by a call of its own.
The statement is the same, and it is run on streams that differ in one log entry, so the two ways cannot be
told apart on the transport. Where the statement fails, the first way has nothing to show but a session that
could not be opened.

* `Session.handshake_off` — the handshake without autocommit is the one with it, and then `begin`.
* `Session.runs_logged` — a run does not see that something was logged before it.
* `Session.connect_preferring` — connecting in both ways, up to `begin`.
* `connecting_without_autocommit_is_switching_it_off` — the two ways.
-/

set_option autoImplicit false

namespace SimpleQuery

open Act (Respects seen)

namespace Session

/-- The session with settings that have autocommit on, or off. -/
def preferring (autocommit : Bool) (session : Session) : Session :=
  { session with settings := { session.settings with autocommit } }

/-- Connects and then switches autocommit off. -/
def connectThenSwitch : Act Session Unit := do
  connect
  setAutocommit false

variable {session : Session}

/-! ## The statement that begins a transaction -/

/-- The handshake without autocommit is the one with it, and then `begin`. -/
theorem handshake_off (settings : Settings) (handling : NoticeHandling) :
    handshake { settings with autocommit := false } handling =
      handshake { settings with autocommit := true } handling >>= fun _ =>
        beginning { settings with autocommit := false } handling := by
  have packet : Startup.send { settings with autocommit := false } =
      Startup.send { settings with autocommit := true } := rfl
  funext s
  simp only [handshake, packet, bind, EStateM.bind]
  cases Startup.send { settings with autocommit := true } s with
  | error fault t => rfl
  | ok _ t =>
    simp only
    cases execute handling Query.blank t <;> rfl

/-- A run does not see what was logged before it: its result is one result behind either past. -/
theorem runs_logged (handling : NoticeHandling) (statement : String) (entry : Log.Entry) (s : Stream) :
    ∃ r : EStateM.Result Fault Stream Bundle,
      execute handling statement s = seen (Stream.since s.link.journal) r ∧
        execute handling statement (s.log entry) =
          seen (Stream.since (.logged entry :: s.link.journal)) r := by
  -- Both streams are the one without a past, with a past put behind it that has the same notices.
  have same : Event.heard s.link.journal = Event.heard (.logged entry :: s.link.journal) := by
    simp [Event.heard, Event.notice?]
  let bare : Stream := { s with link := { s.link with journal := [] } }
  exact Stream.exists_seen_of_parted
    ((congruence_since same).execute handling statement s (s.log entry) ⟨bare, rfl, rfl⟩)

/-- What comes of a handshake without autocommit once the probe is answered, by what `begin` comes to. -/
def begun (session : Session) : EStateM.Result Fault Stream Bundle → EStateM.Result Fault Session Unit
  | .ok _ u => .ok () { session with phase := .open (u.log (.established false)), autocommit := false }
  | .error (.loss cause) u => .error (.loss cause) { session with phase := .broken u.close }
  | .error (.refusal cause) u => .error (.loss (.handshake cause)) { session with phase := .broken u.close }
  | .error fault u => .error fault { session with phase := .broken u }

/-- What comes of switching autocommit off, by what `begin` comes to. -/
def switched (session : Session) : EStateM.Result Fault Stream Bundle → EStateM.Result Fault Session Unit
  | .ok _ u => .ok () { session with phase := .open u, autocommit := false }
  | .error fault u =>
    .error fault { session with phase := if fault.isLoss then .broken u else .open u }

/-- Switching autocommit off on an open session that has it on runs `begin`. -/
theorem setAutocommit_of_open {s : Stream} (isOpen : session.phase = .open s)
    (tracking : session.autocommit = true) :
    setAutocommit false session =
      switched session (execute session.handling Control.begin.statement s) := by
  have ready : requireOpen session = .ok () session :=
    requireOpen_of_isOpen (by rw [Session.isOpen, isOpen])
  have switches : setAutocommit false session =
      (control .begin >>= fun _ => noteAutocommit false : Act Session Unit) session := by
    simp only [setAutocommit, bind, EStateM.bind, ready, Act.get_eq, tracking]
    rfl
  rw [switches]
  simp only [control, query, bind, EStateM.bind, Act.get_eq, onStream_of_open _ isOpen]
  cases execute session.handling Control.begin.statement s <;> rfl

/-! ## Connecting in both ways -/

/-- The session connected with autocommit on, over a stream that the handshake leaves. -/
def opened (session : Session) (t : Stream) : Session :=
  { session.preferring true with phase := .open (t.log (.established true)) }

/-- Up to `begin` the handshakes with and without autocommit are one. -/
theorem greet_preferring (tracking : session.autocommit = true) (s : Stream) :
    (∃ fault a b, greet s (session.preferring false) = .error fault a ∧
      greet s (session.preferring true) = .error fault b) ∨
    ∃ t, t.Usable ∧
      greet s (session.preferring false) =
        begun (session.preferring false) (execute session.handling Control.begin.statement t) ∧
      greet s (session.preferring true) = .ok () (session.opened t) := by
  have split := congrFun (handshake_off session.settings session.handling) s
  simp only [bind, EStateM.bind] at split
  unfold greet
  rw [show handshake (session.preferring false).settings (session.preferring false).handling s =
    handshake { session.settings with autocommit := false } session.handling s from rfl, split]
  rw [show handshake (session.preferring true).settings (session.preferring true).handling s =
    handshake { session.settings with autocommit := true } session.handling s from rfl]
  cases hs : handshake { session.settings with autocommit := true } session.handling s with
  | error fault t =>
    left
    cases fault <;> exact ⟨_, _, _, rfl, rfl⟩
  | ok _ t =>
    refine .inr ⟨t, usable_of_handshake hs, ?_, ?_⟩
    · simp only [beginning, bind, EStateM.bind, Bool.not_false, if_true]
      cases execute session.handling Control.begin.statement t with
      | ok bundle u => rfl
      | error fault u => cases fault <;> rfl
    · simp only [opened, preferring, tracking, Bool.and_self]

/-- So are the attempts to connect a session that is not open. -/
theorem connect_preferring (notOpen : session.isOpen = false) (tracking : session.autocommit = true) :
    (∃ fault a b, connect (session.preferring false) = .error fault a ∧
      connect (session.preferring true) = .error fault b) ∨
    ∃ t, t.Usable ∧
      connect (session.preferring false) =
        begun (session.preferring false) (execute session.handling Control.begin.statement t) ∧
      connect (session.preferring true) = .ok () (session.opened t) := by
  have phase (autocommit : Bool) : (session.preferring autocommit).phase = session.phase := rfl
  unfold connect
  rw [phase, phase]
  unfold isOpen at notOpen
  cases hp : session.phase with
  | «open» s =>
    rw [hp] at notOpen
    cases notOpen
  | broken s => exact greet_preferring tracking _
  | fresh link =>
    -- No setting that is read to dial tells the two apart.
    have dials (autocommit : Bool) : dial (session.preferring autocommit).settings
        (link.log (connecting (session.preferring autocommit).settings)) =
      dial session.settings (link.log (connecting session.settings)) := rfl
    simp only [dials]
    cases dial session.settings (link.log (connecting session.settings)) with
    | ok s => exact greet_preferring tracking s
    | error failure => exact .inl ⟨_, _, _, rfl, rfl⟩

/-- Behind both attempts `begin` comes to one result, with the log entry in its past or without. -/
theorem setAutocommit_opened (tracking : session.autocommit = true) (t : Stream) :
    ∃ r : EStateM.Result Fault Stream Bundle,
      execute session.handling Control.begin.statement t = seen (Stream.since t.link.journal) r ∧
        setAutocommit false (session.opened t) = switched (session.opened t)
          (seen (Stream.since (.logged (.established true) :: t.link.journal)) r) := by
  obtain ⟨r, first, later⟩ :=
    runs_logged session.handling Control.begin.statement (.established true) t
  refine ⟨r, first, ?_⟩
  rw [← later]
  exact setAutocommit_of_open rfl tracking

/-! ## What the two ways leave -/

/-- Two open sessions without autocommit, which have made the same calls and handed over the same notices, and
have the same still to read. -/
structure Coincide (a b : Session) : Prop where
  isOpen : a.isOpen = true ∧ b.isOpen = true
  autocommit : a.autocommit = false ∧ b.autocommit = false
  calls : a.phase.link.calls = b.phase.link.calls
  notices : a.phase.link.notices = b.phase.link.notices
  unread : a.unread = b.unread
  incoming : a.phase.link.incoming = b.phase.link.incoming

/-- What log entries are no part of is the same wherever in the past one of them stands. -/
theorem filterMap_history_since {α : Type} {pick : Event → Option α}
    (silent : ∀ entry, pick (.logged entry) = none) (before after : Log.Entry) (past : List Event)
    (link : Link) :
    ((link.since past).log after).history.filterMap pick =
      (link.since (.logged before :: past)).history.filterMap pick := by
  simp [Link.history, Link.log, Link.record, Link.since, silent]

/-- Where `begin` succeeds, the two ways leave sessions that coincide. -/
theorem coincide_of_ok (past : List Event) (bundle : Bundle) (u : Stream) {off on a b : Session}
    (ha : begun off (.ok bundle (u.since past)) = .ok () a)
    (hb : switched on (.ok bundle (u.since (.logged (.established true) :: past))) = .ok () b) :
    Coincide a b := by
  cases ha
  cases hb
  refine ⟨⟨rfl, rfl⟩, ⟨rfl, rfl⟩, ?_, filterMap_history_since (fun _ => rfl) _ _ past u.link, rfl, rfl⟩
  show ((u.link.since past).log _).calls = (u.link.since _).calls
  rw [Link.calls, Link.calls, ← List.filterMap_eq_filter]
  exact filterMap_history_since (fun _ => rfl) _ _ past u.link

/-- Closing a stream on which a statement has failed closes its transport, if that was not done yet. -/
theorem hungUp_of_execute {handling : NoticeHandling} {statement : String} {s t : Stream} {fault : Fault}
    (isOpen : s.closed = false) (h : execute handling statement s = .error fault t) :
    t.close.link.hungUp = true := by
  have conducts := Stream.conducts_query handling statement s
  unfold execute at h
  cases hq : s.query handling statement with
  | ok bundle u =>
    rw [hq] at h
    cases h
  | error cause u =>
    rw [hq] at conducts h
    have still : u.closed = false := conducts.closed.trans isOpen
    cases cause with
    | loss cause =>
      -- A loss has closed the stream, and closing it once more calls nothing.
      cases h
      have hungUp := Stream.hungUp_close (s := u.log .sessionBroken) still
      rw [Stream.close, if_pos (Stream.closed_close _)]
      exact hungUp
    | _ =>
      cases h
      exact Stream.hungUp_close still

/-- How a session that could not be opened is let go of: its stream is closed, and so is its transport. -/
structure LetGo (session : Session) : Prop where
  notOpen : session.isOpen = false
  closed : ∃ s, session.phase = .broken s ∧ s.closed = true
  hungUp : session.phase.link.hungUp = true

/-- Where `begin` fails, the session could not be opened, and its fault tells why. -/
theorem begun_of_fault (session : Session) {handling : NoticeHandling} {statement : String} {s t : Stream}
    {fault : Fault} (isOpen : s.closed = false) (h : execute handling statement s = .error fault t) :
    (∀ cause, fault = .loss cause →
      ∃ a, begun session (.error fault t) = .error (.loss cause) a ∧ a.LetGo) ∧
    (∀ cause, fault = .refusal cause →
      ∃ a, begun session (.error fault t) = .error (.loss (.handshake cause)) a ∧ a.LetGo) ∧
    (fault.isOwn = false → ∃ a, begun session (.error fault t) = .error fault a ∧ a.isOpen = false) := by
  have letGo : LetGo { session with phase := .broken t.close } :=
    ⟨rfl, ⟨_, rfl, Stream.closed_close t⟩, hungUp_of_execute isOpen h⟩
  refine ⟨?_, ?_, ?_⟩
  · rintro cause rfl
    exact ⟨_, rfl, letGo⟩
  · rintro cause rfl
    exact ⟨_, rfl, letGo⟩
  · intro foreign
    cases fault with
    | loss _ | refusal _ => cases foreign
    | _ => exact ⟨_, rfl, rfl⟩

end Session

/-- **Autocommit off from the start is autocommit switched off behind it.** Let a session that is not open yet
and has autocommit on be connected, once with settings that have autocommit off, and once with settings that
have it on, and then autocommit is switched off. The first way succeeds exactly if the second does, and then
the two sessions are open with autocommit off, and have made the same calls on the transport, handed over the
same notices, and left the same unread and still to come. Where the second way opens the session and then
cannot switch, the first cannot connect: with a loss it comes to the same loss, and with a refusal to a loss
that tells of it, and in both cases stream and transport are closed; any other fault, as that of a handler, it
gives as it is. -/
theorem connecting_without_autocommit_is_switching_it_off {session : Session}
    (notOpen : session.isOpen = false) (tracking : session.autocommit = true) :
    let off := session.preferring false
    let on := session.preferring true
    ((∃ a, Session.connect off = .ok () a) ↔ ∃ b, Session.connectThenSwitch on = .ok () b) ∧
    (∀ a b, Session.connect off = .ok () a → Session.connectThenSwitch on = .ok () b →
      Session.Coincide a b) ∧
    ∀ mid fault b, Session.connect on = .ok () mid → Session.setAutocommit false mid = .error fault b →
      (∀ cause, fault = .loss cause →
        ∃ a, Session.connect off = .error (.loss cause) a ∧ a.LetGo) ∧
      (∀ cause, fault = .refusal cause →
        (Loss.handshake cause).message = "Connection failed: " ++ cause.message ∧
          ∃ a, Session.connect off = .error (.loss (.handshake cause)) a ∧ a.LetGo) ∧
      (fault.isOwn = false → ∃ a, Session.connect off = .error fault a ∧ a.isOpen = false) := by
  intro off on
  have message (cause : Refusal) :
      (Loss.handshake cause).message = "Connection failed: " ++ cause.message := rfl
  rcases Session.connect_preferring notOpen tracking with ⟨fault, a, b, hoff, hon⟩ | ⟨t, usable, hoff, hon⟩
  · have failed : Session.connectThenSwitch on = .error fault b := by
      simp only [Session.connectThenSwitch, bind, EStateM.bind, on, hon]
    refine ⟨?_, ?_, ?_⟩
    · rw [hoff, failed]
      simp
    · intro _ _ h
      rw [hoff] at h
      cases h
    · intro _ _ _ h
      rw [hon] at h
      cases h
  · obtain ⟨r, first, switches⟩ := Session.setAutocommit_opened tracking t
    have both : Session.connectThenSwitch on = Session.setAutocommit false (session.opened t) := by
      simp only [Session.connectThenSwitch, bind, EStateM.bind, on, hon]
    rw [hoff, both, switches, hon]
    cases r with
    | ok bundle u =>
      rw [first]
      refine ⟨⟨fun _ => ⟨_, rfl⟩, fun _ => ⟨_, rfl⟩⟩, fun a b => Session.coincide_of_ok _ bundle u, ?_⟩
      rintro mid fault b ⟨⟩ hb
      rw [switches] at hb
      cases hb
    | error fault u =>
      obtain ⟨loss, refusal, foreign⟩ := Session.begun_of_fault off usable.isOpen first
      rw [first]
      refine ⟨⟨?_, ?_⟩, ?_, ?_⟩
      · rintro ⟨a, ha⟩
        cases fault <;> cases ha
      · rintro ⟨b, ⟨⟩⟩
      · rintro a b - ⟨⟩
      · rintro mid _ b ⟨⟩ hb
        rw [switches] at hb
        cases hb
        exact ⟨loss, fun cause h => ⟨message cause, refusal cause h⟩, foreign⟩

/-- A backend that answers `begin` is met by both ways alike, and one that refuses it is reported by each in
its own words. -/
theorem begin_answered_or_refused :
    let session (answer : Bytes) : Session :=
      { settings := { database := "d", user := "u" }
        phase := .fresh { incoming := [.bytes [0x49, 0], .bytes answer] } }
    let answered := session [0x43, 0x6F, 0, 0x49, 0, 0x4E]
    let refused := session [0x45, 0x78, 0, 0x49, 0]
    (∃ a b, Session.connect (answered.preferring false) = .ok () a ∧
      Session.connectThenSwitch (answered.preferring true) = .ok () b ∧ a.Coincide b ∧
      a.unread = [0x4E]) ∧
    ∃ mid b a, Session.connect (refused.preferring true) = .ok () mid ∧
      Session.setAutocommit false mid = .error (.refusal (.server "x")) b ∧
      Session.connect (refused.preferring false) = .error (.loss (.handshake (.server "x"))) a ∧
      a.LetGo := by
  intro session answered refused
  have notOpen (answer : Bytes) : (session answer).isOpen = false := rfl
  have tracking (answer : Bytes) : (session answer).autocommit = true := rfl
  constructor
  · obtain ⟨together, coincide, -⟩ :=
      connecting_without_autocommit_is_switching_it_off (notOpen _) (tracking [0x43, 0x6F, 0, 0x49, 0, 0x4E])
    have opens := Act.eq_ok_of_outcome
      (r := Session.connect (answered.preferring false)) (a := ()) (by decide +kernel)
    obtain ⟨b, hb⟩ := together.1 ⟨_, opens⟩
    exact ⟨_, b, opens, hb, coincide _ b opens hb, by decide +kernel⟩
  · obtain ⟨-, -, unswitched⟩ :=
      connecting_without_autocommit_is_switching_it_off (notOpen _) (tracking [0x45, 0x78, 0, 0x49, 0])
    have opens := Act.eq_ok_of_outcome
      (r := Session.connect (refused.preferring true)) (a := ()) (by decide +kernel)
    have refuses : Session.setAutocommit false (Act.state (Session.connect (refused.preferring true))) =
        .error (.refusal (.server "x")) _ := Act.eq_error_of_outcome (by decide +kernel)
    obtain ⟨-, refusal, -⟩ := unswitched _ _ _ opens refuses
    obtain ⟨-, a, ha, letGo⟩ := refusal _ rfl
    exact ⟨_, _, a, opens, refuses, ha, letGo⟩

end SimpleQuery
