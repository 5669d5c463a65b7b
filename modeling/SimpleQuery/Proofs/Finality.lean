import SimpleQuery.Proofs.Lifecycle

/-!
# The end of a session

Closing, a loss on an open session and a connection that is lost while it is made all close the stream.
A session whose stream is closed is dead: nothing reaches the transport any more, and nothing opens the
session again.

* `Session.closed_of_end` — what closes the stream.
* `Session.Ended.dead` — what is left of a session then.
* `Phase.Passes.orderly` — the calls on a transport that the session dials itself.
* `session_ends_for_good` — all of this, for whatever is done with a session.
-/

set_option autoImplicit false

namespace SimpleQuery

/-- What is not open any more has its stream closed. -/
theorem Phase.Passes.closed_of_open {s t : Stream} {session : Session}
    (h : Passes (.open s) session.phase) (broken : session.isOpen = false)
    (ht : session.phase.stream? = some t) : t.closed = true := by
  unfold Session.isOpen at broken
  generalize session.phase = phase at *
  cases h with
  | works _ _ => cases broken
  | breaks _ closed =>
    cases ht
    exact closed

namespace Session

/-- Whether a command is for open sessions only. -/
def Command.needsOpen : Command → Bool
  | .query _ | .setAutocommit _ | .commit | .rollback => true
  | _ => false

/-! ## What closes the stream -/

theorem closed_of_close {session : Session} {s : Stream} (hs : session.close.phase.stream? = some s) :
    s.closed = true := by
  unfold close at hs
  cases hp : session.phase with
  | fresh link =>
    simp only [hp, Phase.stream?] at hs
    cases hs
  | broken t | «open» t =>
    simp only [hp, Phase.stream?] at hs
    split at hs <;> cases hs
    · assumption
    · exact Stream.closed_close t

theorem closed_of_greet {session : Session} {s t : Stream}
    (lost : Act.isLost (greet s session) = true)
    (ht : (Act.state (greet s session)).phase.stream? = some t) : t.closed = true := by
  unfold greet at lost ht
  cases hs : handshake session.settings session.handling s with
  | ok _ u =>
    rw [hs] at lost
    cases lost
  | error fault u =>
    rw [hs] at lost ht
    cases fault with
    | loss cause | refusal cause =>
      cases ht
      exact Stream.closed_close u
    | _ => cases lost

theorem closed_of_connect {session : Session} {s : Stream}
    (lost : Act.isLost (Session.connect session) = true)
    (hs : (Act.state (Session.connect session)).phase.stream? = some s) : s.closed = true := by
  unfold Session.connect at lost hs
  cases hp : session.phase with
  | «open» t =>
    rw [hp] at lost
    cases lost
  | broken t =>
    rw [hp] at lost hs
    exact closed_of_greet lost hs
  | fresh link =>
    simp only [hp] at lost hs
    cases hd : dial session.settings (link.log (connecting session.settings)) with
    | ok t =>
      rw [hd] at lost hs
      exact closed_of_greet lost hs
    | error failure =>
      rw [hd] at hs
      cases hs

/-- The stream is closed by closing the session, by a loss while the session is open, and by one while it
is opened. -/
theorem closed_of_end {session : Session} {command : Command} {s : Stream}
    (h : command = .close ∨ (session.isOpen = true ∨ command = .connect) ∧
      Act.isLost (perform command session) = true)
    (hs : (Act.state (perform command session)).phase.stream? = some s) : s.closed = true := by
  by_cases hclose : command = .close
  · subst hclose
    exact closed_of_close hs
  obtain ⟨isOpen | rfl, lost⟩ := h.resolve_left hclose
  · have ended := tells_perform hclose session isOpen
    rw [lost] at ended
    obtain ⟨t, ht⟩ := open_of_isOpen isOpen
    have hpasses : session.phase.Passes (Act.state (perform command session)).phase :=
      passes_perform command session
    rw [ht] at hpasses
    exact hpasses.closed_of_open ended hs
  · simp only [perform, bind, EStateM.bind] at lost hs
    cases hc : Session.connect session with
    | ok _ after =>
      rw [hc] at lost
      cases lost
    | error fault after =>
      have hclosed := @closed_of_connect session s
      rw [hc] at lost hs hclosed
      exact hclosed lost hs

/-! ## What is left of a session then -/

/-- The session had a stream, and that is closed. -/
def Ended (session : Session) : Prop := ∃ s, session.phase.stream? = some s ∧ s.closed = true

instance (session : Session) : Decidable session.Ended :=
  decidable_of_iff (session.phase.stream?.any Stream.closed = true) (Option.any_eq_true _ _)

/-- A broken session after these calls on the transport, on which every statement is refused, connecting
fails, and closing is as good as done. -/
structure Dead (session : Session) (calls : List Event) : Prop where
  broken : session.isOpen = false
  silent : session.phase.link.calls = calls
  refuses : ∀ command : Command, command.needsOpen = true →
    Act.outcome (perform command session) = .error (.loss .notOpen)
  stays : ∃ fault, Act.outcome (perform .connect session) = .error fault
  closes : Act.outcome (perform .close session) = .ok .done

/-- On a session that is not open, what needs an open one is refused and changes nothing. -/
theorem perform_of_not_open {session : Session} (h : session.isOpen = false) {command : Command}
    (needs : command.needsOpen = true) : perform command session = .error (.loss .notOpen) session := by
  have requireOpen : requireOpen session = .error (.loss .notOpen) session := onStream_of_not_open _ h
  cases command with
  | query statement =>
    have hquery : query statement session = .error (.loss .notOpen) session := onStream_of_not_open _ h
    simp only [perform, bind, EStateM.bind, hquery]
  | setAutocommit autocommit =>
    simp only [perform, Session.setAutocommit, bind, EStateM.bind, requireOpen]
  | commit => simp only [perform, Session.commit, finish, bind, EStateM.bind, requireOpen]
  | rollback => simp only [perform, Session.rollback, finish, bind, EStateM.bind, requireOpen]
  | _ => cases needs

theorem refuses_of_not_open {session : Session} (h : session.isOpen = false) {command : Command}
    (needs : command.needsOpen = true) :
    Act.outcome (perform command session) = .error (.loss .notOpen) := by
  rw [perform_of_not_open h needs]
  rfl

/-- No handshake succeeds on a closed stream. -/
theorem connect_of_closed {session : Session} {s : Stream} (hs : session.phase = .broken s)
    (closed : s.closed = true) : ∃ fault, Act.outcome (perform .connect session) = .error fault := by
  have hserves := serves_handshake session.settings session.handling (s.log (connecting session.settings))
  simp only [perform, Session.connect, greet, hs, bind, EStateM.bind]
  cases hh : handshake session.settings session.handling (s.log (connecting session.settings)) with
  | ok _ t =>
    rw [hh] at hserves
    have hclosed := (hserves.shut closed).1
    rw [Act.state_ok, (usable_of_handshake hh).isOpen] at hclosed
    cases hclosed
  | error fault t => cases fault <;> exact ⟨_, rfl⟩

/-- In good standing, only a broken session has a closed stream. -/
theorem Ended.broken {session : Session} (h : session.Ended) (standing : session.phase.Standing) :
    ∃ s, session.phase = .broken s ∧ s.closed = true := by
  obtain ⟨s, hs, closed⟩ := h
  cases hp : session.phase with
  | fresh link =>
    rw [hp] at hs
    cases hs
  | broken t =>
    rw [hp] at hs
    cases hs
    exact ⟨s, rfl, closed⟩
  | «open» t =>
    rw [hp] at hs standing
    cases hs
    exact absurd closed (by simp [standing.2.isOpen])

/-- Whatever is done with a session that has ended, it is dead. -/
theorem Ended.dead {session later : Session} (ended : session.Ended)
    (standing : session.phase.Standing) (h : session.Leads later) :
    later.Ended ∧ later.Dead session.phase.link.calls := by
  obtain ⟨s, hs, closed⟩ := ended.broken standing
  have hpasses : (Phase.broken s).Passes later.phase := hs ▸ h.passes
  obtain ⟨t, ht, hclosed, hcalls⟩ := hpasses.broken_of_closed closed
  have broken : later.isOpen = false := by rw [isOpen, ht]
  refine ⟨⟨t, by rw [ht]; rfl, hclosed⟩, broken, ?_, fun _ => refuses_of_not_open broken,
    connect_of_closed ht hclosed, rfl⟩
  rw [ht, hs]
  exact hcalls

end Session

/-! ## The calls on a transport that is dialled -/

/-- Whether this is an attempt to connect that succeeded. -/
def Event.isDial : Event → Bool
  | .dialled _ _ _ reached => reached
  | _ => false

/-- Calls on a transport in their right order: attempts to connect in vain; then one that succeeds, the
transport is set up at once, and bytes are exchanged over it until it is closed. -/
inductive Link.Orderly : List Event → Prop where
  | waiting {vain : List Event} (hvain : ∀ event ∈ vain, event.isVainDial = true) : Orderly vain
  | dialled {vain more : List Event} {host : String} {port : Nat} {timeout : Option Binary64}
      (hvain : ∀ event ∈ vain, event.isVainDial = true)
      (hmore : ∀ event ∈ more, event.isExchange = true ∨ event = .hungUp) :
      Orderly (vain ++ .dialled host port timeout true :: .unlimited :: .undelayed :: more)

theorem Link.Orderly.countP_isDial {calls : List Event} (h : Orderly calls) :
    calls.countP Event.isDial ≤ 1 := by
  have never {events : List Event} (h : ∀ event ∈ events, event.isDial = false) :
      events.countP Event.isDial = 0 := List.countP_eq_zero.2 fun event hmem => by simp [h event hmem]
  have vain {events : List Event} (h : ∀ event ∈ events, event.isVainDial = true) :
      events.countP Event.isDial = 0 := by
    refine never fun event hmem => ?_
    have := h event hmem
    cases event <;> simp_all [Event.isVainDial, Event.isDial]
  cases h with
  | waiting hvain => simp [vain hvain]
  | dialled hvain hmore =>
    have hnone := never fun event hmem => by
      rcases hmore event hmem with h | rfl
      · cases event <;> first | rfl | cases h
      · rfl
    simp [List.countP_append, List.countP_cons, vain hvain, hnone, Event.isDial]

theorem Phase.Passes.calls_of_broken {s : Stream} {p : Phase} (h : Passes (.broken s) p) :
    ∃ more, p.link.calls = s.link.calls ++ more ∧
      ∀ event ∈ more, event.isExchange = true ∨ event = .hungUp := by
  cases h with
  | rests serves => exact serves.calls
  | opens serves _ => exact serves.calls

/-- The calls of a session that began with a link that was not called yet. -/
theorem Phase.Passes.orderly {link : Link} {p : Phase} (h : Passes (.fresh link) p)
    (hcalls : link.calls = []) : Link.Orderly p.link.calls := by
  cases h with
  | waits _ calls =>
    obtain ⟨vain, hlink, hvain⟩ := calls
    rw [hcalls, List.nil_append] at hlink
    exact hlink ▸ .waiting hvain
  | dials _ _ calls rest =>
    obtain ⟨vain, host, port, timeout, hdialled, hvain⟩ := calls
    obtain ⟨more, hlink, hmore⟩ := rest.calls_of_broken
    rw [hdialled, hcalls, List.nil_append, List.append_assoc] at hlink
    exact hlink ▸ .dialled hvain hmore

/-- In every session that is reached, closing, a loss while it is open and a loss while it is opened close
the stream, if there is one. Once that is closed, whatever is done the session is dead, and the transport is
not called any more. A session that dials does so in vain, until it succeeds once and sets the transport
up before anything else. -/
theorem session_ends_for_good {session now : Session} (start : session.New)
    (reached : session.Leads now) :
    (∀ command s, command = .close ∨ (now.isOpen = true ∨ command = .connect) ∧
        (∃ cause, Act.outcome (Session.perform command now) = .error (.loss cause)) →
      (Act.state (Session.perform command now)).phase.stream? = some s → s.closed = true) ∧
    (now.Ended → ∀ later, now.Leads later →
      later.Ended ∧ later.Dead now.phase.link.calls) ∧
    (∀ link, session.phase = .fresh link →
      Link.Orderly now.phase.link.calls ∧ now.phase.link.calls.countP Event.isDial ≤ 1) := by
  refine ⟨fun command s h => ?_, fun ended later h => ended.dead (reached.standing start) h,
    fun link hlink => ?_⟩
  · rw [← Act.isLost_iff] at h
    exact Session.closed_of_end h
  · have hpasses : (Phase.fresh link).Passes now.phase := hlink ▸ reached.passes
    unfold Session.New at start
    rw [hlink] at start
    have orderly := hpasses.orderly start.2
    exact ⟨orderly, orderly.countP_isDial⟩

/-- The backend hangs up on the startup packet. Whatever it delivers later, connecting again fails. -/
theorem session_over_after_failed_connect :
    let session : Session := { settings := { database := "d", user := "u" }, phase := .fresh {} }
    let now := Act.state (Session.perform .connect session)
    let fed := Act.state (Session.perform (.feed [.bytes [0x49, 0x00]]) now)
    let later := Act.state (Session.perform .connect fed)
    session.New ∧ now.Ended ∧ later.Dead now.phase.link.calls ∧
      now.phase.link.calls.countP Event.isDial ≤ 1 := by
  intro session now fed later
  have start : session.New := ⟨rfl, rfl⟩
  have reached : session.Leads now := (Session.Leads.refl session).tail .connect
  obtain ⟨-, dead, orderly⟩ := session_ends_for_good start reached
  have ended : now.Ended := by decide +kernel
  have h : now.Leads later := ((Session.Leads.refl now).tail (.feed [.bytes [0x49, 0x00]])).tail .connect
  exact ⟨start, ended, (dead ended later h).2, (orderly {} rfl).2⟩

end SimpleQuery
