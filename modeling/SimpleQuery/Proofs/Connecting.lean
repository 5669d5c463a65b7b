import SimpleQuery.Proofs.Journal
import SimpleQuery.Proofs.Sending

/-!
# What connecting comes to

The first attempt to connect opens the session, or it fails; and where it fails with a fault of the client's
own, nothing of it is left: the stream is closed, or there never was one, and then it is as if the attempt
had not been made.

* `Session.closed_of_own` — a stream that was opened for nothing is closed again.
* `Session.connect_of_unreached` — without a stream the session is what it was, with more of a past.
* `connect_opens_or_leaves_nothing` — the two together.
-/

set_option autoImplicit false

namespace SimpleQuery

namespace Session

variable {session after : Session}

theorem Unused.new (h : session.Unused) : session.New := by
  have notOpen := h.notOpen
  have journal := h.journal
  have hungUp := h.hungUp
  have stream := h.stream
  unfold isOpen at notOpen
  unfold New
  cases hp : session.phase with
  | fresh link =>
    rw [hp] at journal hungUp
    refine ⟨hungUp, ?_⟩
    rw [Link.calls, Link.history, show link.journal = [] from journal]
    rfl
  | broken s =>
    rw [hp] at journal hungUp
    obtain ⟨isOpen, -, -⟩ := stream s hp
    refine ⟨?_, ?_⟩
    · rw [isOpen]
      exact hungUp
    · rw [isOpen, Link.calls, Link.history, show s.link.journal = [] from journal]
      rfl
  | «open» s =>
    rw [hp] at notOpen
    cases notOpen

/-- Why a session gets no stream to be opened on, if it does not. -/
def unreached (session : Session) : Option DialFault :=
  match session.phase with
  | .fresh link => Link.nextFault link.dialFaults
  | .broken _ | .open _ => none

/-- What a handshake that failed with a fault of the client's own leaves of the session. -/
theorem Greets.closed_of_own {s : Stream} {fault : Fault} (h : Greets session s (.error fault after))
    (own : fault.isOwn = true) : (∃ cause, fault = .loss cause) ∧ after.autocommit = session.autocommit ∧
      ∃ t, after.phase = .broken t ∧ t.closed = true := by
  cases h with
  | unspelled _ foreign | abandoned _ _ _ foreign =>
    rw [foreign] at own
    cases own
  | unsent _ _ closed => exact ⟨⟨_, rfl⟩, rfl, _, rfl, closed⟩
  | failed => exact ⟨⟨_, rfl⟩, rfl, _, rfl, Stream.closed_close _⟩

/-- A stream that was opened for nothing is closed again. -/
theorem closed_of_own {fault : Fault} (tidy : session.Tidy)
    (h : connect session = .error fault after) (own : fault.isOwn = true) :
    (∃ cause, fault = .loss cause) ∧ after.autocommit = session.autocommit ∧
      (session.unreached = none → ∃ t, after.phase = .broken t ∧ t.closed = true) := by
  have connects := connects_connect tidy
  rw [h] at connects
  cases connects with
  | undialled phase dials =>
    obtain ⟨cause, fails, rfl, -⟩ := link_of_dial dials
    cases cause with
    | «foreign» cause => cases own
    | refused reason =>
      refine ⟨⟨_, rfl⟩, rfl, fun reached => ?_⟩
      rw [unreached, phase] at reached
      cases reached.symm.trans fails
  | dialled _ _ greets | again _ greets =>
    obtain ⟨cause, autocommit, closed⟩ := greets.closed_of_own own
    exact ⟨cause, autocommit, fun _ => closed⟩

/-- The session after the next attempt to dial was taken. -/
def undialled (session : Session) : Session :=
  match session.phase with
  | .fresh link => { session with phase := .fresh { link with dialFaults := link.dialFaults.tail } }
  | .broken _ | .open _ => session

/-- Without a stream the session is what it was, but for the attempt that was taken and for its past. -/
theorem connect_of_unreached {cause : DialFault} (start : session.Unused)
    (vain : session.unreached = some cause) :
    session.undialled.Unused ∧ connect session = .error cause.fault
      (session.undialled.since (vainPast session.settings cause ++ [.logged (connecting session.settings)])) := by
  unfold unreached at vain
  unfold undialled
  cases hp : session.phase with
  | broken s | «open» s =>
    rw [hp] at vain
    cases vain
  | fresh link =>
    rw [hp] at vain
    have journal := start.journal
    rw [hp] at journal
    have hungUp := start.hungUp
    rw [hp] at hungUp
    refine ⟨⟨start.autocommit, journal, hungUp, rfl, fun s hs => by cases hs⟩, ?_⟩
    have past : link.journal = [] := journal
    have fails : Link.nextFault link.dialFaults = some cause := vain
    simp only [connect, hp, dial, Link.dial, Link.log, Link.record, fails, past]
    cases cause with
    | refused reason | «foreign» cause =>
      simp only [since, Phase.mapLink, Link.since]
      rfl

/-- Whichever fault it was, no notice came. -/
theorem unheard_of_vainPast (settings : Settings) (cause : DialFault) :
    Event.heard (vainPast settings cause ++ [.logged (connecting settings)]) = [] := by
  cases cause <;> rfl

end Session

/-- **The first attempt to connect opens the session or leaves nothing behind.** If it succeeds, the session
is open with the autocommit of its settings; first the startup packet was sent, and behind it the probe and
with autocommit off `begin`, and their answers were read to their ends without an error. If it fails, the
session is not open. Where the fault is one of the client's own, it is a loss and autocommit is on; the
stream is closed, and so is its transport. Where no stream was reached, the session is as before, with one
failure used up, and whatever is done with it comes to what it comes to in a new session. -/
theorem connect_opens_or_leaves_nothing {session : Session} (start : session.Unused) :
    (∀ after, Session.connect session = .ok () after →
      after.isOpen = true ∧ after.autocommit = session.settings.autocommit ∧
      (∃ packet s t u, Session.Opens session after packet s t u ∧ s.link.sent = [packet] ∧
        ∃ payloads, after.phase.link.sent = packet :: payloads ∧
          Query.Asking session.charset (Session.openingTexts session.settings) payloads)) ∧
    (∀ fault after, Session.connect session = .error fault after →
      after.isOpen = false ∧
      (fault.isOwn = true → (∃ cause, fault = .loss cause) ∧ after.autocommit = true ∧
        (session.unreached = none →
          ∃ s, after.phase = .broken s ∧ s.closed = true ∧ s.link.hungUp = true))) ∧
    (∀ cause, session.unreached = some cause →
      session.undialled.Unused ∧ ∃ past,
        Session.connect session = .error cause.fault (session.undialled.since past) ∧
        ∀ steps, Session.runAll steps (session.undialled.since past) =
          ((Session.runAll steps session.undialled).1,
            (Session.runAll steps session.undialled).2.since past)) := by
  have tidy := start.tidy
  refine ⟨fun after h => ?_, fun fault after h => ?_, fun cause h => ?_⟩
  · obtain ⟨packet, s, t, u, opens⟩ := Session.opens_of_connect tidy start.notOpen h
    obtain ⟨entry, left⟩ := opens.left
    have isOpen : after.isOpen = true := by rw [left]; rfl
    have sent : s.link.sent = [packet] := by rw [opens.sent, start.sent]; rfl
    refine ⟨isOpen, ?_, packet, s, t, u, opens, sent, ?_⟩
    · rw [left, start.autocommit]
      exact Bool.and_true _
    · obtain ⟨packets, payloads, starts⟩ := Session.starts_connect tidy start.notOpen
      rw [h] at starts
      simp only [Act.state_ok] at starts
      obtain ⟨⟨packet', spelled, rfl⟩, asking⟩ := starts.of_open isOpen
      refine ⟨payloads, ?_, asking⟩
      cases opens.spelled.symm.trans spelled
      rw [starts.sent, start.sent]
      rfl
  · refine ⟨Session.notOpen_of_connect tidy h, fun own => ?_⟩
    obtain ⟨cause, autocommit, closed⟩ := Session.closed_of_own tidy h own
    refine ⟨cause, autocommit.trans start.autocommit, fun reached => ?_⟩
    obtain ⟨s, hs, hclosed⟩ := closed reached
    have standing := ((Session.Leads.refl session).tail .connect).standing start.new
    rw [Session.state_perform_connect, h, Act.state_error, hs] at standing
    exact ⟨s, hs, hclosed, standing.hungUp.trans hclosed⟩
  -- The past of a link is only written, so that no later step depends on it.
  · obtain ⟨unused, vain⟩ := Session.connect_of_unreached start h
    have unheard := Session.unheard_of_vainPast session.settings cause
    exact ⟨unused, _, vain, fun steps => Session.runAll_since unheard steps _⟩

/-- The first attempt to dial fails and the second does not: then the session opens, as a new one would. -/
theorem connect_after_vain_dial :
    let session : Session :=
      { settings := { database := "d", user := "u" }
        phase := .fresh { incoming := [.bytes [0x49, 0]], dialFaults := [some (.refused "refused")] } }
    let run := Session.runAll [.one .connect, .one .connect] session
    session.Unused ∧ session.unreached = some (.refused "refused") ∧ run.2.isOpen = true ∧
      ∃ past, Session.connect session =
          .error (.loss (.dialFailed "refused")) (session.undialled.since past) ∧
        (Session.runAll [.one .connect] (session.undialled.since past)).1 =
          (Session.runAll [.one .connect] session.undialled).1 := by
  intro session run
  have start : session.Unused := ⟨rfl, rfl, rfl, rfl, fun s hs => by cases hs⟩
  obtain ⟨-, -, unreached⟩ := connect_opens_or_leaves_nothing start
  obtain ⟨-, past, hconnect, later⟩ := unreached (.refused "refused") rfl
  exact ⟨start, rfl, by decide +kernel, past, hconnect, by rw [later [.one .connect]]⟩

end SimpleQuery
