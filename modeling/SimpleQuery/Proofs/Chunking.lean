import SimpleQuery.Proofs.SideBySide
import SimpleQuery.Proofs.Uncut
import SimpleQuery.Stream.Command

/-!
# Chunking is not observed

Two runs over deliveries that differ only in how they are cut cannot be told apart: by no operation of
a stream or of a session, and after no sequence of them.

* `Stream.respects_perform`, `Stream.same_performAll` — one operation of a stream, and a run of them.
* `Session.congruence_same`, `Session.same_runAll` — the same of sessions, which do not see the cutting.
* `matches_of_joined_eq` — runs over two lists of deliveries that join to the same.
-/

set_option autoImplicit false

namespace SimpleQuery

open Act (Respects Alike)

/-! ## Streams -/

namespace Stream

theorem same_close {s t : Stream} (h : s.Same t) : s.close.Same t.close := by
  rw [Same, uncut_close, uncut_close, h]

theorem same_feed {s t : Stream} (h : s.Same t) (more : List Delivery) :
    Same { s with link := s.link.feed more } { t with link := t.link.feed more } := by
  rw [Same, uncut_feed, uncut_feed, h, h.line, h.closed]

theorem respects_perform (handling : NoticeHandling) (command : Command) :
    Uncuttable (perform handling command) := by
  cases command with
  | sendByte value =>
    exact Respects.bind (Respects.bind (Respects.ofExcept _) fun _ => respects_stage _) fun _ =>
      Respects.pure _
  | sendInteger value bytes =>
    exact Respects.bind (Respects.ofExcept _) fun _ => Respects.bind (respects_stage _) fun _ =>
      Respects.pure _
  | send given => exact Respects.bind (respects_stage _) fun _ => Respects.pure _
  | sendPadded given width => exact Respects.bind (respects_stage _) fun _ => Respects.pure _
  | sendQuery statement => exact Respects.bind (congruence_same.sendQuery _) fun _ => Respects.pure _
  | flush => exact Respects.bind respects_flush fun _ => Respects.pure _
  | close => exact Respects.bind (Respects.modify fun _ _ => same_close) fun _ => Respects.pure _
  | receiveByte => exact Respects.bind congruence_same.assembly.receiveByte fun _ => Respects.pure _
  | receiveInteger bytes =>
    exact Respects.bind (Respects.ofExcept _) fun _ =>
      Respects.bind (congruence_same.assembly.receiveInteger _) fun _ => Respects.pure _
  | receiveText cap => exact Respects.bind (congruence_same.receiveText _) fun _ => Respects.pure _
  | receive count => exact Respects.bind (respects_receive _) fun _ => Respects.pure _
  | isClosed => exact Respects.get_bind (fun s t h => by rw [h.closed]) fun _ => Respects.pure _
  | feed more =>
    exact Respects.bind (Respects.modify fun _ _ h => same_feed h more) fun _ => Respects.pure _
  | receiveColumns => exact Respects.bind congruence_same.assembly.receiveColumns fun _ => Respects.pure _
  | receiveRow columns binary => exact Respects.bind (congruence_same.assembly.receiveRow _ _) fun _ => Respects.pure _
  | query statement =>
    exact Respects.bind (congruence_same.query (blind_same handling) _) fun _ => Respects.pure _
  | read => exact Respects.bind (congruence_same.receiveAnswer (blind_same handling)) fun _ => Respects.pure _

/-- Runs over the same deliveries, cut in two ways, have the same outcomes step by step. -/
theorem same_performAll (handling : NoticeHandling) (commands : List Command) {s t : Stream}
    (h : s.Same t) :
    (performAll handling commands s).1 = (performAll handling commands t).1 ∧
      (performAll handling commands s).2.Same (performAll handling commands t).2 := by
  induction commands generalizing s t with
  | nil => exact ⟨rfl, h⟩
  | cons command rest ih =>
    have hr := respects_perform handling command s t h
    obtain ⟨ho, hs⟩ := ih hr.states
    exact ⟨by simp only [performAll, hr.outcomes, ho], hs⟩

end Stream

/-! ## Sessions -/

/-- Phases that are the same but for the cutting of what their links deliver. -/
inductive Phase.Same : Phase → Phase → Prop where
  | fresh {l m : Link} (link : l.uncut = m.uncut) : Phase.Same (.fresh l) (.fresh m)
  | broken {s t : Stream} (stream : s.Same t) : Phase.Same (.broken s) (.broken t)
  | «open» {s t : Stream} (stream : s.Same t) : Phase.Same (.open s) (.open t)

theorem Phase.Same.iff_beside {p q : Phase} :
    p.Same q ↔ p.Beside (fun l m => l.uncut = m.uncut) Stream.Same q := by
  constructor
  · intro h
    cases h with
    | fresh link => exact .fresh link
    | broken stream => exact .broken stream
    | «open» stream => exact .open stream
  · intro h
    cases h with
    | fresh link => exact .fresh link
    | broken stream => exact .broken stream
    | «open» stream => exact .open stream

namespace Session

/-- Sessions that are the same but for the cutting of what their links deliver. -/
structure Same (a b : Session) : Prop where
  settings : a.settings = b.settings
  handling : a.handling = b.handling
  phase : a.phase.Same b.phase
  autocommit : a.autocommit = b.autocommit
  readOnly : a.readOnly = b.readOnly
  cursorName : a.cursorName = b.cursorName

theorem Same.iff_beside {a b : Session} :
    Same a b ↔ Beside (fun l m => l.uncut = m.uncut) Stream.Same a b := by
  constructor
  · intro h
    exact ⟨h.settings, h.handling, Phase.Same.iff_beside.1 h.phase, h.autocommit, h.readOnly, h.cursorName⟩
  · intro h
    exact ⟨h.settings, h.handling, Phase.Same.iff_beside.2 h.phase, h.autocommit, h.readOnly, h.cursorName⟩

theorem Same.isOpen {a b : Session} (h : Same a b) : a.isOpen = b.isOpen := (iff_beside.1 h).isOpen

/-- Actions that such sessions answer alike. -/
abbrev Uncuttable {α : Type} (act : Act Session α) : Prop := Respects Same act

theorem Uncuttable.of_beside {α : Type} {act : Act Session α}
    (h : Respects (Beside (fun l m => l.uncut = m.uncut) Stream.Same) act) : Uncuttable act := by
  intro a b hab
  have hr := h a b (Same.iff_beside.1 hab)
  generalize act a = r at *
  generalize act b = r' at *
  cases hr with
  | ok values states => exact .ok values (Same.iff_beside.2 states)
  | error states => exact .error (Same.iff_beside.2 states)

/-- Two links that are the same but for the cutting are dialled alike. -/
theorem dial_same (settings : Settings) {l m : Link} (h : l.uncut = m.uncut) :
    (∃ s t, dial settings l = .ok s ∧ dial settings m = .ok t ∧ s.Same t) ∨
      ∃ fault l' m', dial settings l = .error (fault, l') ∧ dial settings m = .error (fault, m') ∧
        l'.uncut = m'.uncut := by
  have hf : l.dialFaults = m.dialFaults := congrArg Link.Uncut.dialFaults h
  have told (event : Event) (he : event.isReceive = false) {l m : Link} (h : l.uncut = m.uncut) :
      (l.record event).uncut = (m.record event).uncut := by
    rw [Link.uncut_record he, Link.uncut_record he, h]
  have dialled : ({ l with dialFaults := m.dialFaults.tail } : Link).uncut =
      ({ m with dialFaults := m.dialFaults.tail } : Link).uncut := by
    show { l.uncut with dialFaults := m.dialFaults.tail } = { m.uncut with dialFaults := m.dialFaults.tail }
    rw [h]
  unfold dial
  simp only [Link.dial, hf]
  cases Link.nextFault m.dialFaults with
  | some cause =>
    have failed := told (.dialled settings.host settings.port settings.connectTimeout false) rfl dialled
    cases cause with
    | refused reason => exact .inr ⟨_, _, _, rfl, rfl, told (.logged _) rfl failed⟩
    | «foreign» cause => exact .inr ⟨_, _, _, rfl, rfl, failed⟩
  | none =>
    have opened := told (.logged (.dialled settings.host settings.port)) rfl
      (told .undelayed rfl (told .unlimited rfl
        (told (.dialled settings.host settings.port settings.connectTimeout true) rfl dialled)))
    refine .inl ⟨_, _, rfl, rfl, ?_⟩
    exact congrArg (fun u => ({ charset := _, closed := false, staged := [], link := u } : Stream.Uncut))
      opened

/-- Sessions do not see how deliveries are cut. -/
theorem congruence_same : Congruence (fun l m => l.uncut = m.uncut) Stream.Same where
  toCongruence := Stream.congruence_same
  notices _ _ h := Link.notices_of_uncut_eq h.told
  closed _ _ h := h.closed
  close _ _ := Stream.same_close
  feed more _ _ h := Stream.same_feed h more
  logLink entry l m h := by rw [Link.log, Link.log, Link.uncut_record rfl, Link.uncut_record rfl, h]
  feedLink more l m h := by
    have hline : Link.line l.incoming = Link.line m.incoming := congrArg Link.Uncut.line h
    show { l.uncut with line := Link.line (l.incoming ++ more) } =
      { m.uncut with line := Link.line (m.incoming ++ more) }
    rw [Link.line_append, Link.line_append, hline, h]
  dial settings _ _ h := dial_same settings h

theorem respects_control (statement : Control) : Uncuttable (control statement) :=
  .of_beside (congruence_same.unseen.control statement)

/-- Runs over the same deliveries, cut in two ways, have the same outcomes step by step. -/
theorem same_runAll (steps : List Step) {a b : Session} (h : Same a b) :
    (runAll steps a).1 = (runAll steps b).1 ∧ Same (runAll steps a).2 (runAll steps b).2 := by
  obtain ⟨outcomes, states⟩ := congruence_same.unseen.runAll steps (Same.iff_beside.1 h)
  exact ⟨outcomes, Same.iff_beside.2 states⟩

end Session

/-! ## What an observer sees -/

/-- Two streams as far as an observer can compare them who does not count calls for bytes or unread
bytes. Closed streams have nothing more to read. -/
structure Stream.Matches (s t : Stream) : Prop where
  closed : s.closed = t.closed
  staged : s.staged = t.staged
  sent : s.link.sent = t.link.sent
  notices : s.link.notices = t.link.notices
  hungUp : s.link.hungUp = t.link.hungUp
  remaining : s.closed = false → Link.joined s.remaining = Link.joined t.remaining

theorem Stream.Same.matches {s t : Stream} (h : s.Same t) : s.Matches t where
  closed := h.closed
  staged := h.staged
  sent := Link.sent_of_uncut_eq h.told
  notices := Link.notices_of_uncut_eq h.told
  hungUp := congrArg (·.link.hungUp) h
  remaining hc := by
    have hl := h.line
    rw [Stream.line, Stream.line, ← h.closed, hc] at hl
    exact (Stream.joined_remaining_eq_iff s t).2 hl

/-- Two phases as far as such an observer can compare them. -/
inductive Phase.Matches : Phase → Phase → Prop where
  | fresh {l m : Link} (incoming : Link.joined l.incoming = Link.joined m.incoming) :
      Phase.Matches (.fresh l) (.fresh m)
  | broken {s t : Stream} (stream : s.Matches t) : Phase.Matches (.broken s) (.broken t)
  | «open» {s t : Stream} (stream : s.Matches t) : Phase.Matches (.open s) (.open t)

/-- Two sessions as far as such an observer can compare them. -/
structure Session.Matches (a b : Session) : Prop where
  isOpen : a.isOpen = b.isOpen
  autocommit : a.autocommit = b.autocommit
  sent : a.phase.link.sent = b.phase.link.sent
  notices : a.phase.link.notices = b.phase.link.notices
  hungUp : a.phase.link.hungUp = b.phase.link.hungUp
  phase : a.phase.Matches b.phase

theorem Phase.Same.told {p q : Phase} (h : p.Same q) : p.link.uncut.told = q.link.uncut.told := by
  cases h with
  | fresh hl => exact congrArg Link.Uncut.told hl
  | broken hs => exact hs.told
  | «open» hs => exact hs.told

theorem Phase.Same.hungUp {p q : Phase} (h : p.Same q) : p.link.hungUp = q.link.hungUp := by
  cases h with
  | fresh hl => exact congrArg Link.Uncut.hungUp hl
  | broken hs => exact hs.matches.hungUp
  | «open» hs => exact hs.matches.hungUp

theorem Phase.Same.matches {p q : Phase} (h : p.Same q) : p.Matches q := by
  cases h with
  | fresh hl => exact .fresh ((Link.joined_eq_joined_iff _ _).2 (congrArg Link.Uncut.line hl))
  | broken hs => exact .broken hs.matches
  | «open» hs => exact .open hs.matches

theorem Session.Same.matches {a b : Session} (h : a.Same b) : a.Matches b where
  isOpen := h.isOpen
  autocommit := h.autocommit
  sent := Link.sent_of_uncut_eq h.phase.told
  notices := Link.notices_of_uncut_eq h.phase.told
  hungUp := h.phase.hungUp
  phase := h.phase.matches

/-! ## Other deliveries on the same link -/

/-- The link with other deliveries. -/
def Link.delivering (incoming : List Delivery) (link : Link) : Link := { link with incoming }

theorem Link.uncut_delivering {first second : List Delivery} (h : joined first = joined second)
    (link : Link) : (link.delivering first).uncut = (link.delivering second).uncut := by
  have hl := (joined_eq_joined_iff first second).1 h
  show { link.uncut with line := line first } = { link.uncut with line := line second }
  rw [hl]

theorem Stream.same_delivering {first second : List Delivery}
    (h : Link.joined first = Link.joined second) (s : Stream) :
    Same { s with link := s.link.delivering first } { s with link := s.link.delivering second } := by
  have hl := (Link.joined_eq_joined_iff first second).1 h
  show { s.uncut with link := { s.link.uncut with
      line := s.unread.map Link.Arrival.byte ++ if s.closed then [] else Link.line first } } =
    { s.uncut with link := { s.link.uncut with
      line := s.unread.map Link.Arrival.byte ++ if s.closed then [] else Link.line second } }
  rw [hl]

theorem Phase.same_delivering {first second : List Delivery} (h : Link.joined first = Link.joined second)
    (phase : Phase) :
    (phase.mapLink (Link.delivering first)).Same (phase.mapLink (Link.delivering second)) := by
  cases phase with
  | fresh link => exact .fresh (Link.uncut_delivering h link)
  | broken s => exact .broken (Stream.same_delivering h s)
  | «open» s => exact .open (Stream.same_delivering h s)

/-- **How deliveries are cut is not observed.** Over two lists of deliveries that join to the same,
every run of a stream and every run of a session has the same outcomes step by step, and ends in states
that match. As this holds of each beginning of a run too, the states match after each step. -/
theorem matches_of_joined_eq {first second : List Delivery} (h : Link.joined first = Link.joined second) :
    (∀ (handling : NoticeHandling) (s : Stream) (commands : List Stream.Command),
      let run₁ := Stream.performAll handling commands { s with link := s.link.delivering first }
      let run₂ := Stream.performAll handling commands { s with link := s.link.delivering second }
      run₁.1 = run₂.1 ∧ run₁.2.Matches run₂.2) ∧
    ∀ (session : Session) (steps : List Session.Step),
      let run₁ := Session.runAll steps
        { session with phase := session.phase.mapLink (Link.delivering first) }
      let run₂ := Session.runAll steps
        { session with phase := session.phase.mapLink (Link.delivering second) }
      run₁.1 = run₂.1 ∧ run₁.2.Matches run₂.2 := by
  constructor
  · intro handling s commands
    obtain ⟨ho, hs⟩ := Stream.same_performAll handling commands (Stream.same_delivering h s)
    exact ⟨ho, hs.matches⟩
  · intro session steps
    have start : Session.Same { session with phase := session.phase.mapLink (Link.delivering first) }
        { session with phase := session.phase.mapLink (Link.delivering second) } :=
      ⟨rfl, rfl, Phase.same_delivering h session.phase, rfl, rfl, rfl⟩
    obtain ⟨ho, hs⟩ := Session.same_runAll steps start
    exact ⟨ho, hs.matches⟩

/-- An acknowledgment that is cut behind its tag byte, before the link fails. -/
theorem outcomes_of_cut_acknowledgment :
    let whole : List Delivery := [.bytes [0x49, 0x00], .fault "reset"]
    let cut : List Delivery := [.bytes [0x49], .bytes [0x00], .fault "reset"]
    let commands : List Stream.Command := [.query " ", .receiveByte, .close]
    Link.joined whole = Link.joined cut ∧
      (Stream.performAll .logged commands { link := { incoming := whole } }).1 =
        (Stream.performAll .logged commands { link := { incoming := cut } }).1 := by
  have h : Link.joined [.bytes [0x49, 0x00], .fault "reset"] =
      Link.joined [.bytes [0x49], .bytes [0x00], .fault "reset"] := by decide
  exact ⟨h, ((matches_of_joined_eq h).1 .logged { link := {} } [.query " ", .receiveByte, .close]).1⟩

end SimpleQuery
