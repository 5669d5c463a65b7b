import SimpleQuery.Proofs.Calls
import SimpleQuery.Session.Command

/-!
# The life of a session

A session waits for a link to be dialled, then has a stream that runs no statements, then one that does,
and is broken again once that is lost. `Phase.Passes` says all that operations can do to a phase, and
every run is such a passage.

* `Session.passes_perform`, `Session.Leads.passes` — one operation, and any number of them.
* `Session.Leads.standing` — in every session that is reached, an open stream can be used.
* `Session.tells_perform` — a loss is the end of an open session, and nothing else but closing is.
* `session_breaks_iff_loss` — the two together.
-/

set_option autoImplicit false

namespace SimpleQuery

/-- The stream of a phase, if there is one. -/
def Phase.stream? : Phase → Option Stream
  | .fresh _ => none
  | .broken s | .open s => some s

/-- Whether this is an attempt to connect that failed. -/
def Event.isVainDial : Event → Bool
  | .dialled _ _ _ reached => !reached
  | _ => false

/-- What becomes of a phase. A link is dialled until that succeeds once; from then on there is a stream,
which can be used when it begins to run statements, and is closed when it stops. -/
inductive Phase.Passes : Phase → Phase → Prop where
  | waits {l m : Link} (hungUp : m.hungUp = l.hungUp)
      (calls : ∃ vain, m.calls = l.calls ++ vain ∧ ∀ event ∈ vain, event.isVainDial = true) :
      Passes (.fresh l) (.fresh m)
  | dials {l : Link} {s : Stream} {p : Phase} (hungUp : s.link.hungUp = l.hungUp)
      (isOpen : s.closed = false)
      (calls : ∃ vain host port timeout,
        s.link.calls = l.calls ++ vain ++ [.dialled host port timeout true, .unlimited, .undelayed] ∧
          ∀ event ∈ vain, event.isVainDial = true)
      (rest : Passes (.broken s) p) : Passes (.fresh l) p
  | rests {s t : Stream} (serves : s.Serves t) : Passes (.broken s) (.broken t)
  | opens {s t : Stream} (serves : s.Serves t) (usable : t.Usable) : Passes (.broken s) (.open t)
  | works {s t : Stream} (serves : s.Serves t) (usable : s.Usable → t.Usable) :
      Passes (.open s) (.open t)
  | breaks {s t : Stream} (serves : s.Serves t) (closed : t.closed = true) :
      Passes (.open s) (.broken t)

namespace Phase.Passes

theorem refl (p : Phase) : Passes p p := by
  cases p with
  | fresh link => exact .waits rfl ⟨[], by simp⟩
  | broken s => exact .rests (.refl s)
  | «open» s => exact .works (.refl s) id

/-- A stream that is broken and closed does not open any more. -/
theorem broken_of_closed {s : Stream} {p : Phase} (h : Passes (.broken s) p) (closed : s.closed = true) :
    ∃ t, p = .broken t ∧ t.closed = true ∧ t.link.calls = s.link.calls := by
  cases h with
  | rests serves => exact ⟨_, rfl, serves.shut closed⟩
  | opens serves usable =>
    have hclosed := (serves.shut closed).1
    rw [usable.isOpen] at hclosed
    cases hclosed

theorem of_broken {s t : Stream} {p : Phase} (h : Passes (.broken t) p) (serves : s.Serves t) :
    Passes (.broken s) p := by
  cases h with
  | rests h => exact .rests (.trans _ _ _ serves h)
  | opens h usable => exact .opens (.trans _ _ _ serves h) usable

theorem trans {p q r : Phase} (h : Passes p q) (h' : Passes q r) : Passes p r := by
  induction h with
  | @waits l m hungUp calls =>
    obtain ⟨vain, hcalls, hvain⟩ := calls
    cases h' with
    | waits hungUp' calls' =>
      obtain ⟨vain', hcalls', hvain'⟩ := calls'
      refine .waits (hungUp'.trans hungUp) ⟨vain ++ vain', ?_, ?_⟩
      · rw [hcalls', hcalls, List.append_assoc]
      · exact fun event hmem => (List.mem_append.1 hmem).elim (hvain event) (hvain' event)
    | dials hungUp' isOpen calls' rest =>
      obtain ⟨vain', host, port, timeout, hcalls', hvain'⟩ := calls'
      refine .dials (hungUp'.trans hungUp) isOpen ⟨vain ++ vain', host, port, timeout, ?_, ?_⟩ rest
      · rw [hcalls', hcalls, List.append_assoc l.calls]
      · exact fun event hmem => (List.mem_append.1 hmem).elim (hvain event) (hvain' event)
  | dials hungUp isOpen calls _ ih => exact .dials hungUp isOpen calls (ih h')
  | rests serves => exact h'.of_broken serves
  | opens serves usable =>
    cases h' with
    | works serves' usable' => exact .opens (.trans _ _ _ serves serves') (usable' usable)
    | breaks serves' closed => exact .rests (.trans _ _ _ serves serves')
  | works serves usable =>
    cases h' with
    | works serves' usable' => exact .works (.trans _ _ _ serves serves') (usable' ∘ usable)
    | breaks serves' closed => exact .breaks (.trans _ _ _ serves serves') closed
  | breaks serves closed =>
    obtain ⟨t, rfl, hclosed, -⟩ := h'.broken_of_closed closed
    cases h' with
    | rests serves' => exact .breaks (.trans _ _ _ serves serves') hclosed

end Phase.Passes

namespace Session

/-- What becomes of the phase of a session. -/
def Passes (a b : Session) : Prop := a.phase.Passes b.phase

theorem Passes.refl (a : Session) : a.Passes a := Phase.Passes.refl a.phase

theorem Passes.trans (a b c : Session) (h : a.Passes b) (h' : b.Passes c) : a.Passes c :=
  Phase.Passes.trans h h'

/-! ## One operation -/

theorem passes_query (statement : String) : Act.Moves Passes (query statement) := by
  intro session
  show session.phase.Passes
    (Act.state (onStream (execute session.handling statement) session)).phase
  cases hp : session.phase with
  | fresh link | broken s =>
    simp only [onStream, hp, Act.state_error]
    exact Phase.Passes.refl _
  | «open» s =>
    have hserves := serves_execute session.handling statement s
    have husable := usable_of_execute session.handling statement (s := s)
    have hclosed := @closed_of_lost session.handling statement s
    rw [onStream_of_open _ hp]
    cases he : execute session.handling statement s with
    | ok bundle t =>
      rw [he] at hserves husable
      exact .works hserves fun hs => husable hs rfl
    | error fault t =>
      rw [he] at hserves husable hclosed
      simp only [Act.state_error]
      split
      · rename_i hlost
        exact .breaks hserves (hclosed hlost)
      · rename_i hkept
        exact .works hserves fun hs => husable hs (eq_false_of_ne_true hkept)

theorem passes_control (statement : Control) : Act.Moves Passes (control statement) :=
  Act.Moves.bind Passes.trans (passes_query _) fun _ => Act.Moves.pure Passes.refl _

theorem passes_noteAutocommit (autocommit : Bool) : Act.Moves Passes (noteAutocommit autocommit) :=
  fun session => Phase.Passes.refl session.phase

/-- Whether a session is open is found out without doing anything to it. -/
theorem state_requireOpen (session : Session) : Act.state (requireOpen session) = session := by
  unfold requireOpen onStream
  cases hp : session.phase with
  | fresh link | broken s => rfl
  | «open» s =>
    show { session with phase := .open s } = session
    rw [← hp]

theorem passes_requireOpen : Act.Moves Passes requireOpen := by
  intro session
  rw [state_requireOpen]
  exact .refl session

theorem passes_setAutocommit (autocommit : Bool) : Act.Moves Passes (setAutocommit autocommit) := by
  refine Act.Moves.bind Passes.trans passes_requireOpen fun _ => ?_
  refine Act.Moves.bind Passes.trans (Act.Moves.get Passes.refl) fun _ => ?_
  split
  · exact Act.Moves.bind Passes.trans (passes_control _) fun _ => passes_noteAutocommit _
  · exact Act.Moves.pure Passes.refl _

theorem passes_finish (statement : Control) : Act.Moves Passes (finish statement) := by
  refine Act.Moves.bind Passes.trans passes_requireOpen fun _ => ?_
  refine Act.Moves.bind Passes.trans (Act.Moves.get Passes.refl) fun _ => ?_
  split
  · refine Act.Moves.bind Passes.trans (passes_control _) fun _ => ?_
    refine Act.Moves.bind Passes.trans (passes_noteAutocommit _) fun _ => ?_
    exact Act.Moves.bind Passes.trans (passes_control _) fun _ => passes_noteAutocommit _
  · exact Act.Moves.pure Passes.refl _

theorem passes_greet (s : Stream) (session : Session) :
    Phase.Passes (.broken s) (Act.state (greet s session)).phase := by
  have hserves := serves_handshake session.settings session.handling s
  unfold greet
  cases hs : handshake session.settings session.handling s with
  | ok _ t =>
    rw [hs] at hserves
    have husable := usable_of_handshake hs
    exact .opens (.trans _ _ _ hserves (Stream.serves_log _ _)) ⟨husable.isOpen, husable.staged⟩
  | error fault t =>
    rw [hs] at hserves
    cases fault with
    | loss cause | refusal cause => exact .rests (.trans _ _ _ hserves (Stream.serves_close t))
    | _ => exact .rests hserves

/-- Dialling gives an open stream on a transport that was set up, or is in vain. -/
theorem dial_cases (settings : Settings) (link : Link) :
    (∃ s, dial settings link = .ok s ∧ s.link.hungUp = link.hungUp ∧ s.closed = false ∧
      s.link.calls = link.calls ++
        [.dialled settings.host settings.port settings.connectTimeout true, .unlimited, .undelayed]) ∨
    ∃ (cause : DialFault) (m : Link), dial settings link = .error (cause.fault, m) ∧ m.hungUp = link.hungUp ∧
      m.calls = link.calls ++ [.dialled settings.host settings.port settings.connectTimeout false] := by
  unfold dial
  simp only [Link.dial]
  cases Link.nextFault link.dialFaults with
  | none =>
    refine .inl ⟨_, rfl, rfl, rfl, ?_⟩
    simp only [Link.calls_log, Link.calls_record, Event.isCall, if_true, List.append_assoc]
    rfl
  | some cause =>
    refine .inr ⟨cause, ?_⟩
    cases cause with
    | refused reason =>
      refine ⟨_, rfl, rfl, ?_⟩
      simp only [Link.calls_log, Link.calls_record, Event.isCall, if_true]
      rfl
    | «foreign» error =>
      refine ⟨_, rfl, rfl, ?_⟩
      simp only [Link.calls_record, Event.isCall, if_true]
      rfl

theorem passes_connect : Act.Moves Passes connect := by
  intro session
  unfold connect Passes
  cases hp : session.phase with
  | «open» s =>
    simp only [Act.state_ok, hp]
    exact .refl _
  | broken s => exact (passes_greet _ session).of_broken (Stream.serves_log _ _)
  | fresh link =>
    simp only
    rcases dial_cases session.settings (link.log (connecting session.settings)) with
      ⟨s, hd, hungUp, isOpen, hcalls⟩ | ⟨cause, m, hd, hungUp, hcalls⟩ <;>
      rw [hd] <;> rw [Link.calls_log] at hcalls
    · rw [← List.append_nil link.calls] at hcalls
      exact .dials hungUp isOpen ⟨[], _, _, _, hcalls, by simp⟩ (passes_greet s session)
    · exact .waits hungUp ⟨_, hcalls, by simp [Event.isVainDial]⟩

theorem passes_close (session : Session) : session.Passes session.close := by
  unfold close Passes
  cases hp : session.phase with
  | fresh link =>
    simp only [hp]
    exact .refl _
  | broken s =>
    refine .rests ?_
    split
    · exact .refl s
    · exact .trans _ _ _ (Stream.serves_close s) (Stream.serves_log _ _)
  | «open» s =>
    by_cases hc : s.closed = true
    · simp only [hc, if_true]
      exact .breaks (.refl s) hc
    · simp only [hc, Bool.false_eq_true, if_false]
      exact .breaks (.trans _ _ _ (Stream.serves_close s) (Stream.serves_log _ _)) (Stream.closed_close s)

theorem passes_feed (session : Session) (more : List Delivery) :
    session.Passes { session with phase := session.phase.mapLink (Link.feed more) } := by
  unfold Passes
  cases session.phase with
  | fresh link => exact .waits rfl ⟨[], (List.append_nil _).symm, by simp⟩
  | broken s => exact .rests (Stream.serves_feed s more)
  | «open» s => exact .works (Stream.serves_feed s more) fun h => ⟨h.isOpen, h.staged⟩

/-- All that an operation can do to the phase. -/
theorem passes_perform (command : Command) : Act.Moves Passes (perform command) := by
  have answers {α : Type} {act : Act Session α} (answer : α → Answer) (h : Act.Moves Passes act) :
      Act.Moves Passes (act >>= fun a => pure (answer a)) :=
    Act.Moves.bind Passes.trans h fun _ => Act.Moves.pure Passes.refl _
  cases command with
  | connect => exact answers _ passes_connect
  | query statement => exact answers _ (passes_query statement)
  | setAutocommit autocommit => exact answers _ (passes_setAutocommit autocommit)
  | commit | rollback => exact answers _ (passes_finish _)
  | close => exact fun session => passes_close session
  | feed more => exact fun session => passes_feed session more
  | setReadOnly | setCursorName => exact fun session => Phase.Passes.refl session.phase
  | isOpen | get | describe | setCatalog | clearWarnings | nativeStatement | setIsolation | metadata
  | prepareCall => exact fun session => .refl session

/-! ## The handler -/

theorem handling_onStream {α : Type} (act : Act Stream α) (session : Session) :
    (Act.state (onStream act session)).handling = session.handling := by
  unfold onStream
  split
  · split <;> rfl
  · rfl
  · rfl

theorem handling_query (statement : String) (session : Session) :
    (Act.state (query statement session)).handling = session.handling := handling_onStream _ session

theorem handling_connect (session : Session) :
    (Act.state (connect session)).handling = session.handling := by
  have greets (s : Stream) : (Act.state (greet s session)).handling = session.handling := by
    unfold greet
    split <;> rfl
  unfold connect
  split
  · rfl
  · exact greets _
  · split
    · exact greets _
    · rfl

/-! ## Any number of operations -/

/-- The sessions that operations lead to, one after the other. -/
inductive Leads : Session → Session → Prop where
  | refl (a : Session) : Leads a a
  | tail {a b : Session} (h : Leads a b) (command : Command) : Leads a (Act.state (perform command b))

namespace Leads

theorem trans {a b c : Session} (h : a.Leads b) (h' : b.Leads c) : a.Leads c := by
  induction h' with
  | refl => exact h
  | tail _ command ih => exact ih.tail command

theorem passes {a b : Session} (h : a.Leads b) : a.Passes b := by
  induction h with
  | refl => exact .refl _
  | tail _ command ih => exact .trans _ _ _ ih (passes_perform command _)

end Leads

mutual

theorem leads_run (step : Step) (session : Session) : session.Leads (run step session).2 := by
  match step with
  | .one command => exact (Leads.refl session).tail command
  | .block body => exact (leads_runAll body session).tail .close

/-- What a run comes to is reached by operations. A block is its body, and closing behind it. -/
theorem leads_runAll (steps : List Step) (session : Session) :
    session.Leads (runAll steps session).2 := by
  match steps with
  | [] => exact .refl session
  | step :: rest => exact (leads_run step session).trans (leads_runAll rest (run step session).2)

end

/-- A session as it is made: over a link that was not called yet, or over an honest stream. -/
def New (session : Session) : Prop :=
  match session.phase with
  | .fresh link => link.hungUp = false ∧ link.calls = []
  | .broken s => s.Honest
  | .open _ => False

end Session

/-- A phase in which the transport is not closed unless there is a stream and the stream is, and an open
stream can be used. -/
def Phase.Standing : Phase → Prop
  | .fresh link => link.hungUp = false ∧ link.calls.count .hungUp = 0
  | .broken s => s.Honest
  | .open s => s.Honest ∧ s.Usable

theorem Event.count_hungUp_of_vain {events : List Event} (h : ∀ event ∈ events, event.isVainDial = true) :
    events.count .hungUp = 0 :=
  List.count_eq_zero.2 fun hmem => by cases h _ hmem

theorem Phase.Passes.standing {p q : Phase} (h : p.Passes q) (hp : p.Standing) : q.Standing := by
  induction h with
  | waits hungUp calls =>
    obtain ⟨vain, hcalls, hvain⟩ := calls
    refine ⟨hungUp.trans hp.1, ?_⟩
    rw [hcalls, List.count_append, hp.2, Event.count_hungUp_of_vain hvain]
  | dials hungUp isOpen calls _ ih =>
    obtain ⟨vain, host, port, timeout, hcalls, hvain⟩ := calls
    refine ih ⟨hungUp.trans (hp.1.trans isOpen.symm), ?_⟩
    rw [hcalls, List.count_append, List.count_append, hp.2, Event.count_hungUp_of_vain hvain, isOpen]
    rfl
  | rests serves => exact serves.honest hp
  | opens serves usable => exact ⟨serves.honest hp, usable⟩
  | works serves usable => exact ⟨serves.honest hp.1, usable hp.2⟩
  | breaks serves _ => exact serves.honest hp.1

namespace Session

theorem New.standing {session : Session} (h : session.New) : session.phase.Standing := by
  unfold New at h
  unfold Phase.Standing
  cases hp : session.phase with
  | fresh link =>
    rw [hp] at h
    exact ⟨h.1, by rw [h.2]; rfl⟩
  | broken s =>
    rw [hp] at h
    exact h
  | «open» s =>
    rw [hp] at h
    exact h.elim

/-- Every session that is reached from a new one is in good standing. -/
theorem Leads.standing {session now : Session} (start : session.New) (h : session.Leads now) :
    now.phase.Standing :=
  h.passes.standing start.standing

/-! ## The end of an open session -/

theorem open_of_isOpen {session : Session} (h : session.isOpen = true) : ∃ s, session.phase = .open s := by
  unfold isOpen at h
  cases hp : session.phase with
  | fresh link | broken s =>
    rw [hp] at h
    cases h
  | «open» s => exact ⟨s, rfl⟩

theorem requireOpen_of_isOpen {session : Session} (h : session.isOpen = true) :
    requireOpen session = .ok () session := by
  obtain ⟨s, hp⟩ := open_of_isOpen h
  show onStream (pure ()) session = .ok () session
  rw [onStream_of_open _ hp]
  show EStateM.Result.ok () { session with phase := .open s } = .ok () session
  rw [← hp]

/-- On an open session the action comes to a loss exactly if the session is not open behind it. -/
def Tells {α : Type} (act : Act Session α) : Prop :=
  ∀ session, session.isOpen = true → (Act.state (act session)).isOpen = !Act.isLost (act session)

namespace Tells

variable {α β : Type}

theorem bind {act : Act Session α} {next : α → Act Session β} (h : Tells act)
    (hn : ∀ a, Tells (next a)) : Tells (act >>= next) := by
  intro session hopen
  have hs := h session hopen
  simp only [Bind.bind, EStateM.bind]
  cases ha : act session with
  | ok a t =>
    rw [ha] at hs
    exact hn a t hs
  | error fault t =>
    rw [ha] at hs
    exact hs

theorem still {act : Act Session α} (hstate : ∀ session, (Act.state (act session)).isOpen = session.isOpen)
    (hkept : ∀ session, Act.isLost (act session) = false) : Tells act := by
  intro session hopen
  rw [hstate, hopen, hkept]
  rfl

theorem pure (a : α) : Tells (Pure.pure a : Act Session α) := still (fun _ => rfl) fun _ => rfl

theorem get : Tells (MonadState.get : Act Session Session) := still (fun _ => rfl) fun _ => rfl

theorem onStream (act : Act Stream α) : Tells (Session.onStream act) := by
  intro session hopen
  obtain ⟨s, hs⟩ := open_of_isOpen hopen
  rw [onStream_of_open act hs]
  cases act s with
  | ok a t => rfl
  | error fault t => cases fault <;> rfl

theorem query (statement : String) : Tells (Session.query statement) :=
  get.bind fun _ => onStream _

theorem control (statement : Control) : Tells (Session.control statement) :=
  (query _).bind fun _ => pure _

theorem noteAutocommit (autocommit : Bool) : Tells (Session.noteAutocommit autocommit) :=
  still (fun _ => rfl) fun _ => rfl

theorem setAutocommit (autocommit : Bool) : Tells (Session.setAutocommit autocommit) := by
  refine (onStream _).bind fun _ => get.bind fun _ => ?_
  split
  · exact (control _).bind fun _ => noteAutocommit _
  · exact pure _

theorem finish (statement : Control) : Tells (Session.finish statement) := by
  refine (onStream _).bind fun _ => get.bind fun _ => ?_
  split
  · exact (control _).bind fun _ => (noteAutocommit _).bind fun _ =>
      (control _).bind fun _ => noteAutocommit _
  · exact pure _

theorem connect : Tells Session.connect := by
  intro session hopen
  obtain ⟨s, hs⟩ := open_of_isOpen hopen
  simp [Session.connect, isOpen, Act.isLost, hs]

end Tells

/-- An operation other than closing ends an open session exactly if it comes to a loss. -/
theorem tells_perform {command : Command} (h : command ≠ .close) : Tells (perform command) := by
  cases command with
  | connect => exact Tells.connect.bind fun _ => .pure _
  | query statement => exact (Tells.query statement).bind fun _ => .pure _
  | setAutocommit autocommit => exact (Tells.setAutocommit autocommit).bind fun _ => .pure _
  | commit | rollback => exact (Tells.finish _).bind fun _ => .pure _
  | close => exact absurd rfl h
  | feed more =>
    refine Tells.still (fun session => ?_) fun _ => rfl
    show isOpen { session with phase := session.phase.mapLink (Link.feed more) } = session.isOpen
    unfold isOpen
    cases session.phase <;> rfl
  | _ => exact Tells.still (fun _ => rfl) fun _ => rfl

/-- What was open is still, with its transport, or its transport was closed, once. -/
theorem hungUp_of_passes {session : Session} {s : Stream} (h : (Phase.open s).Passes session.phase)
    (standing : session.phase.Standing) :
    session.phase.link.hungUp = !session.isOpen ∧
      session.phase.link.calls.count .hungUp = (!session.isOpen).toNat := by
  unfold isOpen
  generalize session.phase = phase at *
  cases h with
  | works serves usable =>
    have isOpen := standing.2.isOpen
    exact ⟨standing.1.hungUp.trans isOpen, standing.1.once.trans (congrArg Bool.toNat isOpen)⟩
  | breaks serves closed =>
    exact ⟨standing.hungUp.trans closed, standing.once.trans (congrArg Bool.toNat closed)⟩

end Session

/-- An open session has a stream that is open, with nothing staged. An operation on it other than closing
either comes to a loss, and then the session is broken and the transport was closed, once, whatever the
transport said to that; or the session is still open, and nothing was closed. -/
theorem session_breaks_iff_loss {session now : Session} (start : session.New)
    (reached : session.Leads now) (isOpen : now.isOpen = true) :
    (∃ s, now.phase = .open s ∧ s.closed = false ∧ s.staged = []) ∧
      ∀ command, command ≠ .close →
        let result := Session.perform command now
        let after := Act.state result
        (after.isOpen = false ↔ ∃ cause, Act.outcome result = .error (.loss cause)) ∧
          after.phase.link.hungUp = !after.isOpen ∧
          after.phase.link.calls.count .hungUp = (!after.isOpen).toNat := by
  obtain ⟨s, hs⟩ := Session.open_of_isOpen isOpen
  have standing := reached.standing start
  rw [hs] at standing
  refine ⟨⟨s, hs, standing.2.isOpen, standing.2.staged⟩, fun command hclose => ?_⟩
  intro result after
  have hpasses : (Phase.open s).Passes after.phase := hs ▸ Session.passes_perform command now
  refine ⟨?_, Session.hungUp_of_passes hpasses ((reached.tail command).standing start)⟩
  have hlost : after.isOpen = !Act.isLost result := Session.tells_perform hclose now isOpen
  rw [← Act.isLost_iff, hlost]
  cases Act.isLost result <;> simp

/-- The backend is gone when a statement was sent, and the transport does not even close. -/
theorem session_breaks_at_end_of_stream :
    let session : Session :=
      { settings := { database := "d", user := "u" }
        phase := .fresh { incoming := [.bytes [0x49, 0x00]], hangUpFault := some "gone" } }
    let now := Act.state (Session.perform .connect session)
    let result := Session.perform (.query "x") now
    session.New ∧ now.isOpen = true ∧ Act.outcome result = .error (.loss .endOfStream) ∧
      (Act.state result).isOpen = false ∧ (Act.state result).phase.link.hungUp = true := by
  intro session now result
  have start : session.New := ⟨rfl, rfl⟩
  have isOpen : now.isOpen = true := by decide +kernel
  have lost : Act.outcome result = .error (.loss .endOfStream) := by decide +kernel
  obtain ⟨-, h⟩ := session_breaks_iff_loss start ((Session.Leads.refl session).tail .connect) isOpen
  obtain ⟨fate, hungUp, -⟩ := h (.query "x") (by decide)
  have broken := fate.2 ⟨_, lost⟩
  exact ⟨start, isOpen, lost, broken, hungUp.trans (congrArg Bool.not broken)⟩

end SimpleQuery
