import SimpleQuery.Proofs.Frame

/-!
# Calls on the transport

Of what happens on a link, some events are calls on the transport: to connect, to set it up, to send, to
ask for bytes, to close. A stream calls the transport only while it is open.

* `Stream.Conducts` — reading and sending make calls that exchange bytes, and open or close nothing.
* `Stream.Serves` — what is left of that for all that a session does to its stream, closing included.
* `Session.usable_of_execute`, `Session.usable_of_handshake` — after which of it the stream can be used.
-/

set_option autoImplicit false

namespace SimpleQuery

/-- What runs come to can be compared. -/
instance Act.decidableOutcome {α : Type} [DecidableEq α] : DecidableEq (Except Fault α)
  | .ok a, .ok b => decidable_of_iff (a = b) ⟨congrArg Except.ok, Except.ok.inj⟩
  | .error fault, .error fault' =>
    decidable_of_iff (fault = fault') ⟨congrArg Except.error, Except.error.inj⟩
  | .ok _, .error _ | .error _, .ok _ => isFalse nofun

/-- Whether a run has come to a loss. -/
def Act.isLost {σ α : Type} : EStateM.Result Fault σ α → Bool
  | .ok _ _ => false
  | .error fault _ => fault.isLoss

theorem Act.isLost_iff {σ α : Type} (r : EStateM.Result Fault σ α) :
    isLost r = true ↔ ∃ cause, outcome r = .error (.loss cause) := by
  cases r with
  | ok a s => simp [isLost]
  | error fault s => cases fault <;> simp [isLost, Fault.isLoss]

namespace Event

/-- Whether this is a call on the transport. Log entries and notices are none. -/
def isCall : Event → Bool
  | .logged _ | .noticed _ => false
  | _ => true

/-- Whether this is a call that sends bytes or asks for some. -/
def isExchange : Event → Bool
  | .sent _ | .unsent _ | .received _ | .unreceived => true
  | _ => false

end Event

namespace Link

/-- The calls on the transport, the earliest first. -/
def calls (link : Link) : List Event := link.history.filter Event.isCall

theorem calls_record (event : Event) (link : Link) :
    (link.record event).calls = link.calls ++ if event.isCall then [event] else [] := by
  rw [calls, history_record, List.filter_append, calls]
  cases h : event.isCall <;> simp [h]

@[simp] theorem calls_log (entry : Log.Entry) (link : Link) : (link.log entry).calls = link.calls :=
  (calls_record _ _).trans (List.append_nil _)

theorem calls_send (payload : Bytes) (link : Link) :
    ∃ event, (link.send payload).2.calls = link.calls ++ [event] ∧ event.isExchange = true := by
  simp only [send]
  cases nextFault link.sendFaults with
  | none => exact ⟨_, calls_record _ _, rfl⟩
  | some reason => exact ⟨_, calls_record _ _, rfl⟩

theorem calls_receive (limit : Nat) (link : Link) :
    ∃ event, (link.receive limit).2.calls = link.calls ++ [event] ∧ event.isExchange = true := by
  simp only [receive]
  cases (takeDelivery limit link.incoming).1 with
  | ok chunk => exact ⟨_, calls_record _ _, rfl⟩
  | error reason => exact ⟨_, calls_record _ _, rfl⟩

end Link

namespace Stream

/-! ## Reading and sending -/

/-- From one stream to the other bytes were sent and asked for, on an open stream only, and nothing was
opened or closed. -/
structure Conducts (s t : Stream) : Prop where
  closed : t.closed = s.closed
  hungUp : t.link.hungUp = s.link.hungUp
  exchanges : ∃ more, t.link.calls = s.link.calls ++ more ∧
    (∀ event ∈ more, event.isExchange = true) ∧ (s.closed = true → more = [])

namespace Conducts

theorem of_calls_eq {s t : Stream} (closed : t.closed = s.closed)
    (hungUp : t.link.hungUp = s.link.hungUp) (calls : t.link.calls = s.link.calls) : s.Conducts t :=
  ⟨closed, hungUp, [], by rw [calls, List.append_nil], by simp, fun _ => rfl⟩

theorem of_call {s t : Stream} (closed : t.closed = s.closed) (isOpen : s.closed = false)
    (hungUp : t.link.hungUp = s.link.hungUp)
    (calls : ∃ event, t.link.calls = s.link.calls ++ [event] ∧ event.isExchange = true) :
    s.Conducts t := by
  obtain ⟨event, hcalls, hexchange⟩ := calls
  refine ⟨closed, hungUp, [event], hcalls, by simpa using hexchange, ?_⟩
  simp [isOpen]

theorem refl (s : Stream) : s.Conducts s := of_calls_eq rfl rfl rfl

theorem trans (a b c : Stream) (h : a.Conducts b) (h' : b.Conducts c) : a.Conducts c := by
  obtain ⟨more, hcalls, hmore, hnone⟩ := h.exchanges
  obtain ⟨more', hcalls', hmore', hnone'⟩ := h'.exchanges
  refine ⟨h'.closed.trans h.closed, h'.hungUp.trans h.hungUp, more ++ more', ?_, ?_, ?_⟩
  · rw [hcalls', hcalls, List.append_assoc]
  · intro event hmem
    rcases List.mem_append.1 hmem with hmem | hmem
    · exact hmore event hmem
    · exact hmore' event hmem
  · intro hc
    rw [hnone hc, hnone' (h.closed.trans hc), List.append_nil]

end Conducts

theorem conducts_log (s : Stream) (entry : Log.Entry) : s.Conducts (s.log entry) :=
  .of_calls_eq rfl rfl (Link.calls_log entry s.link)

theorem conducts_stage (bytes : Bytes) : Act.Moves Conducts (stage bytes) :=
  fun _ => .of_calls_eq rfl rfl rfl

theorem conducts_fill : Act.Moves Conducts fill := by
  intro s
  unfold fill
  by_cases hc : s.closed = true
  · rw [if_pos hc]
    exact .refl s
  rw [if_neg hc]
  have received : s.Conducts { s with link := (s.link.receive chunkLimit).2 } :=
    .of_call rfl (by simpa using hc) rfl (Link.calls_receive chunkLimit s.link)
  split <;> rename_i hr <;> rw [hr] at received
  · exact .trans _ _ _ received (conducts_log _ _)
  · exact .trans _ _ _ received (conducts_log _ _)
  · exact .trans _ _ _ received (.of_calls_eq rfl rfl rfl)

/-- A call for bytes fails only with a loss. -/
theorem lost_of_fill {s t : Stream} {fault : Fault} (h : s.fill = .error fault t) :
    fault.isLoss = true := by
  unfold fill at h
  split at h
  · cases h
    rfl
  · split at h <;> cases h <;> rfl

theorem conducts_flush : Act.Moves Conducts flush := by
  intro s
  unfold flush
  by_cases hs : s.staged = []
  · rw [if_pos hs]
    exact .refl s
  by_cases hc : s.closed = true
  · rw [if_neg hs, if_pos hc]
    exact .refl s
  rw [if_neg hs, if_neg hc]
  have sent : s.Conducts { s with link := (s.link.send s.staged).2, staged := [] } :=
    .of_call rfl (by simpa using hc) rfl (Link.calls_send s.staged s.link)
  split <;> rename_i hr <;> rw [hr] at sent
  · exact sent
  · exact .trans _ _ _ sent (conducts_log _ _)

theorem conducts_sendQuery (statement : Bytes) : Act.Moves Conducts (sendQuery statement) :=
  Act.Moves.bind Conducts.trans (conducts_stage _) fun _ => conducts_flush

theorem alongAnswers_conducts (handling : NoticeHandling) : AlongAnswers handling Conducts where
  refl := Conducts.refl
  trans := Conducts.trans
  fill := conducts_fill
  unread _ _ := .of_calls_eq rfl rfl rfl
  log := conducts_log
  handle notice s := by
    have noticed : s.Conducts { s with link := s.link.record (.noticed notice) } :=
      .of_calls_eq rfl rfl ((Link.calls_record _ _).trans (List.append_nil _))
    cases handling with
    | logged => exact conducts_log s _
    | handled raises =>
      rw [Reader.state_handle_handled]
      exact noticed
  flush := conducts_sendQuery _

theorem conducts_query (handling : NoticeHandling) (statement : String) :
    Act.Moves Conducts (query handling statement) := by
  intro s
  by_cases hl : maxStatementLength < statement.length
  · rw [query_of_long hl]
    exact .refl s
  · rw [query_of_short (Nat.le_of_not_lt hl)]
    exact Act.Moves.bind Conducts.trans (Act.Moves.ofExcept Conducts.refl _) (fun _ =>
      Act.Moves.bind Conducts.trans (conducts_sendQuery _) fun _ =>
        (alongAnswers_conducts handling).receiveAnswer) s

theorem conducts_startup (settings : Settings) : Act.Moves Conducts (Startup.send settings) := by
  refine Act.Moves.bind Conducts.trans (conducts_stage _) fun _ => ?_
  refine Act.Moves.bind Conducts.trans (conducts_stage _) fun _ => ?_
  refine Act.Moves.bind Conducts.trans (Act.Moves.ofExcept Conducts.refl _) fun _ => ?_
  refine Act.Moves.bind Conducts.trans (conducts_stage _) fun _ => ?_
  refine Act.Moves.bind Conducts.trans (Act.Moves.ofExcept Conducts.refl _) fun _ => ?_
  refine Act.Moves.bind Conducts.trans (conducts_stage _) fun _ => ?_
  exact Act.Moves.bind Conducts.trans conducts_flush fun _ => fun s => conducts_log s _

/-! ## Streams that can be used -/

/-- A stream that is open, with nothing staged. -/
structure Usable (s : Stream) : Prop where
  isOpen : s.closed = false
  staged : s.staged = []

theorem Usable.clear {s : Stream} (h : s.Usable) : s.Clear := .inl h.staged

theorem Clear.usable {s : Stream} (h : s.Clear) (isOpen : s.closed = false) : s.Usable := by
  refine ⟨isOpen, h.resolve_right ?_⟩
  simp [isOpen]

theorem clear_query (handling : NoticeHandling) (statement : String) {s : Stream} (h : s.Clear) :
    (Act.state (s.query handling statement)).Clear := by
  by_cases hl : maxStatementLength < statement.length
  · rw [query_of_long hl]
    exact h
  rw [query_of_short (Nat.le_of_not_lt hl)]
  cases s.encode statement with
  | error fault => exact h
  | ok bytes =>
    show (Act.state ((sendQuery bytes >>= fun _ => receiveAnswer handling : Act Stream Bundle) s)).Clear
    simp only [bind, EStateM.bind]
    rcases sendQuery_cases bytes s with ⟨fault, t, hs, -, -, hclear, -⟩ | ⟨t, hs, -, -, hstaged, -⟩
    · rw [hs]
      exact hclear
    · rw [hs]
      obtain ⟨-, -, hanswer⟩ := (alongAnswers_addsFlushes handling).receiveAnswer t
      exact (hanswer (.inl hstaged)).1

/-- A query leaves a stream as usable as it was, whatever it comes to. -/
theorem Usable.query {s : Stream} (h : s.Usable) (handling : NoticeHandling) (statement : String) :
    (Act.state (s.query handling statement)).Usable :=
  (clear_query handling statement h.clear).usable
    ((conducts_query handling statement s).closed.trans h.isOpen)

/-- Once something is staged and all of it could be sent, nothing is. -/
theorem usable_of_flush {s t : Stream} (hs : s.staged ≠ []) (h : flush s = .ok () t) : t.Usable := by
  unfold flush at h
  rw [if_neg hs] at h
  split at h
  · cases h
  · rename_i hc
    split at h
    · cases h
      exact ⟨by simpa using hc, rfl⟩
    · cases h

/-- Once the startup packet is sent, the stream can be used, whatever was staged before. -/
theorem usable_of_startup {settings : Settings} {s t : Stream}
    (h : Startup.send settings s = .ok () t) : t.Usable := by
  simp only [Startup.send, stageInteger, stagePadded, stage, bind, EStateM.bind] at h
  cases hd : Text.encodeIn settings.encoding.charset settings.database with
  | error fault =>
    rw [hd] at h
    cases h
  | ok database =>
    rw [hd] at h
    cases hu : Text.encodeIn settings.encoding.charset settings.user with
    | error fault =>
      rw [hu] at h
      cases h
    | ok user =>
      rw [hu] at h
      simp only [Act.ofExcept, pure, EStateM.pure] at h
      split at h
      · rename_i u hf
        cases h
        have hu : u.Usable := by
          refine usable_of_flush ?_ hf
          simp [Width.encode, Width.bytes, BigEndian.encode]
        exact ⟨hu.isOpen, hu.staged⟩
      · cases h

/-! ## All that a session does to its stream -/

/-- A stream that is closed exactly if its transport is, which was then closed once. -/
structure Honest (s : Stream) : Prop where
  hungUp : s.link.hungUp = s.closed
  once : s.link.calls.count .hungUp = s.closed.toNat

/-- What a session does to its stream keeps it honest, asks nothing of the transport once it is closed,
and until then exchanges bytes over it and closes it. -/
structure Serves (s t : Stream) : Prop where
  honest : s.Honest → t.Honest
  shut : s.closed = true → t.closed = true ∧ t.link.calls = s.link.calls
  calls : ∃ more, t.link.calls = s.link.calls ++ more ∧
    ∀ event ∈ more, event.isExchange = true ∨ event = .hungUp

theorem Conducts.serves {s t : Stream} (h : s.Conducts t) : s.Serves t := by
  obtain ⟨more, hcalls, hmore, hnone⟩ := h.exchanges
  refine ⟨fun hs => ⟨?_, ?_⟩, ?_, more, hcalls, fun event hmem => .inl (hmore event hmem)⟩
  · rw [h.hungUp, h.closed]
    exact hs.hungUp
  · have hcount : more.count .hungUp = 0 := List.count_eq_zero.2 fun hmem => by cases hmore _ hmem
    rw [hcalls, List.count_append, hcount, h.closed]
    exact hs.once
  · intro hc
    refine ⟨h.closed.trans hc, ?_⟩
    rw [hcalls, hnone hc, List.append_nil]

namespace Serves

theorem refl (s : Stream) : s.Serves s := (Conducts.refl s).serves

theorem trans (a b c : Stream) (h : a.Serves b) (h' : b.Serves c) : a.Serves c := by
  obtain ⟨more, hcalls, hmore⟩ := h.calls
  obtain ⟨more', hcalls', hmore'⟩ := h'.calls
  refine ⟨h'.honest ∘ h.honest, ?_, more ++ more', ?_, ?_⟩
  · intro hc
    obtain ⟨hb, hcalls⟩ := h.shut hc
    obtain ⟨hc, hcalls'⟩ := h'.shut hb
    exact ⟨hc, hcalls'.trans hcalls⟩
  · rw [hcalls', hcalls, List.append_assoc]
  · intro event hmem
    rcases List.mem_append.1 hmem with hmem | hmem
    · exact hmore event hmem
    · exact hmore' event hmem

end Serves

theorem serves_log (s : Stream) (entry : Log.Entry) : s.Serves (s.log entry) :=
  (conducts_log s entry).serves

/-- Closing closes the transport too, unless that was done. -/
theorem serves_close (s : Stream) : s.Serves s.close := by
  have hemptied : s.Conducts { s with unread := [], staged := [] } := .of_calls_eq rfl rfl rfl
  unfold close
  simp only
  split
  · exact hemptied.serves
  · rename_i hc
    have hclosing : ({ s.link with hungUp := true }.record .hungUp).calls = s.link.calls ++ [.hungUp] :=
      Link.calls_record _ _
    simp only [Link.hangUp]
    refine ⟨fun hs => ⟨?_, ?_⟩, fun hclosed => absurd hclosed hc, [.hungUp], ?_, by simp⟩
    · split <;> rfl
    · have hcount : (s.link.calls ++ [Event.hungUp]).count Event.hungUp = 1 := by
        rw [List.count_append, hs.once, eq_false_of_ne_true hc]
        rfl
      split <;> simpa [hclosing] using hcount
    · split <;> simpa using hclosing

theorem serves_feed (s : Stream) (more : List Delivery) :
    s.Serves { s with link := s.link.feed more } :=
  Conducts.serves (.of_calls_eq rfl rfl rfl)

end Stream

namespace Session

theorem serves_execute (handling : NoticeHandling) (statement : String) :
    Act.Moves Stream.Serves (execute handling statement) := by
  intro s
  have hquery := (Stream.conducts_query handling statement s).serves
  unfold execute
  split <;> rename_i hr <;> rw [hr] at hquery
  · exact .trans _ _ _ hquery (Stream.serves_log _ _)
  · exact .trans _ _ _ hquery (.trans _ _ _ (Stream.serves_log _ _) (Stream.serves_close _))
  · exact hquery

/-- Where a statement does not come to a loss, a stream that could be used still can. -/
theorem usable_of_execute (handling : NoticeHandling) (statement : String) {s : Stream} (h : s.Usable)
    (kept : Act.isLost (execute handling statement s) = false) :
    (Act.state (execute handling statement s)).Usable := by
  have husable := h.query handling statement
  unfold execute at kept ⊢
  cases hq : s.query handling statement with
  | ok bundle t =>
    rw [hq] at husable
    exact ⟨husable.isOpen, husable.staged⟩
  | error fault t =>
    rw [hq] at husable kept
    cases fault with
    | loss cause => cases kept
    | _ => exact husable

/-- Where it does, the stream is closed. -/
theorem closed_of_lost {handling : NoticeHandling} {statement : String} {s : Stream}
    (lost : Act.isLost (execute handling statement s) = true) :
    (Act.state (execute handling statement s)).closed = true := by
  cases he : execute handling statement s with
  | ok bundle t =>
    rw [he] at lost
    cases lost
  | error fault t =>
    rw [he] at lost
    exact closed_of_execute he lost

theorem serves_handshake (settings : Settings) (handling : NoticeHandling) :
    Act.Moves Stream.Serves (handshake settings handling) := by
  refine Act.Moves.bind Stream.Serves.trans (fun s => (Stream.conducts_startup settings s).serves) fun _ => ?_
  refine Act.Moves.bind Stream.Serves.trans (serves_execute _ _) fun _ => ?_
  split
  · refine Act.Moves.bind Stream.Serves.trans (serves_execute _ _) fun _ => ?_
    exact Act.Moves.pure Stream.Serves.refl _
  · exact Act.Moves.pure Stream.Serves.refl _

/-- After a handshake the stream can be used. -/
theorem usable_of_handshake {settings : Settings} {handling : NoticeHandling} {s t : Stream}
    (h : handshake settings handling s = .ok () t) : t.Usable := by
  have hexecute {statement : String} {u v : Stream} {bundle : Bundle} (hu : u.Usable)
      (hv : execute handling statement u = .ok bundle v) : v.Usable := by
    have husable := usable_of_execute handling statement hu (by rw [hv]; rfl)
    rwa [hv] at husable
  simp only [handshake, bind, EStateM.bind] at h
  cases hs : Startup.send settings s with
  | error fault u =>
    rw [hs] at h
    cases h
  | ok _ u =>
    rw [hs] at h
    simp only at h
    cases hp : execute handling Query.blank u with
    | error fault v =>
      rw [hp] at h
      cases h
    | ok bundle v =>
      have hv := hexecute (Stream.usable_of_startup hs) hp
      rw [hp] at h
      cases hset : settings.autocommit with
      | true =>
        rw [hset] at h
        cases h
        exact hv
      | false =>
        rw [hset] at h
        simp only [Bool.not_false, if_true, EStateM.bind] at h
        cases hb : execute handling Control.begin.statement v with
        | error fault w =>
          rw [hb] at h
          cases h
        | ok bundle w =>
          rw [hb] at h
          cases h
          exact hexecute hv hb

end Session

end SimpleQuery
