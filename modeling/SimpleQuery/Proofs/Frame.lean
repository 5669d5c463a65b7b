import SimpleQuery.Proofs.Assembly
import SimpleQuery.Session.Basic

/-!
# What reading leaves alone

Reading moves a stream along any relation that asking for bytes, taking bytes and writing to the log
move it along, and reading an answer along any that is moreover kept by handing over a notice and by a
flush query.

* `Stream.Keeps` — reading sends nothing, hands over no notice and closes nothing.
* `Stream.AddsFlushes` — while an answer is read, flush queries are sent and nothing else.
* `Session.sent_execute` — a statement sends its own frame first, and then flush queries.
-/

set_option autoImplicit false

namespace SimpleQuery

namespace Link

/-- An event that is no call that sent something is not among what was sent. -/
theorem sent_of_unsaid {event : Event} (h : event.payload? = none) (link : Link) :
    (link.record event).sent = link.sent := by
  rw [sent_record, h, Option.toList_none, List.append_nil]

theorem sent_log (entry : Log.Entry) (link : Link) : (link.log entry).sent = link.sent :=
  sent_of_unsaid rfl link

/-- Nor is an event that is no call for bytes among those. -/
theorem receives_of_unasked {event : Event} (h : event.isReceive = false) (link : Link) :
    (link.record event).receives = link.receives := by
  rw [receives_record, h]
  rfl

theorem receives_log (entry : Log.Entry) (link : Link) : (link.log entry).receives = link.receives :=
  receives_of_unasked rfl link

end Link

namespace Stream

/-- A relation along which reading moves a stream. -/
structure Along (r : Stream → Stream → Prop) : Prop where
  refl : ∀ s, r s s
  trans : ∀ a b c, r a b → r b c → r a c
  fill : Act.Moves r fill
  unread : ∀ (s : Stream) (bytes : Bytes), r s { s with unread := bytes }
  log : ∀ (s : Stream) (entry : Log.Entry), r s (s.log entry)

namespace Along

variable {r : Stream → Stream → Prop}

theorem receive (h : Along r) (n : Nat) : Act.Moves r (receive n) := by
  intro s
  show r s (Act.state (receiveFrom n s))
  fun_induction receiveFrom n s with
  | case1 s bytes rest hc => exact h.unread s rest
  | case2 s hc t ht ih =>
    have hf := h.fill s
    rw [ht] at hf
    exact h.trans _ _ _ hf ih
  | case3 s hc fault t ht =>
    have hf := h.fill s
    rwa [ht] at hf

theorem gather (h : Along r) (room : Nat) : Act.Moves r (gather room) := by
  intro s
  show r s (Act.state (gatherFrom room s))
  fun_induction gatherFrom room s with
  | case1 room s text rest hs | case2 room s rest hs => exact h.unread s rest
  | case3 room s text left hs t ht rest u hu ih | case4 room s text left hs t ht u hu ih
  | case5 room s text left hs t ht fault u hu ih =>
    have hf := h.fill { s with unread := [] }
    rw [ht] at hf
    rw [hu] at ih
    exact h.trans _ _ _ (h.unread s []) (h.trans _ _ _ hf ih)
  | case6 room s text left hs fault t ht =>
    have hf := h.fill { s with unread := [] }
    rw [ht] at hf
    exact h.trans _ _ _ (h.unread s []) hf

theorem await (h : Along r) : Act.Moves r await := by
  intro s
  unfold Stream.await
  split
  · exact h.fill s
  · exact h.refl s

theorem receiveText (h : Along r) (cap : Nat) : Act.Moves r (receiveText cap) := by
  apply receiveText_of (Act.Moves.sequencing h.refl h.trans)
  · exact fun entry s => h.log s entry
  · exact Act.Moves.bind h.trans h.await fun _ => h.gather cap
  · exact fun _ => Act.Moves.bind h.trans (Act.Moves.get h.refl) fun _ => Act.Moves.ofExcept h.refl _

/-- All that is put together for a message moves a stream along the relation. -/
theorem assembly (h : Along r) : Assembly fun {α : Type} (act : Act Stream α) => Act.Moves r act where
  toSequencing := Act.Moves.sequencing h.refl h.trans
  logged entry s := h.log s entry
  receive := h.receive
  receiveText cap _ := h.receiveText cap

end Along

/-- A relation along which reading an answer moves a stream. -/
structure AlongAnswers (handling : NoticeHandling) (r : Stream → Stream → Prop) : Prop extends
    Along r where
  handle : ∀ notice, Act.Moves r (Reader.handle handling notice)
  flush : Act.Moves r (sendQuery Query.blankBytes)

namespace AlongAnswers

variable {handling : NoticeHandling} {r : Stream → Stream → Prop} {α : Type}

/-- The same relation between readers. -/
def onReader (r : Stream → Stream → Prop) (x y : Reader) : Prop := r x.stream y.stream

theorem onStream {act : Act Stream α} (h : Act.Moves r act) :
    Act.Moves (onReader r) (Reader.onStream act) := by
  intro x
  rw [onReader, Reader.stream_onStream]
  exact h x.stream

theorem assembly (h : AlongAnswers handling r) :
    Reader.Assembly handling (fun {α : Type} (act : Act Stream α) => Act.Moves r act)
      fun {α : Type} (act : Act Reader α) => Act.Moves (onReader r) act where
  toSequencing := Act.Moves.sequencing (fun x => h.refl x.stream) fun _ _ _ => h.trans _ _ _
  reading := h.toAlong.assembly
  handle := h.handle
  sends := h.flush
  onStream := onStream
  respond _ x := h.refl x.stream
  response _ hn x := hn x.response x
  pairwise h x := by
    obtain ⟨part, hpart, hx, -⟩ := h x x
    rw [hx]
    exact hpart x

theorem receiveAnswer (h : AlongAnswers handling r) : Act.Moves r (receiveAnswer handling) := by
  intro s
  have hr : onReader r { stream := s } (Act.state (Reader.read handling { stream := s })) :=
    h.assembly.read (fun _ x => h.refl x.stream) { stream := s }
  unfold Stream.receiveAnswer
  split <;> rename_i hx <;> rw [hx] at hr <;> exact hr

end AlongAnswers

/-! ## Reading -/

/-- What reading leaves alone. -/
structure Keeps (s t : Stream) : Prop where
  charset : t.charset = s.charset
  closed : t.closed = s.closed
  staged : t.staged = s.staged
  sent : t.link.sent = s.link.sent
  notices : t.link.notices = s.link.notices
  sendFaults : t.link.sendFaults = s.link.sendFaults
  hungUp : t.link.hungUp = s.link.hungUp

theorem Keeps.refl (s : Stream) : s.Keeps s := ⟨rfl, rfl, rfl, rfl, rfl, rfl, rfl⟩

theorem Keeps.trans (a b c : Stream) (h : a.Keeps b) (h' : b.Keeps c) : a.Keeps c where
  charset := h'.charset.trans h.charset
  closed := h'.closed.trans h.closed
  staged := h'.staged.trans h.staged
  sent := h'.sent.trans h.sent
  notices := h'.notices.trans h.notices
  sendFaults := h'.sendFaults.trans h.sendFaults
  hungUp := h'.hungUp.trans h.hungUp

/-- An event that is neither a call that sent something nor a notice is left out of both records. -/
theorem keeps_record {event : Event} (hp : event.payload? = none) (hn : event.notice? = none)
    (s : Stream) : s.Keeps { s with link := s.link.record event } where
  charset := rfl
  closed := rfl
  staged := rfl
  sent := Link.sent_of_unsaid hp s.link
  notices := by
    show (s.link.record event).notices = s.link.notices
    rw [Link.notices_record, hn, Option.toList_none, List.append_nil]
  sendFaults := rfl
  hungUp := rfl

theorem keeps_incoming (s : Stream) (incoming : List Delivery) :
    s.Keeps { s with link := { s.link with incoming } } := ⟨rfl, rfl, rfl, rfl, rfl, rfl, rfl⟩

theorem keeps_log (s : Stream) (entry : Log.Entry) : s.Keeps (s.log entry) := keeps_record rfl rfl s

theorem keeps_unread (s : Stream) (bytes : Bytes) : s.Keeps { s with unread := bytes } :=
  ⟨rfl, rfl, rfl, rfl, rfl, rfl, rfl⟩

theorem keeps_fill : Act.Moves Keeps fill := by
  intro s
  have hr : s.Keeps { s with link := (s.link.receive chunkLimit).2 } := by
    refine Keeps.trans _ _ _ (keeps_incoming s (Link.takeDelivery chunkLimit s.link.incoming).2) ?_
    refine keeps_record ?_ ?_ _
    · split <;> rfl
    · split <;> rfl
  unfold fill
  split
  · exact Keeps.refl s
  · split <;> rename_i h <;> rw [h] at hr
    · exact Keeps.trans _ _ _ hr (keeps_log _ _)
    · exact Keeps.trans _ _ _ hr (keeps_log _ _)
    · exact Keeps.trans _ _ _ hr (keeps_unread _ _)

theorem along_keeps : Along Keeps where
  refl := Keeps.refl
  trans := Keeps.trans
  fill := keeps_fill
  unread := keeps_unread
  log := keeps_log

/-- Sending hands over no notice. -/
theorem notices_flush (s : Stream) : (Act.state (flush s)).link.notices = s.link.notices := by
  unfold flush
  split
  · rfl
  split
  · rfl
  simp only [Link.send]
  cases Link.nextFault s.link.sendFaults with
  | none => exact (Link.notices_record _ _).trans (List.append_nil _)
  | some reason => exact (keeps_log _ _).notices.trans ((Link.notices_record _ _).trans (List.append_nil _))

/-! ## Reading an answer -/

/-- Nothing waits to be sent, or nothing can be sent. -/
def Clear (s : Stream) : Prop := s.staged = [] ∨ s.closed = true

/-- While nothing waits to be sent, flush queries were sent and nothing else, and the stream is neither
closed nor given another charset. -/
def AddsFlushes (s t : Stream) : Prop :=
  t.closed = s.closed ∧ t.charset = s.charset ∧
    (s.Clear → t.Clear ∧ ∃ count,
      t.link.sent = s.link.sent ++ List.replicate count (Query.frame Query.blankBytes))

theorem AddsFlushes.trans (a b c : Stream) (h : a.AddsFlushes b) (h' : b.AddsFlushes c) :
    a.AddsFlushes c := by
  obtain ⟨hc, hs, h⟩ := h
  obtain ⟨hc', hs', h'⟩ := h'
  refine ⟨hc'.trans hc, hs'.trans hs, fun ha => ?_⟩
  obtain ⟨hb, m, hm⟩ := h ha
  obtain ⟨hcc, n, hn⟩ := h' hb
  refine ⟨hcc, m + n, ?_⟩
  rw [hn, hm, List.append_assoc, List.replicate_append_replicate]

theorem Keeps.addsFlushes {s t : Stream} (h : s.Keeps t) : s.AddsFlushes t := by
  refine ⟨h.closed, h.charset, fun hc => ⟨?_, 0, ?_⟩⟩
  · unfold Clear
    rw [h.staged, h.closed]
    exact hc
  · rw [h.sent, List.replicate_zero, List.append_nil]

theorem flush_of_closed {s : Stream} (hs : s.staged ≠ []) (hc : s.closed = true) :
    flush s = .error (.loss .streamClosed) s := by
  unfold flush
  rw [if_neg hs, if_pos hc]

/-- What a query comes to: the stream is closed, or its frame is sent behind what was staged, or it fails to be. -/
theorem sendQuery_run (statement : Bytes) (s : Stream) :
    (s.closed = true ∧ sendQuery statement s =
      .error (.loss .streamClosed) { s with staged := s.staged ++ Query.frame statement }) ∨
    (s.closed = false ∧ Link.nextFault s.link.sendFaults = none ∧ sendQuery statement s = .ok () { s with
      link := { s.link with sendFaults := s.link.sendFaults.tail }.record
        (.sent (s.staged ++ Query.frame statement))
      staged := [] }) ∨
    ∃ reason, s.closed = false ∧ Link.nextFault s.link.sendFaults = some reason ∧
      sendQuery statement s = .error (.loss (.sendFailed reason)) ({ s with
        link := { s.link with sendFaults := s.link.sendFaults.tail }.record
          (.unsent (s.staged ++ Query.frame statement))
        staged := [] }.log (.sendFailed reason)) := by
  have hne : s.staged ++ Query.frame statement ≠ [] := by simp [Query.frame]
  simp only [sendQuery, stage, flush, bind, EStateM.bind, if_neg hne]
  split
  · rename_i hc
    exact .inl ⟨hc, rfl⟩
  · rename_i hc
    have isOpen : s.closed = false := by simpa using hc
    simp only [Link.send]
    cases Link.nextFault s.link.sendFaults with
    | none => exact .inr (.inl ⟨isOpen, rfl, rfl⟩)
    | some reason => exact .inr (.inr ⟨reason, isOpen, rfl, rfl⟩)

/-- A query sends its frame behind what was staged, or nothing. -/
theorem sendQuery_cases (statement : Bytes) (s : Stream) :
    (∃ fault t, sendQuery statement s = .error fault t ∧ t.closed = s.closed ∧ t.charset = s.charset ∧
      t.Clear ∧ t.link.sent = s.link.sent) ∨
    (∃ t, sendQuery statement s = .ok () t ∧ t.closed = s.closed ∧ t.charset = s.charset ∧
      t.staged = [] ∧ t.link.sent = s.link.sent ++ [s.staged ++ Query.frame statement]) := by
  rcases sendQuery_run statement s with ⟨hc, h⟩ | ⟨-, -, h⟩ | ⟨reason, -, -, h⟩
  · exact .inl ⟨_, _, h, rfl, rfl, .inr hc, rfl⟩
  · exact .inr ⟨_, h, rfl, rfl, rfl, Link.sent_record _ _⟩
  · refine .inl ⟨_, _, h, rfl, rfl, .inl rfl, ?_⟩
    rw [(keeps_log _ _).sent]
    exact Link.sent_of_unsaid rfl _

theorem alongAnswers_addsFlushes (handling : NoticeHandling) : AlongAnswers handling AddsFlushes where
  refl s := (Keeps.refl s).addsFlushes
  trans := AddsFlushes.trans
  fill s := (keeps_fill s).addsFlushes
  unread s bytes := (keeps_unread s bytes).addsFlushes
  log s entry := (keeps_log s entry).addsFlushes
  handle notice s := by
    have noticed : s.AddsFlushes { s with link := s.link.record (.noticed notice) } :=
      ⟨rfl, rfl, fun h => ⟨h, 0, Link.sent_record _ _⟩⟩
    cases handling with
    | logged => exact (keeps_log s _).addsFlushes
    | handled raises =>
      rw [Reader.state_handle_handled]
      exact noticed
  flush s := by
    obtain ⟨fault, t, hs, hc, hcs, hclear, hsent⟩ | ⟨t, hs, hc, hcs, hstaged, hsent⟩ :=
      sendQuery_cases Query.blankBytes s
    · rw [hs]
      exact ⟨hc, hcs, fun _ => ⟨hclear, 0, by simpa using hsent⟩⟩
    · rw [hs]
      refine ⟨hc, hcs, fun h => ?_⟩
      rcases h with h | h
      · exact ⟨.inl hstaged, 1, by simpa [h] using hsent⟩
      · rcases sendQuery_run Query.blankBytes s with ⟨-, hrun⟩ | ⟨isOpen, -⟩ | ⟨reason, isOpen, -⟩
        · rw [hrun] at hs
          cases hs
        all_goals
          rw [h] at isOpen
          cases isOpen

/-- Closing sends nothing. -/
theorem sent_close (s : Stream) : s.close.link.sent = s.link.sent := by
  simp only [close, Link.hangUp, Link.log]
  split
  · rfl
  · have hung : ({ s.link with hungUp := true }.record .hungUp).sent = s.link.sent :=
      Link.sent_of_unsaid rfl _
    split <;> simp only [Link.sent_record, Event.payload?, Option.toList_none, List.append_nil, hung]

@[simp] theorem closed_close (s : Stream) : s.close.closed = true := by
  simp only [close]
  split
  · assumption
  · rfl

/-- What a query sends: nothing, or its own frame behind what was staged, and then flush queries. -/
def Asks (s : Stream) (statement : String) (payloads : List Bytes) : Prop :=
  payloads = [] ∨ ∃ bytes count, s.encode statement = .ok bytes ∧
    payloads = (s.staged ++ Query.frame bytes) :: List.replicate count (Query.frame Query.blankBytes)

theorem sent_query (handling : NoticeHandling) (statement : String) (s : Stream) :
    ∃ payloads, (Act.state (s.query handling statement)).link.sent = s.link.sent ++ payloads ∧
      s.Asks statement payloads := by
  by_cases hl : maxStatementLength < statement.length
  · exact ⟨[], by simp [query_of_long hl], .inl rfl⟩
  rw [query_of_short (Nat.le_of_not_lt hl)]
  cases he : s.encode statement with
  | error fault => exact ⟨[], by simp [bind, EStateM.bind, Act.ofExcept, Act.throw_eq], .inl rfl⟩
  | ok bytes =>
    have hrun : (Act.ofExcept (.ok bytes) >>= fun bytes =>
        sendQuery bytes >>= fun _ => receiveAnswer handling : Act Stream Bundle) s =
          (sendQuery bytes >>= fun _ => receiveAnswer handling : Act Stream Bundle) s := rfl
    rw [hrun]
    simp only [bind, EStateM.bind]
    rcases sendQuery_cases bytes s with ⟨fault, t, hs, -, -, -, hsent⟩ | ⟨t, hs, -, -, hstaged, hsent⟩
    · rw [hs]
      exact ⟨[], by simpa using hsent, .inl rfl⟩
    · rw [hs]
      obtain ⟨-, -, h⟩ := (alongAnswers_addsFlushes handling).receiveAnswer t
      obtain ⟨-, count, hcount⟩ := h (.inl hstaged)
      refine ⟨_, ?_, .inr ⟨bytes, count, he, rfl⟩⟩
      simp only [hcount, hsent, List.append_assoc, List.singleton_append]

end Stream

namespace Session

theorem outcome_execute (handling : NoticeHandling) (statement : String) (s : Stream) :
    Act.outcome (execute handling statement s) = Act.outcome (s.query handling statement) := by
  unfold execute
  cases s.query handling statement with
  | ok bundle t => rfl
  | error fault t => cases fault <;> rfl

theorem sent_execute_eq (handling : NoticeHandling) (statement : String) (s : Stream) :
    (Act.state (execute handling statement s)).link.sent =
      (Act.state (s.query handling statement)).link.sent := by
  unfold execute
  cases s.query handling statement with
  | ok bundle t => exact (Stream.keeps_log _ _).sent
  | error fault t =>
    cases fault with
    | loss cause => exact (Stream.sent_close _).trans (Stream.keeps_log _ _).sent
    | _ => rfl

theorem sent_execute (handling : NoticeHandling) (statement : String) (s : Stream) :
    ∃ payloads, (Act.state (execute handling statement s)).link.sent = s.link.sent ++ payloads ∧
      s.Asks statement payloads := by
  rw [sent_execute_eq]
  exact Stream.sent_query handling statement s

theorem sent_query (statement : String) {session : Session} {s : Stream}
    (h : session.phase = .open s) :
    ∃ payloads, (Act.state (query statement session)).phase.link.sent = s.link.sent ++ payloads ∧
      s.Asks statement payloads := by
  obtain ⟨payloads, hsent, hp⟩ := sent_execute session.handling statement s
  refine ⟨payloads, ?_, hp⟩
  rw [← hsent]
  have hrun : query statement session = onStream (execute session.handling statement) session := rfl
  rw [hrun, onStream_of_open _ h]
  cases execute session.handling statement s with
  | ok bundle t => rfl
  | error fault t =>
    simp only [Act.state_error]
    split <;> rfl

theorem sent_control (statement : Control) {session : Session} {s : Stream}
    (h : session.phase = .open s) :
    ∃ payloads, (Act.state (control statement session)).phase.link.sent = s.link.sent ++ payloads ∧
      s.Asks statement.statement payloads := by
  obtain ⟨payloads, hsent, hp⟩ := sent_query statement.statement h
  refine ⟨payloads, ?_, hp⟩
  rw [← hsent]
  simp only [control, bind, EStateM.bind]
  cases query statement.statement session <;> rfl

/-- A loss closes the stream. -/
theorem closed_of_execute {handling : NoticeHandling} {statement : String} {s t : Stream} {fault : Fault}
    (h : execute handling statement s = .error fault t) (hf : fault.isLoss = true) : t.closed = true := by
  unfold execute at h
  split at h
  · cases h
  · cases h
    exact Stream.closed_close _
  · rename_i hn _
    cases h
    cases fault with
    | loss cause => exact absurd rfl (hn cause)
    | _ => cases hf

end Session

end SimpleQuery
