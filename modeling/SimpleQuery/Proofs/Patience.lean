import SimpleQuery.Proofs.Agreement
import SimpleQuery.Proofs.Frame
import SimpleQuery.Session.Command

/-!
# Waiting for more

A run over a link on which little was delivered is the beginning of the run over the same link with
more: it is the same run as long as it is not *starved*, that is, has not asked for bytes where none
were delivered.

* `Act.Patient` — with more delivered an action does the same, or it was starved, and then it has sent
  no more than it sends with more delivered.
* `Session.patient_query`, `Session.patient_finish` — what is run for a session is patient.
-/

set_option autoImplicit false

namespace SimpleQuery

namespace Link

/-- Bytes were asked for where none had been delivered. -/
def Starved (link : Link) : Prop := Event.received [] ∈ link.history

instance (link : Link) : Decidable link.Starved := inferInstanceAs (Decidable (_ ∈ _))

theorem Starved.record {link : Link} (h : link.Starved) (event : Event) : (link.record event).Starved := by
  unfold Starved
  rw [history_record]
  exact List.mem_append_left _ h

/-- More deliveries do not change what a call for bytes gives, unless there were none. -/
theorem takeDelivery_append {incoming : List Delivery} (h : incoming ≠ []) (limit : Nat)
    (more : List Delivery) :
    takeDelivery limit (incoming ++ more) =
      ((takeDelivery limit incoming).1, (takeDelivery limit incoming).2 ++ more) := by
  cases incoming with
  | nil => exact absurd rfl h
  | cons delivery rest =>
    cases delivery with
    | fault reason => rfl
    | bytes chunk =>
      simp only [List.cons_append, takeDelivery]
      split <;> rfl

end Link

/-- What is looked at in a state on which more may be delivered. -/
structure Fed (σ : Type) where
  /-- The state with more delivered. -/
  feed : List Delivery → σ → σ
  /-- What was sent. -/
  sent : σ → List Bytes
  starved : σ → Prop

namespace Act

variable {σ τ α β : Type} {F : Fed σ}

/-- With more delivered the action does the same, or it was starved. What it sent is never taken
back. -/
structure Patient (F : Fed σ) (act : Act σ α) : Prop where
  grows : ∀ s, F.sent s <+: F.sent (state (act s))
  waits : ∀ s more, act (F.feed more s) = seen (F.feed more) (act s) ∨
    ∃ t, act s = .error (.loss .endOfStream) t ∧ F.starved t ∧
      F.sent t <+: F.sent (state (act (F.feed more s)))

namespace Patient

theorem pure (a : α) : Patient F (Pure.pure a : Act σ α) where
  grows _ := List.prefix_refl _
  waits _ _ := .inl rfl

theorem throw (fault : Fault) : Patient F (throw fault : Act σ α) where
  grows _ := List.prefix_refl _
  waits _ _ := .inl rfl

theorem ofExcept (x : Except Fault α) : Patient F (Act.ofExcept x : Act σ α) := by
  cases x with
  | ok a => exact pure a
  | error fault => exact throw fault

theorem bind {act : Act σ α} {next : α → Act σ β} (h : Patient F act) (hn : ∀ a, Patient F (next a)) :
    Patient F (act >>= next) where
  grows :=
    Moves.bind (r := fun s t => F.sent s <+: F.sent t) (fun _ _ _ => List.IsPrefix.trans) h.grows
      fun a => (hn a).grows
  waits s more := by
    rcases h.waits s more with hs | ⟨t, hs, hstarved, hsent⟩
    · simp only [Bind.bind, EStateM.bind, hs]
      cases act s with
      | error fault t => exact .inl rfl
      | ok a t => exact (hn a).waits t more
    · refine .inr ⟨t, ?_, hstarved, hsent.trans ?_⟩
      · simp only [Bind.bind, EStateM.bind, hs]
      · simp only [Bind.bind, EStateM.bind]
        cases act (F.feed more s) with
        | error fault u => exact List.prefix_refl _
        | ok a u => exact (hn a).grows u

/-- Patience is inherited. -/
theorem sequencing : Sequencing fun {α : Type} (act : Act σ α) => Patient F act where
  pure := pure
  violate _ := throw _
  bind := bind

/-- What an action reads of the state may only be what feeding leaves alone. -/
theorem get_bind {next : σ → Act σ β} (same : ∀ s more, next (F.feed more s) = next s)
    (h : ∀ s, Patient F (next s)) : Patient F (MonadState.get >>= next) where
  grows s := (h s).grows s
  waits s more := by
    show next (F.feed more s) (F.feed more s) = _ ∨ ∃ t, next s s = _ ∧ F.starved t ∧
      F.sent t <+: F.sent (state (next (F.feed more s) (F.feed more s)))
    rw [same s more]
    exact (h s).waits s more

/-- A change of the state that sends nothing and commutes with feeding. -/
theorem change {act : Act σ α} (a : α) (f : σ → σ) (ha : ∀ s, act s = .ok a (f s))
    (sent : ∀ s, F.sent (f s) = F.sent s) (feeds : ∀ s more, f (F.feed more s) = F.feed more (f s)) :
    Patient F act where
  grows s := by
    rw [ha]
    exact (sent s).symm ▸ List.prefix_refl _
  waits s more := by
    rw [ha, ha, feeds]
    exact .inl rfl

end Patient

end Act

/-! ## Streams -/

namespace Stream

/-- The stream with more delivered. -/
def feed (more : List Delivery) (s : Stream) : Stream := { s with link := s.link.feed more }

def fed : Fed Stream where
  feed := feed
  sent s := s.link.sent
  starved s := s.link.Starved

open Act (Patient)

/-- An action that reads and sends nothing is patient if it does the same or is starved. -/
theorem patient_of_keeps {α : Type} {act : Act Stream α} (hk : Act.Moves Keeps act)
    (hw : ∀ s more, act (s.feed more) = Act.seen (feed more) (act s) ∨
      ∃ t, act s = .error (.loss .endOfStream) t ∧ t.link.Starved) : Patient fed act where
  grows s := by
    show s.link.sent <+: (Act.state (act s)).link.sent
    simp only [(hk s).sent, List.prefix_refl]
  waits s more := by
    rcases hw s more with h | ⟨t, h, hstarved⟩
    · exact .inl h
    · refine .inr ⟨t, h, hstarved, ?_⟩
      have hs := (hk s).sent
      rw [h] at hs
      show t.link.sent <+: (Act.state (act (s.feed more))).link.sent
      rw [(hk (s.feed more)).sent, show t.link.sent = s.link.sent from hs]
      exact List.prefix_refl _

theorem waits_fill (s : Stream) (more : List Delivery) :
    fill (s.feed more) = Act.seen (feed more) (fill s) ∨
      ∃ t, fill s = .error (.loss .endOfStream) t ∧ t.link.Starved := by
  by_cases hc : s.closed = true
  · left
    unfold fill
    rw [if_pos hc, if_pos (show (s.feed more).closed = true from hc)]
    rfl
  by_cases hin : s.link.incoming = []
  · right
    unfold fill
    rw [if_neg hc]
    simp only [Link.receive, hin, Link.takeDelivery]
    refine ⟨_, rfl, ?_⟩
    refine Link.Starved.record ?_ _
    unfold Link.Starved
    rw [Link.history_record]
    exact List.mem_append_right _ List.mem_cons_self
  · left
    unfold fill
    rw [if_neg hc, if_neg (show ¬ (s.feed more).closed = true from hc)]
    have htake := Link.takeDelivery_append hin chunkLimit more
    simp only [Link.receive, show (s.feed more).link.incoming = s.link.incoming ++ more from rfl, htake]
    cases hd : Link.takeDelivery chunkLimit s.link.incoming with
    | mk taken rest =>
      cases taken with
      | error reason => rfl
      | ok chunk => cases chunk <;> rfl

/-- What is done after filling is waited for as filling is, if it is itself. -/
theorem waits_fill_bind {α : Type} {next : Act Stream α} {s : Stream} (more : List Delivery)
    (hn : ∀ t, fill s = .ok () t → next (t.feed more) = Act.seen (feed more) (next t) ∨
      ∃ u, next t = .error (.loss .endOfStream) u ∧ u.link.Starved) :
    (fill >>= fun _ => next) (s.feed more) = Act.seen (feed more) ((fill >>= fun _ => next) s) ∨
      ∃ t, (fill >>= fun _ => next) s = .error (.loss .endOfStream) t ∧ t.link.Starved := by
  simp only [bind, EStateM.bind]
  rcases waits_fill s more with hf | ⟨t, hf, hstarved⟩
  · rw [hf]
    cases h : fill s with
    | error fault t => exact .inl rfl
    | ok _ t => exact hn t h
  · rw [hf]
    exact .inr ⟨t, rfl, hstarved⟩

theorem waits_receive (n : Nat) (s : Stream) (more : List Delivery) :
    receive n (s.feed more) = Act.seen (feed more) (receive n s) ∨
      ∃ t, receive n s = .error (.loss .endOfStream) t ∧ t.link.Starved := by
  cases hc : cut? n s.unread with
  | some cut =>
    obtain ⟨bytes, rest⟩ := cut
    rw [receive_of_some hc, receive_of_some (show cut? n (s.feed more).unread = some (bytes, rest) from hc)]
    exact .inl rfl
  | none =>
    rw [receive_of_none hc, receive_of_none (show cut? n (s.feed more).unread = none from hc)]
    exact waits_fill_bind more fun t ht => waits_receive n t more
termination_by s.pending
decreasing_by exact fill_pending ht

theorem waits_gather (room : Nat) (s : Stream) (more : List Delivery) :
    gather room (s.feed more) = Act.seen (feed more) (gather room s) ∨
      ∃ t, gather room s = .error (.loss .endOfStream) t ∧ t.link.Starved := by
  cases hs : scan room s.unread with
  | ended text rest =>
    rw [gather_of_ended hs, gather_of_ended (show scan room (s.feed more).unread = .ended text rest from hs)]
    exact .inl rfl
  | full rest =>
    rw [gather_of_full hs, gather_of_full (show scan room (s.feed more).unread = .full rest from hs)]
    exact .inl rfl
  | «open» text left =>
    rw [gather_of_open hs, gather_of_open (show scan room (s.feed more).unread = .open text left from hs)]
    refine waits_fill_bind (s := { s with unread := [] }) more fun t ht => ?_
    simp only [Functor.map, EStateM.map]
    rcases waits_gather left t more with hg | ⟨u, hg, hstarved⟩
    · rw [hg]
      cases gather left t <;> exact .inl rfl
    · rw [hg]
      exact .inr ⟨u, rfl, hstarved⟩
termination_by s.pending
decreasing_by exact fill_pending (s := { s with unread := [] }) ht

theorem patient_receive (n : Nat) : Patient fed (receive n) :=
  patient_of_keeps (along_keeps.receive n) (waits_receive n)

theorem patient_gather (room : Nat) : Patient fed (gather room) :=
  patient_of_keeps (along_keeps.gather room) (waits_gather room)

theorem patient_await : Patient fed await := by
  refine patient_of_keeps along_keeps.await fun s more => ?_
  unfold await
  by_cases hu : s.unread = []
  · rw [if_pos hu, if_pos (show (s.feed more).unread = [] from hu)]
    exact waits_fill s more
  · rw [if_neg hu, if_neg (show ¬ (s.feed more).unread = [] from hu)]
    exact .inl rfl

theorem patient_logged (entry : Log.Entry) : Patient fed (logged entry) :=
  Patient.change () (log entry) (fun _ => rfl) (fun s => (keeps_log s entry).sent) fun _ _ => rfl

/-- All that is put together for a message is patient. -/
theorem assembly_patient : Assembly fun {α : Type} (act : Act Stream α) => Patient fed act where
  toSequencing := Patient.sequencing
  logged := patient_logged
  receive := patient_receive
  receiveText cap _ := by
    apply receiveText_of Patient.sequencing patient_logged
    · exact patient_await.bind fun _ => patient_gather cap
    · exact fun _ => Patient.get_bind (fun _ _ => rfl) fun _ => Patient.ofExcept _

/-- Sending does not look at what is delivered. -/
theorem patient_sendQuery (statement : Bytes) : Patient fed (sendQuery statement) where
  grows s := by
    rcases sendQuery_cases statement s with ⟨fault, t, hs, -, -, -, hsent⟩ | ⟨t, hs, -, -, -, hsent⟩
    · rw [hs]
      exact ⟨[], by rw [List.append_nil]; exact hsent.symm⟩
    · rw [hs]
      exact ⟨_, hsent.symm⟩
  waits s more := by
    left
    show sendQuery statement (s.feed more) = Act.seen (feed more) (sendQuery statement s)
    have hne : s.staged ++ Query.frame statement ≠ [] := by simp [Query.frame]
    simp only [sendQuery, stage, flush, bind, EStateM.bind, show (s.feed more).staged = s.staged from rfl,
      if_neg hne]
    by_cases hc : s.closed = true
    · rw [if_pos hc, if_pos (show (s.feed more).closed = true from hc)]
      rfl
    · rw [if_neg hc, if_neg (show ¬ (s.feed more).closed = true from hc)]
      simp only [Link.send, show (s.feed more).link.sendFaults = s.link.sendFaults from rfl]
      cases Link.nextFault s.link.sendFaults <;> rfl

theorem patient_handle (handling : NoticeHandling) (notice : String) :
    Patient fed (Reader.handle handling notice) where
  grows s := by
    show s.link.sent <+: (Act.state (Reader.handle handling notice s)).link.sent
    cases handling with
    | logged => exact ⟨_, (Link.sent_record _ _).symm⟩
    | handled raises =>
      rw [Reader.state_handle_handled]
      exact ⟨_, (Link.sent_record _ _).symm⟩
  waits s more := by
    left
    show Reader.handle handling notice (s.feed more) = Act.seen (feed more) (Reader.handle handling notice s)
    cases handling with
    | logged => rfl
    | handled raises =>
      simp only [Reader.handle, show ((s.feed more).link.record (.noticed notice)).notices =
        (s.link.record (.noticed notice)).notices from rfl]
      cases raises (s.link.record (.noticed notice)).notices <;> rfl

end Stream

/-! ## Reading an answer -/

namespace Reader

open Act (Patient)

def fed : Fed Reader where
  feed more r := { r with stream := r.stream.feed more }
  sent r := r.stream.link.sent
  starved r := r.stream.link.Starved

theorem patient_onStream {α : Type} {act : Act Stream α} (h : Patient Stream.fed act) :
    Patient fed (onStream act) where
  grows r := by
    show r.stream.link.sent <+: (Act.state (onStream act r)).stream.link.sent
    rw [stream_onStream]
    exact h.grows r.stream
  waits r more := by
    rcases h.waits r.stream more with hr | ⟨t, hr, hstarved, hsent⟩
    · left
      show onStream act { r with stream := r.stream.feed more } = _
      simp only [onStream, Act.on]
      rw [show act (r.stream.feed more) = _ from hr]
      cases act r.stream <;> rfl
    · refine .inr ⟨{ r with stream := t }, ?_, hstarved, ?_⟩
      · simp only [onStream, Act.on, hr]
      · show t.link.sent <+: (Act.state (onStream act _)).stream.link.sent
        rw [stream_onStream]
        exact hsent

theorem patient_respond (f : Response → Response) : Patient fed (respond f) :=
  Patient.change () (fun r => { r with response := f r.response }) (fun _ => rfl) (fun _ => rfl)
    fun _ _ => rfl

/-- So is all that is put together for an answer. -/
theorem assembly_patient (handling : NoticeHandling) :
    Assembly handling (fun {α : Type} (act : Act Stream α) => Patient Stream.fed act)
      fun {α : Type} (act : Act Reader α) => Patient fed act where
  toSequencing := Patient.sequencing
  reading := Stream.assembly_patient
  handle := Stream.patient_handle handling
  sends := Stream.patient_sendQuery _
  onStream := patient_onStream
  respond := patient_respond
  response _ hn := Patient.get_bind (fun _ _ => rfl) fun r => hn r.response
  pairwise h :=
    { grows := fun r => by
        obtain ⟨part, hpart, hr, -⟩ := h r r
        rw [hr]
        exact hpart.grows r
      waits := fun r more => by
        obtain ⟨part, hpart, hr, hfed⟩ := h r (fed.feed more r)
        rw [hr, hfed]
        exact hpart.waits r more }

theorem patient_read (handling : NoticeHandling) : Patient fed (read handling) :=
  (assembly_patient handling).read fun _ => Patient.throw _

end Reader

namespace Stream

open Act (Patient)

theorem patient_receiveAnswer (handling : NoticeHandling) : Patient fed (receiveAnswer handling) := by
  have hread := Reader.patient_read handling
  have hstate (s : Stream) : (Act.state (receiveAnswer handling s)).link.sent =
      Reader.fed.sent (Act.state (Reader.read handling { stream := s })) := by
    unfold receiveAnswer
    cases Reader.read handling { stream := s } <;> rfl
  constructor
  · intro s
    show s.link.sent <+: (Act.state (receiveAnswer handling s)).link.sent
    rw [hstate]
    exact hread.grows { stream := s }
  · intro s more
    rcases hread.waits { stream := s } more with hr | ⟨t, hr, hstarved, hsent⟩
    · left
      show receiveAnswer handling (s.feed more) = _
      unfold receiveAnswer
      rw [show Reader.read handling { stream := s.feed more } = _ from hr]
      cases Reader.read handling { stream := s } <;> rfl
    · refine .inr ⟨t.stream, ?_, hstarved, ?_⟩
      · unfold receiveAnswer
        rw [hr]
      · show t.stream.link.sent <+: (Act.state (receiveAnswer handling _)).link.sent
        rw [hstate]
        exact hsent

theorem patient_query (handling : NoticeHandling) (statement : String) :
    Patient fed (query handling statement) := by
  apply query_of Patient.sequencing
  · exact fun _ => Patient.get_bind (fun _ _ => rfl) fun _ => Patient.ofExcept _
  · exact patient_sendQuery
  · exact patient_receiveAnswer handling
  · exact fun _ => Patient.throw _

theorem close_feed (s : Stream) (more : List Delivery) : (s.feed more).close = s.close.feed more := by
  cases hc : s.closed with
  | true => simp only [close, feed, hc, if_true]
  | false =>
    simp only [close, feed, hc, Bool.false_eq_true, if_false, Link.hangUp, Link.feed]
    cases s.link.hangUpFault <;> rfl

theorem starved_close {s : Stream} (h : s.link.Starved) : s.close.link.Starved := by
  simp only [close, Link.hangUp]
  split
  · exact h
  · have hung : ({ s.link with hungUp := true } : Link).Starved := h
    have hung := hung.record .hungUp
    refine Link.Starved.record ?_ _
    split
    · exact hung.record _
    · exact hung

end Stream

/-! ## Sessions -/

namespace Session

open Act (Patient)

/-- A starved session is broken. -/
def fed : Fed Session where
  feed more session := { session with phase := session.phase.mapLink (Link.feed more) }
  sent session := session.phase.link.sent
  starved session := session.phase.link.Starved ∧ session.isOpen = false

theorem patient_execute (handling : NoticeHandling) (statement : String) :
    Patient Stream.fed (execute handling statement) where
  grows s := by
    show s.link.sent <+: (Act.state (execute handling statement s)).link.sent
    rw [sent_execute_eq]
    exact (Stream.patient_query handling statement).grows s
  waits s more := by
    rcases (Stream.patient_query handling statement).waits s more with hq | ⟨t, hq, hstarved, hsent⟩
    · left
      show execute handling statement (s.feed more) = _
      unfold execute
      rw [show (s.feed more).query handling statement = _ from hq]
      cases s.query handling statement with
      | ok bundle t => rfl
      | error fault t =>
        cases fault with
        | loss cause =>
          have hclose := Stream.close_feed (t.log .sessionBroken) more
          exact congrArg (EStateM.Result.error (Fault.loss cause)) hclose
        | _ => rfl
    · refine .inr ⟨(t.log .sessionBroken).close, ?_, ?_, ?_⟩
      · unfold execute
        rw [hq]
      · exact Stream.starved_close (hstarved.record _)
      · show (t.log .sessionBroken).close.link.sent <+:
          (Act.state (execute handling statement (s.feed more))).link.sent
        rw [sent_execute_eq, Stream.sent_close, (Stream.keeps_log _ _).sent]
        exact hsent

theorem sent_onStream {α : Type} (act : Act Stream α) {session : Session} {s : Stream}
    (hp : session.phase = .open s) :
    fed.sent (Act.state (onStream act session)) = Stream.fed.sent (Act.state (act s)) := by
  rw [onStream_of_open act hp]
  cases act s with
  | ok a t => rfl
  | error fault t =>
    simp only [Act.state_error]
    split <;> rfl

theorem patient_onStream {α : Type} {act : Act Stream α} (h : Patient Stream.fed act) :
    Patient fed (onStream act) := by
  constructor
  · intro session
    cases hp : session.phase with
    | fresh link | broken s =>
      unfold onStream
      rw [hp]
      exact List.prefix_refl _
    | «open» s =>
      rw [sent_onStream act hp]
      have hs : Stream.fed.sent s <+: Stream.fed.sent (Act.state (act s)) := h.grows s
      rwa [show fed.sent session = Stream.fed.sent s by simp only [fed, Stream.fed, hp, Phase.link]]
  · intro session more
    cases hp : session.phase with
    | fresh link | broken s =>
      left
      simp only [onStream, fed, hp, Phase.mapLink, Act.seen]
    | «open» s =>
      have hfed : (fed.feed more session).phase = .open (s.feed more) := by
        simp only [fed, hp]
        rfl
      rcases h.waits s more with hs | ⟨t, hs, hstarved, hsent⟩
      · left
        rw [onStream_of_open act hfed, onStream_of_open act hp, show act (s.feed more) = _ from hs]
        cases act s with
        | ok a t => rfl
        | error fault t =>
          simp only [Act.seen]
          cases fault.isLoss <;> rfl
      · refine .inr ⟨{ session with phase := .broken t }, ?_, ⟨hstarved, rfl⟩, ?_⟩
        · rw [onStream_of_open act hp, hs]
          rfl
        · rw [sent_onStream act hfed]
          exact hsent

theorem patient_query (statement : String) : Patient fed (query statement) :=
  Patient.get_bind (fun _ _ => rfl) fun _ => patient_onStream (patient_execute _ _)

theorem patient_control (statement : Control) : Patient fed (control statement) :=
  (patient_query _).bind fun _ => Patient.pure _

theorem patient_noteAutocommit (autocommit : Bool) : Patient fed (noteAutocommit autocommit) :=
  Patient.change () (fun session => { session with autocommit }) (fun _ => rfl) (fun _ => rfl)
    fun _ _ => rfl

theorem patient_requireOpen : Patient fed requireOpen := patient_onStream (Patient.pure _)

theorem patient_setAutocommit (autocommit : Bool) : Patient fed (setAutocommit autocommit) := by
  apply patient_requireOpen.bind
  intro _
  apply Patient.get_bind fun _ _ => rfl
  intro session
  split
  · exact (patient_control _).bind fun _ => patient_noteAutocommit _
  · exact Patient.pure _

theorem patient_finish (statement : Control) : Patient fed (finish statement) := by
  apply patient_requireOpen.bind
  intro _
  apply Patient.get_bind fun _ _ => rfl
  intro session
  split
  · exact (patient_control _).bind fun _ => (patient_noteAutocommit _).bind fun _ =>
      (patient_control _).bind fun _ => patient_noteAutocommit _
  · exact Patient.pure _

end Session

end SimpleQuery
