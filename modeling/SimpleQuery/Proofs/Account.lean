import SimpleQuery.Proofs.Answering
import SimpleQuery.Proofs.Calls
import SimpleQuery.Proofs.Faults

/-!
# Accounting for flush queries

Whatever bytes arrive, an answer sends nothing but flush queries: one for each status that is read
before any columns, unless the call to send it fails, which ends the answer. The response counts those
that were not acknowledged yet.

* `Reader.messages` — the messages that were read in full while an answer was read.
* `Reader.answer_cases` — what acting on a message can do.
* `Reader.balance_message` — what one message does to the account.
* `Reader.balance_readFrom` — the balance of a run, by induction on its messages.
* `flush_accounting` — the balance of an answer.
-/

set_option autoImplicit false

namespace SimpleQuery

/-- What could not be sent, if this is such a failure. -/
def Event.unsent? : Event → Option Bytes
  | .unsent payload => some payload
  | _ => none

/-- The acknowledgments among the messages. -/
def Transcript.acknowledgments (transcript : Transcript) : Nat := transcript.count .acknowledgment

theorem Transcript.acknowledgments_cons (message : Message) (rest : Transcript) :
    Transcript.acknowledgments (message :: rest) =
      Transcript.acknowledgments [message] + Transcript.acknowledgments rest := by
  simp [acknowledgments, List.count_cons, Nat.add_comm]

namespace Link

/-- What could not be sent, one byte string for each call that failed. -/
def unsent (link : Link) : List Bytes := link.history.filterMap Event.unsent?

theorem unsent_record (event : Event) (link : Link) :
    (link.record event).unsent = link.unsent ++ event.unsent?.toList := by
  rw [unsent, history_record, List.filterMap_append, unsent]
  cases h : event.unsent? <;> simp [h]

end Link

/-! ## The messages of an answer -/

namespace Reader

/-- Reads one message. -/
def readMessage : Act Reader Message := do
  receiveMessage (← receiveTag)

theorem Reading.readMessage {P : ∀ {α : Type}, Act Stream α → Prop}
    {Q : ∀ {α : Type}, Act Reader α → Prop} (h : Reading P Q) : Q readMessage :=
  h.bind h.receiveTag h.receiveMessage

/-- A step reads a message, which the response takes in, and acts on it. -/
theorem step_eq (handling : NoticeHandling) : step handling = readMessage >>= fun message =>
    respond (·.after message) >>= fun _ => answer handling message := by
  unfold step readMessage afterTag
  rw [bind_assoc]

/-- The messages that are read in full while an answer is read, also the one on which acting fails. -/
def messages (handling : NoticeHandling) (r : Reader) : Transcript :=
  if r.response.done then []
  else
    (Act.outcome (readMessage r)).toOption.toList ++
      match _h : step handling r with
      | .ok () t => messages handling t
      | .error _ _ => []
termination_by r.stream.ahead
decreasing_by exact ahead_step _h

variable {handling : NoticeHandling} {r t u : Reader} {message : Message} {fault : Fault}

theorem messages_of_done (h : r.response.done = true) : messages handling r = [] := by
  rw [messages, if_pos h]

theorem messages_of_step (hd : r.response.done = false) (h : step handling r = .ok () u) :
    messages handling r = (Act.outcome (readMessage r)).toOption.toList ++ messages handling u := by
  rw [messages, if_neg (by rw [hd]; decide)]
  split
  · rename_i v hv
    rw [h] at hv
    cases hv
    rfl
  · rename_i hv
    rw [h] at hv
    cases hv

theorem messages_of_fault (hd : r.response.done = false) (h : step handling r = .error fault u) :
    messages handling r = (Act.outcome (readMessage r)).toOption.toList := by
  rw [messages, if_neg (by rw [hd]; decide)]
  split
  · rename_i v hv
    rw [h] at hv
    cases hv
  · exact List.append_nil _

end Reader

/-! ## Reading a message -/

namespace Stream

/-- Between the two states nothing was sent and nothing failed to be sent. -/
structure Quiet (s t : Stream) : Prop where
  sent : t.link.sent = s.link.sent
  unsent : t.link.unsent = s.link.unsent
  closed : t.closed = s.closed
  staged : t.staged = s.staged

namespace Quiet

theorem refl (s : Stream) : s.Quiet s := ⟨rfl, rfl, rfl, rfl⟩

theorem trans (a b c : Stream) (h : a.Quiet b) (h' : b.Quiet c) : a.Quiet c where
  sent := h'.sent.trans h.sent
  unsent := h'.unsent.trans h.unsent
  closed := h'.closed.trans h.closed
  staged := h'.staged.trans h.staged

end Quiet

theorem quiet_record {event : Event} (hp : event.payload? = none) (hu : event.unsent? = none)
    (s : Stream) : s.Quiet { s with link := s.link.record event } where
  sent := Link.sent_of_unsaid hp s.link
  unsent := by
    show (s.link.record event).unsent = s.link.unsent
    rw [Link.unsent_record, hu, Option.toList_none, List.append_nil]
  closed := rfl
  staged := rfl

theorem quiet_log (s : Stream) (entry : Log.Entry) : s.Quiet (s.log entry) := quiet_record rfl rfl s

theorem quiet_fill : Act.Moves Quiet fill := by
  intro s
  have received : s.Quiet { s with link := (s.link.receive chunkLimit).2 } := by
    have incoming : s.Quiet { s with link :=
        { s.link with incoming := (Link.takeDelivery chunkLimit s.link.incoming).2 } } :=
      ⟨rfl, rfl, rfl, rfl⟩
    refine .trans _ _ _ incoming (quiet_record ?_ ?_ _)
    · split <;> rfl
    · split <;> rfl
  unfold fill
  split
  · exact .refl s
  · split <;> rename_i h <;> rw [h] at received
    · exact .trans _ _ _ received (quiet_log _ _)
    · exact .trans _ _ _ received (quiet_log _ _)
    · exact .trans _ _ _ received ⟨rfl, rfl, rfl, rfl⟩

theorem along_quiet : Along Quiet where
  refl := Quiet.refl
  trans := Quiet.trans
  fill := quiet_fill
  unread _ _ := ⟨rfl, rfl, rfl, rfl⟩
  log := quiet_log

/-- A query is sent, or the call to send it fails. On a closed stream there is no such call. -/
theorem sendQuery_alone {s : Stream} (staged : s.staged = []) (statement : Bytes) :
    (∃ t, sendQuery statement s = .ok () t ∧ t.closed = s.closed ∧ t.staged = [] ∧
      t.link.sent = s.link.sent ++ [Query.frame statement] ∧ t.link.unsent = s.link.unsent) ∨
    ∃ cause t, sendQuery statement s = .error (.loss cause) t ∧ t.closed = s.closed ∧
      t.link.sent = s.link.sent ∧
      t.link.unsent = s.link.unsent ++ List.replicate (if s.closed then 0 else 1) (Query.frame statement) := by
  have run := sendQuery_run statement s
  rw [staged, List.nil_append] at run
  rcases run with ⟨hc, h⟩ | ⟨-, -, h⟩ | ⟨reason, hc, -, h⟩
  · refine .inr ⟨_, _, h, rfl, rfl, ?_⟩
    rw [hc]
    exact (List.append_nil _).symm
  · exact .inl ⟨_, h, rfl, rfl, Link.sent_record _ _, (Link.unsent_record _ _).trans (List.append_nil _)⟩
  · refine .inr ⟨_, _, h, rfl, ?_, ?_⟩
    · rw [(quiet_log _ _).sent]
      exact Link.sent_of_unsaid rfl _
    · rw [(quiet_log _ _).unsent, hc]
      exact Link.unsent_record _ _

end Stream

namespace Reader

open SimpleQuery.Stream (Quiet)

/-- Nothing was sent, and the response is what it was. -/
def Still (x y : Reader) : Prop := x.stream.Quiet y.stream ∧ y.response = x.response

theorem still_refl (x : Reader) : x.Still x := ⟨.refl _, rfl⟩

section Moves

variable {R : Stream → Stream → Prop}

/-- An action on the stream leaves the response as it is. -/
theorem moves_onStream {α : Type} {act : Act Stream α} (h : Act.Moves R act) :
    Act.Moves (fun x y => R x.stream y.stream ∧ y.response = x.response) (onStream act) := by
  intro x
  have hx := h x.stream
  simp only [onStream, Act.on]
  split <;> rename_i hr <;> rw [hr] at hx <;> exact ⟨hx, rfl⟩

/-- Reading a message moves the stream as reading does, and leaves it to the response to take it in. -/
theorem moves_readMessage (h : Stream.Along R) :
    Act.Moves (fun x y => R x.stream y.stream ∧ y.response = x.response) readMessage := by
  have reading : Reading (fun {α : Type} (act : Act Stream α) => Act.Moves R act)
      fun {α : Type} (act : Act Reader α) =>
        Act.Moves (fun x y => R x.stream y.stream ∧ y.response = x.response) act :=
    { toSequencing := Act.Moves.sequencing (fun _ => ⟨h.refl _, rfl⟩)
        fun _ _ _ first second => ⟨h.trans _ _ _ first.1 second.1, second.2.trans first.2⟩
      reading := h.assembly
      onStream := moves_onStream
      response := fun _ hn x => hn x.response x }
  exact reading.readMessage

end Moves

theorem still_onStream {α : Type} {act : Act Stream α} (h : Act.Moves Quiet act) :
    Act.Moves Still (onStream act) := moves_onStream h

/-- Reading a message sends nothing. -/
theorem still_readMessage : Act.Moves Still readMessage := moves_readMessage Stream.along_quiet

/-! ## Acting on a message -/

/-- Acting on a message sends the flush query that it calls for, or the call to send it fails, and
otherwise sends nothing. -/
theorem answer_cases (handling : NoticeHandling) (message : Message) {x : Reader}
    (staged : x.stream.staged = []) :
    (x.response.asks message = [] ∧ x.Still (Act.state (answer handling message x))) ∨
    x.response.asks message = [Query.frame Query.blankBytes] ∧ message.tag = .complete ∧
      ((∃ t, answer handling message x = .ok () t ∧ t.stream.closed = x.stream.closed ∧
        t.stream.staged = [] ∧
        t.stream.link.sent = x.stream.link.sent ++ [Query.frame Query.blankBytes] ∧
        t.stream.link.unsent = x.stream.link.unsent ∧ t.response = x.response.flushed) ∨
      ∃ cause t, answer handling message x = .error (.loss cause) t ∧
        t.stream.closed = x.stream.closed ∧ t.stream.link.sent = x.stream.link.sent ∧
        t.stream.link.unsent = x.stream.link.unsent ++
          List.replicate (if x.stream.closed then 0 else 1) (Query.frame Query.blankBytes) ∧
        t.response = x.response) := by
  have logged (entry : Log.Entry) : x.Still (Act.state (onStream (Stream.logged entry) x)) := by
    have quiet : Act.Moves Quiet (Stream.logged entry) := fun s => Stream.quiet_log s entry
    exact still_onStream quiet x
  cases message with
  | columns | notification | portal => exact .inl ⟨rfl, logged _⟩
  | row | acknowledgment | error => exact .inl ⟨rfl, still_refl x⟩
  | notice notice =>
    refine .inl ⟨rfl, still_onStream (fun s => ?_) x⟩
    cases handling with
    | logged => exact Stream.quiet_log s _
    | handled raises =>
      rw [state_handle_handled]
      exact Stream.quiet_record rfl rfl s
  | complete status =>
    have hrun : answer handling (.complete status) x =
        (if x.response.columns.isNone then flush status else pure ()) x := rfl
    rw [hrun, Response.asks]
    cases hc : x.response.columns.isNone with
    | false => exact .inl ⟨rfl, still_refl x⟩
    | true =>
      refine .inr ⟨rfl, rfl, ?_⟩
      rcases Stream.sendQuery_alone staged Query.blankBytes with
        ⟨s, hs, closed, hstaged, sent, unsent⟩ | ⟨cause, s, hs, closed, sent, unsent⟩
      · let entry : Log.Entry := .flushSent status x.response.flushed.pendingFlushes
        have quiet := Stream.quiet_log s entry
        refine .inl ⟨⟨s.log entry, x.response.flushed⟩, ?_, quiet.closed.trans closed,
          quiet.staged.trans hstaged, quiet.sent.trans sent, quiet.unsent.trans unsent, rfl⟩
        simp only [if_true, flush, onStream, Act.on, bind, EStateM.bind, hs]
        rfl
      · refine .inr ⟨cause, { x with stream := s }, ?_, closed, sent, unsent, rfl⟩
        simp only [if_true, flush, onStream, Act.on, bind, EStateM.bind, hs]

end Reader

/-! ## What a message does to the account -/

namespace Response

theorem flushes_cons (r : Response) (message : Message) (rest : Transcript) :
    r.flushes (message :: rest) = (r.asks message).length + (r.after message).flushes rest := by
  cases message <;> cases hc : r.columns <;>
    simp [flushes, asks, after, Transcript.flushes, hc, Nat.add_comm]

/-- An acknowledgment settles a flush query, if one is pending. -/
theorem pending_after (r : Response) (message : Message) :
    (r.after message).pendingFlushes + Transcript.acknowledgments [message] = r.pendingFlushes ∨
      r.pendingFlushes = 0 ∧ message = .acknowledgment ∧ (r.after message).pendingFlushes = 0 := by
  cases message with
  | acknowledgment =>
    cases hp : r.pendingFlushes with
    | zero => exact .inr ⟨rfl, rfl, by simp [after, hp]⟩
    | succ n => exact .inl (by simp [after, Transcript.acknowledgments, hp])
  | _ => exact .inl rfl

/-- The acknowledgment after which none is pending completes the answer. -/
theorem done_after_acknowledgment {r : Response} (h : (r.after .acknowledgment).pendingFlushes = 0) :
    (r.after .acknowledgment).done = true := by
  have last : r.pendingFlushes ≤ 1 := by
    simp only [after] at h
    omega
  simp only [done, h, BEq.rfl, Bool.and_true]
  simp [after, last]

end Response

namespace Reader

/-- The account between two states over the messages that were read in between. What is called for is
sent or fails to be, and what is sent is pending until it is acknowledged. An acknowledgment that nothing
called for is the last message, and settles nothing. -/
structure Balance (r : Reader) (transcript : Transcript) (t : Reader) (made failed : Nat) : Prop where
  closed : t.stream.closed = r.stream.closed
  sent : t.stream.link.sent = r.stream.link.sent ++ List.replicate made (Query.frame Query.blankBytes)
  unsent : t.stream.link.unsent = r.stream.link.unsent ++
    List.replicate (if r.stream.closed then 0 else failed) (Query.frame Query.blankBytes)
  calls : made + failed = r.response.flushes transcript
  pending : t.response.pendingFlushes + transcript.acknowledgments = r.response.pendingFlushes + made ∨
    r.response.pendingFlushes = 0 ∧ made = 0 ∧ transcript.acknowledgments = 1 ∧
      t.response.pendingFlushes = 0 ∧ transcript.getLast? = some .acknowledgment

theorem Still.balance {r t : Reader} (h : r.Still t) : Balance r [] t 0 0 where
  closed := h.1.closed
  sent := by rw [h.1.sent, List.replicate_zero, List.append_nil]
  unsent := by rw [h.1.unsent, ite_self, List.replicate_zero, List.append_nil]
  calls := by simp [Response.flushes, Transcript.flushes]
  pending := .inl (by rw [h.2]; rfl)

/-- A message, and then the rest of the answer. Nothing is read behind an acknowledgment after which no
flush query is pending. -/
theorem Balance.cons {r u t : Reader} {message : Message} {rest : Transcript} {made made' failed' : Nat}
    (h : Balance r [message] u made 0) (h' : Balance u rest t made' failed')
    (columns : u.response.columns = (r.response.after message).columns)
    (last : message = .acknowledgment → u.response.pendingFlushes = 0 → rest = []) :
    Balance r (message :: rest) t (made + made') failed' := by
  have called : u.response.flushes rest = (r.response.after message).flushes rest := by
    simp only [Response.flushes, columns]
  have first := h.calls
  have later := h'.calls
  have none (r : Response) : r.flushes [] = 0 := by simp [Response.flushes, Transcript.flushes]
  rw [Response.flushes_cons, none] at first
  constructor
  · exact h'.closed.trans h.closed
  · rw [h'.sent, h.sent, List.append_assoc, List.replicate_append_replicate]
  · rw [h'.unsent, h.unsent, h.closed, ite_self, List.replicate_zero, List.append_nil]
  · rw [Response.flushes_cons]
    omega
  · rw [Transcript.acknowledgments_cons]
    rcases h.pending with settled | ⟨hr, hmade, hcount, hu, hlast⟩
    · rcases h'.pending with settled' | ⟨hu, hmade', hcount', ht, hlast'⟩
      · left
        omega
      · have other : message ≠ .acknowledgment := by
          intro acknowledged
          rw [last acknowledged hu] at hlast'
          cases hlast'
        have uncounted : Transcript.acknowledgments [message] = 0 := by
          simp [Transcript.acknowledgments, other]
        refine .inr ⟨by omega, by omega, by omega, ht, ?_⟩
        rw [List.getLast?_cons, hlast']
        rfl
    · obtain rfl : message = .acknowledgment := Option.some.inj hlast
      obtain rfl := last rfl hu
      rw [none] at later
      rcases h'.pending with settled' | ⟨-, -, -, -, hlast'⟩
      · have uncounted : Transcript.acknowledgments [] = 0 := rfl
        exact .inr ⟨hr, by omega, by omega, by omega, rfl⟩
      · cases hlast'

/-- If a flush query could not be sent, that was the end of the run, and a loss. -/
def EndsUnsent {α : Type} (failed : Nat) (result : Except Fault α) (transcript : Transcript) : Prop :=
  failed = 0 ∨ failed = 1 ∧ (∃ cause, result = .error (.loss cause)) ∧
    ∃ status, transcript.getLast? = some (.complete status)

variable {handling : NoticeHandling} {r x : Reader} {message : Message} {fault : Fault}

theorem step_of_unread (h : readMessage r = .error fault x) : step handling r = .error fault x := by
  rw [step_eq]
  simp only [bind, EStateM.bind, h]

theorem step_of_message (h : readMessage r = .ok message x) :
    step handling r = answer handling message { x with response := x.response.after message } := by
  rw [step_eq]
  simp only [bind, EStateM.bind, h]
  rfl

/-- The account over one message, once what it calls for was sent or could not be. -/
theorem balance_of_message {t : Reader} {made failed : Nat}
    (closed : t.stream.closed = r.stream.closed)
    (sent : t.stream.link.sent =
      r.stream.link.sent ++ List.replicate made (Query.frame Query.blankBytes))
    (unsent : t.stream.link.unsent = r.stream.link.unsent ++
      List.replicate (if r.stream.closed then 0 else failed) (Query.frame Query.blankBytes))
    (called : made + failed = (r.response.asks message).length)
    (counted : t.response.pendingFlushes = (r.response.after message).pendingFlushes + made)
    (uncalled : message = .acknowledgment → made = 0) : Balance r [message] t made failed where
  closed := closed
  sent := sent
  unsent := unsent
  calls := by
    rw [Response.flushes_cons, called]
    simp [Response.flushes, Transcript.flushes]
  pending := by
    rcases r.response.pending_after message with settled | ⟨hr, rfl, hu⟩
    · left
      omega
    · exact .inr ⟨hr, uncalled rfl, rfl, by rw [counted, hu, uncalled rfl], rfl⟩

/-- The account over one message. -/
theorem balance_message (staged : r.stream.staged = []) (h : readMessage r = .ok message x) :
    let t := Act.state (step handling r)
    (Act.isLost (step handling r) = false → t.stream.staged = []) ∧
      t.response.columns = (r.response.after message).columns ∧
      (message = .acknowledgment → t.response.pendingFlushes = 0 → t.response.done = true) ∧
      ∃ made failed, Balance r [message] t made failed ∧
        EndsUnsent failed (Act.outcome (step handling r)) [message] := by
  have still := still_readMessage r
  rw [h] at still
  obtain ⟨quiet, hresponse⟩ : r.stream.Quiet x.stream ∧ x.response = r.response := still
  have asked : (r.response.after message).asks message = r.response.asks message := by
    cases message <;> rfl
  rw [step_of_message h, hresponse]
  rcases answer_cases handling message (x := { x with response := r.response.after message })
      (quiet.staged.trans staged) with
    ⟨none, hquiet, after⟩ |
      ⟨one, complete, ⟨t, ht, closed, hstaged, sent, unsent, after⟩ | ⟨cause, t, ht, closed, sent, unsent, after⟩⟩
  · -- nothing is called for
    have hquiet := Stream.Quiet.trans _ _ _ quiet hquiet
    refine ⟨fun _ => hquiet.staged.trans staged, congrArg Response.columns after, ?_, 0, 0, ?_, .inl rfl⟩
    · rintro rfl settled
      rw [after] at settled ⊢
      exact Response.done_after_acknowledgment settled
    · refine balance_of_message hquiet.closed ?_ ?_ ?_ (congrArg Response.pendingFlushes after) fun _ => rfl
      · simpa using hquiet.sent
      · simpa using hquiet.unsent
      · rw [← asked, none]
        rfl
  · -- a flush query is sent
    have called : message ≠ .acknowledgment := by
      rintro rfl
      cases complete
    simp only [ht, Act.state_ok, Act.outcome_ok]
    refine ⟨fun _ => hstaged, (congrArg Response.columns after).trans rfl,
      fun acknowledged => absurd acknowledged called, 1, 0, ?_, .inl rfl⟩
    refine balance_of_message (closed.trans quiet.closed) ?_ ?_ ?_
      (congrArg Response.pendingFlushes after) fun acknowledged => absurd acknowledged called
    · exact sent.trans (congrArg (· ++ _) quiet.sent)
    · simpa using unsent.trans quiet.unsent
    · rw [← asked, one]
      rfl
  · -- it cannot be sent
    simp only [ht, Act.state_error, Act.outcome_error]
    refine ⟨fun kept => Bool.noConfusion kept, congrArg Response.columns after, ?_, 0, 1, ?_, ?_⟩
    · rintro rfl
      cases complete
    · refine balance_of_message (closed.trans quiet.closed) ?_ ?_ ?_
        (congrArg Response.pendingFlushes after) fun _ => rfl
      · simpa using sent.trans quiet.sent
      · rw [unsent, quiet.closed, quiet.unsent]
      · rw [← asked, one]
        rfl
    · refine .inr ⟨rfl, ⟨cause, rfl⟩, ?_⟩
      cases message with
      | complete status => exact ⟨status, rfl⟩
      | row binary => cases binary <;> cases complete
      | _ => cases complete

/-- The account over a run. -/
theorem balance_readFrom (handling : NoticeHandling) {r : Reader} (staged : r.stream.staged = []) :
    ∃ made failed,
      Balance r (messages handling r) (Act.state (readFrom handling r)) made failed ∧
      EndsUnsent failed (Act.outcome (readFrom handling r)) (messages handling r) := by
  fun_induction readFrom handling r with
  | case1 r hd =>
    rw [messages_of_done hd]
    exact ⟨0, 0, (still_refl r).balance, .inl rfl⟩
  | case2 r hd u hu ih =>
    have hd : r.response.done = false := by simpa using hd
    rw [messages_of_step hd hu]
    cases hm : readMessage r with
    | error fault x =>
      rw [step_of_unread hm] at hu
      cases hu
    | ok message x =>
      obtain ⟨hstaged, columns, done, made, failed, balance, ends⟩ := balance_message staged hm
      rw [hu] at hstaged columns done balance ends
      obtain rfl : failed = 0 := by
        rcases ends with none | ⟨-, ⟨cause, hfault⟩, -⟩
        · exact none
        · cases hfault
      obtain ⟨made', failed', balance', ends'⟩ := ih (hstaged rfl)
      have last : message = .acknowledgment → u.response.pendingFlushes = 0 → messages handling u = [] :=
        fun acknowledged settled => messages_of_done (done acknowledged settled)
      refine ⟨made + made', failed', balance.cons balance' columns last, ?_⟩
      rcases ends' with none | ⟨one, hfault, status, hstatus⟩
      · exact .inl none
      · refine .inr ⟨one, hfault, status, ?_⟩
        show (message :: messages handling u).getLast? = _
        rw [List.getLast?_cons, hstatus]
        rfl
  | case3 r hd fault u hu =>
    have hd : r.response.done = false := by simpa using hd
    rw [messages_of_fault hd hu]
    cases hm : readMessage r with
    | error fault' x =>
      have still := still_readMessage r
      rw [step_of_unread hm] at hu
      cases hu
      rw [hm] at still
      exact ⟨0, 0, still.balance, .inl rfl⟩
    | ok message x =>
      obtain ⟨-, -, -, made, failed, balance, ends⟩ := balance_message staged hm
      rw [hu] at balance ends
      exact ⟨made, failed, balance, ends⟩

/-- The loop ends with a complete answer. -/
theorem done_of_readFrom {r t : Reader} (h : readFrom handling r = .ok () t) :
    t.response.done = true := by
  fun_induction readFrom handling r with
  | case1 r hd =>
    cases h
    exact hd
  | case2 r hd u hu ih => exact ih h
  | case3 r hd fault u hu => cases h

/-- Giving what the answer has sends nothing and leaves the account as it is. -/
theorem quiet_finish (r : Reader) : r.stream.Quiet (Act.state (finish r)).stream ∧
    (Act.state (finish r)).response.pendingFlushes = r.response.pendingFlushes := by
  unfold finish
  split
  · exact ⟨.refl _, rfl⟩
  · exact ⟨Stream.quiet_log _ _, rfl⟩

end Reader

/-! ## The account of an answer -/

namespace Reader

/-- What changes neither the records nor the count leaves the account as it is. -/
theorem Balance.still {r t u : Reader} {transcript : Transcript} {made failed : Nat}
    (h : Balance r transcript t made failed) (quiet : t.stream.Quiet u.stream)
    (pending : u.response.pendingFlushes = t.response.pendingFlushes) :
    Balance r transcript u made failed where
  closed := quiet.closed.trans h.closed
  sent := quiet.sent.trans h.sent
  unsent := quiet.unsent.trans h.unsent
  calls := h.calls
  pending := by
    rw [pending]
    exact h.pending

/-- The account of an answer. None is pending once a bundle or the backend's error is given. -/
theorem balance_read (handling : NoticeHandling) {s : Stream} (staged : s.staged = []) :
    let run := read handling { stream := s }
    ∃ made failed,
      Balance { stream := s } (messages handling { stream := s }) (Act.state run) made failed ∧
      EndsUnsent failed (Act.outcome run) (messages handling { stream := s }) ∧
      ((∃ bundle, Act.outcome run = .ok bundle) ∨
          (∃ message, Act.outcome run = .error (.refusal (.server message))) →
        (Act.state run).response.pendingFlushes = 0) := by
  intro run
  obtain ⟨made, failed, balance, ends⟩ := balance_readFrom handling (r := { stream := s }) staged
  have hrun : run = (readFrom handling >>= fun _ => finish) { stream := s } := rfl
  simp only [bind, EStateM.bind] at hrun
  refine ⟨made, failed, ?_⟩
  cases hr : readFrom handling { stream := s } with
  | ok _ t =>
    rw [hr] at balance ends hrun
    obtain ⟨quiet, pending⟩ := quiet_finish t
    rw [hrun]
    refine ⟨balance.still quiet pending, ?_, fun _ => ?_⟩
    · rcases ends with none | ⟨-, ⟨cause, hfault⟩, -⟩
      · exact .inl none
      · cases hfault
    · have done := done_of_readFrom hr
      simp only [Response.done, Bool.and_eq_true, beq_iff_eq] at done
      exact pending.trans done.2
  | error fault t =>
    rw [hr] at balance ends hrun
    rw [hrun]
    refine ⟨balance, ?_, ?_⟩
    · rcases ends with none | ⟨one, ⟨cause, hfault⟩, hlast⟩
      · exact .inl none
      · exact .inr ⟨one, ⟨cause, congrArg Except.error (Except.error.inj hfault)⟩, hlast⟩
    · rintro (⟨bundle, hbundle⟩ | ⟨message, hmessage⟩)
      · cases hbundle
      · have reading := (assembly_reads handling).readFrom _ _ _ hr
        rw [Except.error.inj hmessage] at reading
        cases reading

end Reader

/-- **Flush queries are accounted for, whatever arrives.** Reading an answer on a stream with nothing
staged sends flush queries and nothing else: one for each status that is read before any columns, less
one if the call to send it failed, and then that was the end. Those that are pending in the end are
those that were sent and not acknowledged; only where none was sent can an acknowledgment be read that
settles nothing, and it is the last message. So an answer that comes to a bundle or to the backend's
error has read as many acknowledgments as it sent flush queries, or none was sent and one was read, in
the end. -/
theorem flush_accounting (handling : NoticeHandling) {s : Stream} (staged : s.staged = []) :
    let run := Reader.read handling { stream := s }
    let after := Act.state run
    let messages := Reader.messages handling { stream := s }
    let stray := messages.acknowledgments = 1 ∧ messages.getLast? = some .acknowledgment
    ∃ made failed,
      after.stream.link.sent = s.link.sent ++ List.replicate made (Query.frame Query.blankBytes) ∧
      after.stream.link.unsent = s.link.unsent ++
        List.replicate (if s.closed then 0 else failed) (Query.frame Query.blankBytes) ∧
      made + failed = messages.flushes ∧
      (failed = 0 ∨ failed = 1 ∧ (∃ cause, Act.outcome run = .error (.loss cause)) ∧
        ∃ status, messages.getLast? = some (.complete status)) ∧
      (after.response.pendingFlushes + messages.acknowledgments = made ∨
        made = 0 ∧ after.response.pendingFlushes = 0 ∧ stray) ∧
      ((∃ bundle, Act.outcome run = .ok bundle) ∨
          (∃ message, Act.outcome run = .error (.refusal (.server message))) →
        messages.acknowledgments = made ∨ made = 0 ∧ stray) := by
  intro run after messages stray
  obtain ⟨made, failed, balance, ends, answered⟩ := Reader.balance_read handling staged
  have account : after.response.pendingFlushes + messages.acknowledgments = made ∨
      made = 0 ∧ after.response.pendingFlushes = 0 ∧ stray := by
    rcases balance.pending with settled | ⟨-, none, one, pending, last⟩
    · exact .inl (settled.trans (Nat.zero_add _))
    · exact .inr ⟨none, pending, one, last⟩
  refine ⟨made, failed, balance.sent, balance.unsent, balance.calls, ends, account, fun answer => ?_⟩
  have none : after.response.pendingFlushes = 0 := answered answer
  rw [none, Nat.zero_add] at account
  rcases account with settled | ⟨unmade, -, hstray⟩
  · exact .inl settled
  · exact .inr ⟨unmade, hstray⟩

/-- Three statuses, of which the second is acknowledged at once and the flush query for the third fails
to be sent. -/
theorem account_of_failed_flush :
    let status : Bytes := [0x43, 0x6F, 0]
    let acknowledgment : Bytes := [0x49, 0]
    let s : Stream :=
      { link :=
          { incoming := [.bytes (status ++ status ++ acknowledgment ++ status ++ acknowledgment)]
            sendFaults := [none, none, some "reset"] } }
    let run := Reader.read .logged { stream := s }
    let messages := Reader.messages .logged { stream := s }
    s.staged = [] ∧
      messages = [.complete "o", .complete "o", .acknowledgment, .complete "o"] ∧
      Act.outcome run = .error (.loss (.sendFailed "reset")) ∧
      (Act.state run).response.pendingFlushes = 1 ∧
      ∃ made failed, made + failed = messages.flushes ∧
        ((Act.state run).response.pendingFlushes + messages.acknowledgments = made ∨
          made = 0 ∧ (Act.state run).response.pendingFlushes = 0 ∧ messages.acknowledgments = 1 ∧
            messages.getLast? = some .acknowledgment) := by
  intro status acknowledgment s run messages
  obtain ⟨made, failed, -, -, calls, -, account, -⟩ := flush_accounting .logged (s := s) rfl
  exact ⟨rfl, by decide +kernel, by decide +kernel, by decide +kernel, made, failed, calls, account⟩

end SimpleQuery
