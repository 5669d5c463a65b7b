import SimpleQuery.Proofs.Account
import SimpleQuery.Proofs.Congruence

/-!
# From message to message

A run that reads an answer passes through one state after each message. What holds of the states that it
passes through, and of the one in which it ends, follows from what one message does.

* `Reader.Reaches` — the states between two messages, with the messages in front of them.
* `Reader.Reaches.readFrom`, `Reader.Reaches.messages` — from such a state the run goes on as from the first.
* `Reader.invariant_of_step` — an invariant of steps holds between all messages and at the end, by
  induction on the run.
* `Reader.messages_eq_of_over` — what two streams do not let reading see makes no difference to the messages.
* `Reader.notices_read` — the notices that are handed over are those among the messages.
-/

set_option autoImplicit false

namespace SimpleQuery

namespace Reader

variable {handling : NoticeHandling} {r t u x : Reader} {message : Message} {fault : Fault}

/-- Reading an answer gets from one state over these messages to another, in which it is about to read the
next message, or done. -/
inductive Reaches (handling : NoticeHandling) : Reader → Transcript → Reader → Prop where
  | refl (r : Reader) : Reaches handling r [] r
  | step {r x u t : Reader} {message : Message} {rest : Transcript} (undone : r.response.done = false)
      (read : readMessage r = .ok message x) (acted : step handling r = .ok () u)
      (others : Reaches handling u rest t) : Reaches handling r (message :: rest) t

namespace Reaches

variable {first second transcript : Transcript}

theorem append (h : Reaches handling r first u) (h' : Reaches handling u second t) :
    Reaches handling r (first ++ second) t := by
  induction h with
  | refl r => exact h'
  | step undone read acted _ ih => exact .step undone read acted (ih h')

theorem readFrom (h : Reaches handling r transcript t) :
    Reader.readFrom handling r = Reader.readFrom handling t := by
  induction h with
  | refl r => rfl
  | step undone read acted _ ih => rw [readFrom_of_step undone acted, ih]

theorem read (h : Reaches handling r transcript t) : Reader.read handling r = Reader.read handling t := by
  simp only [Reader.read, bind, EStateM.bind, h.readFrom]

theorem messages (h : Reaches handling r transcript t) :
    Reader.messages handling r = transcript ++ Reader.messages handling t := by
  induction h with
  | refl r => rfl
  | step undone read acted _ ih =>
    rw [messages_of_step undone acted, read, ih]
    rfl

end Reaches

/-- The message that a step reads, if it reads one. -/
def heeded (r : Reader) : Transcript := (Act.outcome (readMessage r)).toOption.toList

theorem heeded_of_message (h : readMessage r = .ok message x) : heeded r = [message] := by
  rw [heeded, h]
  rfl

theorem heeded_of_unread (h : readMessage r = .error fault x) : heeded r = [] := by
  rw [heeded, h]
  rfl

section Invariant

variable {P : Reader → Transcript → Prop}

/-- What steps preserve behind messages that were told before holds between all messages of a run, and at
its end. -/
theorem invariant_behind
    (preserved : ∀ r told, r.response.done = false → P r told →
      P (Act.state (step handling r)) (told ++ heeded r))
    {told : Transcript} (h : P r told) :
    (∀ transcript t, Reaches handling r transcript t → P t (told ++ transcript)) ∧
      P (Act.state (readFrom handling r)) (told ++ messages handling r) := by
  constructor
  · intro transcript t hreaches
    induction hreaches generalizing told with
    | refl r => rwa [List.append_nil]
    | @step r x u t message rest undone read acted _ ih =>
      have hu := preserved r told undone h
      rw [acted, heeded_of_message read] at hu
      have ht := ih hu
      rwa [List.append_assoc] at ht
  · fun_induction readFrom handling r generalizing told with
    | case1 r done =>
      rw [messages_of_done done, List.append_nil]
      exact h
    | case2 r hd u acted ih =>
      have undone : r.response.done = false := by simpa using hd
      have hu := preserved r told undone h
      rw [acted] at hu
      have ht := ih hu
      rwa [List.append_assoc, heeded, ← messages_of_step undone acted] at ht
    | case3 r hd fault u acted =>
      have undone : r.response.done = false := by simpa using hd
      have hu := preserved r told undone h
      rwa [acted, heeded, ← messages_of_fault undone acted] at hu

/-- What steps preserve, whether or not they succeed, holds between all messages of a run, and at its
end. -/
theorem invariant_of_step
    (preserved : ∀ r told, r.response.done = false → P r told →
      P (Act.state (step handling r)) (told ++ heeded r)) (h : P r []) :
    (∀ transcript t, Reaches handling r transcript t → P t transcript) ∧
      P (Act.state (readFrom handling r)) (messages handling r) :=
  invariant_behind preserved h

end Invariant

/-- Related readers read the same messages. -/
theorem messages_eq_of_over {R : Stream → Stream → Prop} (h : Stream.Congruence R)
    (blind : handling.Blind R) (hrt : Over R r t) : messages handling r = messages handling t := by
  have answering := h.answering blind
  have heeds {r t : Reader} (hrt : Over R r t) : heeded r = heeded t := by
    rw [heeded, (answering.toReading.readMessage r t hrt).outcomes, heeded]
  fun_induction readFrom handling r generalizing t with
  | case1 r done => rw [messages_of_done done, messages_of_done (hrt.response ▸ done)]
  | case2 r hd u acted ih =>
    have undone : r.response.done = false := by simpa using hd
    have alike := answering.step r t hrt
    rw [acted] at alike
    cases acted' : step handling t with
    | error fault v =>
      rw [acted'] at alike
      cases alike
    | ok _ v =>
      rw [acted'] at alike
      rw [messages_of_step undone acted, messages_of_step (hrt.response ▸ undone) acted', ih alike.states]
      exact congrArg (· ++ messages handling v) (heeds hrt)
  | case3 r hd fault u acted =>
    have undone : r.response.done = false := by simpa using hd
    have alike := answering.step r t hrt
    rw [acted] at alike
    cases acted' : step handling t with
    | ok _ v =>
      rw [acted'] at alike
      cases alike
    | error fault' v =>
      rw [messages_of_fault undone acted, messages_of_fault (hrt.response ▸ undone) acted']
      exact heeds hrt

/-! ## How a run ends -/

/-- Reading an answer fails before the answer is complete, which is no error of the backend, or else gives
what the complete answer has. -/
theorem read_cases (handling : NoticeHandling) (r : Reader) :
    let u := Act.state (readFrom handling r)
    (∃ fault, read handling r = .error fault u ∧ ∀ message, fault ≠ .refusal (.server message)) ∨
      (u.response.error = none ∧ read handling r = .ok
        { columns := u.response.columns.getD [], rows := u.response.rows, status := u.response.status } u) ∨
      ∃ message s, u.response.error = some message ∧ read handling r =
        .error (.refusal (.server message)) ⟨s, { u.response with rows := #[] }⟩ := by
  have reads := (assembly_reads handling).readFrom r
  have hread : read handling r = (readFrom handling >>= fun _ => finish : Act Reader Bundle) r := rfl
  rw [hread]
  simp only [bind, EStateM.bind]
  cases hrun : readFrom handling r with
  | error fault u =>
    refine .inl ⟨fault, rfl, ?_⟩
    rintro message rfl
    cases reads _ _ hrun
  | ok _ u =>
    right
    simp only [finish, Response.result, Act.state_ok]
    cases u.response.error with
    | none => exact .inl ⟨rfl, rfl⟩
    | some message => exact .inr ⟨message, _, rfl, rfl⟩

/-! ## What a step does -/

theorem onStream_ok_iff {α : Type} {act : Act Stream α} {a : α} :
    onStream act r = .ok a t ↔ ∃ s, act r.stream = .ok a s ∧ t = { r with stream := s } := by
  simp only [onStream, Act.on]
  constructor
  · intro h
    cases hact : act r.stream with
    | ok b s =>
      rw [hact] at h
      cases h
      exact ⟨s, rfl, rfl⟩
    | error fault s =>
      rw [hact] at h
      cases h
  · rintro ⟨s, hact, rfl⟩
    rw [hact]

theorem response_onStream {α : Type} (act : Act Stream α) (r : Reader) :
    (Act.state (onStream act r)).response = r.response := by
  have anywhere : Act.Moves (fun _ _ : Stream => True) act := fun _ => trivial
  exact (moves_onStream anywhere r).2

/-- Acting on a message changes no more of the response than the flush queries that are pending. -/
theorem response_answer (handling : NoticeHandling) (message : Message) (r : Reader) :
    (Act.state (answer handling message r)).response = r.response ∨
      (Act.state (answer handling message r)).response = r.response.flushed := by
  cases message with
  | columns | notification | portal | notice => exact .inl (response_onStream _ r)
  | row | acknowledgment | error => exact .inl rfl
  | complete status =>
    have hrun : answer handling (.complete status) r =
        (if r.response.columns.isNone then flush status else pure ()) r := rfl
    rw [hrun]
    split
    · have hsend := response_onStream (Stream.sendQuery Query.blankBytes) r
      simp only [flush, bind, EStateM.bind]
      revert hsend
      cases onStream (Stream.sendQuery Query.blankBytes) r with
      | error fault t => exact .inl
      | ok _ t =>
        intro hsend
        exact .inr (congrArg Response.flushed hsend)
    · exact .inl rfl

end Reader

/-! ## Notices -/

/-- The notices that are handed over: those among the messages, if there is a handler. -/
def NoticeHandling.handed (handling : NoticeHandling) (transcript : Transcript) : List String :=
  match handling with
  | .logged => []
  | .handled _ => transcript.notices

theorem NoticeHandling.handed_nil (handling : NoticeHandling) : handling.handed [] = [] := by
  cases handling <;> rfl

theorem NoticeHandling.handed_append (handling : NoticeHandling) (first rest : Transcript) :
    handling.handed (first ++ rest) = handling.handed first ++ handling.handed rest := by
  cases handling with
  | logged => rfl
  | handled raises => exact List.filterMap_append ..

theorem Stream.notices_sendQuery (statement : Bytes) (s : Stream) :
    (Act.state (sendQuery statement s)).link.notices = s.link.notices :=
  notices_flush { s with staged := s.staged ++ Query.frame statement }

namespace Reader

variable {r x : Reader} {message : Message} {fault : Fault}

theorem notices_flush (status : String) (r : Reader) :
    (Act.state (flush status r)).stream.link.notices = r.stream.link.notices := by
  have hsend := Stream.notices_sendQuery Query.blankBytes r.stream
  simp only [flush, onStream, Act.on, bind, EStateM.bind]
  revert hsend
  cases Stream.sendQuery Query.blankBytes r.stream with
  | error fault s => exact id
  | ok _ s =>
    intro hsend
    exact (Stream.keeps_log s _).notices.trans hsend

theorem notices_answer (handling : NoticeHandling) (message : Message) (r : Reader) :
    (Act.state (answer handling message r)).stream.link.notices =
      r.stream.link.notices ++ handling.handed [message] := by
  have quiet (h : message.notices = []) : handling.handed [message] = [] := by
    cases handling with
    | logged => rfl
    | handled raises =>
      rw [NoticeHandling.handed, Transcript.notices_cons, h]
      rfl
  cases message with
  | columns | notification | portal =>
    rw [quiet rfl, List.append_nil]
    exact (Stream.keeps_log _ _).notices
  | row | acknowledgment | error =>
    rw [quiet rfl, List.append_nil]
    rfl
  | complete status =>
    have hrun : answer handling (.complete status) r =
        (if r.response.columns.isNone then flush status else pure ()) r := rfl
    rw [quiet rfl, List.append_nil, hrun]
    split
    · exact notices_flush status r
    · rfl
  | notice notice =>
    cases handling with
    | logged => exact (Stream.keeps_log _ _).notices.trans (List.append_nil _).symm
    | handled raises =>
      have taken := state_handle_handled raises notice r.stream
      simp only [answer, onStream, Act.on]
      revert taken
      cases handle (.handled raises) notice r.stream <;>
      · rintro rfl
        exact Link.notices_record _ _

theorem notices_step (handling : NoticeHandling) (r : Reader) :
    (Act.state (step handling r)).stream.link.notices =
      r.stream.link.notices ++ handling.handed (heeded r) := by
  obtain ⟨keeps, -⟩ := moves_readMessage Stream.along_keeps r
  cases hm : readMessage r with
  | error fault x =>
    rw [hm] at keeps
    rw [step_of_unread hm, heeded_of_unread hm]
    exact keeps.notices.trans (by rw [NoticeHandling.handed_nil, List.append_nil])
  | ok message x =>
    rw [hm] at keeps
    rw [step_of_message hm, heeded_of_message hm, notices_answer]
    exact congrArg (· ++ _) keeps.notices

/-- The notices that are handed over while an answer is read are those among its messages, each once and
in their order, whatever the run comes to. -/
theorem notices_readFrom (handling : NoticeHandling) (r : Reader) :
    (Act.state (readFrom handling r)).stream.link.notices =
      r.stream.link.notices ++ handling.handed (messages handling r) := by
  refine (invariant_of_step (P := fun u told =>
    u.stream.link.notices = r.stream.link.notices ++ handling.handed told) ?_ ?_).2
  · intro u told _ h
    rw [notices_step, h, NoticeHandling.handed_append, List.append_assoc]
  · rw [NoticeHandling.handed_nil, List.append_nil]

theorem notices_finish (r : Reader) :
    (Act.state (finish r)).stream.link.notices = r.stream.link.notices := by
  unfold finish
  split
  · rfl
  · exact (Stream.keeps_log _ _).notices

theorem notices_read (handling : NoticeHandling) (r : Reader) :
    (Act.state (read handling r)).stream.link.notices =
      r.stream.link.notices ++ handling.handed (messages handling r) := by
  have handed := notices_readFrom handling r
  simp only [read, bind, EStateM.bind]
  cases hrun : readFrom handling r with
  | error fault u =>
    rw [hrun] at handed
    exact handed
  | ok _ u =>
    rw [hrun] at handed
    exact (notices_finish u).trans handed

end Reader

end SimpleQuery
