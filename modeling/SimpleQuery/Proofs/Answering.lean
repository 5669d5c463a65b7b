import SimpleQuery.Proofs.Takes

/-!
# Reading messages one by one

Where the bytes of messages are unread on a stream that is in order, the reader takes one message after
the other, does for each what it calls for, and goes on behind the last.

* `Reader.step_takes` — one message.
* `Response.Reaches` — what messages make of a response that is not done before the last of them.
* `Reader.readFrom_takes` — messages, by induction on them.
-/

set_option autoImplicit false

namespace SimpleQuery

/-- The notice that was handed over, or written to the log where there is no handler. -/
def Event.heard? (handling : NoticeHandling) : Event → Option String
  | .noticed notice =>
    match handling with
    | .logged => none
    | .handled _ => some notice
  | .logged (.noticeUnhandled notice) =>
    match handling with
    | .logged => some notice
    | .handled _ => none
  | _ => none

/-- The notices that were heard, the earliest first. -/
def Link.heard (handling : NoticeHandling) (link : Link) : List String :=
  link.history.filterMap (Event.heard? handling)

theorem Link.heard_record (handling : NoticeHandling) (event : Event) (link : Link) :
    (link.record event).heard handling = link.heard handling ++ (event.heard? handling).toList := by
  rw [heard, history_record, List.filterMap_append, heard]
  cases h : event.heard? handling <;> simp [h]

namespace Stream

/-- A stream that is in order: open, with nothing staged, and with a link on which sending works. -/
structure Ready (cs : Charset) (s : Stream) : Prop where
  charset : s.charset = .known cs
  isOpen : s.closed = false
  staged : s.staged = []
  sends : ∀ fault ∈ s.link.sendFaults, fault = none

/-- From one stream to the other these payloads were sent and these notices heard, and no bytes were
asked for. -/
structure Spoken (handling : NoticeHandling) (payloads : List Bytes) (notices : List String)
    (s t : Stream) : Prop where
  charset : t.charset = s.charset
  closed : t.closed = s.closed
  staged : t.staged = s.staged
  incoming : t.link.incoming = s.link.incoming
  sendFaults : ∀ fault ∈ t.link.sendFaults, fault ∈ s.link.sendFaults
  sent : t.link.sent = s.link.sent ++ payloads
  heard : t.link.heard handling = s.link.heard handling ++ notices

variable {handling : NoticeHandling} {cs : Charset}

theorem Spoken.refl (s : Stream) : Spoken handling [] [] s s where
  charset := rfl
  closed := rfl
  staged := rfl
  incoming := rfl
  sendFaults _ h := h
  sent := (List.append_nil _).symm
  heard := (List.append_nil _).symm

theorem Spoken.trans {s t u : Stream} {payloads payloads' : List Bytes} {notices notices' : List String}
    (h : Spoken handling payloads notices s t) (h' : Spoken handling payloads' notices' t u) :
    Spoken handling (payloads ++ payloads') (notices ++ notices') s u where
  charset := h'.charset.trans h.charset
  closed := h'.closed.trans h.closed
  staged := h'.staged.trans h.staged
  incoming := h'.incoming.trans h.incoming
  sendFaults fault hf := h.sendFaults fault (h'.sendFaults fault hf)
  sent := by rw [h'.sent, h.sent, List.append_assoc]
  heard := by rw [h'.heard, h.heard, List.append_assoc]

theorem Spoken.ready {s t : Stream} {payloads : List Bytes} {notices : List String}
    (h : Spoken handling payloads notices s t) (hr : s.Ready cs) : t.Ready cs where
  charset := h.charset.trans hr.charset
  isOpen := h.closed.trans hr.isOpen
  staged := h.staged.trans hr.staged
  sends fault hf := hr.sends fault (h.sendFaults fault hf)

/-- What is unread does not matter. -/
theorem spoken_record (event : Event) (s : Stream) (unread : Bytes) :
    Spoken handling event.payload?.toList (event.heard? handling).toList s
      { s with link := s.link.record event, unread } where
  charset := rfl
  closed := rfl
  staged := rfl
  incoming := rfl
  sendFaults _ h := h
  sent := Link.sent_record event s.link
  heard := Link.heard_record handling event s.link

/-- On a stream that is in order a query is sent. -/
theorem sendQuery_ready (handling : NoticeHandling) {s : Stream} (h : s.Ready cs) (statement : Bytes) :
    ∃ t, sendQuery statement s = .ok () t ∧ t.unread = s.unread ∧
      Spoken handling [Query.frame statement] [] s t := by
  have hne : Query.frame statement ≠ [] := by simp [Query.frame]
  have hfault : Link.nextFault s.link.sendFaults = none := by
    cases hf : s.link.sendFaults with
    | nil => rfl
    | cons fault rest => exact h.sends fault (by rw [hf]; exact List.mem_cons_self)
  have hrun : sendQuery statement s = .ok ()
      { s with link := (Link.record (.sent (Query.frame statement))
        { s.link with sendFaults := s.link.sendFaults.tail }) } := by
    simp only [sendQuery, stage, flush, bind, EStateM.bind, h.staged, List.nil_append, if_neg hne, h.isOpen,
      Bool.false_eq_true, if_false, Link.send, hfault]
    rw [← h.staged]
    rfl
  refine ⟨_, hrun, rfl, ?_⟩
  exact
    { charset := rfl
      closed := rfl
      staged := rfl
      incoming := rfl
      sendFaults := fun fault hf => List.mem_of_mem_tail hf
      sent := Link.sent_record _ _
      heard := by rw [Link.heard_record]; rfl }

end Stream

/-- The payloads that a message calls for: a flush query, if it is a status before any columns. -/
def Response.asks (r : Response) (message : Message) : List Bytes :=
  match message with
  | .complete _ => if r.columns.isNone then [Query.frame Query.blankBytes] else []
  | _ => []

/-- The notice that a message is, if it is one. -/
def Message.notices : Message → List String
  | .notice text => [text]
  | _ => []

/-- The slots of a row. -/
def Message.slots? : Message → Option Row
  | .row _ slots => some slots
  | _ => none

namespace Reader

variable {handling : NoticeHandling} {cs : Charset}

/-- On a stream that is in order a flush query is sent. -/
theorem flush_ready (handling : NoticeHandling) {s : Stream} (hs : s.Ready cs) (r : Response)
    (status : String) :
    ∃ t, flush status ⟨s, r⟩ = .ok () ⟨t, r.flushed⟩ ∧ t.unread = s.unread ∧
      Stream.Spoken handling [Query.frame Query.blankBytes] [] s t := by
  obtain ⟨t, hsend, hunread, hspoken⟩ := Stream.sendQuery_ready handling hs Query.blankBytes
  let entry : Log.Entry := .flushSent status r.flushed.pendingFlushes
  have hlog : Stream.Spoken handling [] [] t (t.log entry) :=
    Stream.spoken_record (.logged entry) t t.unread
  refine ⟨t.log entry, ?_, hunread, hspoken.trans hlog⟩
  simp only [flush, onStream, Act.on, bind, EStateM.bind, hsend]
  rfl

/-- On a stream that is in order a message is acted on. -/
theorem answer_ready (hh : handling.Willing) {s : Stream} (hs : s.Ready cs) {r next : Response}
    {message : Message} (allowed : r.advance message = .ok next) :
    ∃ t, answer handling message ⟨s, r.after message⟩ = .ok () ⟨t, next⟩ ∧ t.unread = s.unread ∧
      Stream.Spoken handling (r.asks message) message.notices s t := by
  cases message with
  | columns group =>
    cases hc : r.columns with
    | some group => simp [Response.advance, hc] at allowed
    | none =>
      simp only [Response.advance, hc, Except.ok.injEq] at allowed
      subst allowed
      exact ⟨_, rfl, rfl, Stream.spoken_record (.logged (.columnsRead group.length)) s _⟩
  | row binary slots =>
    cases hc : r.columns with
    | none => simp [Response.advance, hc] at allowed
    | some group =>
      simp only [Response.advance, hc, Except.ok.injEq] at allowed
      subst allowed
      exact ⟨s, rfl, rfl, Stream.Spoken.refl s⟩
  | complete status =>
    cases hc : r.columns with
    | some group =>
      simp only [Response.advance, hc, Except.ok.injEq] at allowed
      subst allowed
      have hasks : r.asks (.complete status) = [] := by simp [Response.asks, hc]
      refine ⟨s, ?_, rfl, hasks ▸ Stream.Spoken.refl s⟩
      simp only [answer, Response.after, hc, bind, EStateM.bind, Act.get_eq]
      rfl
    | none =>
      simp only [Response.advance, hc, Except.ok.injEq] at allowed
      subst allowed
      obtain ⟨t, hflush, hunread, hspoken⟩ := flush_ready handling hs (r.after (.complete status)) status
      have hasks : r.asks (.complete status) = [Query.frame Query.blankBytes] := by
        simp [Response.asks, hc]
      refine ⟨t, ?_, hunread, hasks ▸ hspoken⟩
      have hnone : (r.after (.complete status)).columns = none := hc
      simp only [answer, bind, EStateM.bind, Act.get_eq, hnone,
        Option.isNone_none, if_true, hflush]
  | acknowledgment | error text =>
    simp only [Response.advance, Except.ok.injEq] at allowed
    subst allowed
    exact ⟨s, rfl, rfl, Stream.Spoken.refl s⟩
  | notification process text =>
    simp only [Response.advance, Except.ok.injEq] at allowed
    subst allowed
    exact ⟨_, rfl, rfl, Stream.spoken_record (.logged (.notificationIgnored process text)) s _⟩
  | portal name =>
    simp only [Response.advance, Except.ok.injEq] at allowed
    subst allowed
    exact ⟨_, rfl, rfl, Stream.spoken_record (.logged (.portalIgnored name)) s _⟩
  | notice notice =>
    simp only [Response.advance, Except.ok.injEq] at allowed
    subst allowed
    cases handling with
    | logged => exact ⟨_, rfl, rfl, Stream.spoken_record (.logged (.noticeUnhandled notice)) s _⟩
    | handled raises =>
      refine ⟨{ s with link := s.link.record (.noticed notice) }, ?_, rfl,
        Stream.spoken_record (.noticed notice) s _⟩
      simp only [answer, onStream, Act.on, handle_of_willing hh]

/-- One message that travels whole and may come next is read and acted on. -/
theorem step_takes (hh : handling.Willing) {s : Stream} (hs : s.Ready cs) {r next : Response}
    {message : Message} (fits : message.Fits cs (r.columns.getD []).length)
    (allowed : r.advance message = .ok next) {bytes rest : Bytes}
    (he : message.encode? cs = some bytes) (hu : s.unread = bytes ++ rest) :
    ∃ t, step handling ⟨s, r⟩ = .ok () ⟨t, next⟩ ∧ t.unread = rest ∧
      Stream.Spoken handling (r.asks message) message.notices s t := by
  obtain ⟨body, hbody, htakes⟩ := Response.takes_receiveBody fits allowed
  obtain rfl : message.tag.byte :: body = bytes := by
    rw [Message.encode?, hbody] at he
    exact Option.some.inj he
  have htag := Stream.takes_receiveByte message.tag.byte s (body ++ rest) hs.charset hu
  -- the stream once the tag byte is read and logged
  let begun : Stream := { s with unread := body ++ rest }.log
    (.messageBegun message.tag.byte r.finalSeen r.pendingFlushes)
  have hread := htakes begun rest hs.charset rfl
  have hspoken : Stream.Spoken handling [] [] s { begun with unread := rest } :=
    Stream.spoken_record (.logged (.messageBegun message.tag.byte r.finalSeen r.pendingFlushes)) s rest
  obtain ⟨t, hanswer, hunread, hsaid⟩ := answer_ready hh (hspoken.ready hs) allowed
  refine ⟨t, ?_, hunread, hspoken.trans hsaid⟩
  simp only [step, receiveTag, onStream, Act.on, bind, EStateM.bind, htag, Act.get_eq, Stream.logged, pure, EStateM.pure]
  simp only [afterTag, receiveMessage, Tag.ofByte?_byte, onStream, Act.on, bind, EStateM.bind,
    Act.get_eq]
  rw [show r.receiveBody message.tag begun = _ from hread]
  exact hanswer

end Reader

/-! ## Messages -/

/-- What messages make of a response that is not done before the last of them. -/
inductive Response.Reaches : Response → Transcript → Response → Prop where
  | refl (r : Response) : Reaches r [] r
  | step {r next last : Response} {message : Message} {rest : Transcript} (undone : r.done = false)
      (allowed : r.advance message = .ok next) (others : Reaches next rest last) :
      Reaches r (message :: rest) last

theorem Response.Reaches.append {r mid last : Response} {first second : Transcript}
    (h : r.Reaches first mid) (h' : mid.Reaches second last) : r.Reaches (first ++ second) last := by
  induction h with
  | refl r => exact h'
  | step undone allowed _ ih => exact .step undone allowed (ih h')

/-- The number of columns behind a message. -/
def Message.columnsAfter (columns : Nat) : Message → Nat
  | .columns group => group.length
  | _ => columns

/-- Messages that travel whole, where `columns` are those that rows in front of any new columns have. -/
def Transcript.Fits (cs : Charset) (columns : Nat) : Transcript → Prop
  | [] => True
  | message :: rest => message.Fits cs columns ∧ Transcript.Fits cs (message.columnsAfter columns) rest

theorem Response.columns_advance {r next : Response} {message : Message}
    (h : r.advance message = .ok next) :
    (next.columns.getD []).length = message.columnsAfter (r.columns.getD []).length := by
  cases message <;> cases hc : r.columns <;>
    simp only [Response.advance, hc, Except.ok.injEq, reduceCtorEq] at h <;> subst h <;>
    simp [Response.after, Response.flushed, Message.columnsAfter, hc]

/-- The flush queries that messages call for, from a response on: none once there are columns. -/
def Response.flushes (r : Response) (transcript : Transcript) : Nat :=
  if r.columns.isSome then 0 else transcript.flushes

theorem Response.asks_append {r next : Response} {message : Message} (rest : Transcript)
    (h : r.advance message = .ok next) :
    r.asks message ++ List.replicate (next.flushes rest) (Query.frame Query.blankBytes) =
      List.replicate (r.flushes (message :: rest)) (Query.frame Query.blankBytes) := by
  cases message <;> cases hc : r.columns <;>
    simp only [Response.advance, hc, Except.ok.injEq, reduceCtorEq] at h <;> subst h <;>
    simp [Response.flushes, Response.asks, Response.after, Response.flushed, Transcript.flushes, hc,
      List.replicate_succ]

theorem Transcript.notices_cons (message : Message) (rest : Transcript) :
    Transcript.notices (message :: rest) = message.notices ++ Transcript.notices rest := by
  cases message <;> rfl

/-- The bytes of messages one behind the other. -/
theorem Transcript.encode?_cons {cs : Charset} {message : Message} {rest : Transcript} {bytes : Bytes} :
    Transcript.encode? cs (message :: rest) = some bytes ↔
      ∃ first others, message.encode? cs = some first ∧ Transcript.encode? cs rest = some others ∧
        bytes = first ++ others := by
  unfold Transcript.encode?
  cases hm : message.encode? cs <;> cases hr : List.mapM (Message.encode? cs) rest <;>
    simp [List.mapM_cons, hm, hr, eq_comm]

/-- Messages that travel whole and may follow one another have bytes. -/
theorem Response.Reaches.encodes {cs : Charset} {r last : Response} {transcript : Transcript}
    (h : r.Reaches transcript last) (fits : transcript.Fits cs (r.columns.getD []).length) :
    ∃ bytes, transcript.encode? cs = some bytes := by
  induction h with
  | refl r => exact ⟨[], rfl⟩
  | @step r next last message rest undone allowed others ih =>
    obtain ⟨hfits, hrest⟩ := fits
    rw [← Response.columns_advance allowed] at hrest
    obtain ⟨bytes, hbytes⟩ := ih hrest
    obtain ⟨body, hbody, -⟩ := Response.takes_receiveBody hfits allowed
    refine ⟨message.tag.byte :: body ++ bytes, Transcript.encode?_cons.2 ⟨_, bytes, ?_, hbytes, rfl⟩⟩
    rw [Message.encode?, hbody, Option.map_some]

namespace Reader

variable {handling : NoticeHandling} {cs : Charset}

/-- Messages that travel whole and may follow one another are read and acted on, and reading goes on
behind them. -/
theorem readFrom_takes (hh : handling.Willing) {r last : Response} {transcript : Transcript}
    (h : r.Reaches transcript last) (fits : transcript.Fits cs (r.columns.getD []).length) {s : Stream}
    (hs : s.Ready cs) {bytes rest : Bytes} (he : transcript.encode? cs = some bytes)
    (hu : s.unread = bytes ++ rest) :
    ∃ t, readFrom handling ⟨s, r⟩ = readFrom handling ⟨t, last⟩ ∧ t.unread = rest ∧
      Stream.Spoken handling (List.replicate (r.flushes transcript) (Query.frame Query.blankBytes))
        transcript.notices s t := by
  induction h generalizing s bytes with
  | refl r =>
    obtain rfl : [] = bytes := Option.some.inj he
    have hnone : r.flushes [] = 0 := by simp [Response.flushes, Transcript.flushes]
    exact ⟨s, rfl, hu, hnone ▸ Stream.Spoken.refl s⟩
  | @step r next last message others undone allowed _ ih =>
    obtain ⟨hfits, hothers⟩ := fits
    rw [← Response.columns_advance allowed] at hothers
    obtain ⟨first, more, hfirst, hmore, rfl⟩ := Transcript.encode?_cons.1 he
    rw [List.append_assoc] at hu
    obtain ⟨t, hstep, hunread, hspoken⟩ := step_takes hh hs hfits allowed hfirst hu
    obtain ⟨u, hread, hrest, hsaid⟩ := ih hothers (hspoken.ready hs) hmore hunread
    refine ⟨u, ?_, hrest, ?_⟩
    · rw [readFrom_of_step undone hstep, hread]
    · rw [← Response.asks_append others allowed, Transcript.notices_cons]
      exact hspoken.trans hsaid

end Reader

end SimpleQuery
