import SimpleQuery.Proofs.Backend
import SimpleQuery.Proofs.Frame

/-!
# One statement and its answer

A statement is run on a stream that is loaded with all that will arrive. If that is the whole answer and
an acknowledgment for each flush query, exactly that is read. If it ends with an earlier message of the
backend, the stream runs dry, but not before more queries were sent than were answered.

* `Session.execute_takes` — a complete answer is read, and nothing behind it.
* `Session.execute_full`, `Session.execute_short` — the two cases.
-/

set_option autoImplicit false

namespace SimpleQuery

theorem Transcript.flushes_append {first rest : Transcript} (h : rest.flushes = 0) :
    Transcript.flushes (first ++ rest) = first.flushes := by
  induction first with
  | nil => exact h
  | cons message first ih =>
    cases message <;> simp only [List.cons_append, Transcript.flushes, ih]

theorem Backend.Obeys.flushes_acknowledgments {cs : Charset} {b : Backend} (h : b.Obeys cs) (n count : Nat) :
    (b.transcript n (List.replicate count Query.blankBytes)).flushes = 0 := by
  induction count generalizing n with
  | zero => rfl
  | succ count ih =>
    rw [List.replicate_succ, Backend.transcript, Transcript.flushes_append (ih (n + 1))]
    exact Transcript.flushes_idle (h.idle n)

namespace Stream

/-- A stream that is in order and on which nothing will arrive but these unread bytes. -/
structure Loaded (cs : Charset) (bytes : Bytes) (s : Stream) : Prop where
  ready : s.Ready cs
  incoming : s.link.incoming = []
  unread : s.unread = bytes

variable {cs : Charset}

/-- A statement that the charset can spell and that is not too long is sent, and its answer is read. -/
theorem query_sends (handling : NoticeHandling) {s : Stream} {bytes text : Bytes}
    (hs : s.Loaded cs bytes) {statement : String} (hl : statement.length ≤ maxStatementLength)
    (he : cs.encode? statement = some text) :
    ∃ t, s.query handling statement = receiveAnswer handling t ∧ t.Loaded cs bytes ∧
      t.link.sent = s.link.sent ++ [Query.frame text] := by
  obtain ⟨t, hsend, hunread, hspoken⟩ := sendQuery_ready handling hs.ready text
  have hencode : s.encode statement = .ok text := by
    simp only [encode, Text.encodeIn, hs.ready.charset, he]
  exact ⟨t, query_eq_receiveAnswer hl hencode hsend, ⟨hspoken.ready hs.ready,
    hspoken.incoming.trans hs.incoming, hunread.trans hs.unread⟩, hspoken.sent⟩

/-- Where nothing is left to be read, reading a message fails. -/
theorem step_dry (handling : NoticeHandling) {s : Stream} (hs : s.Loaded cs []) (r : Response) :
    ∃ t, Reader.step handling ⟨s, r⟩ = .error (.loss .endOfStream) t ∧
      t.stream.link.sent = s.link.sent := by
  have hfill : ∃ t, fill s = .error (.loss .endOfStream) t := by
    simp only [fill, hs.ready.isOpen, Bool.false_eq_true, if_false, Link.receive, hs.incoming,
      Link.takeDelivery]
    exact ⟨_, rfl⟩
  obtain ⟨t, hfill⟩ := hfill
  have hbyte : receiveByte s = .error (.loss .endOfStream) t := by
    have hcut : cut? 1 s.unread = none := by
      rw [hs.unread]
      rfl
    simp only [receiveByte, bind, EStateM.bind, receive_of_none hcut, hfill]
  refine ⟨{ stream := t, response := r }, ?_, ?_⟩
  · simp only [Reader.step, Reader.receiveTag, Reader.onStream, Act.on, bind, EStateM.bind, hbyte]
  · have hk := keeps_fill s
    rw [hfill] at hk
    exact hk.sent

end Stream

/-- The machine gives no loss. -/
theorem Machine.result_ne_loss (m : Machine) (cause : Loss) : m.result ≠ .error (.loss cause) := by
  simp only [result]
  cases m.lastError <;> simp

theorem Transcript.verdict_ne_loss (transcript : Transcript) (cause : Loss) :
    transcript.verdict ≠ .error (.loss cause) := by
  unfold verdict
  cases Machine.run {} transcript with
  | error violation => simp
  | ok last => exact last.result_ne_loss cause

namespace Session

variable {cs : Charset} {handling : NoticeHandling} {b : Backend}

/-- What comes to no loss leaves the stream in order. -/
theorem execute_of_no_loss {statement : String} {s : Stream}
    (h : ∀ cause, Act.outcome (s.query handling statement) ≠ .error (.loss cause)) :
    Act.outcome (execute handling statement s) = Act.outcome (s.query handling statement) ∧
      (Act.state (execute handling statement s)).unread = (Act.state (s.query handling statement)).unread ∧
      Stream.Spoken handling [] [] (Act.state (s.query handling statement))
        (Act.state (execute handling statement s)) := by
  unfold execute
  cases hq : s.query handling statement with
  | ok bundle t =>
    refine ⟨rfl, rfl, ?_⟩
    exact Stream.spoken_record (.logged (.queryComplete bundle.status bundle.columns.length bundle.rowCount))
      t t.unread
  | error fault t =>
    cases fault with
    | loss cause =>
      rw [hq] at h
      exact absurd rfl (h cause)
    | _ => exact ⟨rfl, rfl, Stream.Spoken.refl t⟩

/-- Where a complete answer is what is to be read first, it is read, and nothing behind it. -/
theorem execute_takes (hh : handling.Willing) {last : Response} {transcript : Transcript}
    (hreaches : Response.Reaches {} transcript last) (hdone : last.done = true)
    (fits : transcript.Fits cs 0) {bytes rest text : Bytes} (hbytes : transcript.encode? cs = some bytes)
    {statement : String} (hl : statement.length ≤ maxStatementLength)
    (he : cs.encode? statement = some text) {s : Stream} (hs : s.Loaded cs (bytes ++ rest)) :
    Act.outcome (execute handling statement s) = (Machine.ofResponse last).result ∧
      (Act.state (execute handling statement s)).Loaded cs rest ∧
      (Act.state (execute handling statement s)).link.sent = s.link.sent ++
        (text :: List.replicate transcript.flushes Query.blankBytes).map Query.frame := by
  obtain ⟨u, hquery, hu, hsent⟩ := Stream.query_sends handling hs hl he
  obtain ⟨houtcome, hrest, hspoken, -⟩ := Reader.read_takes hh hreaches hdone fits hu.ready hbytes hu.unread
  obtain ⟨hanswer, hstate⟩ := Stream.receiveAnswer_eq handling u
  rw [← hstate] at hrest hspoken
  have hno : ∀ cause, Act.outcome (s.query handling statement) ≠ .error (.loss cause) := by
    intro cause
    rw [hquery, hanswer, houtcome]
    exact Machine.result_ne_loss _ cause
  obtain ⟨hout, hsame, hlogged⟩ := execute_of_no_loss hno
  rw [hquery] at hout hsame hlogged
  have hall := hspoken.trans hlogged
  refine ⟨hout.trans (hanswer.trans houtcome), ⟨hall.ready hu.ready, ?_, hsame.trans hrest⟩, ?_⟩
  · exact hall.incoming.trans hu.incoming
  · rw [hall.sent, hsent, List.append_nil, List.map_cons, List.map_replicate, List.append_assoc]
    rfl

/-- The whole answer and an acknowledgment for each flush query are read, and nothing else is. -/
theorem execute_full (hb : b.Obeys cs) (hh : handling.Willing) {n : Nat} {later : List Bytes}
    {statement : String} {text : Bytes} (hl : statement.length ≤ maxStatementLength)
    (he : cs.encode? statement = some text) {s : Stream}
    (hs : s.Loaded cs (b.output cs n
      (text :: List.replicate (b.answer n text).flushes Query.blankBytes ++ later))) :
    Act.outcome (execute handling statement s) = (b.answer n text).verdict ∧
      (Act.state (execute handling statement s)).Loaded cs
        (b.output cs (n + ((b.answer n text).flushes + 1)) later) ∧
      (Act.state (execute handling statement s)).link.sent = s.link.sent ++
        (text :: List.replicate (b.answer n text).flushes Query.blankBytes).map Query.frame := by
  obtain ⟨last, hreaches, hpending, hsettled, hresult⟩ := hb.reaches_transcript n text (Nat.le_refl _)
  have hdone : last.done = true := hsettled.done (by rw [hpending, Nat.sub_self])
  rw [Backend.output_append, List.length_cons, List.length_replicate] at hs
  obtain ⟨houtcome, hloaded, hsent⟩ := execute_takes hh hreaches hdone (hb.fits_transcript n text _)
    (hb.encode?_transcript n _) hl he hs
  have hflushes : Transcript.flushes
      (b.transcript n (text :: List.replicate (b.answer n text).flushes Query.blankBytes)) =
        (b.answer n text).flushes := Transcript.flushes_append (hb.flushes_acknowledgments (n + 1) _)
  rw [hflushes] at hsent
  exact ⟨houtcome.trans hresult, hloaded, hsent⟩

/-- Where the unread bytes end before the answer is complete, the stream runs dry. By then the
statement was sent, and every flush query that the messages call for. -/
theorem execute_dry (hh : handling.Willing) {last : Response} {transcript : Transcript}
    (hreaches : Response.Reaches {} transcript last) (undone : last.done = false)
    (fits : transcript.Fits cs 0) {bytes text : Bytes} (hbytes : transcript.encode? cs = some bytes)
    {statement : String} (hl : statement.length ≤ maxStatementLength)
    (he : cs.encode? statement = some text) {s : Stream} (hs : s.Loaded cs bytes) :
    ∃ t, execute handling statement s = .error (.loss .endOfStream) t ∧
      t.link.sent.length = s.link.sent.length + 1 + transcript.flushes := by
  obtain ⟨u, hquery, hu, hsent⟩ := Stream.query_sends handling hs hl he
  obtain ⟨v, hread, hunread, hspoken⟩ := Reader.readFrom_takes hh hreaches fits hu.ready hbytes
    (hu.unread.trans (List.append_nil _).symm)
  obtain ⟨w, hstep, hw⟩ := Stream.step_dry handling
    ⟨hspoken.ready hu.ready, hspoken.incoming.trans hu.incoming, hunread⟩ last
  have hrun : s.query handling statement = .error (.loss .endOfStream) w.stream := by
    have hfault := Reader.readFrom_of_fault (r := ⟨v, last⟩) undone hstep
    rw [hquery]
    simp only [Stream.receiveAnswer, Reader.read, bind, EStateM.bind, hread, hfault]
  refine ⟨(w.stream.log .sessionBroken).close, ?_, ?_⟩
  · simp only [execute, hrun]
  · rw [Stream.sent_close, (Stream.keeps_log _ _).sent, hw, hspoken.sent, hsent]
    simp [Response.flushes]
    omega

/-- With fewer answers than a statement and its flush queries call for, more of these are sent than are
answered. -/
theorem execute_short (hb : b.Obeys cs) (hh : handling.Willing) {n : Nat}
    {answered more : List Bytes} {next : Bytes} {statement : String} {text : Bytes}
    (hl : statement.length ≤ maxStatementLength) (he : cs.encode? statement = some text)
    (hasked : text :: List.replicate (b.answer n text).flushes Query.blankBytes = answered ++ next :: more)
    {s : Stream} (hs : s.Loaded cs (b.output cs n answered)) :
    ∃ t, execute handling statement s = .error (.loss .endOfStream) t ∧
      s.link.sent.length + answered.length < t.link.sent.length := by
  cases answered with
  | nil =>
    obtain ⟨t, ht, hlength⟩ := execute_dry hh (.refl {}) rfl trivial rfl hl he hs
    refine ⟨t, ht, ?_⟩
    rw [hlength]
    simp only [List.length_nil]
    omega
  | cons first answered =>
    obtain ⟨rfl, hacks⟩ := List.cons.inj hasked
    obtain ⟨hcount, hanswered, -⟩ := List.append_eq_replicate_iff.1 hacks.symm
    rw [List.length_cons] at hcount
    rw [hanswered] at hs
    obtain ⟨last, hreaches, hpending, -⟩ := hb.reaches_transcript n text (show answered.length ≤ _ by omega)
    obtain ⟨t, ht, hlength⟩ := execute_dry hh hreaches (Response.undone_of_pending (by omega))
      (hb.fits_transcript n text _) (hb.encode?_transcript n _) hl he hs
    refine ⟨t, ht, ?_⟩
    rw [hlength, Backend.transcript, Transcript.flushes_append (hb.flushes_acknowledgments (n + 1) _),
      List.length_cons]
    omega

/-- A statement that comes to no loss leaves the session open. -/
theorem query_of_no_loss {statement : String} {session : Session} {s : Stream}
    (hp : session.phase = .open s) {result : Except Fault Bundle}
    (h : Act.outcome (execute session.handling statement s) = result)
    (hno : ∀ cause, result ≠ .error (.loss cause)) :
    query statement session = Act.ofExcept result
      { session with phase := .open (Act.state (execute session.handling statement s)) } := by
  refine (onStream_of_open _ hp).trans ?_
  subst h
  cases he : execute session.handling statement s with
  | ok bundle t => rfl
  | error fault t =>
    cases fault with
    | loss cause =>
      rw [he] at hno
      exact absurd rfl (hno cause)
    | _ => rfl

/-- A loss breaks the session. -/
theorem query_of_loss {statement : String} {session : Session} {s t : Stream}
    (hp : session.phase = .open s) {cause : Loss}
    (h : execute session.handling statement s = .error (.loss cause) t) :
    query statement session = .error (.loss cause) { session with phase := .broken t } := by
  refine (onStream_of_open _ hp).trans ?_
  rw [h]
  rfl

end Session

end SimpleQuery
