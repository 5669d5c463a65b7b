import SimpleQuery.Proofs.Answering
import SimpleQuery.Proofs.Chunking

/-!
# The reader refines the machine of the protocol

The protocol describes how an answer is read as a machine that knows nothing of bytes: it is given
messages. The reader is given bytes, cut in any way, and does what the machine does.

* `Machine` — the machine, and `Machine.Finishes`, a run of it that is done with its last message and
  not before.
* `Machine.next_ofResponse` — a response moves as the machine does.
* `read_refines_machine` — on the bytes of the messages the reader reads those bytes and no others,
  sends a flush query for each status before any columns, and gives what the machine gives.
-/

set_option autoImplicit false

namespace SimpleQuery

/-- The machine that takes the messages of an answer. -/
structure Machine where
  descriptors : Option (List Column) := none
  rows : List Row := []
  status : Option String := none
  lastError : Option String := none
  finalSeen : Bool := false
  pendingFlushes : Nat := 0
  deriving DecidableEq, Repr

namespace Machine

/-- What a message does to the machine. -/
def next (m : Machine) : Message → Except Violation Machine
  | .columns group =>
    match m.descriptors with
    | some _ => .error .secondRowGroup
    | none => .ok { m with descriptors := some group }
  | .row _ slots =>
    match m.descriptors with
    | some _ => .ok { m with rows := m.rows ++ [slots] }
    | none => .error .rowBeforeColumns
  | .complete status =>
    match m.descriptors with
    | some _ => .ok { m with status := some status, finalSeen := true }
    | none => .ok { m with status := some status, pendingFlushes := m.pendingFlushes + 1 }
  | .acknowledgment =>
    match m.pendingFlushes with
    | 0 | 1 => .ok { m with pendingFlushes := 0, finalSeen := true }
    | pending + 2 => .ok { m with pendingFlushes := pending + 1 }
  | .error message => .ok { m with lastError := some message, finalSeen := true }
  | .notice _ | .notification .. | .portal _ => .ok m

/-- What messages do to the machine, one after the other. -/
def run (m : Machine) (transcript : Transcript) : Except Violation Machine := transcript.foldlM next m

/-- A final message was seen, and no flush query is pending. -/
def Done (m : Machine) : Prop := m.finalSeen = true ∧ m.pendingFlushes = 0

/-- From its start the machine runs over the messages without a violation, and is done with the last of
them and not before. -/
structure Finishes (transcript : Transcript) (last : Machine) : Prop where
  runs : run {} transcript = .ok last
  done : last.Done
  first : ∀ k < transcript.length, ∀ mid, run {} (transcript.take k) = .ok mid → ¬ mid.Done

/-- What the machine gives in the end: its last error, or its rows and their status. -/
def result (m : Machine) : Except Fault Bundle :=
  match m.lastError with
  | some message => .error (.refusal (.server message))
  | none => .ok { columns := m.descriptors.getD [], rows := m.rows.toArray, status := m.status }

/-! ## Responses as machines -/

/-- The machine that a response stands for. -/
def ofResponse (r : Response) : Machine where
  descriptors := r.columns
  rows := r.rows.toList
  status := r.status
  lastError := r.error
  finalSeen := r.finalSeen
  pendingFlushes := r.pendingFlushes

theorem done_ofResponse (r : Response) : (ofResponse r).Done ↔ r.done = true := by
  simp [Done, ofResponse, Response.done]

/-- A message does the same to a response and to the machine that it stands for. -/
theorem next_ofResponse (r : Response) (message : Message) :
    (ofResponse r).next message = (r.advance message).map ofResponse := by
  cases message with
  | columns group => cases hc : r.columns <;> simp [next, ofResponse, Response.advance, Response.after, hc, Except.map]
  | row binary slots =>
    cases hc : r.columns <;> simp [next, ofResponse, Response.advance, Response.after, hc, Except.map]
  | complete status =>
    cases hc : r.columns <;>
      simp [next, ofResponse, Response.advance, Response.after, Response.flushed, hc, Except.map]
  | acknowledgment =>
    obtain hp | hp | ⟨pending, hp⟩ : r.pendingFlushes = 0 ∨ r.pendingFlushes = 1 ∨
        ∃ pending, r.pendingFlushes = pending + 2 := by
      rcases r.pendingFlushes with _ | _ | pending
      · exact .inl rfl
      · exact .inr (.inl rfl)
      · exact .inr (.inr ⟨pending, rfl⟩)
    · simp [next, ofResponse, Response.advance, Response.after, hp, Except.map]
    · simp [next, ofResponse, Response.advance, Response.after, hp, Except.map]
    · have hnot : ¬ pending + 2 ≤ 1 := by omega
      simp [next, ofResponse, Response.advance, Response.after, hp, hnot, Except.map]
  | error message | notice text | notification process text | portal name =>
    simp [next, ofResponse, Response.advance, Response.after, Except.map]

theorem run_cons (m : Machine) (message : Message) (rest : Transcript) :
    m.run (message :: rest) = (m.next message).bind fun n => n.run rest := rfl

/-- Where the machine of a response runs to its end, the response reaches it. -/
theorem reaches_of_run {r : Response} {transcript : Transcript} {last : Machine}
    (runs : (ofResponse r).run transcript = .ok last)
    (first : ∀ k < transcript.length, ∀ mid,
      (ofResponse r).run (transcript.take k) = .ok mid → ¬ mid.Done) :
    ∃ final, r.Reaches transcript final ∧ ofResponse final = last := by
  induction transcript generalizing r with
  | nil => exact ⟨r, .refl r, Except.ok.inj runs⟩
  | cons message rest ih =>
    have undone : r.done = false := by
      have h := first 0 (Nat.zero_lt_succ _) (ofResponse r) rfl
      rw [done_ofResponse] at h
      simpa using h
    rw [run_cons, next_ofResponse] at runs
    cases ha : r.advance message with
    | error cause =>
      rw [ha] at runs
      cases runs
    | ok next =>
      rw [ha] at runs
      have firstOfRest (k : Nat) (hk : k < rest.length) (mid : Machine)
          (hrun : (ofResponse next).run (rest.take k) = .ok mid) : ¬ mid.Done := by
        refine first (k + 1) (Nat.succ_lt_succ hk) mid ?_
        rw [List.take_succ_cons, run_cons, next_ofResponse, ha]
        exact hrun
      obtain ⟨final, hreaches, hfinal⟩ := ih runs firstOfRest
      exact ⟨final, .step undone ha hreaches, hfinal⟩

theorem Finishes.reaches {transcript : Transcript} {last : Machine} (h : Finishes transcript last) :
    ∃ final, Response.Reaches {} transcript final ∧ ofResponse final = last ∧ final.done = true := by
  obtain ⟨final, hreaches, hfinal⟩ := reaches_of_run (r := {}) h.runs h.first
  refine ⟨final, hreaches, hfinal, ?_⟩
  rw [← done_ofResponse, hfinal]
  exact h.done

end Machine

/-! ## Reading a whole answer -/

namespace Reader

/-- What a reader gives and leaves when its answer is complete. -/
theorem finish_spoken (handling : NoticeHandling) (r : Reader) :
    let t := Act.state (finish r)
    Act.outcome (finish r) = (Machine.ofResponse r.response).result ∧
      t.stream.unread = r.stream.unread ∧ Stream.Spoken handling [] [] r.stream t.stream ∧
      Machine.ofResponse t.response =
        { Machine.ofResponse r.response with
          rows := if r.response.error.isSome then [] else r.response.rows.toList } := by
  intro t
  cases he : r.response.error with
  | none =>
    have hf : finish r = .ok ⟨r.response.columns.getD [], r.response.rows, r.response.status⟩ r := by
      simp only [finish, Response.result, he]
    simp only [t, hf]
    refine ⟨?_, rfl, Stream.Spoken.refl _, rfl⟩
    simp only [Act.outcome_ok, Machine.result, Machine.ofResponse, he]
  | some message =>
    have hf : finish r = .error (.refusal (.server message))
        { r with stream := r.stream.log (.queryFailed message r.response.rows.size),
                 response := { r.response with rows := #[] } } := by
      simp only [finish, Response.result, he]
    simp only [t, hf]
    refine ⟨?_, rfl, ?_, rfl⟩
    · simp only [Act.outcome_error, Machine.result, Machine.ofResponse, he]
    · exact Stream.spoken_record (.logged (.queryFailed message r.response.rows.size)) r.stream _

variable {handling : NoticeHandling} {cs : Charset}

/-- Where the bytes of an answer are unread, it is read to its end and no further. -/
theorem read_takes (hh : handling.Willing) {last : Response} {transcript : Transcript}
    (h : Response.Reaches {} transcript last) (hdone : last.done = true) (fits : transcript.Fits cs 0)
    {s : Stream} (hs : s.Ready cs) {bytes rest : Bytes} (he : transcript.encode? cs = some bytes)
    (hu : s.unread = bytes ++ rest) :
    let t := Act.state (read handling { stream := s })
    Act.outcome (read handling { stream := s }) = (Machine.ofResponse last).result ∧
      t.stream.unread = rest ∧
      Stream.Spoken handling (List.replicate transcript.flushes (Query.frame Query.blankBytes))
        transcript.notices s t.stream ∧
      Machine.ofResponse t.response =
        { Machine.ofResponse last with rows := if last.error.isSome then [] else last.rows.toList } := by
  obtain ⟨u, hread, hunread, hspoken⟩ := readFrom_takes hh h fits hs he hu
  have hend : readFrom handling ⟨u, last⟩ = .ok () ⟨u, last⟩ := readFrom_of_done hdone
  have hrun : read handling { stream := s } = finish ⟨u, last⟩ := by
    simp only [read, bind, EStateM.bind, hread, hend]
  rw [hrun]
  obtain ⟨houtcome, hrest, hsaid, hresponse⟩ := finish_spoken handling ⟨u, last⟩
  have hall := hspoken.trans hsaid
  rw [List.append_nil, List.append_nil] at hall
  exact ⟨houtcome, hrest.trans hunread, hall, hresponse⟩

end Reader

/-- The stream with all that will arrive already unread. -/
def Stream.loaded (bytes : Bytes) (s : Stream) : Stream :=
  { s with unread := bytes, link := { s.link with incoming := [] } }

/-- A stream on which only bytes are still to be read is the stream that is loaded with them, but for the
cutting. -/
theorem Stream.same_loaded_of_line {s : Stream} {bytes : Bytes} (hopen : s.closed = false)
    (hline : s.line = bytes.map .byte) : s.Same (s.loaded bytes) := by
  have hloaded : s.line = (s.loaded bytes).line := by
    rw [hline]
    simp [Stream.line, Stream.loaded, Link.line, hopen]
  show { s.uncut with link := { s.link.uncut with line := s.line } } =
    { s.uncut with link := { s.link.uncut with line := (s.loaded bytes).line } }
  rw [hloaded]

theorem Stream.same_loaded {s : Stream} {chunks : List Bytes} {bytes : Bytes} (hopen : s.closed = false)
    (hunread : s.unread = []) (hin : s.link.incoming = chunks.map .bytes)
    (hchunks : ∀ chunk ∈ chunks, chunk ≠ []) (hbytes : chunks.flatten = bytes) :
    s.Same (s.loaded bytes) := by
  refine same_loaded_of_line hopen ?_
  simp [Stream.line, hopen, hunread, hin, Link.line_chunks hchunks, hbytes]

theorem Link.heard_of_uncut_eq (handling : NoticeHandling) {first second : Link}
    (h : first.uncut.told = second.uncut.told) : first.heard handling = second.heard handling :=
  filterMap_history_of_uncut_eq (fun event he => by cases event <;> first | rfl | cases he) h

/-- **The reader refines the machine.** Messages that travel whole, and over which the machine runs
without a violation until it is done with the last of them and not before, have bytes. Whatever bytes
follow those, and however all are cut into chunks, on an open stream on which sending works and with a
handler that does not give up: the reader gives what the machine gives, reads exactly the bytes of the
messages, sends one flush query for each status before any columns and nothing else, has every notice
heard in order, and is left with what the machine knows, but for the rows of an answer with an error. -/
theorem read_refines_machine {cs : Charset} {handling : NoticeHandling} (hh : handling.Willing)
    {transcript : Transcript} {last : Machine} (fits : transcript.Fits cs 0)
    (h : Machine.Finishes transcript last) :
    ∃ encoded, transcript.encode? cs = some encoded ∧
      ∀ (following : Bytes) (chunks : List Bytes) (s : Stream), (∀ chunk ∈ chunks, chunk ≠ []) →
        chunks.flatten = encoded ++ following → s.Ready cs → s.unread = [] →
        s.link.incoming = chunks.map .bytes →
        let reading := Reader.read handling { stream := s }
        let t := Act.state reading
        Act.outcome reading = last.result ∧
          t.stream.unread ++ (Link.arrivals t.stream.link.incoming).1 = following ∧
          t.stream.closed = false ∧ t.stream.staged = [] ∧
          t.stream.link.sent =
            s.link.sent ++ List.replicate transcript.flushes (Query.frame Query.blankBytes) ∧
          t.stream.link.heard handling = s.link.heard handling ++ transcript.notices ∧
          Machine.ofResponse t.response =
            { last with rows := if last.lastError.isSome then [] else last.rows } := by
  obtain ⟨final, hreaches, rfl, hdone⟩ := h.reaches
  obtain ⟨encoded, he⟩ := hreaches.encodes fits
  refine ⟨encoded, he, ?_⟩
  intro following chunks s hchunks hflat hready hunread hin reading t
  have hsame := Stream.same_loaded hready.isOpen hunread hin hchunks hflat
  have hloaded : (s.loaded (encoded ++ following)).Ready cs :=
    ⟨hready.charset, hready.isOpen, hready.staged, hready.sends⟩
  obtain ⟨houtcome, hrest, hspoken, hresponse⟩ :=
    Reader.read_takes hh hreaches hdone fits hloaded he rfl
  have halike := Stream.congruence_same.read (Stream.blind_same handling) { stream := s }
    { stream := s.loaded (encoded ++ following) } ⟨hsame, rfl⟩
  have hstates := halike.states
  have hstream := hstates.stream
  have hopen : t.stream.closed = false := hstream.closed.trans (hspoken.closed.trans hready.isOpen)
  refine ⟨halike.outcomes.trans houtcome, ?_, hopen, ?_, ?_, ?_, ?_⟩
  · have hline := congrArg Link.arrived hstream.line
    have hloadedOpen := hstream.closed.symm.trans hopen
    rw [Stream.arrived_line, Stream.arrived_line, hopen, hloadedOpen, hrest, hspoken.incoming] at hline
    rw [Link.arrivals_eq_arrived]
    simpa [Stream.loaded, Link.line, Link.arrived] using hline
  · exact hstream.staged.trans (hspoken.staged.trans hready.staged)
  · exact (Link.sent_of_uncut_eq hstream.told).trans hspoken.sent
  · exact (Link.heard_of_uncut_eq handling hstream.told).trans hspoken.heard
  · rw [hstates.response]
    exact hresponse

/-- A statement without rows: its status calls for a flush query, whose acknowledgment ends the answer.
The last byte that arrives belongs to no message of it. -/
theorem read_of_rowless_statement :
    let transcript : Transcript := [.complete "A", .notice "n", .acknowledgment]
    let last : Machine := { status := some "A", finalSeen := true }
    let chunks : List Bytes := [[0x43, 0x41], [0x00, 0x4E, 0x6E], [0x00, 0x49, 0x00, 0x54]]
    let s : Stream := { link := { incoming := chunks.map .bytes }, charset := .known .ascii }
    let reading := Reader.read .collected { stream := s }
    (NoticeHandling.collected.Willing ∧ transcript.Fits .ascii 0 ∧ Machine.Finishes transcript last) ∧
      Act.outcome reading = .ok { status := some "A" } ∧
      (Act.state reading).stream.link.sent = [Query.frame Query.blankBytes] ∧
      (Act.state reading).stream.link.heard .collected = ["n"] := by
  intro transcript last chunks s reading
  have fits : transcript.Fits .ascii 0 := by
    refine ⟨⟨[0x41], rfl, by decide, by decide⟩, ⟨[0x6E], rfl, by decide, by decide⟩, trivial, trivial⟩
  have finishes : Machine.Finishes transcript last := by
    refine ⟨rfl, ⟨rfl, rfl⟩, ?_⟩
    intro k hk mid hrun
    match k with
    | 0 | 1 | 2 =>
      cases hrun
      exact fun hdone => by cases hdone.1
    | k + 3 => exact absurd hk (by simp [transcript])
  have hh := NoticeHandling.willing_collected
  obtain ⟨encoded, he, hread⟩ := read_refines_machine hh fits finishes
  obtain rfl : [0x43, 0x41, 0x00, 0x4E, 0x6E, 0x00, 0x49, 0x00] = encoded := Option.some.inj he
  have hready : s.Ready .ascii := ⟨rfl, rfl, rfl, fun fault hf => by cases hf⟩
  obtain ⟨houtcome, -, -, -, hsent, hheard, -⟩ :=
    hread [0x54] chunks s (by decide) rfl hready rfl rfl
  exact ⟨⟨hh, fits, finishes⟩, houtcome, hsent, hheard⟩

end SimpleQuery
