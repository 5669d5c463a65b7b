import SimpleQuery.Proofs.Locality
import SimpleQuery.Proofs.Prospect

/-!
# Messages on the side

Notices, notifications and names of portals may come at any time. Wherever they are put between two
messages of an answer, the answer is what it was without them, also where it ends in a failure, and the
notices among them are handed over in their place.

* `Message.SpellsAside` — their bytes, as they are read.
* `Reader.reaches_asides` — they are read, and change no more than what has happened.
* `Stream.congruence_abreast` — what has happened makes no difference to what is read and sent later.
* `asides_are_transparent` — a run with them beside the run without them.
-/

set_option autoImplicit false

namespace SimpleQuery

open Link (Arrival)
open SimpleQuery.Stream (SpellsText)

/-! ## Their bytes -/

/-- The bytes of a message that may come at any time. -/
inductive Message.SpellsAside (charset : NamedCharset) : Message → Bytes → Prop where
  | notice {text : String} {body : Bytes} (spelled : SpellsText maxError charset body text) :
      SpellsAside charset (.notice text) (Tag.notice.byte :: body)
  | notification {process : Nat} {text : String} {body : Bytes} (fits : process < Width.four.range)
      (spelled : SpellsText maxStatus charset body text) :
      SpellsAside charset (.notification process text)
        (Tag.notification.byte :: (BigEndian.encode 4 process ++ body))
  | portal {name : String} {body : Bytes} (spelled : SpellsText maxStatus charset body name) :
      SpellsAside charset (.portal name) (Tag.portal.byte :: body)

/-- The bytes of such messages one behind the other. -/
inductive Transcript.SpellsAsides (charset : NamedCharset) : Transcript → Bytes → Prop where
  | nil : SpellsAsides charset [] []
  | cons {message : Message} {rest : Transcript} {first others : Bytes}
      (head : message.SpellsAside charset first) (tail : SpellsAsides charset rest others) :
      SpellsAsides charset (message :: rest) (first ++ others)

namespace Message.SpellsAside

variable {charset : NamedCharset} {message : Message} {bytes : Bytes}

/-- They are read whatever the response is. -/
theorem read (h : message.SpellsAside charset bytes) (r : Response) : ∃ tag body, bytes = tag.byte :: body ∧
    ∀ (s : Stream) (rest : List Arrival), s.charset = charset → s.line = body.map .byte ++ rest →
      ∃ t, r.receiveBody tag s = .ok message t ∧ t.uncut = s.uncut.withLine rest := by
  cases h with
  | notice spelled =>
    refine ⟨.notice, _, rfl, ?_⟩
    rintro s rest rfl hline
    exact ((Stream.accepts_receiveText maxError).map Message.notice).complete ⟨_, spelled, rfl⟩ hline
  | @notification process text body fits spelled =>
    refine ⟨.notification, _, rfl, ?_⟩
    rintro s rest rfl hline
    exact ((Stream.accepts_receiveInteger .four).bind fun process =>
      (Stream.accepts_receiveText maxStatus).map (Message.notification process)).complete
        ⟨process, _, _, rfl, ⟨fits, rfl⟩, _, spelled, rfl⟩ hline
  | portal spelled =>
    refine ⟨.portal, _, rfl, ?_⟩
    rintro s rest rfl hline
    exact ((Stream.accepts_receiveText maxStatus).map Message.portal).complete ⟨_, spelled, rfl⟩ hline

theorem after (h : message.SpellsAside charset bytes) (r : Response) : r.after message = r := by
  cases h <;> rfl

/-- Acting on them, unless a handler gives up, only adds to what has happened. -/
theorem answer {handling : NoticeHandling} (hh : handling.Willing)
    (h : message.SpellsAside charset bytes) (r : Reader) :
    ∃ event : Event, event.isReceive = false ∧ event.payload? = none ∧ Reader.answer handling message r =
      .ok () { r with stream := { r.stream with link := r.stream.link.record event } } := by
  cases h with
  | @notice text =>
    cases handling with
    | logged => exact ⟨_, rfl, rfl, rfl⟩
    | handled raises =>
      refine ⟨.noticed text, rfl, rfl, ?_⟩
      simp only [Reader.answer, Reader.onStream, Act.on, Reader.handle_of_willing hh]
  | notification | portal => exact ⟨_, rfl, rfl, rfl⟩

end Message.SpellsAside

/-! ## What has happened before -/

namespace Stream

open Act (Respects)

/-- The streams have the same ahead of them, and the same was sent on them. -/
structure Abreast (s t : Stream) : Prop where
  prospect : s.prospect = t.prospect
  sent : s.link.sent = t.link.sent

theorem respects_of_keeps {α : Type} {act : Act Stream α}
    (h : Respects (fun s t : Stream => s.prospect = t.prospect) act) (keeps : Act.Moves Keeps act) :
    Respects Abreast act := by
  refine h.closer (fun _ _ abreast => abreast.prospect) fun s t abreast ahead => ⟨ahead, ?_⟩
  rw [(keeps s).sent, (keeps t).sent, abreast.sent]

/-- What is staged is sent if there is any, and if the call succeeds. -/
theorem sent_flush (s : Stream) : (Act.state (flush s)).link.sent = s.link.sent ++
    if s.staged = [] ∨ s.closed = true ∨ (Link.nextFault s.link.sendFaults).isSome = true then []
    else [s.staged] := by
  unfold flush
  by_cases hs : s.staged = []
  · simp [hs]
  by_cases hc : s.closed = true
  · simp [hs, hc]
  simp only [if_neg hs, if_neg hc, Link.send]
  cases hf : Link.nextFault s.link.sendFaults with
  | none =>
    have sends : ¬(s.staged = [] ∨ s.closed = true ∨ (none : Option String).isSome = true) := by simp [hs, hc]
    exact (Link.sent_record _ _).trans (congrArg (s.link.sent ++ ·) (if_neg sends).symm)
  | some reason =>
    have fails : s.staged = [] ∨ s.closed = true ∨ (some reason).isSome = true := .inr (.inr rfl)
    have unsaid : (Event.unsent s.staged).payload? = none := rfl
    rw [if_pos fails, List.append_nil]
    exact (Link.sent_log _ _).trans (Link.sent_of_unsaid unsaid _)

theorem respects_flush_abreast : Respects Abreast flush := by
  refine congruence_prospect.flush.closer (fun _ _ abreast => abreast.prospect)
    fun s t abreast ahead => ⟨ahead, ?_⟩
  have staged : s.staged = t.staged := congrArg Uncut.staged abreast.prospect
  have closed : s.closed = t.closed := congrArg Uncut.closed abreast.prospect
  have faults : s.link.sendFaults = t.link.sendFaults := congrArg (·.link.sendFaults) abreast.prospect
  rw [sent_flush, sent_flush, abreast.sent, staged, closed, faults]

/-- What has happened makes no difference to what is read and sent later. -/
theorem congruence_abreast : Congruence Abreast where
  charset s t h := congruence_prospect.charset s t h.prospect
  receive n := respects_of_keeps (congruence_prospect.receive n) (along_keeps.receive n)
  gather room := respects_of_keeps (congruence_prospect.gather room) (along_keeps.gather room)
  await := respects_of_keeps congruence_prospect.await along_keeps.await
  record event hevent s t h := by
    refine ⟨congruence_prospect.record event hevent s t h.prospect, ?_⟩
    show (s.link.record event).sent = (t.link.record event).sent
    rw [Link.sent_record, Link.sent_record, h.sent]
  stage bytes s t h := .ok rfl ⟨(congruence_prospect.stage bytes s t h.prospect).states, h.sent⟩
  flush := respects_flush_abreast

end Stream

/-! ## Reading past them -/

namespace Reader

variable {handling : NoticeHandling} {r : Reader} {rest : List Arrival}

/-- A message whose tag byte and body are read. -/
theorem readMessage_of_tag {tag : Tag} {message : Message} {s t : Stream}
    (htag : Stream.receiveByte r.stream = .ok tag.byte s)
    (hbody : r.response.receiveBody tag
      (s.log (.messageBegun tag.byte r.response.finalSeen r.response.pendingFlushes)) = .ok message t) :
    readMessage r = .ok message { r with stream := t } := by
  simp only [readMessage, receiveTag, receiveMessage, onStream, Act.on, bind, EStateM.bind, htag,
    Act.get_eq, Stream.logged, pure, EStateM.pure, Tag.ofByte?_byte]
  rw [hbody]

/-- The second reader is behind bytes that told the first nothing: what is left on the line is `rest`. -/
structure Past (rest : List Arrival) (r u : Reader) : Prop where
  response : u.response = r.response
  prospect : u.stream.prospect = (r.stream.uncut.withLine rest).prospect
  sent : u.stream.link.sent = r.stream.link.sent

theorem step_aside (hh : handling.Willing) {message : Message} {bytes : Bytes}
    (spelled : message.SpellsAside r.stream.charset bytes) (hline : r.line = bytes.map .byte ++ rest) :
    ∃ x u, readMessage r = .ok message x ∧ step handling r = .ok () u ∧ Past rest r u := by
  obtain ⟨tag, body, rfl, read⟩ := spelled.read r.response
  have hline : r.stream.line = [tag.byte].map .byte ++ (body.map .byte ++ rest) := hline
  obtain ⟨s, htag, hs⟩ := Stream.accepts_receiveByte.complete rfl hline
  let begun := s.log (.messageBegun tag.byte r.response.finalSeen r.response.pendingFlushes)
  have charset : begun.charset = r.stream.charset := congrArg Stream.Uncut.charset hs
  have line : begun.line = body.map .byte ++ rest := congrArg (·.link.line) hs
  obtain ⟨t, hbody, ht⟩ := read begun rest charset line
  have hread := readMessage_of_tag htag hbody
  obtain ⟨event, unseen, unsaid, answered⟩ := spelled.answer hh { r with stream := t }
  refine ⟨_, { r with stream := { t with link := t.link.record event } }, hread, ?_, rfl, ?_, ?_⟩
  · rw [step_of_message hread, spelled.after]
    exact answered
  · have ahead : t.prospect = (r.stream.uncut.withLine rest).prospect := by
      rw [Stream.prospect, ht, show begun.uncut = s.uncut.log _ from Stream.uncut_log _ s, hs]
      rfl
    rw [← ahead, Stream.prospect, Stream.uncut_say unseen t t.link.sendFaults t.staged]
    rfl
  · obtain ⟨keeps, -⟩ := moves_readMessage Stream.along_keeps r
    rw [hread] at keeps
    exact (Link.sent_of_unsaid unsaid t.link).trans keeps.sent

/-- Messages on the side are read, and change no more than what has happened. -/
theorem reaches_asides (hh : handling.Willing) {asides : Transcript} {bytes : Bytes}
    (spelled : asides.SpellsAsides r.stream.charset bytes) (undone : r.response.done = false)
    (hline : r.line = bytes.map .byte ++ rest) : ∃ u, Reaches handling r asides u ∧ Past rest r u := by
  generalize hcharset : r.stream.charset = charset at spelled
  induction spelled generalizing r with
  | nil =>
    have whole : r.stream.uncut.withLine rest = r.stream.uncut := by
      rw [show rest = r.stream.line from hline.symm]
      rfl
    exact ⟨r, .refl r, rfl, by rw [whole]; rfl, rfl⟩
  | @cons message others first more head tail ih =>
    rw [List.map_append, List.append_assoc] at hline
    rw [← hcharset] at head
    obtain ⟨x, v, hread, hstep, past⟩ := step_aside hh head hline
    have charset : v.stream.charset = r.stream.charset := congrArg Stream.Uncut.charset past.prospect
    have line : v.line = more.map .byte ++ rest := congrArg (·.link.line) past.prospect
    obtain ⟨u, hreaches, later⟩ := ih (past.response ▸ undone) line (charset.trans hcharset)
    refine ⟨u, .step undone hread hstep hreaches, later.response.trans past.response, ?_,
      later.sent.trans past.sent⟩
    rw [later.prospect]
    exact congrArg (Stream.Uncut.withLine rest) past.prospect

theorem Reaches.charset {transcript : Transcript} {t : Reader} (h : Reaches handling r transcript t) :
    t.stream.charset = r.stream.charset := by
  have step := (Stream.alongAnswers_addsFlushes handling).assembly.step
  refine (invariant_of_step (P := fun u _ => u.stream.charset = r.stream.charset) ?_ rfl).1 transcript t h
  intro u _ _ same
  exact (step u).2.1.trans same

/-- Two runs that read an answer, the second of them with messages on the side behind the messages that
came before. They come to the same, and the second has read these messages besides. -/
structure Beside (handling : NoticeHandling) (before asides : Transcript) (r r' : Reader) : Prop where
  outcome : Act.outcome (read handling r') = Act.outcome (read handling r)
  response : (Act.state (read handling r')).response = (Act.state (read handling r)).response
  stream : (Act.state (read handling r)).stream.Abreast (Act.state (read handling r')).stream
  messages : ∃ later, messages handling r = before ++ later ∧ messages handling r' = before ++ asides ++ later

variable {r' t : Reader} {before asides : Transcript} {taken : List Arrival} {inserted : Bytes}

/-- Messages on the side may be put behind any message of an answer that is not done with it. -/
theorem Reaches.beside (hh : handling.Willing) (point : Reaches handling r before t)
    (undone : t.response.done = false) (here : r.line = taken ++ t.line)
    (spelled : asides.SpellsAsides r.stream.charset inserted)
    (same : Swapped (taken ++ (inserted.map .byte ++ t.line)) r r') : Beside handling before asides r r' := by
  obtain ⟨t', point', swapped⟩ := point.again here same
  rw [← point.charset, ← swapped.stream.charset] at spelled
  obtain ⟨u, passed, past⟩ := reaches_asides hh spelled (swapped.response ▸ undone) swapped.stream.line
  have abreast : t.stream.Abreast u.stream := by
    constructor
    · rw [past.prospect, swapped.stream]
      rfl
    · rw [past.sent, Link.sent_of_uncut_eq swapped.stream.told]
  have related : Over Stream.Abreast t u := ⟨abreast, (past.response.trans swapped.response).symm⟩
  have blind := Stream.congruence_abreast.blind_of_willing hh
  have alike := Stream.congruence_abreast.read blind t u related
  have run := point.read
  have run' := (point'.append passed).read
  refine ⟨?_, ?_, ?_, Reader.messages handling t, point.messages, ?_⟩
  · rw [run, run', alike.outcomes]
  · rw [run, run', alike.states.response]
  · rw [run, run']
    exact alike.states.stream
  · rw [(point'.append passed).messages, messages_eq_of_over Stream.congruence_abreast blind related]

end Reader

/-- **Messages on the side are transparent.** Where notices, notifications and names of portals are put
between two messages of an answer, before it is complete, and whatever the bytes behind them are: unless a
handler gives up, reading comes to the same, with the same response, the same bytes left, and the same
bytes sent. It reads these messages besides, and the notices that are handed over are those among the
messages, in their order, also where reading fails. The same holds of a statement with its answer. -/
theorem asides_are_transparent {handling : NoticeHandling} (hh : handling.Willing) {s s' : Stream}
    {t : Reader} {before asides : Transcript} {taken : List Arrival} {inserted : Bytes}
    (point : Reader.Reaches handling { stream := s } before t) (undone : t.response.done = false)
    (here : s.line = taken ++ t.stream.line) (spelled : asides.SpellsAsides s.charset inserted)
    (same : s'.uncut = s.uncut.withLine (taken ++ (inserted.map .byte ++ t.stream.line))) :
    let told := Reader.messages handling { stream := s }
    let told' := Reader.messages handling { stream := s' }
    let reading := Reader.read handling { stream := s }
    let reading' := Reader.read handling { stream := s' }
    let last := Act.state reading
    let last' := Act.state reading'
    (∃ later, told = before ++ later ∧ told' = before ++ asides ++ later) ∧
    (Act.outcome reading' = Act.outcome reading ∧ last'.response = last.response ∧
      last'.stream.line = last.stream.line ∧ last'.stream.link.sent = last.stream.link.sent ∧
      last.stream.link.notices = s.link.notices ++ handling.handed told ∧
      last'.stream.link.notices = s.link.notices ++ handling.handed told') ∧
    ∀ (q q' : Stream) (statement : String) (text : Bytes), statement.length ≤ maxStatementLength →
      q.encode statement = .ok text → q.sendQuery text = .ok () s → q'.uncut = q.uncut.withLine s'.line →
      let run := q.query handling statement
      let run' := q'.query handling statement
      Act.outcome run' = Act.outcome run ∧ (Act.state run').line = (Act.state run).line ∧
        (Act.state run').link.sent = (Act.state run).link.sent ∧
        (Act.state run').link.notices = q.link.notices ++ handling.handed told' := by
  intro told told' reading reading' last last'
  have beside : Reader.Beside handling before asides { stream := s } { stream := s' } :=
    point.beside hh undone here spelled ⟨same, rfl⟩
  have line : last'.stream.line = last.stream.line := (congrArg (·.link.line) beside.stream.prospect).symm
  have notices' : last'.stream.link.notices = s.link.notices ++ handling.handed told' := by
    rw [Reader.notices_read]
    exact congrArg (· ++ _) (Link.notices_of_uncut_eq (congrArg (·.link.told) same))
  refine ⟨beside.messages, ⟨beside.outcome, beside.response, line, beside.stream.sent.symm,
    Reader.notices_read handling _, notices'⟩, ?_⟩
  intro q q' statement text short encoded sends lines
  obtain ⟨-, v, sends', hv⟩ := Stream.swapped_sendQuery lines sends
  have encoded' : q'.encode statement = .ok text := by
    rw [Stream.encode, show q'.charset = q.charset from congrArg Stream.Uncut.charset lines]
    exact encoded
  have hv : v.Same s' := by
    have whole : s'.line = taken ++ (inserted.map .byte ++ t.stream.line) := congrArg (·.link.line) same
    rw [Stream.Same, same, ← whole]
    exact hv
  have alike := Stream.congruence_same.receiveAnswer (Stream.blind_same handling) v s' hv
  obtain ⟨answered, left⟩ := Stream.receiveAnswer_eq handling s
  obtain ⟨answered', left'⟩ := Stream.receiveAnswer_eq handling s'
  have notices : s.link.notices = q.link.notices := by
    have sending := Stream.notices_sendQuery text q
    rwa [sends] at sending
  intro run run'
  have hrun : run = Stream.receiveAnswer handling s := Stream.query_eq_receiveAnswer short encoded sends
  have hrun' : run' = Stream.receiveAnswer handling v := Stream.query_eq_receiveAnswer short encoded' sends'
  rw [hrun, hrun', alike.outcomes, alike.states.line, Link.sent_of_uncut_eq alike.states.told,
    Link.notices_of_uncut_eq alike.states.told, answered, answered', left, left', ← notices]
  exact ⟨beside.outcome, line, beside.stream.sent.symm, notices'⟩

/-- A notice and a notification between a status and the acknowledgment that completes the answer, cut in
the middle of the notice. -/
theorem notice_before_acknowledgment :
    let s : Stream := { link := { incoming := [.bytes [0x43, 0x78], .bytes [0, 0x49, 0, 0x5A]] } }
    let s' : Stream := { link := { incoming := [.bytes [0x43, 0x78, 0, 0x4E, 0x68],
      .bytes [0x69, 0, 0x41, 0, 0, 0, 7, 0x6A, 0, 0x49, 0, 0x5A]] } }
    let t := Act.state (Reader.step .collected { stream := s })
    let inserted : Bytes := [0x4E, 0x68, 0x69, 0, 0x41, 0, 0, 0, 7, 0x6A, 0]
    (Reader.Reaches .collected { stream := s } [.complete "x"] t ∧ t.response.done = false ∧
      s.line = [0x43, 0x78, 0].map .byte ++ t.stream.line ∧
      Transcript.SpellsAsides s.charset [.notice "hi", .notification 7 "j"] inserted ∧
      s'.uncut = s.uncut.withLine ([0x43, 0x78, 0].map .byte ++ (inserted.map .byte ++ t.stream.line))) ∧
    Act.outcome (Reader.read .collected { stream := s' }) = .ok { status := some "x" } ∧
      (Act.state (Reader.read .collected { stream := s' })).stream.link.notices = ["hi"] := by
  intro s s' t inserted
  have read := Act.eq_ok_of_outcome
    (show Act.outcome (Reader.readMessage { stream := s }) = .ok (.complete "x") by decide +kernel)
  have acted := Act.eq_ok_of_outcome
    (show Act.outcome (Reader.step .collected { stream := s }) = .ok () by decide +kernel)
  have point : Reader.Reaches .collected { stream := s } [.complete "x"] t := .step rfl read acted (.refl t)
  have undone : t.response.done = false := by decide +kernel
  have here : s.line = [0x43, 0x78, 0].map .byte ++ t.stream.line := by decide +kernel
  have spelled : Transcript.SpellsAsides s.charset [.notice "hi", .notification 7 "j"] inserted :=
    .cons (.notice ⟨[0x68, 0x69], rfl, by decide, by decide, by decide +kernel⟩)
      (.cons (.notification (by decide) ⟨[0x6A], rfl, by decide, by decide, by decide +kernel⟩) .nil)
  have same : s'.uncut =
      s.uncut.withLine ([0x43, 0x78, 0].map .byte ++ (inserted.map .byte ++ t.stream.line)) := by
    have link : s'.uncut.link =
        { s.uncut.link with line := [0x43, 0x78, 0].map .byte ++ (inserted.map .byte ++ t.stream.line) } := by
      decide +kernel
    exact congrArg (fun link => ({ s.uncut with link } : Stream.Uncut)) link
  obtain ⟨-, ⟨outcome, -, -, -, -, notices⟩, -⟩ :=
    asides_are_transparent NoticeHandling.willing_collected point undone here spelled same
  refine ⟨⟨point, undone, here, spelled, same⟩, ?_, ?_⟩
  · rw [outcome]
    decide +kernel
  · rw [notices]
    decide +kernel

end SimpleQuery
