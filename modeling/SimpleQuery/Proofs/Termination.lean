import SimpleQuery.Proofs.Boundaries
import SimpleQuery.Proofs.Pieces

/-!
# Every answer comes to an end

Whatever arrives, an answer is read to its end by a loop that takes a byte at hand with each message. So no more
messages are begun than bytes are at hand, and since each call for bytes takes a piece or is the last, there is
at most one call more than there are pieces.

* `Reader.advances_afterTag` — what follows a tag byte makes up no byte.
* `Reader.isLoop_readFrom` — the loop over the messages.
* `Reader.begun_le` — no more messages are begun than bytes are at hand.
* `Stream.turns_receiveAnswer`, `Stream.turns_query` — what an answer takes, and what it asks for.
* `every_query_ends` — what an answer and a statement come to.
-/

set_option autoImplicit false

namespace SimpleQuery

namespace Stream

open Act (Turning Turns)

/-! ## What asks for nothing -/

/-- An action that neither asks for bytes nor takes any. -/
theorem turns_of_still {α : Type} {act : Act Stream α}
    (h : ∀ s, (Act.state (act s)).unread = s.unread ∧
      (Act.state (act s)).link.incoming = s.link.incoming ∧
      (Act.state (act s)).link.receives = s.link.receives) : Turns Advances Stops act := by
  intro s
  obtain ⟨unread, incoming, receives⟩ := h s
  obtain ⟨advances, stops⟩ := still_of_eq unread incoming receives
  cases hact : act s with
  | ok a t =>
    rw [hact] at advances
    exact advances
  | error fault t =>
    rw [hact] at stops
    exact stops

theorem turns_sendQuery (statement : Bytes) : Turns Advances Stops (sendQuery statement) := by
  refine turns_of_still fun s => ?_
  rcases sendQuery_run statement s with ⟨-, h⟩ | ⟨-, -, h⟩ | ⟨reason, -, -, h⟩ <;> rw [h]
  · exact ⟨rfl, rfl, rfl⟩
  · exact ⟨rfl, rfl, Link.receives_of_unasked rfl _⟩
  · exact ⟨rfl, rfl, (Link.receives_log _ _).trans (Link.receives_of_unasked rfl _)⟩

theorem turns_handle (handling : NoticeHandling) (notice : String) :
    Turns Advances Stops (Reader.handle handling notice) := by
  refine turns_of_still fun s => ?_
  cases handling with
  | logged => exact ⟨rfl, rfl, Link.receives_log _ _⟩
  | handled raises =>
    rw [Reader.state_handle_handled]
    exact ⟨rfl, rfl, Link.receives_of_unasked rfl _⟩

theorem assembly_turns : Assembly fun {α : Type} (act : Act Stream α) => Turns Advances Stops act where
  toSequencing := turning.sequencing
  logged entry s := (still_log s entry).1
  receive := turns_receive
  receiveText cap _ := turns_resumeText cap []

/-- The bytes that are taken are the first of those at hand. -/
theorem atHand_receive {n : Nat} {s t : Stream} {bytes : Bytes} (h : receive n s = .ok bytes t) :
    s.atHand = bytes ++ t.atHand ∧ bytes.length = n := by
  revert h
  show receiveFrom n s = .ok bytes t → _
  fun_induction receiveFrom n s with
  | case1 s taken rest hcut =>
    intro he
    cases he
    rw [cut?_eq] at hcut
    split at hcut <;> cases hcut
    rename_i enough
    exact ⟨by rw [atHand, atHand, ← List.append_assoc, List.take_append_drop], List.length_take_of_le enough⟩
  | case2 s hcut u hu ih =>
    intro he
    rw [← (fill_takes_piece hu).2.2]
    exact ih he
  | case3 s hcut fault u hu =>
    intro he
    cases he

theorem atHand_receiveByte {s t : Stream} {b : UInt8} (h : receiveByte s = .ok b t) :
    s.atHand = b :: t.atHand := by
  obtain ⟨bytes, u, hbytes, hpure⟩ := Act.exists_of_bind_ok h
  cases hpure
  obtain ⟨hand, length⟩ := atHand_receive hbytes
  obtain ⟨only, rfl⟩ := List.length_eq_one_iff.1 length
  exact hand

end Stream

/-! ## The loop over the messages -/

namespace Reader

open Act (IsLoop Pass Turning Turns)
open SimpleQuery.Stream (Advances Stops)
open SimpleQuery.Stream.AlongAnswers (onReader)

theorem turning : Turning (onReader Advances) (onReader Stops) where
  refl r := Stream.turning.refl r.stream
  trans r t u := Stream.turning.trans r.stream t.stream u.stream
  stuck r := Stream.turning.stuck r.stream
  later r t u := Stream.turning.later r.stream t.stream u.stream

theorem assembly_turns (handling : NoticeHandling) :
    Assembly handling (fun {α : Type} (act : Act Stream α) => Turns Advances Stops act)
      fun {α : Type} (act : Act Reader α) => Turns (onReader Advances) (onReader Stops) act where
  toSequencing := turning.sequencing
  reading := Stream.assembly_turns
  handle := Stream.turns_handle handling
  sends := Stream.turns_sendQuery _
  onStream {α act} h r := by
    have turns := h r.stream
    simp only [onStream, Act.on]
    cases hact : act r.stream <;> rw [hact] at turns <;> exact turns
  respond _ r := Stream.turning.refl r.stream
  response _ h r := h r.response r
  pairwise h r := by
    obtain ⟨part, hpart, hr, -⟩ := h r r
    rw [hr]
    exact hpart r

variable {handling : NoticeHandling} {r t u : Reader} {b : UInt8}

/-- What follows a tag byte makes up no byte. -/
theorem advances_afterTag (h : afterTag handling b r = .ok () t) : Advances r.stream t.stream := by
  have assembly := assembly_turns handling
  have turns : Turns (onReader Advances) (onReader Stops) (afterTag handling b) :=
    turning.sequencing.bind (assembly.receiveMessage b) fun message =>
      turning.sequencing.bind (assembly.respond _) fun _ => assembly.answer message
  have here := turns r
  rwa [h] at here

/-- A tag byte is one of those at hand. -/
theorem atHand_receiveTag (h : receiveTag r = .ok b u) : r.stream.atHand = b :: u.stream.atHand := by
  obtain ⟨tag, x, hbyte, hrest⟩ := Act.exists_of_bind_ok h
  obtain ⟨s, hs, rfl⟩ := onStream_ok_iff.1 hbyte
  cases hrest
  show r.stream.atHand = b :: s.atHand
  exact Stream.atHand_receiveByte hs

/-- One pass: an answer that is complete is done, and otherwise a message is read and acted on. -/
def dispatchPass (handling : NoticeHandling) (_ : Unit) : Act Reader (Pass Unit Unit) := do
  if (← get).response.done then return .done ()
  step handling
  return .again ()

theorem dispatchPass_again (h : dispatchPass handling () r = .ok (.again ()) t) :
    step handling r = .ok () t := by
  simp only [dispatchPass, bind, EStateM.bind, Act.get_eq] at h
  cases done : r.response.done with
  | true =>
    rw [if_pos done] at h
    cases h
  | false =>
    rw [if_neg (by rw [done]; decide)] at h
    obtain ⟨_, u, acted, hpure⟩ := Act.exists_of_bind_ok h
    cases hpure
    exact acted

/-- A message takes at least its tag byte. -/
theorem atHand_step (h : step handling r = .ok () t) : t.stream.atHand.length < r.stream.atHand.length := by
  obtain ⟨b, u, tag, rest⟩ := Act.exists_of_bind_ok h
  have := (advances_afterTag rest).hand
  rw [atHand_receiveTag tag, List.length_cons]
  omega

/-- An answer is read by passes, each of which takes some of the bytes at hand. -/
theorem isLoop_readFrom (handling : NoticeHandling) :
    IsLoop (dispatchPass handling) (fun r => r.stream.atHand.length) fun _ => readFrom handling := by
  refine IsLoop.of_unfold ?_ fun _ _ r t h => atHand_step (dispatchPass_again h)
  intro _ r
  simp only [dispatchPass, bind, EStateM.bind, Act.get_eq]
  cases done : r.response.done with
  | true =>
    rw [readFrom_of_done done]
    rfl
  | false =>
    rw [readFrom_of_undone done]
    simp only [Bool.false_eq_true, if_false, bind, EStateM.bind]
    cases step handling r <;> rfl

/-- Each message that was read took some of the bytes that were at hand. -/
theorem begun_le {transcript : Transcript} (h : Reaches handling r transcript t) :
    transcript.length + t.stream.atHand.length ≤ r.stream.atHand.length := by
  induction h with
  | refl r => simp
  | step undone read acted _ ih =>
    have := atHand_step acted
    rw [List.length_cons]
    omega

theorem turns_read (handling : NoticeHandling) :
    Turns (onReader Advances) (onReader Stops) (read handling) :=
  (assembly_turns handling).read fun _ => turning.throw _

end Reader

/-! ## Answers and statements -/

/-- Whether an answer can end with this fault: as reading gives up, or with the error that the backend
reports. -/
def Fault.ofAnswer : Fault → Bool
  | .refusal (.server _) => true
  | fault => fault.ofReading

/-- Whether a statement can end with this fault: as an answer does, or because it is too long or cannot be
spelled. -/
def Fault.ofStatement : Fault → Bool
  | .refusal (.statementTooLong _) | .unencodable => true
  | fault => fault.ofAnswer

theorem Fault.ofAnswer_of_ofReading {fault : Fault} (h : fault.ofReading = true) : fault.ofAnswer = true := by
  unfold ofAnswer
  split
  · rfl
  · exact h

theorem Fault.ofStatement_of_ofAnswer {fault : Fault} (h : fault.ofAnswer = true) :
    fault.ofStatement = true := by
  unfold ofStatement
  split
  · rfl
  · rfl
  · exact h

/-- A charset gives up writing only in this way. -/
theorem Text.ofStatement_of_encodeIn {charset : NamedCharset} {text : String} {fault : Fault}
    (h : encodeIn charset text = .error fault) : fault.ofStatement = true := by
  cases charset with
  | malformed | unknown =>
    cases h
    rfl
  | known cs =>
    simp only [encodeIn] at h
    split at h <;> cases h
    rfl
  | other codec =>
    have h : (codec.encode text).mapError Fault.foreign = .error fault := h
    cases he : codec.encode text with
    | ok bytes =>
      rw [he] at h
      cases h
    | error cause =>
      rw [he] at h
      cases h
      rfl

namespace Stream

open Act (Turns Within)

theorem within_receiveAnswer (handling : NoticeHandling) :
    Within Fault.ofAnswer (receiveAnswer handling) := by
  have finishes : Within Fault.ofAnswer Reader.finish := by
    intro r fault t h
    unfold Reader.finish at h
    split at h <;> cases h
    rfl
  have reads : Within Fault.ofAnswer (Reader.read handling) :=
    (Within.sequencing fun _ => rfl).bind
      ((Reader.assembly_reads handling).readFrom.mono fun _ => Fault.ofAnswer_of_ofReading) fun _ => finishes
  intro s fault t h
  unfold receiveAnswer at h
  cases hr : Reader.read handling { stream := s } with
  | ok bundle r =>
    rw [hr] at h
    cases h
  | error cause r =>
    rw [hr] at h
    cases h
    exact reads _ _ _ hr

theorem within_encode (text : String) :
    Within Fault.ofStatement (MonadState.get >>= fun s : Stream => Act.ofExcept (s.encode text)) := by
  intro s fault t h
  have h : (Act.ofExcept (s.encode text) : Act Stream Bytes) s = .error fault t := h
  cases he : s.encode text with
  | ok bytes =>
    rw [he] at h
    cases h
  | error cause =>
    rw [he] at h
    cases h
    exact Text.ofStatement_of_encodeIn he

theorem within_query (handling : NoticeHandling) (statement : String) :
    Within Fault.ofStatement (query handling statement) := by
  apply query_of (Within.sequencing fun _ => rfl)
  · exact within_encode
  · exact within_sendQuery fun _ => rfl
  · exact (within_receiveAnswer handling).mono fun _ => Fault.ofStatement_of_ofAnswer
  · intro length s fault t h
    cases h
    rfl

theorem turns_receiveAnswer (handling : NoticeHandling) :
    Turns Advances Stops (receiveAnswer handling) := by
  intro s
  have turns := Reader.turns_read handling { stream := s }
  unfold receiveAnswer
  revert turns
  cases Reader.read handling { stream := s } <;> exact id

theorem turns_query (handling : NoticeHandling) (statement : String) :
    Turns Advances Stops (query handling statement) :=
  query_of turning.sequencing (fun _ s => turning.ofExcept _ s) turns_sendQuery
    (turns_receiveAnswer handling) (fun _ => turning.throw _) statement

end Stream

open SimpleQuery.Stream (receivePass resumeText textPass)
open SimpleQuery.Reader (Reaches dispatchPass receiveTag)

/-- **Every answer comes to an end.** Whatever is unread and still to arrive, whatever calls will fail, and
whatever becomes of notices, an answer is read by a loop in which each message takes some of the bytes at hand,
so that no more messages are begun than there were bytes. Within it a fixed number of bytes is read by a loop
each pass of which calls for one more piece, and a text by one each pass of which takes some of the bytes at
hand; a call that gives bytes takes one piece. An answer and a statement give a bundle or fail in one of their
ways, and make at most one call for bytes more than there are pieces in front of the first barrier. -/
theorem every_query_ends (handling : NoticeHandling) (s : Stream) :
    (Act.IsLoop (dispatchPass handling) (fun r => r.stream.atHand.length)
        (fun _ => Reader.readFrom handling) ∧
      ∀ transcript t b u, Reaches handling { stream := s } transcript t → receiveTag t = .ok b u →
        transcript.length + 1 ≤ s.atHand.length) ∧
    (∀ n, Act.IsLoop (receivePass n) Stream.pieces fun _ => Stream.receive n) ∧
    (∀ cap, Act.IsLoop (textPass cap) (fun t => t.atHand.length) (resumeText cap) ∧
      resumeText cap [] = Stream.receiveText cap) ∧
    (∀ t u : Stream, t.fill = .ok () u →
      u.link.receives = t.link.receives + 1 ∧ u.pieces + 1 = t.pieces) ∧
    (Act.Within Fault.ofAnswer (Stream.receiveAnswer handling) ∧
      (Act.state (s.receiveAnswer handling)).link.receives ≤ s.link.receives + s.pieces + 1) ∧
    ∀ statement, Act.Within Fault.ofStatement (Stream.query handling statement) ∧
      (Act.state (s.query handling statement)).link.receives ≤ s.link.receives + s.pieces + 1 := by
  have few {α : Type} {act : Act Stream α} (turns : Act.Turns Stream.Advances Stream.Stops act) :
      (Act.state (act s)).link.receives ≤ s.link.receives + s.pieces + 1 := by
    have ended := turns s
    cases hact : act s with
    | ok a t =>
      rw [hact] at ended
      have := ended.calls
      rw [Act.state_ok]
      omega
    | error fault t =>
      rw [hact] at ended
      exact ended
  refine ⟨⟨Reader.isLoop_readFrom handling, ?_⟩, Stream.isLoop_receive,
    fun cap => ⟨Stream.isLoop_resumeText cap, Stream.resumeText_nil cap⟩, ?_,
    ⟨Stream.within_receiveAnswer handling, few (Stream.turns_receiveAnswer handling)⟩,
    fun statement => ⟨Stream.within_query handling statement, few (Stream.turns_query handling statement)⟩⟩
  · intro transcript t b u reached tag
    have taken : transcript.length + t.stream.atHand.length ≤ s.atHand.length := Reader.begun_le reached
    rw [Reader.atHand_receiveTag tag, List.length_cons] at taken
    omega
  · intro t u hfill
    obtain ⟨receives, pieces, -⟩ := Stream.fill_takes_piece hfill
    exact ⟨receives, pieces⟩

/-- A notice, and behind it as many columns as can be announced, of which none comes: two messages are begun, and
the second of them ends with the one call that there is no piece for. -/
theorem announced_columns_that_never_come :
    let s : Stream := { link := { incoming := [.bytes [0x4E, 0x61, 0], .bytes [0x54, 0xFF, 0xFF]] } }
    let t := Act.state (Reader.step .logged { stream := s })
    let answer := s.receiveAnswer .logged
    Reaches .logged { stream := s } [.notice "a"] t ∧ Act.outcome (receiveTag t) = .ok 0x54 ∧
      1 + 1 ≤ s.atHand.length ∧
      (Act.state s.fill).link.receives = 1 ∧ (Act.state s.fill).pieces + 1 = s.pieces ∧
      answer = .error (.loss .endOfStream) (Act.state answer) ∧ Fault.ofAnswer (.loss .endOfStream) = true ∧
      (Act.state answer).link.receives = s.pieces + 1 ∧
      (Act.state answer).link.receives ≤ s.link.receives + s.pieces + 1 := by
  intro s t answer
  obtain ⟨⟨-, begun⟩, -, -, pieces, ⟨within, few⟩, -⟩ := every_query_ends .logged s
  have reached : Reaches .logged { stream := s } [.notice "a"] t :=
    .step rfl (Act.eq_ok_of_outcome (by decide +kernel)) (Act.eq_ok_of_outcome (by decide +kernel)) (.refl _)
  have tag : Act.outcome (receiveTag t) = .ok 0x54 := by decide +kernel
  have filled : s.fill = .ok () (Act.state s.fill) := Act.eq_ok_of_outcome (by decide +kernel)
  have lost : answer = .error (.loss .endOfStream) (Act.state answer) :=
    Act.eq_error_of_outcome (by decide +kernel)
  obtain ⟨one, piece⟩ := pieces s _ filled
  exact ⟨reached, tag, begun _ t _ _ reached (Act.eq_ok_of_outcome tag), one, piece, lost,
    within s _ _ lost, by decide +kernel, few⟩

end SimpleQuery
