import SimpleQuery.Proofs.Assembly
import SimpleQuery.Proofs.Calls
import SimpleQuery.Proofs.Exchange
import SimpleQuery.Proofs.Patience
import SimpleQuery.Proofs.Uncut

/-!
# Answers that are cut short

Where the bytes of a complete answer end too early, the answer is never taken for complete: the run does
what the whole run does, up to the moment when it asks for the bytes that are missing, and comes to the
loss that the barrier in their place stands for.

* `Act.Follows` — of two runs the first does what the second does, or fails on the way.
* `Stream.Uncut.Decides` — bytes are enough for a primitive of reading, whatever is behind them, or it
  fails at a barrier.
* `Stream.trails_query` — a statement on a stream that has less in front of it follows the statement on
  the stream that has more.
* `cut_answer_is_lost` — what that means for a complete answer and each of its beginnings.
-/

set_option autoImplicit false

namespace SimpleQuery

namespace Act

variable {σ α : Type}

/-- From two related states the action ends alike, or it fails from the first of them and leaves a state
behind the one that it reaches from the second. -/
structure Follows (R behind : σ → σ → Prop) (fault : Fault) (act : Act σ α) : Prop where
  moves : Moves behind act
  follows : ∀ s t, R s t →
    Alike R Eq (act s) (act t) ∨ ∃ u, act s = .error fault u ∧ behind u (state (act t))

namespace Follows

variable {R behind : σ → σ → Prop} {fault : Fault}

theorem of_respects {act : Act σ α} (moves : Moves behind act) (h : Respects R act) :
    Follows R behind fault act := ⟨moves, fun s t hst => .inl (h s t hst)⟩

/-- The first run stays behind the second while that goes on. -/
theorem sequencing (refl : ∀ s, behind s s) (trans : ∀ a b c, behind a b → behind b c → behind a c) :
    Sequencing fun {α : Type} (act : Act σ α) => Follows R behind fault act where
  pure a := of_respects (Moves.pure refl a) (Respects.pure a)
  violate _ := of_respects (Moves.throw refl _) (Respects.throw _)
  bind {α β act next} h hn := by
    refine ⟨Moves.bind trans h.moves fun a => (hn a).moves, ?_⟩
    intro s t hst
    simp only [Bind.bind, EStateM.bind]
    rcases h.follows s t hst with ha | ⟨u, hs, hu⟩
    · revert ha
      generalize act s = r
      generalize act t = r'
      intro ha
      cases ha with
      | ok hv hst => subst hv; exact (hn _).follows _ _ hst
      | error hst => exact .inl (.error hst)
    · rw [hs]
      refine .inr ⟨u, rfl, trans _ _ _ hu ?_⟩
      cases act t with
      | ok a v => exact (hn a).moves v
      | error cause v => exact refl v

/-- What an action reads of the state may only be what related states share. -/
theorem get_bind {next : σ → Act σ α} (same : ∀ s t, R s t → next s = next t)
    (h : ∀ s, Follows R behind fault (next s)) : Follows R behind fault (MonadState.get >>= next) where
  moves s := (h s).moves s
  follows s t hst := by
    show Alike R Eq (next s s) (next t t) ∨ ∃ u, next s s = _ ∧ behind u (state (next t t))
    rw [← same s t hst]
    exact (h s).follows s t hst

end Follows

end Act

namespace Link

/-- What keeps the next byte from arriving, on a line that begins with no byte. An exhausted line is the
end of the stream. -/
def stop : List Arrival → Barrier
  | .barrier barrier :: _ => barrier
  | _ => .endOfStream

theorem arrivals_eq_stop (incoming : List Delivery) :
    (arrivals incoming).2 = stop (beyond (line incoming)) := by
  fun_induction line incoming with
  | case1 => rfl
  | case2 reason rest ih => rfl
  | case3 rest ih => rfl
  | case4 b chunk rest ih => rw [arrivals, beyond_append, ih]

theorem arrived_beyond (l : List Arrival) : arrived (beyond l) = [] := by
  induction l with
  | nil => rfl
  | cons a l ih =>
    cases a with
    | byte b => exact ih
    | barrier barrier => rfl

/-- The loss that a barrier means for a client that waits for bytes. -/
def Barrier.loss : Barrier → Loss
  | .endOfStream => .endOfStream
  | .fault reason => .receiveFailed reason

end Link

namespace Stream

open Act (Follows Respects)
open Link (Arrival arrived beyond stop)

/-! ## What is said -/

/-- What was sent on the first stream, and handed over from it, is how it begins on the second. -/
structure Behind (s t : Stream) : Prop where
  sent : s.link.sent <+: t.link.sent
  notices : s.link.notices <+: t.link.notices

namespace Behind

theorem refl (s : Stream) : s.Behind s := ⟨List.prefix_refl _, List.prefix_refl _⟩

theorem trans (a b c : Stream) (h : a.Behind b) (h' : b.Behind c) : a.Behind c :=
  ⟨h.sent.trans h'.sent, h.notices.trans h'.notices⟩

theorem of_told {s t : Stream} (h : s.link.uncut.told = t.link.uncut.told) : s.Behind t where
  sent := Link.sent_of_uncut_eq h ▸ List.prefix_refl _
  notices := Link.notices_of_uncut_eq h ▸ List.prefix_refl _

end Behind

theorem Keeps.ahead {s t : Stream} (h : s.Keeps t) : t.Behind s where
  sent := h.sent ▸ List.prefix_refl _
  notices := h.notices ▸ List.prefix_refl _

theorem Keeps.behind {s t : Stream} (h : s.Keeps t) : s.Behind t where
  sent := h.sent.symm ▸ List.prefix_refl _
  notices := h.notices.symm ▸ List.prefix_refl _

/-- What happens later is said behind what was said before. -/
theorem behind_of_journal {s t : Stream} (later : List Event)
    (h : t.link.journal = later ++ s.link.journal) : s.Behind t := by
  have history : t.link.history = s.link.history ++ later.reverse := by
    rw [Link.history, h, List.reverse_append, Link.history]
  constructor
  · rw [Link.sent, Link.sent, history, List.filterMap_append]
    exact List.prefix_append _ _
  · rw [Link.notices, Link.notices, history, List.filterMap_append]
    exact List.prefix_append _ _

theorem behind_flush : Act.Moves Behind flush := by
  intro s
  unfold flush
  split
  · exact .refl s
  · split
    · exact .refl s
    · simp only [Link.send]
      cases Link.nextFault s.link.sendFaults with
      | none => exact behind_of_journal [.sent s.staged] rfl
      | some reason =>
        exact behind_of_journal [.logged (.sendFailed reason), .unsent s.staged] rfl

theorem behind_sendQuery (statement : Bytes) : Act.Moves Behind (sendQuery statement) :=
  Act.Moves.bind Behind.trans (fun _ => behind_of_journal [] rfl) fun _ => behind_flush

theorem alongAnswers_behind (handling : NoticeHandling) : AlongAnswers handling Behind where
  refl := Behind.refl
  trans := Behind.trans
  fill s := (keeps_fill s).behind
  unread s bytes := (keeps_unread s bytes).behind
  log s entry := (keeps_log s entry).behind
  handle notice s := by
    cases handling with
    | logged => exact (keeps_log s _).behind
    | handled raises =>
      rw [Reader.state_handle_handled]
      exact behind_of_journal [.noticed notice] rfl
  flush := behind_sendQuery _

/-! ## Two streams with the same bytes first -/

/-- The two streams are open and the same but for what is behind some bytes that are first to be read:
on the first stream it is `rest`, and on the second `more`. -/
structure Short (rest more : List Arrival) (s t : Stream) : Prop where
  isOpen : s.closed = false
  line : ∃ bytes : Bytes, s.line = bytes.map .byte ++ rest ∧
    t.uncut = s.uncut.withLine (bytes.map .byte ++ more)

theorem Short.charset {rest more : List Arrival} {s t : Stream} (h : Short rest more s t) :
    s.charset = t.charset := by
  obtain ⟨bytes, -, ht⟩ := h.line
  exact (congrArg Uncut.charset ht).symm

theorem Short.told {rest more : List Arrival} {s t : Stream} (h : Short rest more s t) :
    s.link.uncut.told = t.link.uncut.told := by
  obtain ⟨bytes, -, ht⟩ := h.line
  exact (congrArg (·.link.told) ht).symm

namespace Uncut

/-- For bytes in front of a barrier an action is either content with them, whatever is behind them, or
it comes to the loss that the barrier means. -/
def Decides {α : Type} (image : Act Uncut α) : Prop :=
  ∀ (u : Uncut) (bytes : Bytes), u.closed = false →
    (∃ a left, ∀ tail : List Arrival, image (u.withLine (bytes.map .byte ++ tail)) =
      .ok a (u.withLine ((left : Bytes).map .byte ++ tail))) ∨
    ∀ rest : List Arrival, arrived rest = [] →
      ∃ v, image (u.withLine (bytes.map .byte ++ rest)) = .error (.loss (stop rest).loss) v

theorem starve_stop {α : Type} {u : Uncut} (isOpen : u.closed = false) (bytes : Bytes)
    {rest : List Arrival} (hrest : arrived rest = []) :
    ∃ v, (starve : Act Uncut α) (u.withLine (bytes.map .byte ++ rest)) =
      .error (.loss (stop rest).loss) v := by
  have hc : ¬ (u.withLine (bytes.map .byte ++ rest)).closed = true := by
    rw [show (u.withLine (bytes.map .byte ++ rest)).closed = u.closed from rfl, isOpen]
    decide
  have hb : beyond (u.withLine (bytes.map .byte ++ rest)).link.line = rest :=
    (Link.beyond_append bytes rest).trans (Link.beyond_eq_self hrest)
  unfold starve
  rw [if_neg hc, hb]
  cases rest with
  | nil => exact ⟨_, rfl⟩
  | cons first rest =>
    cases first with
    | byte b => cases hrest
    | barrier barrier => cases barrier <;> exact ⟨_, rfl⟩

theorem decides_receive (n : Nat) : Decides (receive n) := by
  intro u bytes isOpen
  have harrived (tail : List Arrival) :
      arrived (u.withLine (bytes.map .byte ++ tail)).link.line = bytes ++ arrived tail :=
    Link.arrived_append bytes tail
  by_cases hn : n ≤ bytes.length
  · refine .inl ⟨bytes.take n, bytes.drop n, fun tail => ?_⟩
    unfold receive
    rw [harrived, if_pos (by rw [List.length_append]; omega), List.take_append_of_le_length hn,
      List.map_drop, ← List.drop_append_of_le_length (by simpa using hn)]
    rfl
  · refine .inr fun rest hrest => ?_
    unfold receive
    rw [harrived, hrest, List.append_nil, if_neg hn]
    exact starve_stop isOpen bytes hrest

theorem decides_gather (room : Nat) : Decides (gather room) := by
  intro u bytes isOpen
  have harrived (tail : List Arrival) :
      arrived (u.withLine (bytes.map .byte ++ tail)).link.line = bytes ++ arrived tail :=
    Link.arrived_append bytes tail
  have hbeyond (tail : List Arrival) :
      beyond (u.withLine (bytes.map .byte ++ tail)).link.line = beyond tail :=
    Link.beyond_append bytes tail
  have hleft (left : Bytes) (tail : List Arrival) :
      (left ++ arrived tail).map .byte ++ beyond tail = left.map .byte ++ tail := by
    rw [List.map_append, List.append_assoc, Link.arrived_append_beyond]
  unfold gather
  simp only [harrived, hbeyond, scan_append]
  cases hs : scan room bytes with
  | ended text left =>
    refine .inl ⟨some text, left, fun tail => ?_⟩
    simp only [hleft, withLine_withLine]
  | full left =>
    refine .inl ⟨none, left, fun tail => ?_⟩
    simp only [hleft, withLine_withLine]
  | «open» text more =>
    refine .inr fun rest hrest => ?_
    obtain ⟨n, rfl⟩ : ∃ n, more = n + 1 := ⟨more - 1, by have := scan_open_pos hs; omega⟩
    have hb : beyond rest = rest := Link.beyond_eq_self hrest
    simp only [hrest, scan, hb, withLine_withLine]
    exact starve_stop isOpen [] hrest

theorem decides_await : Decides await := by
  intro u bytes isOpen
  have harrived (tail : List Arrival) :
      arrived (u.withLine (bytes.map .byte ++ tail)).link.line = bytes ++ arrived tail :=
    Link.arrived_append bytes tail
  unfold await
  simp only [harrived]
  cases bytes with
  | nil =>
    refine .inr fun rest hrest => ?_
    rw [hrest, List.append_nil, if_pos rfl]
    exact starve_stop isOpen [] hrest
  | cons b bytes => exact .inl ⟨(), b :: bytes, fun tail => if_neg (by simp)⟩

end Uncut

/-! ## Reading on a short stream -/

/-- What is run on a short stream follows what is run on the stream that has more, or comes to the loss
that the barrier on the short one means. -/
abbrev Trails (rest more : List Arrival) {α : Type} (act : Act Stream α) : Prop :=
  Follows (Short rest more) Behind (.loss (stop rest).loss) act

variable {rest more : List Arrival} {α : Type}

theorem sequencing_trails : Act.Sequencing fun {α : Type} (act : Act Stream α) => Trails rest more act :=
  Follows.sequencing Behind.refl Behind.trans

theorem trails_of_decides {act : Act Stream α} {image : Act Uncut α} (keeps : Act.Moves Keeps act)
    (seen : ∀ s, Act.seen uncut (act s) = image s.uncut) (decides : Uncut.Decides image)
    (hrest : arrived rest = []) : Trails rest more act where
  moves s := (keeps s).behind
  follows s t h := by
    obtain ⟨bytes, hs, ht⟩ := h.line
    have hseen := seen s
    have tseen := seen t
    have hu : s.uncut = s.uncut.withLine (bytes.map .byte ++ rest) := by
      rw [← hs]
      rfl
    rw [hu] at hseen
    rw [ht] at tseen
    rcases decides s.uncut bytes h.isOpen with ⟨a, left, content⟩ | starved
    · rw [content] at hseen tseen
      obtain ⟨s', hs', hview⟩ := Act.exists_of_seen_ok hseen
      obtain ⟨t', ht', tview⟩ := Act.exists_of_seen_ok tseen
      rw [hs', ht']
      refine .inl (.ok rfl ⟨?_, left, congrArg (·.link.line) hview, ?_⟩)
      · exact (congrArg Uncut.closed hview).trans h.isOpen
      · rw [tview, hview, Uncut.withLine_withLine]
    · obtain ⟨v, hv⟩ := starved rest hrest
      rw [hv] at hseen
      obtain ⟨u, hu, -⟩ := Act.exists_of_seen_error hseen
      have hk := keeps s
      rw [hu] at hk
      have same : s.Behind t := .of_told h.told
      exact .inr ⟨u, hu, .trans _ _ _ hk.ahead (.trans _ _ _ same (keeps t).behind)⟩

theorem Short.record {s t : Stream} (h : Short rest more s t) {event : Event}
    (hevent : event.isReceive = false) :
    Short rest more { s with link := s.link.record event } { t with link := t.link.record event } := by
  obtain ⟨bytes, hs, ht⟩ := h.line
  refine ⟨h.isOpen, bytes, hs, ?_⟩
  rw [uncut_say hevent s s.link.sendFaults s.staged, uncut_say hevent t t.link.sendFaults t.staged]
  exact congrArg (fun u : Uncut => { u with link := { u.link with told := event :: u.link.told } }) ht

theorem short_stage (bytes : Bytes) : Respects (Short rest more) (stage bytes) := by
  intro s t h
  obtain ⟨first, hs, ht⟩ := h.line
  exact .ok rfl ⟨h.isOpen, first, hs,
    congrArg (fun u : Uncut => { u with staged := u.staged ++ bytes }) ht⟩

theorem short_flush : Respects (Short rest more) flush := by
  intro s t h
  obtain ⟨bytes, hs, ht⟩ := h.line
  have hseen := seen_flush s
  have tseen := seen_flush t
  have hu : s.uncut = s.uncut.withLine (bytes.map .byte ++ rest) := by
    rw [← hs]
    rfl
  have isOpen := (conducts_flush s).closed.trans h.isOpen
  rw [hu, Uncut.flush_withLine] at hseen
  rw [ht, Uncut.flush_withLine] at tseen
  revert hseen tseen
  cases Uncut.flush s.uncut with
  | ok _ v =>
    intro hseen tseen
    obtain ⟨s', hs', hview⟩ := Act.exists_of_seen_ok hseen
    obtain ⟨t', ht', tview⟩ := Act.exists_of_seen_ok tseen
    rw [hs'] at isOpen
    rw [hs', ht']
    exact .ok rfl ⟨isOpen, bytes, congrArg (·.link.line) hview, by rw [tview, hview]; rfl⟩
  | error fault v =>
    intro hseen tseen
    obtain ⟨s', hs', hview⟩ := Act.exists_of_seen_error hseen
    obtain ⟨t', ht', tview⟩ := Act.exists_of_seen_error tseen
    rw [hs'] at isOpen
    rw [hs', ht']
    exact .error ⟨isOpen, bytes, congrArg (·.link.line) hview, by rw [tview, hview]; rfl⟩

theorem trails_sendQuery (statement : Bytes) : Trails rest more (sendQuery statement) :=
  .of_respects (behind_sendQuery statement) (Respects.bind (short_stage _) fun _ => short_flush)

theorem trails_handle (handling : NoticeHandling) (notice : String) :
    Trails rest more (Reader.handle handling notice) := by
  refine .of_respects ((alongAnswers_behind handling).handle notice) fun s t h => ?_
  cases handling with
  | logged => exact .ok rfl (h.record rfl)
  | handled raises =>
    have notices : (s.link.record (.noticed notice)).notices = (t.link.record (.noticed notice)).notices :=
      Link.notices_of_uncut_eq (h.record rfl).told
    simp only [Reader.handle, notices]
    cases raises (t.link.record (.noticed notice)).notices with
    | none => exact .ok rfl (h.record rfl)
    | some reason => exact .error (h.record rfl)

/-- What is made of a text by the charset of the stream. -/
theorem trails_charset {next : Stream → Except Fault α}
    (same : ∀ s t : Stream, s.charset = t.charset → next s = next t) :
    Trails rest more (MonadState.get >>= fun s : Stream => Act.ofExcept (next s)) :=
  .get_bind (fun s t h => by rw [same s t h.charset]) fun _ =>
    .of_respects (Act.Moves.ofExcept Behind.refl _) (Respects.ofExcept _)

theorem assembly_trails (hrest : arrived rest = []) :
    Assembly fun {α : Type} (act : Act Stream α) => Trails rest more act where
  toSequencing := sequencing_trails
  logged entry := .of_respects (fun s => (keeps_log s entry).behind) fun _ _ h => .ok rfl (h.record rfl)
  receive n := trails_of_decides (along_keeps.receive n) (seen_receive n) (Uncut.decides_receive n) hrest
  receiveText cap _ := by
    apply receiveText_of sequencing_trails
    · intro entry
      exact .of_respects (fun s => (keeps_log s entry).behind) fun _ _ h => .ok rfl (h.record rfl)
    · apply sequencing_trails.bind
      · exact trails_of_decides along_keeps.await seen_await Uncut.decides_await hrest
      · intro _
        exact trails_of_decides (along_keeps.gather cap) (seen_gather cap) (Uncut.decides_gather cap) hrest
    · intro bytes
      exact trails_charset fun s t h => by simp only [decode, h]

end Stream

/-! ## Messages on a short stream -/

namespace Reader

open Act (Follows Respects)
open Link (Arrival arrived stop)
open SimpleQuery.Stream (Short Behind)
open SimpleQuery.Stream.AlongAnswers (onReader)

variable {rest more : List Arrival} {α : Type}

/-- The same for actions on a reader. -/
abbrev Trails (rest more : List Arrival) {α : Type} (act : Act Reader α) : Prop :=
  Follows (Over (Short rest more)) (onReader Behind) (.loss (stop rest).loss) act

theorem trails_onStream {act : Act Stream α} (h : Stream.Trails rest more act) :
    Reader.Trails rest more (onStream act) where
  moves := Stream.AlongAnswers.onStream h.moves
  follows r t hrt := by
    rcases h.follows r.stream t.stream hrt.stream with ha | ⟨u, hu, hbehind⟩
    · left
      simp only [onStream, Act.on]
      revert ha
      generalize act r.stream = x
      generalize act t.stream = y
      intro ha
      cases ha with
      | ok values states => exact .ok values ⟨states, hrt.response⟩
      | error states => exact .error ⟨states, hrt.response⟩
    · refine .inr ⟨{ r with stream := u }, ?_, ?_⟩
      · simp only [onStream, Act.on, hu]
      · rw [onReader, stream_onStream]
        exact hbehind

theorem sequencing_trails :
    Act.Sequencing fun {α : Type} (act : Act Reader α) => Reader.Trails rest more act :=
  Follows.sequencing (fun r => Behind.refl r.stream) fun _ _ _ h h' => Behind.trans _ _ _ h h'

theorem assembly_trails (handling : NoticeHandling) (hrest : arrived rest = []) :
    Assembly handling (fun {α : Type} (act : Act Stream α) => Stream.Trails rest more act)
      fun {α : Type} (act : Act Reader α) => Reader.Trails rest more act where
  toSequencing := sequencing_trails
  reading := Stream.assembly_trails hrest
  handle := Stream.trails_handle handling
  sends := Stream.trails_sendQuery _
  onStream := trails_onStream
  respond f := .of_respects (fun r => Behind.refl r.stream) (Stream.Congruence.respond f)
  response next h := .get_bind (fun r t hrt => by rw [hrt.response]) fun r => h r.response
  pairwise h :=
    { moves := fun r => by
        obtain ⟨part, hpart, hr, -⟩ := h r r
        rw [hr]
        exact hpart.moves r
      follows := fun r t hrt => by
        obtain ⟨part, hpart, hr, ht⟩ := h r t
        rw [hr, ht]
        exact hpart.follows r t hrt }

theorem trails_read (handling : NoticeHandling) (hrest : arrived rest = []) :
    Reader.Trails rest more (read handling) :=
  (assembly_trails handling hrest).read fun _ =>
    .of_respects (Act.Moves.throw (fun r => Behind.refl r.stream) _) (Respects.throw _)

end Reader

namespace Stream

open Act (Follows)
open Link (Arrival arrived beyond stop)

variable {rest more : List Arrival}

theorem trails_receiveAnswer (handling : NoticeHandling) (hrest : arrived rest = []) :
    Trails rest more (receiveAnswer handling) where
  moves := (alongAnswers_behind handling).receiveAnswer
  follows s t h := by
    rcases (Reader.trails_read handling hrest).follows { stream := s } { stream := t } ⟨h, rfl⟩ with
      ha | ⟨u, hu, hbehind⟩
    · left
      unfold receiveAnswer
      revert ha
      generalize Reader.read handling { stream := s } = x
      generalize Reader.read handling { stream := t } = y
      intro ha
      cases ha with
      | ok values states => exact .ok values states.stream
      | error states => exact .error states.stream
    · refine .inr ⟨u.stream, ?_, ?_⟩
      · unfold receiveAnswer
        rw [hu]
      · rw [(receiveAnswer_eq handling t).2]
        exact hbehind

/-- A statement on a stream that has less in front of it follows the statement on one that has more. -/
theorem trails_query (handling : NoticeHandling) (hrest : arrived rest = []) (statement : String) :
    Trails rest more (query handling statement) := by
  apply query_of sequencing_trails
  · intro text
    exact trails_charset fun s t h => by simp only [encode, h]
  · exact trails_sendQuery
  · exact trails_receiveAnswer handling hrest
  · exact fun _ => .of_respects (Act.Moves.throw Behind.refl _) (Act.Respects.throw _)

/-! ## Cutting an answer short -/

/-- The stream when other bytes have arrived on it and other deliveries are to come. -/
def supplied (unread : Bytes) (incoming : List Delivery) (s : Stream) : Stream :=
  { s with unread, link := { s.link with incoming } }

/-- The bytes that can be had before the next barrier. -/
def atHand (s : Stream) : Bytes := s.unread ++ (Link.arrivals s.link.incoming).1

/-- The next barrier. -/
def barrier (s : Stream) : Link.Barrier := (Link.arrivals s.link.incoming).2

/-- The action takes all bytes that can be had before the next barrier. -/
def Exhausts {α : Type} (act : Act Stream α) (s : Stream) : Prop := (Act.state (act s)).atHand = []

theorem line_eq_atHand {s : Stream} (isOpen : s.closed = false) :
    s.line = s.atHand.map .byte ++ beyond (Link.line s.link.incoming) := by
  rw [line, isOpen, atHand, Link.arrivals_eq_arrived, List.map_append, List.append_assoc,
    Link.arrived_append_beyond]
  rfl

theorem atHand_eq_arrived {s : Stream} (isOpen : s.closed = false) : s.atHand = arrived s.line := by
  rw [arrived_line, isOpen, atHand, Link.arrivals_eq_arrived]
  rfl

/-- A beginning of what can be had is short of the rest. -/
theorem short_supplied {s : Stream} (isOpen : s.closed = false) {unread missing : Bytes}
    {incoming : List Delivery} (h : (s.supplied unread incoming).atHand ++ missing = s.atHand) :
    Short (beyond (Link.line incoming)) (missing.map .byte ++ beyond (Link.line s.link.incoming))
      (s.supplied unread incoming) s where
  isOpen := isOpen
  line := by
    refine ⟨(s.supplied unread incoming).atHand, line_eq_atHand isOpen, ?_⟩
    rw [← List.append_assoc, ← List.map_append, h, ← line_eq_atHand isOpen]
    rfl

/-- What follows a run that takes all that can be had is lost where less can be had. -/
theorem Trails.lost {α : Type} {act : Act Stream α} (h : Trails rest more act) {s t : Stream}
    (hst : Short rest more s t) (hmore : arrived more ≠ []) (all : Exhausts act t) :
    ∃ u, act s = .error (.loss (stop rest).loss) u ∧ u.Behind (Act.state (act t)) := by
  rcases h.follows s t hst with ha | hlost
  · obtain ⟨bytes, -, ht⟩ := ha.states.line
    have isOpen : (Act.state (act t)).closed = false :=
      (congrArg Uncut.closed ht).trans ha.states.isOpen
    have hline : (Act.state (act t)).line = bytes.map .byte ++ more := congrArg (·.link.line) ht
    rw [Exhausts, atHand_eq_arrived isOpen, hline, Link.arrived_append] at all
    exact absurd (List.append_eq_nil_iff.1 all).2 hmore
  · exact hlost

/-! ## Letting go of a stream that is lost -/

theorem hungUp_close {s : Stream} (isOpen : s.closed = false) : s.close.link.hungUp = true := by
  simp only [close, isOpen, Bool.false_eq_true, if_false, Link.hangUp]
  split <;> rfl

/-- Closing says nothing. -/
theorem close_behind (s : Stream) : s.close.Behind s where
  sent := sent_close s ▸ List.prefix_refl _
  notices := by
    have hung : ({ s.link with hungUp := true }.record .hungUp).notices = s.link.notices :=
      (Link.notices_record _ _).trans (List.append_nil _)
    simp only [close, Link.hangUp, Link.log]
    split
    · exact List.prefix_refl _
    · split <;> simp only [Link.notices_record, Event.notice?, Option.toList_none, List.append_nil, hung,
        List.prefix_refl]

end Stream

/-- A statement that comes to a loss on an open stream breaks the session and closes the stream. -/
theorem Session.broken_of_lost {session : Session} {s u : Stream} (hp : session.phase = .open s)
    (isOpen : s.closed = false) {statement : String} {cause : Loss}
    (h : s.query session.handling statement = .error (.loss cause) u) :
    ∃ t, Session.query statement session = .error (.loss cause) { session with phase := .broken t } ∧
      t.closed = true ∧ t.link.hungUp = true ∧ t.Behind u := by
  have hexecute : execute session.handling statement s =
      .error (.loss cause) (u.log .sessionBroken).close := by
    unfold execute
    rw [h]
  have conducts := Stream.conducts_query session.handling statement s
  rw [h] at conducts
  refine ⟨_, query_of_loss hp hexecute, Stream.closed_close _, ?_, ?_⟩
  · exact Stream.hungUp_close (conducts.closed.trans isOpen)
  · exact .trans _ _ _ (Stream.close_behind _) (Stream.keeps_log u _).ahead

/-- **An answer that is cut short is lost.** Take what an open stream can have before its next barrier,
and any proper beginning of it, in any pieces and with any barrier behind it. Where reading the whole
answer takes all of it, as a complete answer with a bundle or with an error of the backend does, reading
the beginning comes to the loss that the barrier means. So does a statement on an open session, which is
then broken, and its stream closed. By then nothing was sent or handed over that is not sent or handed
over, in this order, by the whole run. -/
theorem cut_answer_is_lost (handling : NoticeHandling) {whole : Stream} (isOpen : whole.closed = false)
    {unread : Bytes} {incoming : List Delivery}
    (beginning : (whole.supplied unread incoming).atHand <+: whole.atHand)
    (proper : (whole.supplied unread incoming).atHand ≠ whole.atHand) :
    let cut := whole.supplied unread incoming
    (whole.Exhausts (Stream.receiveAnswer handling) →
      ∃ t, Stream.receiveAnswer handling cut = .error (.loss cut.barrier.loss) t ∧
        t.Behind (Act.state (Stream.receiveAnswer handling whole))) ∧
    ∀ (session : Session) (statement : String),
      session.phase = .open cut → session.handling = handling →
      whole.Exhausts (Stream.query handling statement) →
        ∃ t, Session.query statement session =
            .error (.loss cut.barrier.loss) { session with phase := .broken t } ∧
          t.closed = true ∧ t.link.hungUp = true ∧
          t.Behind (Act.state (whole.query handling statement)) := by
  intro cut
  obtain ⟨missing, hmissing⟩ := beginning
  have hrest : Link.arrived (Link.beyond (Link.line incoming)) = [] := Link.arrived_beyond _
  have short := Stream.short_supplied isOpen hmissing
  have more : Link.arrived (missing.map .byte ++ Link.beyond (Link.line whole.link.incoming)) ≠ [] := by
    rw [Link.arrived_append, Link.arrived_beyond, List.append_nil]
    rintro rfl
    exact proper (by rw [← hmissing, List.append_nil])
  have barrier : cut.barrier = Link.stop (Link.beyond (Link.line incoming)) :=
    Link.arrivals_eq_stop incoming
  rw [barrier]
  constructor
  · intro all
    exact (Stream.trails_receiveAnswer handling hrest).lost short more all
  · intro session statement hp hh all
    obtain ⟨u, hu, hbehind⟩ := (Stream.trails_query handling hrest statement).lost short more all
    obtain ⟨t, ht, closed, hungUp, ahead⟩ := Session.broken_of_lost hp isOpen (hh ▸ hu)
    exact ⟨t, ht, closed, hungUp, ahead.trans _ _ _ hbehind⟩

/-- A status that is answered by a flush query, and whose acknowledgment is lost to a fault. -/
theorem lost_before_acknowledgment :
    let whole : Stream := { link := { incoming := [.bytes [0x43, 0x6F, 0, 0x49, 0]] } }
    let incoming : List Delivery := [.bytes [0x43], .bytes [0x6F, 0], .fault "reset", .bytes [0x49, 0]]
    let cut := whole.supplied [] incoming
    let session : Session :=
      { settings := { database := "d", user := "u" }, handling := .collected, phase := .open cut }
    cut.atHand <+: whole.atHand ∧ cut.atHand ≠ whole.atHand ∧
      Act.outcome (whole.query .collected "x") = .ok { status := some "o" } ∧
      whole.Exhausts (Stream.receiveAnswer .collected) ∧ whole.Exhausts (Stream.query .collected "x") ∧
      Act.outcome (Stream.receiveAnswer .collected cut) = .error (.loss (.receiveFailed "reset")) ∧
      Act.outcome (Session.query "x" session) = .error (.loss (.receiveFailed "reset")) := by
  intro whole incoming cut session
  have beginning : cut.atHand <+: whole.atHand := by decide +kernel
  have proper : cut.atHand ≠ whole.atHand := by decide +kernel
  have all : whole.Exhausts (Stream.receiveAnswer .collected) := by
    unfold Stream.Exhausts
    decide +kernel
  have all' : whole.Exhausts (Stream.query .collected "x") := by
    unfold Stream.Exhausts
    decide +kernel
  obtain ⟨hanswer, hquery⟩ := cut_answer_is_lost .collected rfl beginning proper
  obtain ⟨t, ht, -⟩ := hanswer all
  obtain ⟨u, hu, -⟩ := hquery session "x" rfl rfl all'
  exact ⟨beginning, proper, by decide +kernel, all, all', congrArg Act.outcome ht, congrArg Act.outcome hu⟩

end SimpleQuery
