import SimpleQuery.Proofs.Congruence
import SimpleQuery.Proofs.Line

/-!
# Streams without the accident of cutting

`Stream.uncut` is a view of a stream that cannot see how the deliveries are cut, how far they were
taken off the link, or how often bytes were asked for. Each primitive of reading is described on that
view alone.

* `Stream.seen_receive`, `Stream.seen_gather`, `Stream.seen_await` — what a primitive of reading gives,
  and what it leaves, is a function of the view.
* `Stream.congruence_same` — on streams with the same view the primitives end alike, and so does all that
  is put together from them.
-/

set_option autoImplicit false

namespace SimpleQuery

namespace Link

/-- A link without the cutting of its deliveries and without the calls for bytes. -/
structure Uncut where
  line : List Arrival
  sendFaults : List (Option String)
  dialFaults : List (Option DialFault)
  hangUpFault : Option String
  hungUp : Bool
  /-- What happened apart from calls for bytes, the latest first. -/
  told : List Event
  deriving DecidableEq, Repr

def uncut (link : Link) : Uncut where
  line := line link.incoming
  sendFaults := link.sendFaults
  dialFaults := link.dialFaults
  hangUpFault := link.hangUpFault
  hungUp := link.hungUp
  told := link.journal.filter fun event => !event.isReceive

theorem uncut_record {event : Event} (h : event.isReceive = false) (link : Link) :
    (link.record event).uncut = { link.uncut with told := event :: link.uncut.told } := by
  simp [uncut, record, h]

/-- What is picked out of the history, other than calls for bytes. -/
theorem filterMap_history_of_uncut_eq {α : Type} {pick : Event → Option α}
    (hp : ∀ event, event.isReceive = true → pick event = none) {first second : Link}
    (h : first.uncut.told = second.uncut.told) :
    first.history.filterMap pick = second.history.filterMap pick := by
  have told (link : Link) : link.history.filterMap pick = (link.uncut.told.filterMap pick).reverse := by
    simp only [history, uncut, List.filterMap_reverse, List.filterMap_filter]
    congr 2
    funext event
    cases he : event.isReceive with
    | true => exact hp event he
    | false => rfl
  rw [told, told, h]

theorem sent_of_uncut_eq {first second : Link} (h : first.uncut.told = second.uncut.told) :
    first.sent = second.sent :=
  filterMap_history_of_uncut_eq (fun event he => by cases event <;> first | rfl | cases he) h

theorem notices_of_uncut_eq {first second : Link} (h : first.uncut.told = second.uncut.told) :
    first.notices = second.notices :=
  filterMap_history_of_uncut_eq (fun event he => by cases event <;> first | rfl | cases he) h

end Link

namespace Stream

open Link (Arrival arrived beyond)

/-- A stream without the cutting of its deliveries and without the calls for bytes. On a closed stream
no more than the unread bytes are to be had. -/
structure Uncut where
  charset : NamedCharset
  closed : Bool
  staged : Bytes
  link : Link.Uncut

/-- What there is to read: the unread bytes, and what the link delivers while it is open. -/
def line (s : Stream) : List Arrival :=
  s.unread.map .byte ++ if s.closed then [] else Link.line s.link.incoming

def uncut (s : Stream) : Uncut where
  charset := s.charset
  closed := s.closed
  staged := s.staged
  link := { s.link.uncut with line := s.line }

@[simp] theorem uncut_charset (s : Stream) : s.uncut.charset = s.charset := rfl
@[simp] theorem uncut_closed (s : Stream) : s.uncut.closed = s.closed := rfl
@[simp] theorem uncut_staged (s : Stream) : s.uncut.staged = s.staged := rfl
@[simp] theorem uncut_line (s : Stream) : s.uncut.link.line = s.line := rfl

theorem arrived_line (s : Stream) :
    arrived s.line = s.unread ++ arrived (if s.closed then [] else Link.line s.link.incoming) :=
  Link.arrived_append _ _

namespace Uncut

/-- The same with another line. -/
def withLine (line : List Arrival) (u : Uncut) : Uncut := { u with link := { u.link with line } }

@[simp] theorem withLine_withLine (first second : List Arrival) (u : Uncut) :
    (u.withLine first).withLine second = u.withLine second := rfl

def log (entry : Log.Entry) (u : Uncut) : Uncut :=
  { u with link := { u.link with told := .logged entry :: u.link.told } }

/-- What becomes of a call for bytes when none are in front of the next barrier. The barrier is taken
off the line; a closed stream and an exhausted link stay as they are. -/
def starve {α : Type} : Act Uncut α := fun u =>
  if u.closed then .error (.loss .streamClosed) u
  else
    let rest := u.withLine ((arrived u.link.line).map .byte ++ (beyond u.link.line).tail)
    match beyond u.link.line with
    | .barrier (.fault reason) :: _ =>
      .error (.loss (.receiveFailed reason)) (rest.log (.receiveFailed reason))
    | _ => .error (.loss .endOfStream) (rest.log .streamEnded)

theorem starve_error (u : Uncut) :
    ∃ fault v, ∀ {α : Type}, (starve : Act Uncut α) u = .error fault v := by
  by_cases hc : u.closed = true
  · exact ⟨_, _, fun {α} => by rw [starve, if_pos hc]⟩
  · cases hb : beyond u.link.line with
    | nil => exact ⟨_, _, fun {α} => by rw [starve, if_neg hc, hb]⟩
    | cons a l =>
      cases a with
      | byte b => exact ⟨_, _, fun {α} => by rw [starve, if_neg hc, hb]⟩
      | barrier barrier =>
        cases barrier with
        | endOfStream => exact ⟨_, _, fun {α} => by rw [starve, if_neg hc, hb]⟩
        | fault reason => exact ⟨_, _, fun {α} => by rw [starve, if_neg hc, hb]⟩

/-- Takes `n` bytes if so many are in front of the next barrier, and otherwise none. -/
def receive (n : Nat) : Act Uncut Bytes := fun u =>
  if n ≤ (arrived u.link.line).length then
    .ok ((arrived u.link.line).take n) (u.withLine (u.link.line.drop n))
  else starve u

/-- Takes the bytes up to a zero byte, or all that there is room for. Where the barrier comes first the
bytes in front of it are lost. -/
def gather (room : Nat) : Act Uncut (Option Bytes) := fun u =>
  match scan room (arrived u.link.line) with
  | .ended text rest => .ok (some text) (u.withLine (rest.map .byte ++ beyond u.link.line))
  | .full rest => .ok none (u.withLine (rest.map .byte ++ beyond u.link.line))
  | .open _ _ => starve (u.withLine (beyond u.link.line))

/-- Fails unless there is a byte in front of the next barrier. -/
def await : Act Uncut Unit := fun u => if arrived u.link.line = [] then starve u else .ok () u

/-- Sends what is staged in one call. -/
def flush : Act Uncut Unit := fun u =>
  if u.staged = [] then .ok () u
  else if u.closed then .error (.loss .streamClosed) u
  else
    let sent (event : Event) : Uncut :=
      { u with
        staged := []
        link := { u.link with sendFaults := u.link.sendFaults.tail, told := event :: u.link.told } }
    match Link.nextFault u.link.sendFaults with
    | none => .ok () (sent (.sent u.staged))
    | some reason =>
      .error (.loss (.sendFailed reason)) ((sent (.unsent u.staged)).log (.sendFailed reason))

/-- Sending does not see the line. -/
theorem flush_withLine (line : List Arrival) (u : Uncut) :
    flush (u.withLine line) = Act.seen (withLine line) (flush u) := by
  unfold flush
  by_cases hs : u.staged = []
  · rw [if_pos hs, if_pos (show (u.withLine line).staged = [] from hs)]
    rfl
  rw [if_neg hs, if_neg (show ¬(u.withLine line).staged = [] from hs)]
  by_cases hc : u.closed = true
  · rw [if_pos hc, if_pos (show (u.withLine line).closed = true from hc)]
    rfl
  rw [if_neg hc, if_neg (show ¬(u.withLine line).closed = true from hc)]
  simp only [show (u.withLine line).link.sendFaults = u.link.sendFaults from rfl]
  cases Link.nextFault u.link.sendFaults <;> rfl

/-- Lets go of the link and of all that waits. -/
def close (u : Uncut) : Uncut :=
  let u := ({ u with staged := [] } : Uncut).withLine []
  if u.closed then u
  else
    let hungUp : Uncut :=
      { u with closed := true, link := { u.link with hungUp := true, told := .hungUp :: u.link.told } }
    match u.link.hangUpFault with
    | some reason => (hungUp.log (.hangUpFailed reason)).log .streamClosed
    | none => hungUp.log .streamClosed

end Uncut

theorem uncut_log (entry : Log.Entry) (s : Stream) : (s.log entry).uncut = s.uncut.log entry := rfl

/-- Of a call for bytes only what it did to the line is seen. -/
theorem uncut_take {event : Event} (h : event.isReceive = true) (s : Stream) (rest : List Delivery)
    (unread : Bytes) :
    ({ s with link := { s.link with incoming := rest }.record event, unread } : Stream).uncut =
      s.uncut.withLine (unread.map .byte ++ if s.closed then [] else Link.line rest) := by
  simp [uncut, line, Link.uncut, Link.record, Uncut.withLine, h]

/-! ## A call for bytes -/

/-- A call that gives bytes moves them, unseen, from the link to the stream. -/
theorem uncut_fill {s t : Stream} (h : s.fill = .ok () t) :
    t.uncut = s.uncut ∧ s.unread.length < (arrived s.line).length := by
  unfold fill at h
  split at h
  · cases h
  rename_i hc
  have hc : s.closed = false := by simpa using hc
  have hl := Link.line_takeDelivery (show 0 < chunkLimit by decide) s.link.incoming
  simp only [Link.receive] at h
  cases hd : Link.takeDelivery chunkLimit s.link.incoming with
  | mk taken rest =>
    rw [hd] at h hl
    cases taken with
    | error reason => cases h
    | ok chunk =>
      cases chunk with
      | nil => cases h
      | cons b chunk =>
        cases h
        simp only at hl
        have hline : (s.unread ++ b :: chunk).map .byte ++ Link.line rest = s.line := by
          simp only [line, hc, hl, Bool.false_eq_true, if_false, List.map_append, List.append_assoc]
        refine ⟨?_, ?_⟩
        · rw [uncut_take (by rfl), hc, if_neg (by decide), hline]
          rfl
        · rw [← hline, Link.arrived_append]
          simp only [List.length_append, List.length_cons]
          omega

/-- A call that fails has found no byte in front of the barrier. -/
theorem seen_fill_error {s t : Stream} {fault : Fault} (h : s.fill = .error fault t) (α : Type) :
    arrived s.line = s.unread ∧
      (.error fault t.uncut : EStateM.Result Fault Uncut α) = Uncut.starve s.uncut := by
  unfold fill at h
  split at h
  · rename_i hc
    cases h
    simp [arrived_line, hc, Uncut.starve, arrived]
  rename_i hc
  have hc : s.closed = false := by simpa using hc
  have hline : s.line = s.unread.map .byte ++ Link.line s.link.incoming := by simp [line, hc]
  have hl := Link.line_takeDelivery (show 0 < chunkLimit by decide) s.link.incoming
  simp only [Link.receive] at h
  cases hd : Link.takeDelivery chunkLimit s.link.incoming with
  | mk taken rest =>
    rw [hd] at h hl
    cases taken with
    | error reason =>
      cases h
      simp only at hl
      rw [uncut_log, uncut_take (by rfl), Uncut.starve]
      simp [hline, hl, hc, arrived, beyond]
    | ok chunk =>
      cases chunk with
      | cons b chunk => cases h
      | nil =>
        cases h
        simp only at hl
        rw [uncut_log, uncut_take (by rfl), Uncut.starve]
        rcases hl with hl | ⟨hl, hr⟩
        · simp [hline, hl, hc, arrived, beyond]
        · simp [hline, hl, hr, hc]

/-! ## The primitives of reading -/

theorem seen_receive (n : Nat) (s : Stream) :
    Act.seen uncut (receive n s) = Uncut.receive n s.uncut := by
  show Act.seen uncut (receiveFrom n s) = _
  fun_induction receiveFrom n s with
  | case1 s bytes rest h =>
    rw [cut?_eq] at h
    split at h
    · rename_i hn
      cases h
      have hle : n ≤ (arrived s.uncut.link.line).length := by
        rw [uncut_line, arrived_line, List.length_append]
        omega
      rw [Uncut.receive, if_pos hle, uncut_line, arrived_line, List.take_append_of_le_length hn, line,
        List.drop_append_of_le_length (by simpa using hn), ← List.map_drop]
      rfl
    · cases h
  | case2 s h t ht ih => rw [ih, (uncut_fill ht).1]
  | case3 s h fault t ht =>
    obtain ⟨ha, he⟩ := seen_fill_error ht Bytes
    have hn : ¬ n ≤ s.unread.length := by
      intro hn
      rw [cut?_eq, if_pos hn] at h
      cases h
    rw [Uncut.receive, if_neg (by rw [uncut_line, ha]; exact hn)]
    exact he

theorem scan_append (room : Nat) (first rest : Bytes) :
    scan room (first ++ rest) =
      match scan room first with
      | .ended text left => .ended text (left ++ rest)
      | .full left => .full (left ++ rest)
      | .open text more =>
        match scan more rest with
        | .ended tail left => .ended (text ++ tail) left
        | .full left => .full left
        | .open tail more => .open (text ++ tail) more := by
  induction room generalizing first with
  | zero => simp [scan]
  | succ room ih =>
    cases first with
    | nil =>
      show scan (room + 1) rest = match scan (room + 1) rest with
        | .ended tail left => .ended ([] ++ tail) left
        | .full left => .full left
        | .open tail more => .open ([] ++ tail) more
      cases scan (room + 1) rest <;> rfl
    | cons b first =>
      simp only [List.cons_append, scan]
      by_cases hb : b = 0
      · simp [hb]
      · rw [if_neg hb, if_neg hb, ih first]
        cases scan room first with
        | ended text left => rfl
        | full left => rfl
        | «open» text more =>
          simp only [Scan.cons]
          cases scan more rest <;> rfl

theorem scan_open_pos {room left : Nat} {bytes text : Bytes} (h : scan room bytes = .open text left) :
    0 < left := by
  induction room generalizing bytes text with
  | zero => cases h
  | succ room ih =>
    cases bytes with
    | nil =>
      cases h
      omega
    | cons b bytes =>
      simp only [scan] at h
      split at h
      · cases h
      · cases hs : scan room bytes with
        | ended tail rest => rw [hs] at h; cases h
        | full rest => rw [hs] at h; cases h
        | «open» tail more =>
          rw [hs] at h
          cases h
          exact ih hs

/-- The stream when its unread bytes are set aside. -/
def emptied (s : Stream) : Stream := { s with unread := [] }

theorem line_eq (s : Stream) : s.line = s.unread.map .byte ++ s.emptied.line := rfl

/-- A text that goes on behind these bytes. -/
def Uncut.behind (text : Bytes) :
    EStateM.Result Fault Uncut (Option Bytes) → EStateM.Result Fault Uncut (Option Bytes)
  | .ok (some tail) u => .ok (some (text ++ tail)) u
  | .ok none u => .ok none u
  | .error fault u => .error fault u

/-- Where the unread bytes end before the text does, the text goes on behind them. -/
theorem uncut_gather_of_open {room left : Nat} {text : Bytes} {s : Stream}
    (h : scan room s.unread = .open text left) :
    Uncut.gather room s.uncut = Uncut.behind text (Uncut.gather left s.emptied.uncut) := by
  have hscan := scan_append room s.unread (arrived s.emptied.line)
  rw [h] at hscan
  simp only at hscan
  unfold Uncut.gather
  simp only [uncut_line]
  rw [line_eq, Link.arrived_append, Link.beyond_append, hscan]
  cases hs : scan left (arrived s.emptied.line) with
  | ended tail rest => rfl
  | full rest => rfl
  | «open» tail more =>
    obtain ⟨fault, u, he⟩ := (s.uncut.withLine (beyond s.emptied.line)).starve_error
    show Uncut.starve _ = Uncut.behind text (Uncut.starve (s.uncut.withLine (beyond s.emptied.line)))
    rw [he]
    rfl

theorem seen_gather (room : Nat) (s : Stream) :
    Act.seen uncut (gather room s) = Uncut.gather room s.uncut := by
  show Act.seen uncut (gatherFrom room s) = _
  fun_induction gatherFrom room s with
  | case1 room s text rest h =>
    have hscan := scan_append room s.unread (arrived s.emptied.line)
    rw [h] at hscan
    unfold Uncut.gather
    simp only [uncut_line]
    rw [line_eq, Link.arrived_append, Link.beyond_append, hscan]
    simp only [List.map_append, List.append_assoc, Link.arrived_append_beyond]
    rfl
  | case2 room s rest h =>
    have hscan := scan_append room s.unread (arrived s.emptied.line)
    rw [h] at hscan
    unfold Uncut.gather
    simp only [uncut_line]
    rw [line_eq, Link.arrived_append, Link.beyond_append, hscan]
    simp only [List.map_append, List.append_assoc, Link.arrived_append_beyond]
    rfl
  | case3 room s text left h t ht rest u hu ih | case4 room s text left h t ht u hu ih
  | case5 room s text left h t ht fault u hu ih =>
    rw [uncut_gather_of_open h, emptied, ← (uncut_fill ht).1, ← ih, hu]
    rfl
  | case6 room s text left h fault t ht =>
    obtain ⟨ha, he⟩ := seen_fill_error ht (Option Bytes)
    have ha : arrived s.emptied.line = [] := ha
    obtain ⟨n, rfl⟩ : ∃ n, left = n + 1 := ⟨left - 1, by have := scan_open_pos h; omega⟩
    have hb : beyond s.emptied.line = s.emptied.line := Link.beyond_eq_self ha
    have hg : Uncut.gather (n + 1) s.emptied.uncut = Uncut.starve s.emptied.uncut := by
      unfold Uncut.gather
      simp only [uncut_line, ha, scan, hb]
      rfl
    rw [uncut_gather_of_open h, hg, show Uncut.starve s.emptied.uncut = .error fault t.uncut from he.symm]
    rfl

theorem seen_await (s : Stream) : Act.seen uncut (await s) = Uncut.await s.uncut := by
  unfold await Uncut.await
  split
  · rename_i h
    cases hf : s.fill with
    | ok u t =>
      obtain ⟨hu, hl⟩ := uncut_fill hf
      rw [if_neg (by rw [uncut_line]; intro ha; rw [ha] at hl; simp at hl), ← hu]
      rfl
    | error fault t =>
      obtain ⟨ha, he⟩ := seen_fill_error hf Unit
      rw [if_pos (by rw [uncut_line, ha, h]), ← he]
      rfl
  · rename_i h
    rw [if_neg (by rw [uncut_line, arrived_line]; simp [h])]
    rfl

/-! ## Closing and more deliveries -/

theorem uncut_close (s : Stream) : s.close.uncut = s.uncut.close := by
  obtain ⟨link, charset, closed, unread, staged⟩ := s
  cases closed with
  | true => rfl
  | false =>
    obtain ⟨incoming, sendFaults, dialFaults, hangUpFault, hungUp, journal⟩ := link
    cases hangUpFault <;> rfl

theorem uncut_feed (s : Stream) (more : List Delivery) :
    ({ s with link := s.link.feed more } : Stream).uncut =
      s.uncut.withLine (s.line ++ if s.closed then [] else Link.line more) := by
  obtain ⟨link, charset, closed, unread, staged⟩ := s
  cases closed with
  | true => simp [uncut, line, Uncut.withLine, Link.uncut, Link.feed]
  | false => simp [uncut, line, Uncut.withLine, Link.uncut, Link.feed, Link.line_append]

/-! ## What is built from them -/

/-- Streams that are the same but for the cutting of what they deliver. -/
def Same (s t : Stream) : Prop := s.uncut = t.uncut

namespace Same

variable {s t : Stream}

theorem charset (h : Same s t) : s.charset = t.charset := congrArg Uncut.charset h

theorem closed (h : Same s t) : s.closed = t.closed := congrArg Uncut.closed h

theorem staged (h : Same s t) : s.staged = t.staged := congrArg Uncut.staged h

theorem line (h : Same s t) : s.line = t.line := congrArg (·.link.line) h

theorem sendFaults (h : Same s t) : s.link.sendFaults = t.link.sendFaults := congrArg (·.link.sendFaults) h

theorem told (h : Same s t) : s.link.uncut.told = t.link.uncut.told := congrArg (·.link.told) h

end Same

/-- Actions that streams with the same view answer alike. -/
abbrev Uncuttable {α : Type} (act : Act Stream α) : Prop := Act.Respects Same act

theorem respects_receive (n : Nat) : Uncuttable (receive n) := Act.Respects.of_view (seen_receive n)

theorem respects_gather (room : Nat) : Uncuttable (gather room) :=
  Act.Respects.of_view (seen_gather room)

theorem respects_await : Uncuttable await := Act.Respects.of_view seen_await

theorem respects_stage (bytes : Bytes) : Uncuttable (stage bytes) := by
  intro s t h
  refine .ok rfl ?_
  show { s.uncut with staged := s.uncut.staged ++ bytes } = { t.uncut with staged := t.uncut.staged ++ bytes }
  rw [h]

/-- What happens on the link other than a call for bytes is seen as it is. -/
theorem uncut_say {event : Event} (h : event.isReceive = false) (s : Stream)
    (faults : List (Option String)) (staged : Bytes) :
    ({ s with link := { s.link with sendFaults := faults }.record event, staged } : Stream).uncut =
      { s.uncut with
        staged
        link := { s.uncut.link with sendFaults := faults, told := event :: s.uncut.link.told } } := by
  simp [uncut, line, Link.uncut, Link.record, h]

theorem seen_flush (s : Stream) : Act.seen uncut (flush s) = Uncut.flush s.uncut := by
  unfold flush Uncut.flush
  by_cases hs : s.staged = []
  · rw [if_pos hs, if_pos (show s.uncut.staged = [] from hs)]
    rfl
  rw [if_neg hs, if_neg (show ¬s.uncut.staged = [] from hs)]
  by_cases hc : s.closed = true
  · rw [if_pos hc, if_pos (show s.uncut.closed = true from hc)]
    rfl
  rw [if_neg hc, if_neg (show ¬s.uncut.closed = true from hc)]
  simp only [Link.send, show s.uncut.link.sendFaults = s.link.sendFaults from rfl]
  cases Link.nextFault s.link.sendFaults with
  | none => exact congrArg (EStateM.Result.ok ()) (uncut_say rfl s _ _)
  | some reason =>
    exact congrArg (fun u => EStateM.Result.error _ (Uncut.log (.sendFailed reason) u))
      (uncut_say rfl s _ _)

theorem respects_flush : Uncuttable flush := Act.Respects.of_view seen_flush

/-- Reading does not see how the deliveries are cut. -/
theorem congruence_same : Congruence Same where
  charset _ _ h := h.charset
  receive := respects_receive
  gather := respects_gather
  await := respects_await
  record event hevent s t h := by
    rw [Same, uncut_say hevent s s.link.sendFaults s.staged, uncut_say hevent t t.link.sendFaults t.staged]
    exact congrArg (fun u : Uncut => { u with link := { u.link with told := event :: u.link.told } }) h
  stage := respects_stage
  flush := respects_flush

/-- Nor does a handler of notices. -/
theorem blind_same (handling : NoticeHandling) : handling.Blind Same :=
  congruence_same.blind (fun _ _ h => Link.notices_of_uncut_eq h.told) handling

end Stream

end SimpleQuery
