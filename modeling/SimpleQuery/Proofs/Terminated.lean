import SimpleQuery.Proofs.Takes
import SimpleQuery.Proofs.Truncation

/-!
# Texts that a zero byte ends

What a call for a text comes to is decided by the bytes that are at hand, the unread ones and those that
arrive before the next barrier, and by the barrier; how they are cut into deliveries does not matter.

* `Stream.scan_of_zero`, `Stream.scan_of_long`, `Stream.scan_of_short` — where the search for the zero
  byte ends.
* `Stream.Comes` — what a run on a stream comes to, and what it leaves to be read.
* `text_ends_at_zero_room_or_barrier` — a text is read up to its zero byte, or up to the end of the room,
  or up to the barrier.
-/

set_option autoImplicit false

namespace SimpleQuery

namespace Stream

open Link (Arrival arrived beyond stop)

/-! ## The search -/

/-- A zero byte within the room ends the search, if it is the first one. -/
theorem scan_of_zero {room i : Nat} {bytes : Bytes} (within : i < room) (zero : bytes[i]? = some 0)
    (first : ∀ j < i, bytes[j]? ≠ some 0) :
    scan room bytes = .ended (bytes.take i) (bytes.drop (i + 1)) := by
  obtain ⟨hi, hzero⟩ := List.getElem?_eq_some_iff.1 zero
  have split : bytes = bytes.take i ++ 0 :: bytes.drop (i + 1) := by
    rw [← hzero, List.getElem_cons_drop, List.take_append_drop]
  have before : 0 ∉ bytes.take i := by
    intro hmem
    obtain ⟨j, hj, hget⟩ := List.getElem_of_mem hmem
    rw [List.length_take] at hj
    apply first j (by omega)
    rw [← hget, List.getElem_take, List.getElem?_eq_getElem]
  have room_left : (bytes.take i).length < room := by
    rw [List.length_take]
    omega
  have ended := scan_text (bytes.drop (i + 1)) before room_left
  rwa [← split] at ended

/-- Where the room has no zero byte, the search uses it up. -/
theorem scan_of_long {room : Nat} {bytes : Bytes} (none : 0 ∉ bytes.take room)
    (long : room ≤ bytes.length) : scan room bytes = .full (bytes.drop room) := by
  induction room generalizing bytes with
  | zero => rfl
  | succ room ih =>
    cases bytes with
    | nil => simp at long
    | cons b bytes =>
      obtain ⟨hb, hrest⟩ : 0 ≠ b ∧ 0 ∉ bytes.take room := by simpa using none
      rw [scan, if_neg (Ne.symm hb), ih hrest (by simpa using long)]
      rfl

/-- Where the bytes have no zero byte and there is room for more, the search goes on behind them. -/
theorem scan_of_short {room : Nat} {bytes : Bytes} (none : 0 ∉ bytes) (short : bytes.length < room) :
    scan room bytes = .open bytes (room - bytes.length) := by
  induction room generalizing bytes with
  | zero => omega
  | succ room ih =>
    cases bytes with
    | nil => rfl
    | cons b bytes =>
      obtain ⟨hb, hrest⟩ : 0 ≠ b ∧ 0 ∉ bytes := by simpa using none
      rw [scan, if_neg (Ne.symm hb), ih hrest (by simpa using short)]
      simp [Scan.cons]

/-! ## What a run comes to -/

/-- The run comes to this outcome, leaves this to be read, and leaves alone what reading leaves alone. -/
structure Comes {α : Type} (s : Stream) (result : EStateM.Result Fault Stream α)
    (outcome : Except Fault α) (left : List Arrival) : Prop where
  outcome : Act.outcome result = outcome
  left : (Act.state result).line = left
  keeps : s.Keeps (Act.state result)

/-- At a barrier an open stream comes to the loss that the barrier means. The bytes in front of it stay,
and the barrier is gone. -/
theorem Uncut.starve_at_barrier (α : Type) {u : Uncut} (isOpen : u.closed = false) :
    ∃ v : Uncut, (starve : Act Uncut α) u = .error (.loss (stop (beyond u.link.line)).loss) v ∧
      v.link.line = (arrived u.link.line).map .byte ++ (beyond u.link.line).tail := by
  unfold starve
  rw [if_neg (by simp [isOpen])]
  cases beyond u.link.line with
  | nil => exact ⟨_, rfl, rfl⟩
  | cons first rest =>
    cases first with
    | byte b => exact ⟨_, rfl, rfl⟩
    | barrier barrier => cases barrier <;> exact ⟨_, rfl, rfl⟩

theorem barrier_eq_stop {s : Stream} (isOpen : s.closed = false) : s.barrier = stop (beyond s.line) := by
  rw [barrier, Link.arrivals_eq_stop, line, isOpen, if_neg (by decide), Link.beyond_append]

/-- The line from the barrier on. -/
theorem beyond_line {s : Stream} (isOpen : s.closed = false) :
    beyond s.line = s.line.drop s.atHand.length := by
  have hline := Link.arrived_append_beyond s.line
  rw [← atHand_eq_arrived isOpen] at hline
  rw [← hline, List.drop_left' (by simp), hline]

/-- The line behind so many of the bytes at hand. -/
theorem drop_line {s : Stream} (isOpen : s.closed = false) {n : Nat} (h : n ≤ s.atHand.length) :
    (s.atHand.drop n).map .byte ++ beyond s.line = s.line.drop n := by
  have hline := Link.arrived_append_beyond s.line
  rw [← atHand_eq_arrived isOpen] at hline
  rw [List.map_drop, ← List.drop_append_of_le_length (by simpa using h), hline]

/-! ## Reading a text -/

/-- With no byte at hand the call fails at the barrier. -/
theorem receiveText_of_nothing (cap : Nat) {s : Stream} (isOpen : s.closed = false)
    (nothing : s.atHand = []) :
    Comes s (receiveText cap s) (.error (.loss s.barrier.loss)) s.line.tail := by
  have none : arrived s.line = [] := by rw [← atHand_eq_arrived isOpen, nothing]
  have whole : beyond s.line = s.line := Link.beyond_eq_self none
  have hseen := seen_await s
  obtain ⟨v, hstarve, hline⟩ := Uncut.starve_at_barrier Unit (u := s.uncut) isOpen
  rw [Uncut.await, uncut_line, if_pos none, hstarve] at hseen
  obtain ⟨t, hawait, rfl⟩ := Act.exists_of_seen_error hseen
  have hrun : receiveText cap s = .error (.loss s.barrier.loss) t := by
    rw [receiveText, barrier_eq_stop isOpen]
    simp only [Bind.bind, EStateM.bind, hawait, uncut_line]
  have keeps := along_keeps.receiveText cap s
  rw [hrun] at keeps ⊢
  refine ⟨rfl, ?_, keeps⟩
  simpa [none, whole] using hline

/-- What is made of the bytes that were gathered for a text. -/
def finishText (cap : Nat) : Option Bytes → Act Stream String
  | some text => do Act.ofExcept ((← get).decode text)
  | none => do
    logged (.textTooLong cap)
    throw (.refusal (.violation (.textTooLong cap)))

/-- With a byte at hand nothing is waited for, and the text is gathered. -/
theorem receiveText_of_something (cap : Nat) {s : Stream} (isOpen : s.closed = false)
    (something : s.atHand ≠ []) :
    ∃ u : Stream, Act.seen uncut (gather cap u) = Uncut.gather cap s.uncut ∧
      receiveText cap s = (gather cap >>= finishText cap) u := by
  have hseen := seen_await s
  rw [Uncut.await, uncut_line, if_neg (by rwa [← atHand_eq_arrived isOpen])] at hseen
  obtain ⟨u, hawait, hu⟩ := Act.exists_of_seen_ok hseen
  refine ⟨u, hu ▸ seen_gather cap u, ?_⟩
  rw [receiveText]
  simp only [Bind.bind, EStateM.bind, hawait]
  cases gather cap u with
  | error fault v => rfl
  | ok gathered v => cases gathered <;> rfl

section Gathered

variable {cap : Nat} {s : Stream} (isOpen : s.closed = false) (something : s.atHand ≠ [])
include isOpen something

theorem receiveText_of_ended {text rest : Bytes} (h : scan cap s.atHand = .ended text rest) :
    Comes s (receiveText cap s) (s.decode text) (rest.map .byte ++ beyond s.line) := by
  obtain ⟨u, hseen, hrun⟩ := receiveText_of_something cap isOpen something
  have keeps := along_keeps.receiveText cap s
  rw [Uncut.gather, uncut_line, ← atHand_eq_arrived isOpen, h] at hseen
  obtain ⟨v, hgather, hv⟩ := Act.exists_of_seen_ok hseen
  have charset : v.charset = s.charset := congrArg Uncut.charset hv
  have hfinish : receiveText cap s = (Act.ofExcept (s.decode text) : Act Stream String) v := by
    rw [hrun]
    simp only [Bind.bind, EStateM.bind, hgather, finishText, Act.get_eq, decode, charset]
  rw [hfinish] at keeps ⊢
  refine ⟨?_, ?_, keeps⟩
  · cases s.decode text <;> rfl
  · rw [Act.state_ofExcept]
    exact congrArg (·.link.line) hv

theorem receiveText_of_full {rest : Bytes} (h : scan cap s.atHand = .full rest) :
    Comes s (receiveText cap s) (.error (.refusal (.violation (.textTooLong cap))))
      (rest.map .byte ++ beyond s.line) := by
  obtain ⟨u, hseen, hrun⟩ := receiveText_of_something cap isOpen something
  have keeps := along_keeps.receiveText cap s
  rw [Uncut.gather, uncut_line, ← atHand_eq_arrived isOpen, h] at hseen
  obtain ⟨v, hgather, hv⟩ := Act.exists_of_seen_ok hseen
  have hfinish : receiveText cap s =
      .error (.refusal (.violation (.textTooLong cap))) (v.log (.textTooLong cap)) := by
    rw [hrun]
    simp only [Bind.bind, EStateM.bind, hgather, finishText]
    rfl
  rw [hfinish] at keeps ⊢
  exact ⟨rfl, congrArg (·.link.line) hv, keeps⟩

theorem receiveText_of_open {text : Bytes} {left : Nat} (h : scan cap s.atHand = .open text left) :
    Comes s (receiveText cap s) (.error (.loss s.barrier.loss)) (beyond s.line).tail := by
  obtain ⟨u, hseen, hrun⟩ := receiveText_of_something cap isOpen something
  have keeps := along_keeps.receiveText cap s
  obtain ⟨v, hstarve, hline⟩ :=
    Uncut.starve_at_barrier (Option Bytes) (u := s.uncut.withLine (beyond s.line)) isOpen
  -- The search has taken all that was at hand, so what is left starts with the barrier.
  have hbeyond : beyond (beyond s.line) = beyond s.line := Link.beyond_eq_self (Link.arrived_beyond _)
  have hwith : (s.uncut.withLine (beyond s.line)).link.line = beyond s.line := rfl
  rw [hwith, Link.arrived_beyond, hbeyond] at hline
  rw [Uncut.gather, uncut_line, ← atHand_eq_arrived isOpen, h] at hseen
  rw [hwith, hbeyond] at hstarve
  simp only [hstarve] at hseen
  obtain ⟨t, hgather, rfl⟩ := Act.exists_of_seen_error hseen
  have hfinish : receiveText cap s = .error (.loss s.barrier.loss) t := by
    rw [hrun, barrier_eq_stop isOpen]
    simp only [Bind.bind, EStateM.bind, hgather]
  rw [hfinish] at keeps ⊢
  exact ⟨rfl, hline, keeps⟩

end Gathered

end Stream

open SimpleQuery.Stream (receiveText)

/-- **A text is read up to its zero byte.** What a call for a text of at most `cap` bytes comes to on an
open stream is decided by the bytes at hand and by the barrier behind them. With no byte at hand it fails
as the barrier means. Where the first zero byte at hand is one of the first `cap`, it gives what the
charset makes of the bytes in front of it, and takes these and the zero byte. Where none of the first
`cap` is zero it takes those and gives up, even if the next one is. With fewer than `cap` bytes at hand,
and no zero byte, it takes all of them and fails as the barrier means. While the charset is known there is
a text for all bytes, and no other way to fail. -/
theorem text_ends_at_zero_room_or_barrier (cap : Nat) {s : Stream} (isOpen : s.closed = false) :
    (s.atHand = [] → s.Comes (receiveText cap s) (.error (.loss s.barrier.loss)) s.line.tail) ∧
    (∀ i < cap, s.atHand[i]? = some 0 → (∀ j < i, s.atHand[j]? ≠ some 0) →
      s.Comes (receiveText cap s) (s.decode (s.atHand.take i)) (s.line.drop (i + 1))) ∧
    (s.atHand ≠ [] → 0 ∉ s.atHand.take cap → cap ≤ s.atHand.length →
      s.Comes (receiveText cap s) (.error (.refusal (.violation (.textTooLong cap))))
        (s.line.drop cap)) ∧
    (0 ∉ s.atHand → s.atHand.length < cap →
      s.Comes (receiveText cap s) (.error (.loss s.barrier.loss)) (s.line.drop s.atHand.length).tail) ∧
    ∀ cs, s.charset = .known cs →
      (∀ bytes, s.decode bytes = .ok (cs.decode bytes)) ∧
      ((∃ text, Act.outcome (receiveText cap s) = .ok text) ∨
        Act.outcome (receiveText cap s) = .error (.loss s.barrier.loss) ∨
        Act.outcome (receiveText cap s) = .error (.refusal (.violation (.textTooLong cap)))) := by
  have decoded (cs : Charset) (known : s.charset = .known cs) (bytes : Bytes) :
      s.decode bytes = .ok (cs.decode bytes) := by
    rw [Stream.decode, known]
    rfl
  refine ⟨Stream.receiveText_of_nothing cap isOpen, ?zero, ?long, ?short, fun cs known =>
    ⟨decoded cs known, ?outcomes⟩⟩
  case zero =>
    intro i within zero first
    obtain ⟨hi, -⟩ := List.getElem?_eq_some_iff.1 zero
    have something : s.atHand ≠ [] := List.ne_nil_of_length_pos (by omega)
    rw [← Stream.drop_line isOpen hi]
    exact Stream.receiveText_of_ended isOpen something (Stream.scan_of_zero within zero first)
  case long =>
    intro something none long
    rw [← Stream.drop_line isOpen long]
    exact Stream.receiveText_of_full isOpen something (Stream.scan_of_long none long)
  case short =>
    intro none short
    rw [← Stream.beyond_line isOpen]
    by_cases something : s.atHand = []
    · have nothing : Link.arrived s.line = [] := by rw [← Stream.atHand_eq_arrived isOpen, something]
      rw [Link.beyond_eq_self nothing]
      exact Stream.receiveText_of_nothing cap isOpen something
    · exact Stream.receiveText_of_open isOpen something (Stream.scan_of_short none short)
  case outcomes =>
    by_cases something : s.atHand = []
    · exact .inr (.inl (Stream.receiveText_of_nothing cap isOpen something).outcome)
    cases hscan : Stream.scan cap s.atHand with
    | ended text rest =>
      have comes := Stream.receiveText_of_ended isOpen something hscan
      exact .inl ⟨_, comes.outcome.trans (decoded cs known text)⟩
    | full rest => exact .inr (.inr (Stream.receiveText_of_full isOpen something hscan).outcome)
    | «open» text left => exact .inr (.inl (Stream.receiveText_of_open isOpen something hscan).outcome)

/-- A text of three bytes in two deliveries, with its zero byte at the front of the third: there has to be
room for the zero byte too. -/
theorem zero_byte_behind_the_room :
    let s : Stream :=
      { unread := [0x61], link := { incoming := [.bytes [0x62, 0x63], .bytes [0, 0x64], .fault "reset"] } }
    s.closed = false ∧
      s.Comes (receiveText 3 s) (.error (.refusal (.violation (.textTooLong 3)))) (s.line.drop 3) ∧
      s.Comes (receiveText 4 s) (.ok "abc") (s.line.drop 4) := by
  intro s
  obtain ⟨-, -, long, -⟩ := text_ends_at_zero_room_or_barrier 3 (s := s) rfl
  obtain ⟨-, zero, -⟩ := text_ends_at_zero_room_or_barrier 4 (s := s) rfl
  refine ⟨rfl, long (by decide +kernel) (by decide +kernel) (by decide +kernel), ?_⟩
  have comes := zero 3 (by decide) (by decide +kernel) (by decide +kernel)
  rwa [show s.decode (s.atHand.take 3) = .ok "abc" by decide +kernel] at comes

end SimpleQuery
