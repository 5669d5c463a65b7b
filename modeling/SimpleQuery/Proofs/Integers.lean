import SimpleQuery.Proofs.Outgoing
import SimpleQuery.Proofs.Retrying

/-!
# Integers on their way

An integer is written by one side of a stream and read by the other. The side that writes drops the high bits
of a number in two's complement and puts the rest in order; the side that reads puts bytes together that come
in pieces. In any row of widths the two undo each other.

* `Width.decode_encode`, `Width.encode_decode` — one integer, in both directions.
* `Stream.Sends` — integers that are staged in a row, with the stream flushed at any points.
* `Stream.outgoing_of_sends` — what that adds to the bytes that go out.
* `Stream.reads_integers` — what is read from bytes in a row of widths.
* `integers_are_carried` — both sides together.
-/

set_option autoImplicit false

namespace SimpleQuery

namespace Width

/-- What is read back is the integer modulo the range of the width. -/
theorem decode_encode (w : Width) (v : Int) :
    BigEndian.decode (w.encode v) = (v % Int.pow 2 (8 * w.bytes)).toNat := by
  have range : (w.range : Int) = Int.pow 2 (8 * w.bytes) := by cases w <;> rfl
  have positive : 0 < Int.pow 2 (8 * w.bytes) := by cases w <;> decide
  have small : (v % Int.pow 2 (8 * w.bytes)).toNat < w.range := by
    have := Int.emod_lt_of_pos v positive
    rw [← range] at this ⊢
    omega
  rw [encode, BigEndian.decode_encode, range]
  exact Nat.mod_eq_of_lt small

/-- Writing the number that is read from as many bytes reproduces them. -/
theorem encode_decode {w : Width} {bytes : Bytes} (h : bytes.length = w.bytes) :
    w.encode (BigEndian.decode bytes : Int) = bytes := by
  have small : BigEndian.decode bytes < w.range := by
    rw [range, ← h]
    exact BigEndian.decode_lt bytes
  rw [encode, ← Int.natCast_emod, Int.toNat_natCast, Nat.mod_eq_of_lt small, ← h]
  exact BigEndian.encode_decode bytes

/-- The bytes of integers in a row. -/
def spell (items : List (Int × Width)) : Bytes := items.flatMap fun item => item.2.encode item.1

/-- The number of bytes of a row of integers in these widths. -/
def total : List Width → Nat
  | [] => 0
  | w :: widths => w.bytes + total widths

/-- The numbers that bytes spell in a row of widths. -/
def numbers : List Width → Bytes → List Nat
  | [], _ => []
  | w :: widths, bytes => BigEndian.decode (bytes.take w.bytes) :: numbers widths (bytes.drop w.bytes)

theorem length_spell (items : List (Int × Width)) :
    (spell items).length = total (items.map Prod.snd) := by
  induction items with
  | nil => rfl
  | cons item items ih =>
    rw [spell, List.flatMap_cons, List.length_append, length_encode, ← spell, ih]
    rfl

/-- The numbers that a row of integers spells are the integers modulo the ranges. -/
theorem numbers_spell (items : List (Int × Width)) :
    numbers (items.map Prod.snd) (spell items) =
      items.map fun item => (item.1 % Int.pow 2 (8 * item.2.bytes)).toNat := by
  induction items with
  | nil => rfl
  | cons item items ih =>
    have width : item.2.bytes = (item.2.encode item.1).length := (length_encode _ _).symm
    rw [spell, List.flatMap_cons, ← spell, List.map_cons, numbers, width, List.take_left, List.drop_left,
      ih, decode_encode, List.map_cons]

/-- Bytes in a row of widths are spelled by the numbers that they spell. -/
theorem spell_numbers {widths : List Width} {bytes : Bytes} (h : bytes.length = total widths) :
    spell (((numbers widths bytes).map Int.ofNat).zip widths) = bytes := by
  induction widths generalizing bytes with
  | nil => exact (List.length_eq_zero_iff.1 h).symm
  | cons w widths ih =>
    rw [total] at h
    have first : (bytes.take w.bytes).length = w.bytes := List.length_take_of_le (by omega)
    have rest : (bytes.drop w.bytes).length = total widths := by
      rw [List.length_drop]
      omega
    calc spell (((numbers (w :: widths) bytes).map Int.ofNat).zip (w :: widths))
        = w.encode (BigEndian.decode (bytes.take w.bytes) : Int) ++
            spell (((numbers widths (bytes.drop w.bytes)).map Int.ofNat).zip widths) := rfl
      _ = bytes.take w.bytes ++ bytes.drop w.bytes := by rw [encode_decode first, ih rest]
      _ = bytes := List.take_append_drop _ _

end Width

namespace Stream

/-! ## The side that writes -/

/-- The commands stage these integers in this order, and may flush the stream before and behind each. -/
inductive Sends : List (Int × Width) → List Command → Prop where
  | done : Sends [] []
  | flush {items : List (Int × Width)} {commands : List Command} (rest : Sends items commands) :
      Sends items (.flush :: commands)
  | integer {items : List (Int × Width)} {commands : List Command} (v : Int) (w : Width)
      (rest : Sends items commands) : Sends ((v, w) :: items) (.sendInteger v w.bytes :: commands)

namespace Sends

variable {items : List (Int × Width)} {commands : List Command}

/-- What they stage is the integers in a row. -/
theorem staged (h : Sends items commands) : commands.flatMap Command.staged = Width.spell items := by
  induction h with
  | done => rfl
  | flush _ ih => exact ih
  | integer v w _ ih =>
    have here : Command.staged (.sendInteger v w.bytes) = w.encode v := by
      rw [Command.staged, Command.staging, width, Width.ofNat?_bytes]
      rfl
    rw [List.flatMap_cons, here, ih]
    rfl

theorem sending (h : Sends items commands) : ∀ command ∈ commands, command.isSending = true := by
  induction h with
  | done => simp
  | flush _ ih => exact List.forall_mem_cons.2 ⟨rfl, ih⟩
  | integer v w _ ih => exact List.forall_mem_cons.2 ⟨rfl, ih⟩

theorem noClose (h : Sends items commands) : .close ∉ commands := by
  induction h with
  | done => simp
  | flush _ ih | integer _ _ _ ih => simp [ih]

end Sends

/-- All bytes that were sent, and behind them those that wait to be. -/
def outgoing (s : Stream) : Bytes := s.link.sent.flatten ++ s.staged

/-- Where no call to send fails, integers that are staged in a row go out in a row. -/
theorem outgoing_of_sends (handling : NoticeHandling) {items : List (Int × Width)}
    {commands : List Command} (h : Sends items commands) {s : Stream}
    (noFailure : ∀ reason, .error (.loss (.sendFailed reason)) ∉ (performAll handling commands s).1) :
    (performAll handling commands s).2.outgoing = s.outgoing ++ Width.spell items := by
  have whole := (dispatches_performAll handling h.sending s).whole (all_sent h.noClose noFailure)
  rw [outgoing, whole, h.staged, outgoing, List.append_assoc]

/-! ## The side that reads -/

/-- The calls for a row of integers in these widths. -/
def calls (widths : List Width) : List Command := widths.map fun w => .receiveInteger w.bytes

/-- Bytes at hand are read as the numbers that they spell, and what is behind them is left. -/
theorem reads_integers (handling : NoticeHandling) {widths : List Width} {bytes trailing : Bytes}
    {s : Stream} (isOpen : s.closed = false) (length : bytes.length = Width.total widths)
    (hand : s.atHand = bytes ++ trailing) :
    (performAll handling (calls widths) s).1 =
        (Width.numbers widths bytes).map (fun n => .ok (.number n)) ∧
      (performAll handling (calls widths) s).2.closed = false ∧
      (performAll handling (calls widths) s).2.atHand = trailing := by
  induction widths generalizing bytes s with
  | nil =>
    rw [List.length_eq_zero_iff.1 length] at hand
    exact ⟨rfl, isOpen, hand⟩
  | cons w widths ih =>
    rw [Width.total] at length
    obtain ⟨t, hrun⟩ := read_enough (n := w.bytes) isOpen (by
      rw [hand, List.length_append]
      omega)
    rw [hand, List.take_append_of_le_length (by omega)] at hrun
    obtain ⟨still, -, hleft, -⟩ := content_read isOpen hrun
    have whole : s.atHand = bytes.take w.bytes ++ (bytes.drop w.bytes ++ trailing) := by
      rw [hand, ← List.append_assoc, List.take_append_drop]
    have left : t.atHand = bytes.drop w.bytes ++ trailing := List.append_cancel_left (hleft.symm.trans whole)
    have here : perform handling (.receiveInteger w.bytes) s =
        .ok (.number (BigEndian.decode (bytes.take w.bytes))) t := by
      rw [perform_receiveInteger handling (Width.ofNat?_bytes w)]
      simp only [Functor.map, EStateM.map, hrun]
    obtain ⟨outcomes, later⟩ := ih still (by rw [List.length_drop]; omega) left
    simp only [calls, List.map_cons, performAll, here, Act.state_ok, Act.outcome_ok]
    exact ⟨congrArg _ outcomes, later⟩

end Stream

open SimpleQuery.Stream (Sends calls performAll)

/-- **Integers are carried.** Let integers of any size and sign be staged in a row, each in a width of its own,
with the stream flushed at any points, and let no call to send fail. What this adds to the bytes that go out is
read, in the same row of widths, as the integers modulo the ranges of the widths, however it is cut and
whatever is behind it, and exactly what is behind it is left. The other way round, the numbers that are read
from any bytes in a row of widths, staged in the same widths, add just these bytes to those that go out. -/
theorem integers_are_carried (handling : NoticeHandling) :
    (∀ items commands s, Sends items commands →
      (∀ reason, .error (.loss (.sendFailed reason)) ∉ (performAll handling commands s).1) →
      ∃ carried, (performAll handling commands s).2.outgoing = s.outgoing ++ carried ∧
        ∀ r trailing, r.closed = false → r.atHand = carried ++ trailing →
          (performAll handling (calls (items.map Prod.snd)) r).1 =
              items.map (fun item => .ok (.number (item.1 % Int.pow 2 (8 * item.2.bytes)).toNat)) ∧
            (performAll handling (calls (items.map Prod.snd)) r).2.atHand = trailing) ∧
    ∀ widths bytes r trailing, bytes.length = Width.total widths → r.closed = false →
      r.atHand = bytes ++ trailing →
      ∃ numbers : List Nat,
        (performAll handling (calls widths) r).1 = numbers.map (fun n => .ok (.number n)) ∧
          (performAll handling (calls widths) r).2.atHand = trailing ∧
          ∀ commands s, Sends ((numbers.map Int.ofNat).zip widths) commands →
            (∀ reason, .error (.loss (.sendFailed reason)) ∉ (performAll handling commands s).1) →
            (performAll handling commands s).2.outgoing = s.outgoing ++ bytes := by
  refine ⟨?there, ?back⟩
  case there =>
    intro items commands s sends noFailure
    refine ⟨Width.spell items, Stream.outgoing_of_sends handling sends noFailure, ?_⟩
    intro r trailing isOpen hand
    obtain ⟨outcomes, -, left⟩ :=
      Stream.reads_integers handling isOpen (Width.length_spell items) hand
    rw [Width.numbers_spell, List.map_map] at outcomes
    exact ⟨outcomes, left⟩
  case back =>
    intro widths bytes r trailing length isOpen hand
    obtain ⟨outcomes, -, left⟩ := Stream.reads_integers handling isOpen length hand
    refine ⟨Width.numbers widths bytes, outcomes, left, ?_⟩
    intro commands s sends noFailure
    rw [Stream.outgoing_of_sends handling sends noFailure, Width.spell_numbers length]

/-- A negative and two large integers in three widths, flushed in the middle of the row, are read from pieces
that end within them; and what is read goes out again as it came. -/
theorem three_integers_across_pieces :
    let items : List (Int × Width) := [(-2, .four), (0x1FFFF, .one), (0x400000000000000102, .two)]
    let numbers : List Nat := [0xFFFFFFFE, 0xFF, 0x0102]
    let s : Stream := { link := {} }
    let r : Stream := { unread := [0xFF], link := { incoming :=
      [.bytes [0xFF, 0xFF, 0xFE, 0xFF, 1], .bytes [2, 0x5A], .bytes []] } }
    let first := performAll .collected [.sendInteger (-2) 4, .flush, .sendInteger 0x1FFFF 1,
      .sendInteger 0x400000000000000102 2, .flush, .flush] s
    let read := performAll .collected (calls (items.map Prod.snd)) r
    let again := performAll .collected
      [.sendInteger 0xFFFFFFFE 4, .sendInteger 0xFF 1, .flush, .sendInteger 0x0102 2] s
    first.2.link.sent = [[0xFF, 0xFF, 0xFF, 0xFE], [0xFF, 1, 2]] ∧
      read.1 = numbers.map (fun n => .ok (.number n)) ∧ read.2.atHand = [0x5A] ∧
      again.2.outgoing = first.2.outgoing := by
  intro items numbers s r first read again
  obtain ⟨there, back⟩ := integers_are_carried .collected
  have sends : Sends items [.sendInteger (-2) 4, .flush, .sendInteger 0x1FFFF 1,
      .sendInteger 0x400000000000000102 2, .flush, .flush] :=
    .integer _ .four (.flush (.integer _ .one (.integer _ .two (.flush (.flush .done)))))
  have done : first.1 = List.replicate 6 (.ok .done) := by decide +kernel
  obtain ⟨carried, out, reads⟩ := there items _ s sends (by
    show ∀ reason, .error (.loss (.sendFailed reason)) ∉ first.1
    simp [done])
  have bytes : first.2.outgoing = [0xFF, 0xFF, 0xFF, 0xFE, 0xFF, 1, 2] := by decide +kernel
  obtain rfl : carried = [0xFF, 0xFF, 0xFF, 0xFE, 0xFF, 1, 2] := out.symm.trans bytes
  obtain ⟨outcomes, left⟩ := reads r [0x5A] rfl (by decide +kernel)
  refine ⟨by decide +kernel, outcomes, left, ?_⟩
  obtain ⟨found, hfound, -, writes⟩ :=
    back (items.map Prod.snd) [0xFF, 0xFF, 0xFF, 0xFE, 0xFF, 1, 2] r [0x5A] rfl rfl (by decide +kernel)
  have same : found = numbers := by
    refine (List.map_inj_right fun a b h => ?_).1 (hfound.symm.trans outcomes)
    cases h
    rfl
  subst same
  have done' : again.1 = List.replicate 4 (.ok .done) := by decide +kernel
  have whole := writes _ s (.integer _ .four (.integer _ .one (.flush (.integer _ .two .done)))) (by
    show ∀ reason, .error (.loss (.sendFailed reason)) ∉ again.1
    simp [done'])
  exact whole.trans bytes.symm

end SimpleQuery
