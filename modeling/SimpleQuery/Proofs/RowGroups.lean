import SimpleQuery.Proofs.Framing
import SimpleQuery.Proofs.Grammar

/-!
# Columns and rows byte for byte

The columns of a row group, and a row of it, are read off the first bytes of the line, and off no others.

* `Stream.Marks` — a bitmap that marks the payloads of a row. Bits behind those of the last column may be
  anything.
* `Stream.SpellsSlots` — the bytes of the slots of a row, one behind the other.
* `Stream.accepts_receiveRow` — a row is a bitmap and slots, and nothing else is.
* `rows_are_read_exactly` — what that means for rows as they are written, and for rows that are read.
* `columns_are_read_as_written` — columns come back as they were, with their names in any charset.
-/

set_option autoImplicit false

namespace SimpleQuery

namespace Stream

/-! ## Bitmaps -/

/-- A bit of a bitmap, the first in the high bit of the first byte, if the bitmap reaches so far. -/
def bitAt? (bitmap : Bytes) (i : Nat) : Option Bool :=
  bitmap[i / 8]?.map fun b => b.toNat.testBit (7 - i % 8)

theorem getElem?_bits {i : Nat} (h : i < 8) (b : UInt8) : (bits b)[i]? = some (b.toNat.testBit (7 - i)) := by
  simp [bits, List.getElem?_range h]

theorem getElem?_flatMap_bits (bitmap : Bytes) (i : Nat) :
    (bitmap.flatMap bits)[i]? = bitAt? bitmap i := by
  induction bitmap generalizing i with
  | nil => rfl
  | cons b bitmap ih =>
    rw [List.flatMap_cons]
    by_cases hi : i < 8
    · have hbyte : i / 8 = 0 := by omega
      have hbit : i % 8 = i := by omega
      rw [List.getElem?_append_left (by simpa using hi), getElem?_bits hi, bitAt?, hbyte, hbit]
      rfl
    · have hbyte : i / 8 = (i - 8) / 8 + 1 := by omega
      have hbit : (i - 8) % 8 = i % 8 := by omega
      rw [List.getElem?_append_right (by simpa using hi), length_bits, ih, bitAt?, bitAt?, hbyte,
        List.getElem?_cons_succ, hbit]

/-- The bitmap has as many bytes as the slots of the row need, and a bit for each slot that says whether
there is a payload. -/
structure Marks (bitmap : Bytes) (row : Row) : Prop where
  length : bitmap.length = bitmapLength row.length
  bit : ∀ i (h : i < row.length), bitAt? bitmap i = some row[i].isSome

theorem marks_iff {bitmap : Bytes} {row : Row} (h : bitmap.length = bitmapLength row.length) :
    Marks bitmap row ↔ row.map Option.isSome = presence row.length bitmap := by
  constructor
  · intro marks
    refine List.ext_getElem? fun i => ?_
    rw [presence, List.getElem?_take, getElem?_flatMap_bits, List.getElem?_map]
    by_cases hi : i < row.length
    · rw [if_pos hi, marks.bit i hi, List.getElem?_eq_getElem hi, Option.map_some]
    · rw [if_neg hi, List.getElem?_eq_none (Nat.le_of_not_lt hi), Option.map_none]
  · refine fun same => ⟨h, fun i hi => ?_⟩
    have hbit := congrArg (·[i]?) same
    simp only [presence, List.getElem?_take, if_pos hi, getElem?_flatMap_bits, List.getElem?_map,
      List.getElem?_eq_getElem hi, Option.map_some] at hbit
    exact hbit.symm

/-! ## Slots -/

/-- The slots of a row as they travel: nothing for a null, and otherwise a length word and as many bytes
as that announces. -/
inductive SpellsSlots (binary : Bool) : Row → Bytes → Prop where
  | nil : SpellsSlots binary [] []
  | null {row : Row} {bytes : Bytes} (others : SpellsSlots binary row bytes) :
      SpellsSlots binary (none :: row) bytes
  | payload {word : Nat} {payload : Bytes} {row : Row} {bytes : Bytes} (fits : word < Width.four.range)
      (announced : payload.length = payloadLength binary word) (others : SpellsSlots binary row bytes) :
      SpellsSlots binary (some payload :: row) (BigEndian.encode 4 word ++ payload ++ bytes)

theorem accepts_receivePayload (binary : Bool) :
    Accepts (receivePayload binary) fun _ bytes payload => ∃ word, word < Width.four.range ∧
      payload.length = payloadLength binary word ∧ bytes = BigEndian.encode 4 word ++ payload := by
  refine ((accepts_receiveInteger .four).bind fun word =>
    accepts_receive (payloadLength binary word)).congr fun _ bytes payload => ⟨?_, ?_⟩
  · rintro ⟨word, _, _, rfl, ⟨hword, rfl⟩, rfl, hlength⟩
    exact ⟨word, hword, hlength, rfl⟩
  · rintro ⟨word, hword, hlength, rfl⟩
    exact ⟨word, _, _, rfl, ⟨hword, rfl⟩, rfl, hlength⟩

/-- The slots that bits announce. -/
theorem accepts_slots (binary : Bool) (present : List Bool) :
    Accepts (present.mapM (receiveSlot binary)) fun _ bytes row =>
      row.map Option.isSome = present ∧ SpellsSlots binary row bytes := by
  induction present with
  | nil =>
    rw [List.mapM_nil]
    refine (Accepts.pure []).congr fun _ bytes row => ⟨?_, ?_⟩
    · rintro ⟨rfl, rfl⟩
      exact ⟨rfl, .nil⟩
    · rintro ⟨hmap, spelled⟩
      obtain rfl := List.map_eq_nil_iff.1 hmap
      cases spelled
      exact ⟨rfl, rfl⟩
  | cons bit present ih =>
    rw [List.mapM_cons]
    cases bit with
    | false =>
      refine ((Accepts.pure none).bind fun slot => ih.map (slot :: ·)).congr fun _ bytes row => ⟨?_, ?_⟩
      · rintro ⟨_, _, back, rfl, ⟨rfl, rfl⟩, others, ⟨hmap, spelled⟩, rfl⟩
        exact ⟨congrArg (false :: ·) hmap, .null spelled⟩
      · rintro ⟨hmap, spelled⟩
        cases spelled with
        | nil => cases hmap
        | payload => simp at hmap
        | null spelled =>
          simp only [List.map_cons, Option.isSome_none, List.cons.injEq, true_and] at hmap
          exact ⟨_, [], _, rfl, ⟨rfl, rfl⟩, _, ⟨hmap, spelled⟩, rfl⟩
    | true =>
      refine (((accepts_receivePayload binary).map some).bind fun slot =>
        ih.map (slot :: ·)).congr fun _ bytes row => ⟨?_, ?_⟩
      · rintro ⟨_, _, back, rfl, ⟨payload, ⟨word, hword, hlength, rfl⟩, rfl⟩, others, ⟨hmap, spelled⟩, rfl⟩
        exact ⟨congrArg (true :: ·) hmap, .payload hword hlength spelled⟩
      · rintro ⟨hmap, spelled⟩
        cases spelled with
        | nil => cases hmap
        | null => simp at hmap
        | payload hword hlength spelled =>
          simp only [List.map_cons, Option.isSome_some, List.cons.injEq, true_and] at hmap
          exact ⟨_, _, _, rfl, ⟨_, ⟨_, hword, hlength, rfl⟩, rfl⟩, _, ⟨hmap, spelled⟩, rfl⟩

/-- A row as it travels: a bitmap, and the slots that it marks. -/
theorem accepts_receiveRow (columns : Nat) (binary : Bool) :
    Accepts (receiveRow columns binary) fun _ bytes row => ∃ bitmap slots,
      bytes = bitmap ++ slots ∧ row.length = columns ∧ Marks bitmap row ∧ SpellsSlots binary row slots := by
  refine ((accepts_receive (bitmapLength columns)).bind fun bitmap =>
    accepts_slots binary (presence columns bitmap)).congr fun _ bytes row => ⟨?_, ?_⟩
  · rintro ⟨bitmap, _, slots, rfl, ⟨rfl, hlength⟩, hmap, spelled⟩
    have hcolumns : row.length = columns := by
      rw [← List.length_map (f := Option.isSome), hmap, length_presence hlength]
    subst hcolumns
    exact ⟨_, slots, rfl, rfl, (marks_iff hlength).2 hmap, spelled⟩
  · rintro ⟨bitmap, slots, rfl, rfl, marks, spelled⟩
    exact ⟨bitmap, _, slots, rfl, ⟨rfl, marks.length⟩, (marks_iff marks.length).1 marks, spelled⟩

/-- The bytes of slots are four for each payload, and the payloads. -/
theorem SpellsSlots.length {binary : Bool} {row : Row} {bytes : Bytes} (h : SpellsSlots binary row bytes) :
    bytes.length = 4 * (row.filterMap id).length + (row.filterMap id).flatten.length := by
  induction h with
  | nil => rfl
  | null others ih => exact ih
  | payload fits announced others ih =>
    simp only [List.length_append, BigEndian.length_encode, ih, List.filterMap_cons_some (f := id) rfl,
      List.length_cons, List.flatten_cons]
    omega

/-- Payloads that are not too long travel as slots. -/
theorem spellsSlots_of_fits {binary : Bool} {row : Row}
    (h : ∀ payload, some payload ∈ row → payload.length + (if binary then 0 else 4) < Width.four.range) :
    SpellsSlots binary row ((row.filterMap id).flatMap (Message.encodePayload binary)) := by
  induction row with
  | nil => exact .nil
  | cons slot row ih =>
    have others := ih fun payload hp => h payload (List.mem_cons_of_mem _ hp)
    cases slot with
    | none => exact .null others
    | some payload =>
      have hfits := h payload List.mem_cons_self
      rw [List.filterMap_cons_some (f := id) rfl, List.flatMap_cons]
      cases binary with
      | true => exact .payload hfits rfl others
      | false => exact .payload hfits (Nat.add_sub_cancel ..).symm others

end Stream

open Link (Arrival)
open SimpleQuery.Stream (Marks SpellsSlots bitmapLength)

/-- **Rows are read exactly.** Payloads that are not too long, behind any bitmap that marks them, are read
as that row, and what is behind them is left. And what is read as a row is a bitmap that marks its slots,
with no slot beyond the last byte of the bitmap, and for each payload a length word and as many bytes as
that announces. Of text rows the word counts its own four bytes, and words below four announce none. -/
theorem rows_are_read_exactly (columns : Nat) (binary : Bool) (s : Stream) :
    (∀ (row : Row) (bitmap : Bytes) (rest : List Arrival), Message.RowFits binary columns row →
      Marks bitmap row →
      s.line = (bitmap ++ (row.filterMap id).flatMap (Message.encodePayload binary)).map .byte ++ rest →
      ∃ t, s.receiveRow columns binary = .ok row t ∧ t.uncut = s.uncut.withLine rest) ∧
    ∀ (row : Row) (t : Stream), s.receiveRow columns binary = .ok row t →
      row.length = columns ∧ t.uncut = s.uncut.withLine t.line ∧
      ∃ bitmap slots, s.line = (bitmap ++ slots).map .byte ++ t.line ∧ Marks bitmap row ∧
        SpellsSlots binary row slots ∧ (bitmap ++ slots).length =
          bitmapLength columns + 4 * (row.filterMap id).length + (row.filterMap id).flatten.length := by
  have accepts := Stream.accepts_receiveRow columns binary
  constructor
  · rintro row bitmap rest ⟨hcolumns, hpayloads⟩ marks hline
    exact accepts.complete ⟨bitmap, _, rfl, hcolumns, marks, Stream.spellsSlots_of_fits hpayloads⟩ hline
  · intro row t hrun
    obtain ⟨_, ⟨bitmap, slots, rfl, rfl, marks, spelled⟩, hline, ht⟩ := accepts.sound hrun
    refine ⟨rfl, ht, bitmap, slots, hline, marks, spelled, ?_⟩
    rw [List.length_append, marks.length, spelled.length, Nat.add_assoc]

/-- Nine columns in two chunks, with the spare bits of the bitmap set: the first column has one byte, and
the last an empty payload. It is empty too where its word is two. -/
theorem row_of_nine_columns :
    let row : Row := some [7] :: (List.replicate 7 none ++ [some []])
    let s : Stream := { link := { incoming := [.bytes [0x80, 0xFF, 0, 0], .bytes [0, 5, 7, 0, 0, 0, 4, 9]] } }
    let short : Stream := { link := {}, unread := [0x80, 0xFF, 0, 0, 0, 5, 7, 0, 0, 0, 2] }
    (∃ t, s.receiveRow 9 false = .ok row t ∧ t.uncut = s.uncut.withLine [.byte 9]) ∧
      ∃ t, short.receiveRow 9 false = .ok row t ∧
        ∃ bitmap slots, short.line = (bitmap ++ slots).map .byte ++ t.line ∧ Marks bitmap row ∧
          SpellsSlots false row slots ∧ (bitmap ++ slots).length = 2 + 4 * 2 + 1 := by
  intro row s short
  have marks : Marks [0x80, 0xFF] row := ⟨by decide, by decide +kernel⟩
  have fits : Message.RowFits false 9 row := ⟨rfl, by simp [row]; decide⟩
  have read := Act.eq_ok_of_outcome (show Act.outcome (short.receiveRow 9 false) = .ok row by decide +kernel)
  obtain ⟨-, -, spelled⟩ := (rows_are_read_exactly 9 false short).2 row _ read
  exact ⟨(rows_are_read_exactly 9 false s).1 row [0x80, 0xFF] [.byte 9] fits marks (by decide +kernel),
    _, read, spelled⟩

/-- **Columns are read as they were written.** Names without a zero character that the charset can spell
in fewer bytes than there is room for, types and lengths that travel in their words, and no more columns
than a count can tell: the columns have bytes, and wherever these are first on the line they are read as
the same columns in the same order, and what is behind them is left. Decoding undoes encoding on every
text that the charset can spell. -/
theorem columns_are_read_as_written (cs : Charset) {group : List Column}
    (count : group.length < Width.two.range)
    (fits : ∀ column ∈ group, zeroChar ∉ column.name.toList ∧
      (∃ name, cs.encode? column.name = some name ∧ name.length < Stream.maxColumnName) ∧
      column.typeOid < Width.four.range ∧ column.typeLength < Width.two.range) :
    (∃ encoded, group.mapM (Message.encodeColumn? cs) = some encoded ∧
      ∀ (s : Stream) (rest : List Arrival), s.charset = .known cs →
        s.line = (BigEndian.encode 2 group.length ++ encoded.flatten).map .byte ++ rest →
        ∃ t, s.receiveColumns = .ok group t ∧ t.uncut = s.uncut.withLine rest) ∧
    ∀ (text : String) (bytes : Bytes), cs.encode? text = some bytes → cs.decode bytes = text := by
  have whole : ∀ column ∈ group, Message.ColumnFits cs column := by
    intro column hmem
    obtain ⟨nonzero, ⟨name, spelled, room⟩, typeOid, typeLength⟩ := fits column hmem
    have hz : 0 ∉ name := fun hzero => nonzero ((Charset.zero_mem_encode? spelled).1 hzero)
    exact ⟨⟨name, spelled, hz, room⟩, typeOid, typeLength⟩
  obtain ⟨encoded, hencoded, takes⟩ := Stream.takes_receiveColumns count whole
  refine ⟨⟨encoded, hencoded, fun s rest charset hline => ?_⟩, fun text bytes => Charset.decode_encode?⟩
  exact takes.of_line Stream.congruence_same.assembly.receiveColumns charset hline

/-- A name of one character that comes in two pieces. -/
theorem column_of_split_character :
    let group : List Column := [{ name := "é", typeOid := 25, typeLength := 65535 }]
    let s : Stream := { link := { incoming :=
      [.bytes [0, 1, 0xC3], .bytes [0xA9, 0, 0, 0, 0, 25, 0xFF, 0xFF, 0x5A]] } }
    ∃ t, s.receiveColumns = .ok group t ∧ t.uncut = s.uncut.withLine [.byte 0x5A] := by
  intro group s
  obtain ⟨⟨encoded, hencoded, read⟩, -⟩ := @columns_are_read_as_written .utf8 group (by decide)
    (by
      intro column hmem
      obtain rfl := List.mem_singleton.1 hmem
      exact ⟨by decide, ⟨[0xC3, 0xA9], by decide +kernel, by decide⟩, by decide, by decide⟩)
  obtain rfl : [[0xC3, 0xA9, 0, 0, 0, 0, 25, 0xFF, 0xFF]] = encoded := by
    have known : group.mapM (Message.encodeColumn? .utf8) =
        some [[0xC3, 0xA9, 0, 0, 0, 0, 25, 0xFF, 0xFF]] := by decide +kernel
    exact Option.some.inj (known.symm.trans hencoded)
  exact read s [.byte 0x5A] rfl (by decide +kernel)

end SimpleQuery
