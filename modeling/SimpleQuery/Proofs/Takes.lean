import SimpleQuery.Transcript

/-!
# Reading what was written

`Stream.Takes` says that an action reads exactly given bytes, where they are the first of those that are
unread, gives a certain value, and does nothing else. Each primitive of reading takes what its writer
wrote, and sequences of actions take the bytes one behind the other.

* `Stream.Takes.bind`, `Stream.takes_mapM` — sequences.
* `Stream.takes_receiveText`, `Stream.takes_receiveRow` — texts and rows.
* `Response.takes_receiveBody` — what follows the tag byte of a message that travels whole.
-/

set_option autoImplicit false

namespace SimpleQuery

namespace Stream

variable {α β : Type} {cs : Charset}

/-- Where these bytes are the first unread ones, the action reads them and no others, gives the value,
and leaves all else as it is. -/
def Takes (cs : Charset) (act : Act Stream α) (bytes : Bytes) (value : α) : Prop :=
  ∀ (s : Stream) (rest : Bytes), s.charset = .known cs → s.unread = bytes ++ rest →
    act s = .ok value { s with unread := rest }

namespace Takes

theorem pure (value : α) : Takes cs (Pure.pure value) [] value := by
  intro s rest _ hu
  rw [List.nil_append] at hu
  show EStateM.Result.ok value s = _
  rw [← hu]

theorem bind {act : Act Stream α} {next : α → Act Stream β} {first second : Bytes} {a : α} {b : β}
    (h : Takes cs act first a) (hn : Takes cs (next a) second b) :
    Takes cs (act >>= next) (first ++ second) b := by
  intro s rest hcs hu
  rw [List.append_assoc] at hu
  simp only [Bind.bind, EStateM.bind, h s (second ++ rest) hcs hu]
  exact hn { s with unread := second ++ rest } rest hcs rfl

/-- An action that is followed by nothing but a computation. -/
theorem give {act : Act Stream α} {bytes : Bytes} {a : α} (f : α → β) (h : Takes cs act bytes a) :
    Takes cs (act >>= fun a => Pure.pure (f a)) bytes (f a) := by
  rw [← List.append_nil bytes]
  exact h.bind (pure (f a))

theorem map {act : Act Stream α} {bytes : Bytes} {a : α} (f : α → β) (h : Takes cs act bytes a) :
    Takes cs (f <$> act) bytes (f a) := h.give f

end Takes

/-- A list of actions takes the bytes of each, one behind the other. Each item is what one action is
made from, the bytes that it takes, and what it gives. -/
theorem takes_mapM {f : β → Act Stream α} :
    ∀ items : List (β × Bytes × α), (∀ item ∈ items, Takes cs (f item.1) item.2.1 item.2.2) →
      Takes cs ((items.map (·.1)).mapM f) (items.map (·.2.1)).flatten (items.map (·.2.2))
  | [], _ => by
    rw [List.map_nil, List.mapM_nil]
    exact Takes.pure _
  | item :: items, h => by
    have first := h item List.mem_cons_self
    have others := takes_mapM items fun i hi => h i (List.mem_cons_of_mem _ hi)
    rw [List.map_cons, List.mapM_cons, List.map_cons, List.flatten_cons, List.map_cons]
    exact first.bind (others.give (item.2.2 :: ·))

/-! ## Bytes, integers and texts -/

theorem takes_receive (bytes : Bytes) : Takes cs (receive bytes.length) bytes bytes := by
  intro s rest _ hu
  have hcut : cut? bytes.length s.unread = some (bytes, rest) := by
    rw [hu, cut?_eq, if_pos (by rw [List.length_append]; omega), List.take_left, List.drop_left]
  show receiveFrom bytes.length s = _
  rw [receiveFrom, hcut]

theorem takes_receiveByte (b : UInt8) : Takes cs receiveByte [b] b :=
  (takes_receive [b]).give (List.headD · 0)

theorem takes_receiveInteger {width : Width} {n : Nat} (h : n < width.range) :
    Takes cs (receiveInteger width) (BigEndian.encode width.bytes n) n := by
  have hr : Takes cs (receiveInteger width) (BigEndian.encode width.bytes n)
      (BigEndian.decode (BigEndian.encode width.bytes n)) := by
    have hb : Takes cs (receive (BigEndian.encode width.bytes n).length) _ _ := takes_receive _
    rw [BigEndian.length_encode] at hb
    exact hb.give BigEndian.decode
  have hv : BigEndian.decode (BigEndian.encode width.bytes n) = n :=
    (BigEndian.decode_encode _ _).trans (Nat.mod_eq_of_lt h)
  rwa [hv] at hr

/-- A text without a zero byte ends at the first zero byte, if there is room for both. -/
theorem scan_text {room : Nat} {text : Bytes} (rest : Bytes) (hz : 0 ∉ text) (hr : text.length < room) :
    scan room (text ++ 0 :: rest) = .ended text rest := by
  induction text generalizing room with
  | nil =>
    obtain ⟨room, rfl⟩ := Nat.exists_eq_add_one_of_ne_zero (Nat.ne_zero_of_lt hr)
    rfl
  | cons b text ih =>
    obtain ⟨room, rfl⟩ := Nat.exists_eq_add_one_of_ne_zero (Nat.ne_zero_of_lt hr)
    obtain ⟨hb, hz⟩ : 0 ≠ b ∧ 0 ∉ text := by simpa using hz
    simp only [List.length_cons, Nat.add_lt_add_iff_right] at hr
    rw [List.cons_append, scan, if_neg (Ne.symm hb), ih hz hr]
    rfl

/-- A text that was found ends at the first zero byte, and there was room for both. -/
theorem scan_ended {room : Nat} {bytes text rest : Bytes} (h : scan room bytes = .ended text rest) :
    bytes = text ++ 0 :: rest ∧ 0 ∉ text ∧ text.length < room := by
  induction room generalizing bytes text with
  | zero => cases h
  | succ room ih =>
    cases bytes with
    | nil => cases h
    | cons b bytes =>
      simp only [scan] at h
      split at h
      · rename_i hb
        cases h
        simp [hb]
      · rename_i hb
        cases hs : scan room bytes with
        | full left => rw [hs] at h; cases h
        | «open» tail more => rw [hs] at h; cases h
        | ended tail left =>
          rw [hs] at h
          cases h
          obtain ⟨hbytes, hz, hroom⟩ := ih hs
          refine ⟨by rw [hbytes, List.cons_append], ?_, Nat.succ_lt_succ hroom⟩
          simp [Ne.symm hb, hz]

theorem takes_receiveText {cap : Nat} {text : String} {bytes : Bytes}
    (he : cs.encode? text = some bytes) (hz : 0 ∉ bytes) (hc : bytes.length < cap) :
    Takes cs (receiveText cap) (bytes ++ [0]) text := by
  intro s rest hcs hu
  rw [List.append_assoc, List.singleton_append] at hu
  have hne : s.unread ≠ [] := by rw [hu]; simp
  have hgather : gather cap s = .ok (some bytes) { s with unread := rest } := by
    show gatherFrom cap s = _
    rw [gatherFrom, hu, scan_text rest hz hc]
  have hdecode : Stream.decode bytes { s with unread := rest } = .ok text := by
    unfold Stream.decode Text.decodeIn
    simp only [hcs, Charset.decode_encode? he]
  simp only [receiveText, Bind.bind, EStateM.bind, await, if_neg hne, hgather, Act.get_eq, hdecode]
  rfl

/-! ## Columns -/

/-- A column that travels whole has bytes, and they are read as that column. -/
theorem takes_receiveColumn {column : Column} (h : Message.ColumnFits cs column) :
    ∃ bytes, Message.encodeColumn? cs column = some bytes ∧ Takes cs receiveColumn bytes column := by
  obtain ⟨⟨name, he, hz, hc⟩, hoid, hlength⟩ := h
  refine ⟨(name ++ [0]) ++ BigEndian.encode 4 column.typeOid ++ BigEndian.encode 2 column.typeLength, ?_, ?_⟩
  · simp only [Message.encodeColumn?, Message.encodeText?, he, Option.map_some]
  · rw [List.append_assoc]
    exact (takes_receiveText he hz hc).bind ((takes_receiveInteger hoid).bind
      ((takes_receiveInteger hlength).give (Column.mk column.name column.typeOid ·)))

/-- Columns that travel whole have bytes, and they are read as those columns. -/
theorem takes_receiveColumns {group : List Column} (hn : group.length < Width.two.range)
    (h : ∀ column ∈ group, Message.ColumnFits cs column) :
    ∃ encoded, group.mapM (Message.encodeColumn? cs) = some encoded ∧
      Takes cs receiveColumns (BigEndian.encode 2 group.length ++ encoded.flatten) group := by
  have items : ∃ items : List (Unit × Bytes × Column),
      items.map (·.2.2) = group ∧ items.map (·.1) = List.replicate group.length () ∧
      group.mapM (Message.encodeColumn? cs) = some (items.map (·.2.1)) ∧
      ∀ item ∈ items, Takes cs receiveColumn item.2.1 item.2.2 := by
    clear hn
    induction group with
    | nil => exact ⟨[], rfl, rfl, rfl, fun _ hi => (List.not_mem_nil hi).elim⟩
    | cons column group ih =>
      obtain ⟨bytes, he, ht⟩ := takes_receiveColumn (h column List.mem_cons_self)
      obtain ⟨items, hg, hu, hm, hi⟩ := ih fun c hc => h c (List.mem_cons_of_mem _ hc)
      refine ⟨((), bytes, column) :: items, ?_, ?_, ?_, ?_⟩
      · rw [List.map_cons, hg]
      · rw [List.map_cons, hu, List.length_cons, List.replicate_succ]
      · simp only [List.mapM_cons, he, hm, List.map_cons, bind, Option.bind, pure]
      · intro item hitem
        rcases List.mem_cons.1 hitem with rfl | hitem
        · exact ht
        · exact hi item hitem
  obtain ⟨items, hg, hu, hm, hi⟩ := items
  refine ⟨items.map (·.2.1), hm, (takes_receiveInteger hn).bind ?_⟩
  have hmap := takes_mapM (f := fun _ => receiveColumn) items hi
  rw [hu, hg] at hmap
  exact hmap

/-! ## Rows -/

theorem bits_packByte : ∀ b₀ b₁ b₂ b₃ b₄ b₅ b₆ b₇ : Bool,
    bits (Message.packByte [b₀, b₁, b₂, b₃, b₄, b₅, b₆, b₇]) = [b₀, b₁, b₂, b₃, b₄, b₅, b₆, b₇] := by
  decide +kernel

/-- The bits of so many packed bytes are the bits that were packed, with zeros behind the last. -/
theorem flatMap_bits_pack (present : List Bool) (count : Nat) :
    ((List.range count).map fun k => Message.packByte
      ((List.range 8).map fun j => present.getD (8 * k + j) false)).flatMap bits =
        (List.range (8 * count)).map fun i => present.getD i false := by
  induction count with
  | zero => rfl
  | succ count ih =>
    have hbyte : bits (Message.packByte ((List.range 8).map fun j => present.getD (8 * count + j) false)) =
        (List.range 8).map fun j => present.getD (8 * count + j) false := bits_packByte _ _ _ _ _ _ _ _
    rw [show List.range (count + 1) = List.range count ++ [count] from List.range_succ, List.map_append,
      List.flatMap_append, ih, Nat.mul_succ, List.range_add, List.map_append]
    simp only [List.map_cons, List.map_nil, List.flatMap_cons, List.flatMap_nil, List.append_nil, hbyte,
      List.map_map]
    rfl

/-- The bitmap of a row tells which of its slots have a payload. -/
theorem presence_pack (present : List Bool) :
    presence present.length (Message.pack present) = present := by
  unfold presence Message.pack
  rw [flatMap_bits_pack, ← List.map_take, List.take_range]
  have hle : present.length ≤ 8 * bitmapLength present.length := by
    unfold bitmapLength
    omega
  rw [Nat.min_eq_left hle]
  refine List.ext_getElem (by simp) fun i h₁ h₂ => ?_
  simp only [List.getElem_map, List.getElem_range]
  rw [List.getD_eq_getElem?_getD, List.getElem?_eq_getElem h₂, Option.getD_some]

theorem length_pack (present : List Bool) :
    (Message.pack present).length = bitmapLength present.length := by
  simp [Message.pack]

/-- What one slot of a row travels as. -/
def slotBytes (binary : Bool) : Option Bytes → Bytes
  | none => []
  | some payload => Message.encodePayload binary payload

theorem takes_receiveSlot {binary : Bool} {slot : Option Bytes}
    (h : ∀ payload, some payload = slot → payload.length + (if binary then 0 else 4) < Width.four.range) :
    Takes cs (receiveSlot binary slot.isSome) (slotBytes binary slot) slot := by
  cases slot with
  | none => exact Takes.pure none
  | some payload =>
    have hlt := h payload rfl
    refine Takes.map some ?_
    have hword : (if binary then payload.length else payload.length + 4) < Width.four.range := by
      cases binary with
      | true => exact hlt
      | false => exact hlt
    have hlength : payloadLength binary (if binary then payload.length else payload.length + 4) =
        payload.length := by
      cases binary with
      | true => rfl
      | false => exact Nat.add_sub_cancel ..
    refine (takes_receiveInteger hword).bind ?_
    rw [hlength]
    exact takes_receive payload

theorem flatMap_encodePayload (binary : Bool) (row : Row) :
    (row.filterMap id).flatMap (Message.encodePayload binary) = (row.map (slotBytes binary)).flatten := by
  induction row with
  | nil => rfl
  | cons slot row ih =>
    cases slot with
    | none => exact ih
    | some payload =>
      rw [List.filterMap_cons_some (show id (some payload) = some payload from rfl), List.flatMap_cons, ih]
      rfl

/-- A row that travels whole is read as that row. -/
theorem takes_receiveRow {binary : Bool} {columns : Nat} {row : Row}
    (h : Message.RowFits binary columns row) :
    Takes cs (receiveRow columns binary) (Message.encodeRow binary row) row := by
  obtain ⟨rfl, hfits⟩ := h
  have hbitmap : Takes cs (receive (Message.pack (row.map Option.isSome)).length) _ _ := takes_receive _
  have hpresence := presence_pack (row.map Option.isSome)
  rw [length_pack, List.length_map] at hbitmap
  rw [List.length_map] at hpresence
  refine hbitmap.bind ?_
  rw [hpresence, flatMap_encodePayload]
  have slots : ∀ item ∈ row.map fun slot => (slot.isSome, slotBytes binary slot, slot),
      Takes cs (receiveSlot binary item.1) item.2.1 item.2.2 := by
    intro item hitem
    obtain ⟨slot, hslot, rfl⟩ := List.mem_map.1 hitem
    refine takes_receiveSlot fun payload hp => hfits payload ?_
    rw [hp]
    exact hslot
  have hslots := takes_mapM _ slots
  simp only [List.map_map, Function.comp_def, List.map_id'] at hslots
  exact hslots

end Stream

/-! ## Messages -/

namespace Response

variable {cs : Charset}

theorem takes_text {cap : Nat} {text : String} (h : Message.TextFits cs cap text) :
    ∃ bytes, Message.encodeText? cs text = some bytes ∧ Stream.Takes cs (Stream.receiveText cap) bytes text := by
  obtain ⟨bytes, he, hz, hc⟩ := h
  exact ⟨bytes ++ [0], by rw [Message.encodeText?, he, Option.map_some],
    Stream.takes_receiveText he hz hc⟩

/-- What follows the tag byte of a message that travels whole, and that may come next, is read as that
message. -/
theorem takes_receiveBody {r next : Response} {message : Message}
    (fits : message.Fits cs (r.columns.getD []).length) (allowed : r.advance message = .ok next) :
    ∃ body, message.encodeBody? cs = some body ∧
      Stream.Takes cs (r.receiveBody message.tag) body message := by
  cases message with
  | columns group =>
    obtain ⟨hn, hcolumns⟩ := fits
    obtain ⟨encoded, he, ht⟩ := Stream.takes_receiveColumns hn hcolumns
    refine ⟨_, by rw [Message.encodeBody?, he, Option.map_some], ?_⟩
    have hnone : r.columns = none := by
      cases hc : r.columns with
      | none => rfl
      | some group => simp [Response.advance, hc] at allowed
    simp only [receiveBody, Message.tag, hnone]
    exact ht.map _
  | row binary slots =>
    refine ⟨_, rfl, ?_⟩
    obtain ⟨group, hsome⟩ : ∃ group, r.columns = some group := by
      cases hc : r.columns with
      | some group => exact ⟨group, rfl⟩
      | none => simp [Response.advance, hc] at allowed
    rw [hsome] at fits
    have ht : Stream.Takes cs _ _ (Message.row binary slots) := (Stream.takes_receiveRow fits).map _
    cases binary with
    | true =>
      simp only [receiveBody, Message.tag, receiveBody.receiveRow, hsome]
      exact ht
    | false =>
      simp only [receiveBody, Message.tag, receiveBody.receiveRow, hsome]
      exact ht
  | complete text | error text | notice text | portal text =>
    obtain ⟨bytes, he, ht⟩ := takes_text fits
    exact ⟨bytes, he, ht.map _⟩
  | acknowledgment =>
    exact ⟨[0], rfl, (Stream.takes_receiveByte 0).bind (Stream.Takes.pure Message.acknowledgment)⟩
  | notification process text =>
    obtain ⟨hp, htext⟩ := fits
    obtain ⟨bytes, he, ht⟩ := takes_text htext
    refine ⟨BigEndian.encode 4 process ++ bytes, ?_, ?_⟩
    · rw [Message.encodeBody?, he, Option.map_some]
    · exact (Stream.takes_receiveInteger hp).bind (ht.map _)

end Response

end SimpleQuery
