import SimpleQuery.Word

/-!
# UTF-8 with replacement

A reader of UTF-8 that takes one byte at a time and never fails: bytes that begin no character are
each replaced, and a character that is cut short is replaced once, whatever its length so far.

* `Utf8.decode_encode_append` — reading what was written gives the text back, whatever follows it.

Model of `str.encode` and `bytes.decode` for `utf-8`.
-/

set_option autoImplicit false

namespace SimpleQuery.Utf8

/-- The character that stands for bytes that spell none. -/
def replacement : Char := '\uFFFD'

/-- A character of which the first bytes were read: how many are owed, the range of the next one,
and the number spelled so far. -/
structure Partial where
  owed : Nat
  low : Nat
  high : Nat
  value : Nat
  deriving DecidableEq, Repr

/-- A byte read between characters: the characters that it completes, and the one it begins. -/
def first (b : UInt8) : List Char × Option Partial :=
  let n := b.toNat
  if n < 0x80 then ([Char.ofNat n], none)
  else if n < 0xC2 then ([replacement], none)
  else if n < 0xE0 then ([], some ⟨1, 0x80, 0xBF, n % 32⟩)
  else if n < 0xF0 then
    ([], some ⟨2, if n = 0xE0 then 0xA0 else 0x80, if n = 0xED then 0x9F else 0xBF, n % 16⟩)
  else if n < 0xF5 then
    ([], some ⟨3, if n = 0xF0 then 0x90 else 0x80, if n = 0xF4 then 0x8F else 0xBF, n % 8⟩)
  else ([replacement], none)

/-- A byte read after the state `p`: the characters that it completes, and the one it leaves
unfinished. A byte out of range cuts the unfinished character short and is then read afresh. -/
def step (p : Option Partial) (b : UInt8) : List Char × Option Partial :=
  match p with
  | none => first b
  | some p =>
    let n := b.toNat
    if p.low ≤ n ∧ n ≤ p.high then
      let value := p.value * 64 + n % 64
      if p.owed = 1 then ([Char.ofNat value], none)
      else ([], some ⟨p.owed - 1, 0x80, 0xBF, value⟩)
    else (replacement :: (first b).1, (first b).2)

/-- The text of the bytes that follow the state `p`. -/
def decodeFrom : Option Partial → Bytes → List Char
  | none, [] => []
  | some _, [] => [replacement]
  | p, b :: r => (step p b).1 ++ decodeFrom (step p b).2 r

/-- The text that the bytes spell, with replacement. -/
def decode (bytes : Bytes) : List Char := decodeFrom none bytes

/-- The bytes of a text. -/
def encode (text : List Char) : Bytes := text.flatMap String.utf8EncodeChar

theorem decodeFrom_cons (p : Option Partial) (b : UInt8) (r : Bytes) :
    decodeFrom p (b :: r) = (step p b).1 ++ decodeFrom (step p b).2 r := by
  cases p <;> rfl

theorem ofNat_val (c : Char) : Char.ofNat c.val.toNat = c :=
  Char.ofNat_toNat c

theorem decodeFrom_last {low high value : Nat} {b : UInt8} (r : Bytes)
    (h : low ≤ b.toNat ∧ b.toNat ≤ high) :
    decodeFrom (some ⟨1, low, high, value⟩) (b :: r) =
      Char.ofNat (value * 64 + b.toNat % 64) :: decodeFrom none r := by
  simp [decodeFrom_cons, step, h]

theorem decodeFrom_more {k low high value : Nat} {b : UInt8} (r : Bytes)
    (h : low ≤ b.toNat ∧ b.toNat ≤ high) :
    decodeFrom (some ⟨k + 2, low, high, value⟩) (b :: r) =
      decodeFrom (some ⟨k + 1, 0x80, 0xBF, value * 64 + b.toNat % 64⟩) r := by
  simp [decodeFrom_cons, step, h]

/-- A leading byte of a two-byte character. -/
theorem decodeFrom_two {b : UInt8} (r : Bytes) (h : 0xC2 ≤ b.toNat ∧ b.toNat < 0xE0) :
    decodeFrom none (b :: r) = decodeFrom (some ⟨1, 0x80, 0xBF, b.toNat % 32⟩) r := by
  simp only [decodeFrom_cons, step, first]
  rw [if_neg (by omega), if_neg (by omega), if_pos (by omega)]
  rfl

/-- A leading byte of a three-byte character: the next byte rules out what two bytes can spell, and
the surrogates. -/
theorem decodeFrom_three {b : UInt8} (r : Bytes) (h : 0xE0 ≤ b.toNat ∧ b.toNat < 0xF0) :
    decodeFrom none (b :: r) =
      decodeFrom (some ⟨2, if b.toNat = 0xE0 then 0xA0 else 0x80,
        if b.toNat = 0xED then 0x9F else 0xBF, b.toNat % 16⟩) r := by
  simp only [decodeFrom_cons, step, first]
  rw [if_neg (by omega), if_neg (by omega), if_neg (by omega), if_pos (by omega)]
  rfl

/-- A leading byte of a four-byte character: the next byte rules out what three bytes can spell, and
what no character is. -/
theorem decodeFrom_four {b : UInt8} (r : Bytes) (h : 0xF0 ≤ b.toNat ∧ b.toNat < 0xF5) :
    decodeFrom none (b :: r) =
      decodeFrom (some ⟨3, if b.toNat = 0xF0 then 0x90 else 0x80,
        if b.toNat = 0xF4 then 0x8F else 0xBF, b.toNat % 8⟩) r := by
  simp only [decodeFrom_cons, step, first]
  rw [if_neg (by omega), if_neg (by omega), if_neg (by omega), if_neg (by omega),
    if_pos (by omega)]
  rfl

theorem scalar_range (c : Char) :
    c.val.toNat < 0xD800 ∨ (0xDFFF < c.val.toNat ∧ c.val.toNat < 0x110000) := c.valid

/-- A character's bytes are read as that character, whatever follows them. -/
theorem decodeFrom_encodeChar_append (c : Char) (r : Bytes) :
    decodeFrom none (String.utf8EncodeChar c ++ r) = c :: decodeFrom none r := by
  have hr := scalar_range c
  have hc := ofNat_val c
  simp only [String.utf8EncodeChar]
  generalize c.val.toNat = n at *
  split
  · have e : (UInt8.ofNat n).toNat = n := by rw [UInt8.toNat_ofNat']; omega
    simp only [List.cons_append, List.nil_append, decodeFrom_cons, step, first, e]
    rw [if_pos (by omega), hc]
    rfl
  split
  · have e₁ : (UInt8.ofNat (n / 64 % 32 + 192)).toNat = n / 64 + 192 := by
      rw [UInt8.toNat_ofNat']; omega
    have e₂ : (UInt8.ofNat (n % 64 + 128)).toNat = n % 64 + 128 := by
      rw [UInt8.toNat_ofNat']; omega
    simp only [List.cons_append, List.nil_append]
    rw [decodeFrom_two _ (by omega), decodeFrom_last _ (by omega), e₁, e₂]
    rw [show (n / 64 + 192) % 32 * 64 + (n % 64 + 128) % 64 = n by omega, hc]
  split
  · have e₁ : (UInt8.ofNat (n / 4096 % 16 + 224)).toNat = n / 4096 + 224 := by
      rw [UInt8.toNat_ofNat']; omega
    have e₂ : (UInt8.ofNat (n / 64 % 64 + 128)).toNat = n / 64 % 64 + 128 := by
      rw [UInt8.toNat_ofNat']; omega
    have e₃ : (UInt8.ofNat (n % 64 + 128)).toNat = n % 64 + 128 := by
      rw [UInt8.toNat_ofNat']; omega
    simp only [List.cons_append, List.nil_append]
    rw [decodeFrom_three _ (by omega), decodeFrom_more _ (by split <;> split <;> omega),
      decodeFrom_last _ (by omega), e₁, e₂, e₃]
    rw [show ((n / 4096 + 224) % 16 * 64 + (n / 64 % 64 + 128) % 64) * 64 + (n % 64 + 128) % 64 = n
      by omega, hc]
  · have e₁ : (UInt8.ofNat (n / 262144 % 8 + 240)).toNat = n / 262144 + 240 := by
      rw [UInt8.toNat_ofNat']; omega
    have e₂ : (UInt8.ofNat (n / 4096 % 64 + 128)).toNat = n / 4096 % 64 + 128 := by
      rw [UInt8.toNat_ofNat']; omega
    have e₃ : (UInt8.ofNat (n / 64 % 64 + 128)).toNat = n / 64 % 64 + 128 := by
      rw [UInt8.toNat_ofNat']; omega
    have e₄ : (UInt8.ofNat (n % 64 + 128)).toNat = n % 64 + 128 := by
      rw [UInt8.toNat_ofNat']; omega
    simp only [List.cons_append, List.nil_append]
    rw [decodeFrom_four _ (by omega), decodeFrom_more _ (by split <;> split <;> omega),
      decodeFrom_more _ (by omega), decodeFrom_last _ (by omega), e₁, e₂, e₃, e₄]
    rw [show (((n / 262144 + 240) % 8 * 64 + (n / 4096 % 64 + 128) % 64) * 64 +
      (n / 64 % 64 + 128) % 64) * 64 + (n % 64 + 128) % 64 = n by omega, hc]

/-- Reading what was written gives the text back, and then reads on from there. -/
theorem decode_encode_append (text : List Char) (r : Bytes) :
    decode (encode text ++ r) = text ++ decode r := by
  induction text with
  | nil => rfl
  | cons c t ih =>
    simp only [encode, List.flatMap_cons, List.append_assoc, decode] at ih ⊢
    rw [decodeFrom_encodeChar_append, ih, List.cons_append]

theorem decode_encode (text : List Char) : decode (encode text) = text := by
  simpa [decode, decodeFrom] using decode_encode_append text []

end SimpleQuery.Utf8
