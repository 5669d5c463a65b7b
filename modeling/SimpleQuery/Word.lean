/-!
# Fixed-width words

Integers travel big-endian in one, two or four bytes.

* `BigEndian.decode_encode` — reading back a word gives the number modulo the word's range;
* `BigEndian.encode_decode` — writing the number read from `k` bytes reproduces those bytes.

Model of `_int_format`, with `struct.pack` and `struct.unpack`.
-/

set_option autoImplicit false

namespace SimpleQuery

/-- Bytes as they travel, first byte first. -/
abbrev Bytes := List UInt8

namespace BigEndian

/-- How many numbers `k` bytes can hold. -/
def range (k : Nat) : Nat := Nat.pow 256 k

theorem range_succ (k : Nat) : range (k + 1) = range k * 256 := rfl

theorem range_pos (k : Nat) : 0 < range k := Nat.pow_pos (by decide)

/-- The `k` low bytes of `v`, most significant first. -/
def encode : Nat → Nat → Bytes
  | 0, _ => []
  | k + 1, v => UInt8.ofNat (v / range k) :: encode k v

/-- The number that the bytes spell, most significant first. -/
def decode (bytes : Bytes) : Nat :=
  bytes.foldl (fun acc b => acc * 256 + b.toNat) 0

@[simp] theorem length_encode (k v : Nat) : (encode k v).length = k := by
  induction k with
  | zero => rfl
  | succ k ih => simp [encode, ih]

theorem foldl_eq (acc : Nat) (bytes : Bytes) :
    bytes.foldl (fun acc b => acc * 256 + b.toNat) acc = acc * range bytes.length + decode bytes := by
  induction bytes generalizing acc with
  | nil => simp [decode, range]
  | cons b r ih =>
    simp only [decode, List.foldl_cons, List.length_cons, range_succ, Nat.zero_mul, Nat.zero_add]
    rw [ih, ih b.toNat, Nat.add_mul, Nat.mul_assoc, Nat.mul_comm 256, Nat.add_assoc]

theorem decode_cons (b : UInt8) (r : Bytes) :
    decode (b :: r) = b.toNat * range r.length + decode r := by
  simp only [decode, List.foldl_cons, Nat.zero_mul, Nat.zero_add]
  exact foldl_eq _ _

theorem decode_lt (bytes : Bytes) : decode bytes < range bytes.length := by
  induction bytes with
  | nil => simp [decode, range]
  | cons b r ih =>
    rw [decode_cons, List.length_cons, range_succ]
    have hb : b.toNat ≤ 255 := Nat.le_of_lt_succ b.toNat_lt
    have : b.toNat * range r.length ≤ 255 * range r.length := Nat.mul_le_mul_right _ hb
    omega

/-- A word holds its number modulo the word's range. -/
theorem decode_encode (k v : Nat) : decode (encode k v) = v % range k := by
  induction k with
  | zero => simp [encode, decode, range, Nat.mod_one]
  | succ k ih =>
    rw [range_succ, Nat.mod_mul, encode, decode_cons, ih, length_encode, UInt8.toNat_ofNat',
      Nat.add_comm, Nat.mul_comm]

/-- The high part of the number has no part in its low bytes. -/
theorem encode_add_mul (k a v : Nat) : encode k (a * range k + v) = encode k v := by
  induction k generalizing a with
  | zero => rfl
  | succ k ih =>
    have e : a * range (k + 1) + v = (a * 256) * range k + v := by
      rw [range_succ, Nat.mul_comm (range k), Nat.mul_assoc]
    have h : (a * 256 * range k + v) / range k = a * 256 + v / range k := by
      rw [Nat.add_comm, Nat.add_mul_div_right _ _ (range_pos k), Nat.add_comm]
    rw [e, encode, encode, ih, h]
    congr 1
    apply UInt8.toNat_inj.1
    simp only [UInt8.toNat_ofNat']
    omega

/-- The bytes are recovered from the number they spell. -/
theorem encode_decode (bytes : Bytes) : encode bytes.length (decode bytes) = bytes := by
  induction bytes with
  | nil => rfl
  | cons b r ih =>
    rw [List.length_cons, encode, decode_cons, encode_add_mul, ih, Nat.add_comm,
      Nat.add_mul_div_right _ _ (range_pos _), Nat.div_eq_of_lt (decode_lt r), Nat.zero_add, UInt8.ofNat_toNat]

end BigEndian

/-- The widths in which integers travel. -/
inductive Width where
  | one
  | two
  | four
  deriving DecidableEq, Repr

namespace Width

/-- The number of bytes of a width. -/
def bytes : Width → Nat
  | .one => 1
  | .two => 2
  | .four => 4

/-- The width of that many bytes, if integers travel in it. -/
def ofNat? : Nat → Option Width
  | 1 => some .one
  | 2 => some .two
  | 4 => some .four
  | _ => none

theorem ofNat?_bytes (w : Width) : ofNat? w.bytes = some w := by
  cases w <;> rfl

/-- How many numbers a width can hold. -/
def range (w : Width) : Nat := BigEndian.range w.bytes

/-- An integer in two's complement, its high bits dropped. -/
def encode (w : Width) (v : Int) : Bytes :=
  BigEndian.encode w.bytes (v % (w.range : Int)).toNat

@[simp] theorem length_encode (w : Width) (v : Int) : (w.encode v).length = w.bytes :=
  BigEndian.length_encode _ _

end Width

end SimpleQuery
