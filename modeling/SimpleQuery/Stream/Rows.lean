import SimpleQuery.Bundle
import SimpleQuery.Stream.Receive

/-!
# Reading columns and rows

Columns come as a count and, for each, a name, a type and a type length. A row comes as a bitmap with
one bit for each column, the first in the high bit of the first byte, and a payload for each bit that
is set.

Model of `receive_fields`, `bitmap_length` and `receive_tuple`.
-/

set_option autoImplicit false

namespace SimpleQuery.Stream

/-- The most bytes of a column's name. -/
def maxColumnName : Nat := 8192

/-- Reads one column. -/
def receiveColumn : Act Stream Column := do
  let name ← receiveText maxColumnName
  let typeOid ← receiveInteger .four
  let typeLength ← receiveInteger .two
  return { name, typeOid, typeLength }

/-- Reads the columns of a row group. -/
def receiveColumns : Act Stream (List Column) := do
  let count ← receiveInteger .two
  (List.replicate count ()).mapM fun _ => receiveColumn

/-- The number of bytes that hold one bit for each column. -/
def bitmapLength (columns : Nat) : Nat := (columns + 7) / 8

/-- The bits of a byte, the highest first. -/
def bits (b : UInt8) : List Bool := (List.range 8).map fun k => b.toNat.testBit (7 - k)

/-- Which of the columns have a payload. -/
def presence (columns : Nat) (bitmap : Bytes) : List Bool := (bitmap.flatMap bits).take columns

/-- The length of the payload that a length word announces. Words in text rows count their own four
bytes. -/
def payloadLength (binary : Bool) (word : Nat) : Nat := if binary then word else word - 4

/-- Reads one payload. -/
def receivePayload (binary : Bool) : Act Stream Bytes := do
  receive (payloadLength binary (← receiveInteger .four))

/-- Reads what one column has in a row. -/
def receiveSlot (binary present : Bool) : Act Stream (Option Bytes) :=
  if present then some <$> receivePayload binary else pure none

/-- Reads one row. -/
def receiveRow (columns : Nat) (binary : Bool) : Act Stream Row := do
  let bitmap ← receive (bitmapLength columns)
  (presence columns bitmap).mapM (receiveSlot binary)

theorem spends_receiveColumn : Spends receiveColumn :=
  Spends.bind (spends_receiveText _) fun _ => Spends.bind (spends_receiveInteger _) fun _ =>
    Spends.bind (spends_receiveInteger _) fun _ => Spends.pure _

theorem spends_receiveColumns : Spends receiveColumns :=
  Spends.bind (spends_receiveInteger _) fun _ => Spends.mapM (fun _ => spends_receiveColumn) _

theorem spends_receiveSlot (binary present : Bool) : Spends (receiveSlot binary present) := by
  cases present with
  | false => exact Spends.pure _
  | true => exact Spends.map _ (Spends.bind (spends_receiveInteger _) fun _ => spends_receive _)

theorem spends_receiveRow (columns : Nat) (binary : Bool) : Spends (receiveRow columns binary) :=
  Spends.bind (spends_receive _) fun _ => Spends.mapM (spends_receiveSlot binary) _

@[simp] theorem length_bits (b : UInt8) : (bits b).length = 8 := by simp [bits]

/-- A bitmap of the right length has a bit for each column. -/
theorem length_presence {columns : Nat} {bitmap : Bytes} (h : bitmap.length = bitmapLength columns) :
    (presence columns bitmap).length = columns := by
  have : (bitmap.flatMap bits).length = 8 * bitmap.length := by
    induction bitmap generalizing columns with
    | nil => rfl
    | cons b r ih =>
      have := @ih (8 * r.length) (by simp only [bitmapLength]; omega)
      simp only [List.flatMap_cons, List.length_append, length_bits, List.length_cons, this]
      omega
  simp only [presence, List.length_take, this, h, bitmapLength]
  omega

end SimpleQuery.Stream
