import SimpleQuery.Stream.Rows
import SimpleQuery.Text.Charset

/-!
# Messages of the backend

Each message begins with a tag byte. `Message.encode?` writes a message as a backend does, and is what
reading is measured by.

Model of the tags that `ResponseReader` knows.
-/

set_option autoImplicit false

namespace SimpleQuery

/-- The kinds of message that a backend sends. -/
inductive Tag where
  | columns
  | binaryRow
  | textRow
  | complete
  | acknowledgment
  | error
  | notice
  | notification
  | portal
  deriving DecidableEq, Repr

namespace Tag

/-- The tag byte: a capital letter. -/
def byte : Tag → UInt8
  | .columns => 0x54
  | .binaryRow => 0x42
  | .textRow => 0x44
  | .complete => 0x43
  | .acknowledgment => 0x49
  | .error => 0x45
  | .notice => 0x4E
  | .notification => 0x41
  | .portal => 0x50

/-- All tags. -/
def all : List Tag :=
  [.columns, .binaryRow, .textRow, .complete, .acknowledgment, .error, .notice, .notification, .portal]

/-- The tag with a given byte. -/
def ofByte? (b : UInt8) : Option Tag := all.find? fun tag => tag.byte == b

theorem ofByte?_byte (tag : Tag) : ofByte? tag.byte = some tag := by
  cases tag <;> rfl

end Tag

/-- The most bytes of a status, a notification or the name of a portal, the zero byte included. -/
def maxStatus : Nat := 8192

/-- The most bytes of an error or a notice, the zero byte included. -/
def maxError : Nat := 4096

/-- A message of the backend. -/
inductive Message where
  | columns (group : List Column)
  | row (binary : Bool) (slots : Row)
  | complete (status : String)
  | acknowledgment
  | error (message : String)
  | notice (notice : String)
  | notification (process : Nat) (text : String)
  | portal (name : String)
  deriving DecidableEq, Repr

namespace Message

def tag : Message → Tag
  | .columns _ => .columns
  | .row true _ => .binaryRow
  | .row false _ => .textRow
  | .complete _ => .complete
  | .acknowledgment => .acknowledgment
  | .error _ => .error
  | .notice _ => .notice
  | .notification .. => .notification
  | .portal _ => .portal

/-- A text with the zero byte that ends it. -/
def encodeText? (cs : Charset) (text : String) : Option Bytes :=
  (cs.encode? text).map (· ++ [0])

/-- A column as it travels. -/
def encodeColumn? (cs : Charset) (column : Column) : Option Bytes :=
  (encodeText? cs column.name).map fun name =>
    name ++ BigEndian.encode 4 column.typeOid ++ BigEndian.encode 2 column.typeLength

/-- The byte that eight bits make, the first of them the highest. -/
def packByte (bits : List Bool) : UInt8 :=
  UInt8.ofNat (bits.foldl (fun acc bit => 2 * acc + bit.toNat) 0)

/-- The bytes that bits make, eight to a byte; a last byte that is not full is filled with zeros. -/
def pack (bits : List Bool) : Bytes :=
  (List.range (Stream.bitmapLength bits.length)).map fun k =>
    packByte ((List.range 8).map fun j => bits.getD (8 * k + j) false)

/-- A payload as it travels. -/
def encodePayload (binary : Bool) (payload : Bytes) : Bytes :=
  BigEndian.encode 4 (if binary then payload.length else payload.length + 4) ++ payload

/-- A row as it travels. -/
def encodeRow (binary : Bool) (row : Row) : Bytes :=
  pack (row.map Option.isSome) ++ (row.filterMap id).flatMap (encodePayload binary)

/-- What follows the tag byte, if the charset has all characters of the texts. -/
def encodeBody? (cs : Charset) : Message → Option Bytes
  | .columns group =>
    (group.mapM (encodeColumn? cs)).map fun encoded =>
      BigEndian.encode 2 group.length ++ encoded.flatten
  | .row binary slots => some (encodeRow binary slots)
  | .complete text | .error text | .notice text | .portal text => encodeText? cs text
  | .acknowledgment => some [0]
  | .notification process text => (encodeText? cs text).map (BigEndian.encode 4 process ++ ·)

/-- The bytes of a message. -/
def encode? (cs : Charset) (message : Message) : Option Bytes :=
  (encodeBody? cs message).map (message.tag.byte :: ·)

end Message

end SimpleQuery
