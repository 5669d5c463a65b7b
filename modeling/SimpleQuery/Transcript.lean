import SimpleQuery.Response

/-!
# Transcripts

The messages of an answer, without the bytes that they travel in: which of them may follow which, what
they make of a response, and their bytes one behind the other.

Model of the message sequences that the protocol's document allows.
-/

set_option autoImplicit false

namespace SimpleQuery

/-- Messages in the order in which they are sent. -/
abbrev Transcript := List Message

/-- What the next message makes of a response, with the flush query that it may call for. Columns may
come once, and rows only after them. -/
def Response.advance (r : Response) (message : Message) : Except Violation Response :=
  match message, r.columns with
  | .columns _, some _ => .error .secondRowGroup
  | .row .., none => .error .rowBeforeColumns
  | .complete _, none => .ok (r.after message).flushed
  | _, _ => .ok (r.after message)

namespace Transcript

/-- The bytes of the messages, if the charset has all characters of their texts. -/
def encode? (cs : Charset) (transcript : Transcript) : Option Bytes :=
  (transcript.mapM (Message.encode? cs)).map List.flatten

/-- The notices among the messages. -/
def notices (transcript : Transcript) : List String :=
  transcript.filterMap fun
    | .notice notice => some notice
    | _ => none

/-- The flush queries that the messages call for: one for each status before any columns. -/
def flushes : Transcript → Nat
  | [] => 0
  | .columns _ :: _ => 0
  | .complete _ :: rest => flushes rest + 1
  | _ :: rest => flushes rest

end Transcript

namespace Message

/-- The cap on a message's text. -/
def cap : Message → Nat
  | .error _ | .notice _ => maxError
  | _ => maxStatus

/-- A text that travels whole: the charset has its characters, none of them spells a zero byte, and
with the zero byte at its end it is within the cap. -/
def TextFits (cs : Charset) (cap : Nat) (text : String) : Prop :=
  ∃ bytes, cs.encode? text = some bytes ∧ 0 ∉ bytes ∧ bytes.length < cap

/-- A column that travels whole. -/
def ColumnFits (cs : Charset) (column : Column) : Prop :=
  TextFits cs Stream.maxColumnName column.name ∧ column.typeOid < Width.four.range ∧
    column.typeLength < Width.two.range

/-- A row of so many columns that travels whole. -/
def RowFits (binary : Bool) (columns : Nat) (row : Row) : Prop :=
  row.length = columns ∧
    ∀ payload, some payload ∈ row → payload.length + (if binary then 0 else 4) < Width.four.range

/-- A message that travels whole, where `columns` are those that rows have. -/
def Fits (cs : Charset) (columns : Nat) (message : Message) : Prop :=
  match message with
  | .columns group => group.length < Width.two.range ∧ ∀ column ∈ group, ColumnFits cs column
  | .row binary slots => RowFits binary columns slots
  | .complete text | .error text | .notice text | .portal text => TextFits cs message.cap text
  | .notification process text => process < Width.four.range ∧ TextFits cs message.cap text
  | .acknowledgment => True

end Message

end SimpleQuery
