import SimpleQuery.Answer
import SimpleQuery.Response

/-!
# Commands on a stream

The operations of a stream as data, so that a run of them is a list.

Model of the methods of `PGStream`, with the functions that read and write through it.
-/

set_option autoImplicit false

namespace SimpleQuery.Stream

/-- An operation of a stream. -/
inductive Command where
  | sendByte (value : Single)
  | sendInteger (value : Int) (width : Nat)
  | send (bytes : Bytes)
  | sendPadded (bytes : Bytes) (width : Nat)
  | sendQuery (statement : Bytes)
  | flush
  | close
  | receiveByte
  | receiveInteger (width : Nat)
  | receiveText (cap : Nat)
  | receive (count : Nat)
  | isClosed
  /-- The backend delivers more. -/
  | feed (more : List Delivery)
  | receiveColumns
  | receiveRow (columns : Nat) (binary : Bool)
  | query (statement : String)
  | read
  deriving DecidableEq, Repr

/-- The width of that many bytes; a width in which no integer travels is a fault. -/
def width (bytes : Nat) : Except Fault Width :=
  match Width.ofNat? bytes with
  | some w => .ok w
  | none => .error (.unsupportedWidth bytes)

/-- Carries out a command. -/
def perform (handling : NoticeHandling) : Command → Act Stream Answer
  | .sendByte value => do stageByte value; return .done
  | .sendInteger value bytes => do stageInteger (← Act.ofExcept (width bytes)) value; return .done
  | .send given => do stage given; return .done
  | .sendPadded given width => do stagePadded width given; return .done
  | .sendQuery statement => do Stream.sendQuery statement; return .done
  | .flush => do Stream.flush; return .done
  | .close => do modify Stream.close; return .done
  | .receiveByte => do return .number (← Stream.receiveByte).toNat
  | .receiveInteger bytes => do
    return .number (← Stream.receiveInteger (← Act.ofExcept (width bytes)))
  | .receiveText cap => do return .text (← Stream.receiveText cap)
  | .receive count => do return .bytes (← Stream.receive count)
  | .isClosed => do return .flag (← get).closed
  | .feed more => do
    modify fun s => { s with link := s.link.feed more }
    return .done
  | .receiveColumns => do return .columns (← Stream.receiveColumns)
  | .receiveRow columns binary => do return .row (← Stream.receiveRow columns binary)
  | .query statement => do return .bundle (← Stream.query handling statement)
  | .read => do return .bundle (← receiveAnswer handling)

/-- Carries out commands in order; one that fails does not stop those after it. -/
def performAll (handling : NoticeHandling) : List Command → Stream → List (Except Fault Answer) × Stream
  | [], s => ([], s)
  | command :: rest, s =>
    let result := perform handling command s
    let (outcomes, t) := performAll handling rest (Act.state result)
    (Act.outcome result :: outcomes, t)

end SimpleQuery.Stream
