import SimpleQuery.Stream.Basic
import SimpleQuery.Word

/-!
# Writing to a stream

Bytes are staged until a message is whole, and then sent in one call. Staging never fails half way:
what is refused stages nothing.

Model of `send_char`, `send_integer`, `send`, `send_padded` and `flush` of `PGStream`.
-/

set_option autoImplicit false

namespace SimpleQuery

/-- What may be given for a single byte. -/
inductive Single where
  | number (value : Int)
  | text (value : String)
  | bytes (value : Bytes)
  deriving DecidableEq, Repr

namespace Single

/-- The only byte of a byte string. -/
def only : Bytes → Except Fault UInt8
  | [b] => .ok b
  | given => .error (.notOneByte given.length)

/-- The byte that was meant: the low byte of an integer, or the only byte of a text in ASCII or of a
byte string. -/
def byte : Single → Except Fault UInt8
  | .number value => .ok (UInt8.ofNat (value % 256).toNat)
  | .text value =>
    match Charset.ascii.encode? value with
    | some given => only given
    | none => .error .unencodable
  | .bytes value => only value

end Single

namespace Stream

/-- Adds bytes to those that are staged. -/
def stage (bytes : Bytes) : Act Stream Unit := fun s => .ok () { s with staged := s.staged ++ bytes }

/-- Stages a single byte. -/
def stageByte (value : Single) : Act Stream Unit := do
  stage [← Act.ofExcept value.byte]

/-- Stages an integer, its high bits dropped. -/
def stageInteger (width : Width) (value : Int) : Act Stream Unit := stage (width.encode value)

/-- The first `width` bytes, or all of them and zeros up to `width`. -/
def padded (width : Nat) (bytes : Bytes) : Bytes :=
  bytes.take width ++ List.replicate (width - bytes.length) 0

theorem length_padded (width : Nat) (bytes : Bytes) : (padded width bytes).length = width := by
  simp only [padded, List.length_append, List.length_take, List.length_replicate]
  omega

/-- Stages a field of a fixed width. -/
def stagePadded (width : Nat) (bytes : Bytes) : Act Stream Unit := stage (padded width bytes)

/-- Sends what is staged in one call. Bytes that could not be sent are dropped; a closed stream keeps
them. -/
def flush : Act Stream Unit := fun s =>
  if s.staged = [] then .ok () s
  else if s.closed then .error (.loss .streamClosed) s
  else
    match s.link.send s.staged with
    | (none, link) => .ok () { s with link, staged := [] }
    | (some reason, link) =>
      .error (.loss (.sendFailed reason)) ({ s with link, staged := [] }.log (.sendFailed reason))

theorem spends_stage (bytes : Bytes) : Spends (stage bytes) := fun _ => Nat.le_refl _

theorem spends_flush : Spends flush := by
  intro s
  simp only [flush]
  split
  · exact Nat.le_refl _
  · split
    · exact Nat.le_refl _
    · have incoming := Link.incoming_send s.staged s.link
      split <;> rename_i h <;> rw [h] at incoming <;>
        exact Nat.le_of_eq (congrArg (s.unread.length + Link.pendingBytes ·) incoming)

end Stream

end SimpleQuery
