import SimpleQuery.Act
import SimpleQuery.Link
import SimpleQuery.Text.Transcode

/-!
# Streams

A stream is the client's end of a link. Bytes that arrived and were not asked for yet wait in
`unread`; bytes of a message that is being put together wait in `staged` until it is whole.

* `Stream.fill_pending` — a successful call for more bytes takes something from the link.
* `Stream.ahead_fill` — it neither loses nor makes up a byte.

Model of the state of a `PGStream`, with its `_fill` and `close`.
-/

set_option autoImplicit false

namespace SimpleQuery

/-- The client's end of a link. -/
structure Stream where
  link : Link
  /-- The charset of the texts on the stream. -/
  charset : NamedCharset := .known .utf8
  closed : Bool := false
  unread : Bytes := []
  staged : Bytes := []

namespace Stream

/-- The most bytes that are asked for in one call. -/
def chunkLimit : Nat := 8192

def log (entry : Log.Entry) (s : Stream) : Stream := { s with link := s.link.log entry }

/-- Writes to the log. -/
def logged (entry : Log.Entry) : Act Stream Unit := fun s => .ok () (s.log entry)

/-- The size of what the link has still to deliver. -/
def pending (s : Stream) : Nat := Link.pending s.link.incoming

/-- The number of bytes that are still to be read, here or on the link. -/
def ahead (s : Stream) : Nat := s.unread.length + Link.pendingBytes s.link.incoming

/-- Asks the link for bytes, and adds them to those that are unread. -/
def fill : Act Stream Unit := fun s =>
  if s.closed then .error (.loss .streamClosed) s
  else
    match s.link.receive chunkLimit with
    | (.error reason, link) =>
      .error (.loss (.receiveFailed reason)) ({ s with link }.log (.receiveFailed reason))
    | (.ok [], link) => .error (.loss .endOfStream) ({ s with link }.log .streamEnded)
    | (.ok (b :: chunk), link) => .ok () { s with link, unread := s.unread ++ b :: chunk }

/-- The bytes of a text. -/
def encode (text : String) (s : Stream) : Except Fault Bytes := Text.encodeIn s.charset text

/-- The text of bytes, with replacement. -/
def decode (bytes : Bytes) (s : Stream) : Except Fault String := Text.decodeIn s.charset bytes

/-- Lets go of the link, and of all bytes that wait. A failure to do so is only logged. -/
def close (s : Stream) : Stream :=
  let s := { s with unread := [], staged := [] }
  if s.closed then s
  else
    let (fault, link) := s.link.hangUp
    let link := match fault with
      | some reason => link.log (.hangUpFailed reason)
      | none => link
    { s with closed := true, link := link.log .streamClosed }

@[simp] theorem ahead_log (entry : Log.Entry) (s : Stream) : (s.log entry).ahead = s.ahead := rfl

/-- A successful call for more bytes takes something from the link. -/
theorem fill_pending {s t : Stream} (h : s.fill = .ok () t) : t.pending < s.pending := by
  unfold fill at h
  split at h
  · cases h
  · split at h
    · cases h
    · cases h
    · rename_i b chunk link hr
      injection h with _ ht
      subst ht
      exact Link.receive_pending hr

/-- A successful call for more bytes adds some to those that are unread. -/
theorem fill_unread {s t : Stream} (h : s.fill = .ok () t) :
    ∃ b chunk, t.unread = s.unread ++ b :: chunk := by
  unfold fill at h
  split at h
  · cases h
  · split at h
    · cases h
    · cases h
    · rename_i b chunk link hr
      injection h with _ ht
      exact ⟨b, chunk, by rw [← ht]⟩

/-- A successful call for more bytes neither loses nor makes up a byte. -/
theorem ahead_fill {s t : Stream} (h : s.fill = .ok () t) : t.ahead = s.ahead := by
  unfold fill at h
  split at h
  · cases h
  · split at h
    · cases h
    · cases h
    · rename_i b chunk link hr
      injection h with _ ht
      subst ht
      have := Link.receive_pendingBytes hr
      simp only [ahead, List.length_append]
      omega

/-- No byte was made up between two states. -/
def NoMoreAhead (s t : Stream) : Prop := t.ahead ≤ s.ahead

theorem NoMoreAhead.refl (s : Stream) : NoMoreAhead s s := Nat.le_refl _

theorem NoMoreAhead.trans (a b c : Stream) (h₁ : NoMoreAhead a b) (h₂ : NoMoreAhead b c) :
    NoMoreAhead a c := Nat.le_trans h₂ h₁

/-- Actions that make up no byte to be read. -/
abbrev Spends {α : Type} (act : Act Stream α) : Prop := Act.Moves NoMoreAhead act

namespace Spends

variable {α β : Type}

theorem pure (a : α) : Spends (Pure.pure a : Act Stream α) := Act.Moves.pure NoMoreAhead.refl a

theorem throw (fault : Fault) : Spends (throw fault : Act Stream α) :=
  Act.Moves.throw NoMoreAhead.refl fault

theorem ofExcept (x : Except Fault α) : Spends (Act.ofExcept x) :=
  Act.Moves.ofExcept NoMoreAhead.refl x

theorem get : Spends (MonadState.get : Act Stream Stream) := Act.Moves.get NoMoreAhead.refl

theorem bind {act : Act Stream α} {next : α → Act Stream β} (h : Spends act)
    (hn : ∀ a, Spends (next a)) : Spends (act >>= next) :=
  Act.Moves.bind NoMoreAhead.trans h hn

theorem map {act : Act Stream α} (f : α → β) (h : Spends act) : Spends (f <$> act) :=
  Act.Moves.map NoMoreAhead.trans NoMoreAhead.refl f h

theorem mapM {f : α → Act Stream β} (h : ∀ a, Spends (f a)) (l : List α) : Spends (l.mapM f) :=
  Act.Moves.mapM NoMoreAhead.trans NoMoreAhead.refl h l

theorem logged (entry : Log.Entry) : Spends (Stream.logged entry) := fun _ => Nat.le_refl _

end Spends

theorem spends_fill : Spends fill := by
  intro s
  cases h : s.fill with
  | ok u t => exact Nat.le_of_eq (ahead_fill h)
  | error fault t =>
    unfold fill at h
    split at h
    · injection h with _ ht; subst ht; exact Nat.le_refl _
    · split at h
      · rename_i hr
        injection h with _ ht
        subst ht
        exact Nat.add_le_add_left (Link.receive_pendingBytes_le hr) _
      · rename_i hr
        injection h with _ ht
        subst ht
        exact Nat.add_le_add_left (Link.receive_pendingBytes_le hr) _
      · cases h

end Stream

end SimpleQuery
