import SimpleQuery.Stream.Basic
import SimpleQuery.Word

/-!
# Reading from a stream

Bytes in a fixed number, integers in a fixed width, and texts that a zero byte ends.

* `Stream.spends_receiveText` and its companions — reading makes up no byte.
* `Stream.ahead_receiveByte` — a byte that is read was ahead.

Model of `receive_char`, `receive_integer`, `receive_string` and `receive` of `PGStream`.
-/

set_option autoImplicit false

namespace SimpleQuery.Stream

/-- Whether there are at least `n` bytes, which takes no more steps than there are bytes. -/
def hasAtLeast : Nat → Bytes → Bool
  | 0, _ => true
  | _ + 1, [] => false
  | n + 1, _ :: rest => hasAtLeast n rest

theorem hasAtLeast_iff (n : Nat) (bytes : Bytes) : hasAtLeast n bytes = true ↔ n ≤ bytes.length := by
  induction n generalizing bytes with
  | zero => simp [hasAtLeast]
  | succ n ih =>
    cases bytes with
    | nil => simp [hasAtLeast]
    | cons b rest => simp [hasAtLeast, ih]

/-- The first `n` bytes and the rest, if there are so many. -/
def cut? (n : Nat) (bytes : Bytes) : Option (Bytes × Bytes) :=
  if hasAtLeast n bytes then some (bytes.take n, bytes.drop n) else none

theorem cut?_eq (n : Nat) (bytes : Bytes) :
    cut? n bytes = if n ≤ bytes.length then some (bytes.take n, bytes.drop n) else none := by
  simp only [cut?, hasAtLeast_iff]

/-- Calls for more bytes until `n` are unread, and takes those. Where a call fails, what has arrived
stays unread. -/
def receiveFrom (n : Nat) (s : Stream) : EStateM.Result Fault Stream Bytes :=
  match cut? n s.unread with
  | some (bytes, rest) => .ok bytes { s with unread := rest }
  | none =>
    match _h : s.fill with
    | .ok () t => receiveFrom n t
    | .error fault t => .error fault t
termination_by s.pending
decreasing_by exact fill_pending _h

/-- Reads `n` bytes. -/
def receive (n : Nat) : Act Stream Bytes := receiveFrom n

theorem receive_of_some {n : Nat} {s : Stream} {bytes rest : Bytes}
    (h : cut? n s.unread = some (bytes, rest)) : receive n s = .ok bytes { s with unread := rest } := by
  show receiveFrom n s = _
  rw [receiveFrom, h]

theorem receive_of_none {n : Nat} {s : Stream} (h : cut? n s.unread = none) :
    receive n s = (fill >>= fun _ => receive n) s := by
  show receiveFrom n s = _
  rw [receiveFrom, h]
  simp only [bind, EStateM.bind]
  split
  · rename_i hf
    rw [hf]
    rfl
  · rename_i hf
    rw [hf]

/-- Reads one byte. -/
def receiveByte : Act Stream UInt8 := do
  return (← receive 1).headD 0

/-- Reads an unsigned integer. -/
def receiveInteger (width : Width) : Act Stream Nat := do
  return BigEndian.decode (← receive width.bytes)

/-- The result of a search for the zero byte that ends a text, within a given room. -/
inductive Scan where
  /-- The text before the zero byte, and what follows that byte. -/
  | ended (text rest : Bytes)
  /-- The room was used up, and what follows. -/
  | full (rest : Bytes)
  /-- The bytes were used up: the text so far, and the room that is left. -/
  | open (text : Bytes) (room : Nat)
  deriving DecidableEq, Repr

/-- The same result after one more byte in front. -/
def Scan.cons (b : UInt8) : Scan → Scan
  | .ended text rest => .ended (b :: text) rest
  | .full rest => .full rest
  | .open text room => .open (b :: text) room

/-- Searches for a zero byte among the first `room` bytes. -/
def scan : Nat → Bytes → Scan
  | 0, rest => .full rest
  | room + 1, [] => .open [] (room + 1)
  | room + 1, b :: rest => if b = 0 then .ended [] rest else (scan room rest).cons b

/-- Reads up to a zero byte, which it takes but does not give, or to the end of the room, which gives
none. The bytes before a failing call are lost. -/
def gatherFrom (room : Nat) (s : Stream) : EStateM.Result Fault Stream (Option Bytes) :=
  match scan room s.unread with
  | .ended text rest => .ok (some text) { s with unread := rest }
  | .full rest => .ok none { s with unread := rest }
  | .open text room =>
    match _h : ({ s with unread := [] } : Stream).fill with
    | .ok () t =>
      match gatherFrom room t with
      | .ok (some rest) u => .ok (some (text ++ rest)) u
      | .ok none u => .ok none u
      | .error fault u => .error fault u
    | .error fault t => .error fault t
termination_by s.pending
decreasing_by
  have := fill_pending _h
  exact this

def gather (room : Nat) : Act Stream (Option Bytes) := gatherFrom room

theorem gather_of_ended {room : Nat} {s : Stream} {text rest : Bytes}
    (h : scan room s.unread = .ended text rest) :
    gather room s = .ok (some text) { s with unread := rest } := by
  show gatherFrom room s = _
  rw [gatherFrom, h]

theorem gather_of_full {room : Nat} {s : Stream} {rest : Bytes} (h : scan room s.unread = .full rest) :
    gather room s = .ok none { s with unread := rest } := by
  show gatherFrom room s = _
  rw [gatherFrom, h]

theorem gather_of_open {room left : Nat} {s : Stream} {text : Bytes}
    (h : scan room s.unread = .open text left) :
    gather room s =
      (fill >>= fun _ => Option.map (text ++ ·) <$> gather left : Act Stream _) { s with unread := [] } := by
  show gatherFrom room s = _
  rw [gatherFrom, h]
  simp only [bind, EStateM.bind, Functor.map, EStateM.map]
  split <;> rename_i hf <;> rw [hf]
  · rename_i t
    simp only [gather]
    cases gatherFrom left t with
    | error fault u => rfl
    | ok gathered u => cases gathered <;> rfl

/-- Sees to it that some byte is unread. -/
def await : Act Stream Unit := fun s =>
  if s.unread = [] then s.fill else .ok () s

/-- Reads the text of at most `cap` bytes, the zero byte included, that a zero byte ends. Some byte has
to be there, even where none may be read. -/
def receiveText (cap : Nat) : Act Stream String := do
  await
  match ← gather cap with
  | some text => Act.ofExcept ((← get).decode text)
  | none =>
    logged (.textTooLong cap)
    throw (.refusal (.violation (.textTooLong cap)))

/-! ## What reading spends -/

theorem spends_receive (n : Nat) : Spends (receive n) := by
  intro s
  show NoMoreAhead s (Act.state (receiveFrom n s))
  fun_induction receiveFrom n s with
  | case1 s bytes rest h =>
    rw [cut?_eq] at h
    split at h
    · cases h
      simp only [Act.state_ok, NoMoreAhead, ahead, List.length_drop]
      omega
    · cases h
  | case2 s h t ht ih => exact NoMoreAhead.trans _ _ _ (Nat.le_of_eq (ahead_fill ht)) ih
  | case3 s h fault t ht =>
    have := spends_fill s
    rwa [ht] at this

theorem ahead_receive {n : Nat} {s t : Stream} {bytes : Bytes} (h : receive n s = .ok bytes t) :
    s.ahead = n + t.ahead ∧ bytes.length = n := by
  revert h
  show receiveFrom n s = .ok bytes t → _
  fun_induction receiveFrom n s with
  | case1 s bytes rest h =>
    intro he
    injection he with hb ht
    subst hb ht
    rw [cut?_eq] at h
    split at h
    · cases h
      simp only [ahead, List.length_drop, List.length_take]
      omega
    · cases h
  | case2 s h u hu ih =>
    intro he
    rw [← ahead_fill hu]
    exact ih he
  | case3 s h fault u hu => intro he; cases he

/-- A byte that is read was ahead. -/
theorem ahead_receiveByte {s t : Stream} {b : UInt8} (h : receiveByte s = .ok b t) :
    s.ahead = 1 + t.ahead := by
  cases hr : receive 1 s with
  | ok bytes u =>
    simp only [receiveByte, bind, EStateM.bind, hr, pure, EStateM.pure] at h
    injection h with _ hu
    subst hu
    exact (ahead_receive hr).1
  | error fault u =>
    simp only [receiveByte, bind, EStateM.bind, hr] at h
    cases h

theorem spends_receiveByte : Spends receiveByte :=
  Spends.bind (spends_receive 1) fun _ => Spends.pure _

theorem spends_receiveInteger (width : Width) : Spends (receiveInteger width) :=
  Spends.bind (spends_receive width.bytes) fun _ => Spends.pure _

theorem scan_spends {room : Nat} {bytes : Bytes} :
    match scan room bytes with
    | .ended _ rest => rest.length ≤ bytes.length
    | .full rest => rest.length ≤ bytes.length
    | .open _ _ => True := by
  induction room generalizing bytes with
  | zero => simp [scan]
  | succ room ih =>
    cases bytes with
    | nil => simp [scan]
    | cons b rest =>
      have := @ih rest
      simp only [scan]
      split
      · rename_i h
        split at h
        · cases h; simp
        · cases hs : scan room rest <;> simp_all [Scan.cons]
          omega
      · rename_i h
        split at h
        · cases h
        · cases hs : scan room rest <;> simp_all [Scan.cons]
          omega
      · trivial

theorem spends_gather (room : Nat) : Spends (gather room) := by
  intro s
  show NoMoreAhead s (Act.state (gatherFrom room s))
  fun_induction gatherFrom room s with
  | case1 room s text rest h =>
    have := @scan_spends room s.unread
    rw [h] at this
    exact Nat.add_le_add_right this _
  | case2 room s rest h =>
    have := @scan_spends room s.unread
    rw [h] at this
    exact Nat.add_le_add_right this _
  | case3 room s text left h t ht rest u hu ih | case4 room s text left h t ht u hu ih
  | case5 room s text left h t ht fault u hu ih =>
    rw [hu] at ih
    have := ahead_fill ht
    exact Nat.le_trans ih (Nat.le_trans (Nat.le_of_eq this) (by simp [ahead]))
  | case6 room s text left h fault t ht =>
    have := spends_fill { s with unread := [] }
    rw [ht] at this
    exact Nat.le_trans this (by simp [ahead])

theorem spends_await : Spends await := by
  intro s
  simp only [await]
  split
  · exact spends_fill s
  · exact Nat.le_refl _

theorem spends_receiveText (cap : Nat) : Spends (receiveText cap) := by
  refine Spends.bind spends_await fun _ => Spends.bind (spends_gather cap) fun text => ?_
  cases text with
  | none => exact Spends.bind (Spends.logged _) fun _ => Spends.throw _
  | some text => exact Spends.bind Spends.get fun s => Spends.ofExcept _

end SimpleQuery.Stream
