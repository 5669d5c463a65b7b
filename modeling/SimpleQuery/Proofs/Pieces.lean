import SimpleQuery.Proofs.Loops
import SimpleQuery.Proofs.Truncation

/-!
# Pieces and what they bring

Bytes arrive in pieces, and each call for bytes takes one of them. A fixed number of bytes and a text are read
by loops over such calls. The first makes the number of pieces smaller with each pass, and the second the number
of bytes at hand.

* `Link.pieces` — the pieces in front of the first barrier.
* `Stream.Advances`, `Stream.Stops` — where reading leads when it succeeds, and when it fails.
* `Stream.fill_takes_piece` — a call that gives bytes gives one piece.
* `Stream.isLoop_receive`, `Stream.isLoop_resumeText` — the two loops of a stream.
* `Stream.turns_receive`, `Stream.turns_resumeText` — what they take, and what they ask for.
-/

set_option autoImplicit false

namespace SimpleQuery

/-! ## Pieces -/

namespace Link

/-- The number of pieces, each of at most `limit` bytes, in which the deliveries in front of the first barrier
arrive. -/
def pieces (limit : Nat) : List Delivery → Nat
  | .bytes (b :: chunk) :: rest => ((b :: chunk).length + limit - 1) / limit + pieces limit rest
  | _ => 0

theorem pieces_of_ne_nil {chunk : Bytes} (some : chunk ≠ []) (limit : Nat) (rest : List Delivery) :
    pieces limit (.bytes chunk :: rest) = (chunk.length + limit - 1) / limit + pieces limit rest := by
  cases chunk with
  | nil => exact absurd rfl some
  | cons b chunk => rfl

/-- A call that gives bytes takes one piece. -/
theorem pieces_takeDelivery {limit : Nat} (positive : 0 < limit) {incoming rest : List Delivery} {b : UInt8}
    {chunk : Bytes} (h : takeDelivery limit incoming = (.ok (b :: chunk), rest)) :
    pieces limit rest + 1 = pieces limit incoming := by
  unfold takeDelivery at h
  split at h
  · cases h
  · cases h
  rename_i whole later
  split at h
  · rename_i more
    simp only [Prod.mk.injEq] at h
    obtain ⟨-, rfl⟩ := h
    -- What is left of the delivery is not empty, and one piece shorter.
    have left : whole.drop limit ≠ [] := by
      rw [Ne, List.drop_eq_nil_iff]
      omega
    have some : whole ≠ [] := List.ne_nil_of_length_pos (by omega)
    have shorter : whole.length + limit - 1 = (whole.drop limit).length + limit - 1 + limit := by
      rw [List.length_drop]
      omega
    rw [pieces_of_ne_nil left, pieces_of_ne_nil some, shorter, Nat.add_div_right _ positive]
    omega
  · rename_i few
    simp only [Prod.mk.injEq, Except.ok.injEq] at h
    obtain ⟨rfl, rfl⟩ := h
    have one : ((b :: chunk).length + limit - 1) / limit = 1 := by
      rw [Nat.div_eq_iff positive]
      simp only [List.length_cons] at few ⊢
      omega
    rw [pieces_of_ne_nil (List.cons_ne_nil _ _), one, Nat.add_comm]

theorem pieces_receive {limit : Nat} (positive : 0 < limit) {link after : Link} {b : UInt8} {chunk : Bytes}
    (h : link.receive limit = (.ok (b :: chunk), after)) :
    pieces limit after.incoming + 1 = pieces limit link.incoming := by
  have taken : (takeDelivery limit link.incoming).1 = .ok (b :: chunk) := by rw [← receive_fst, h]
  have left : (takeDelivery limit link.incoming).2 = after.incoming := by rw [← incoming_receive, h]
  exact pieces_takeDelivery positive (Prod.ext taken left)

/-- Every call for bytes is one of them, whatever it comes to. -/
theorem receives_receive (limit : Nat) (link : Link) :
    (link.receive limit).2.receives = link.receives + 1 := by
  simp only [receive, receives_record]
  cases (takeDelivery limit link.incoming).1 <;> rfl

end Link

namespace Stream

open Act (IsLoop Loops Pass Turning Turns)
open Link (arrived)

/-- The number of pieces in which bytes arrive before the first barrier. -/
def pieces (s : Stream) : Nat := Link.pieces chunkLimit s.link.incoming

/-- From `s` to `t` no byte at hand was made up, and each call for bytes took one of the pieces. -/
structure Advances (s t : Stream) : Prop where
  hand : t.atHand.length ≤ s.atHand.length
  calls : t.link.receives + t.pieces = s.link.receives + s.pieces

/-- From `s` to `t` there was at most one call for bytes more than there were pieces. -/
def Stops (s t : Stream) : Prop := t.link.receives ≤ s.link.receives + s.pieces + 1

theorem turning : Turning Advances Stops where
  refl s := ⟨Nat.le_refl _, rfl⟩
  trans _ _ _ h h' := ⟨Nat.le_trans h'.hand h.hand, h'.calls.trans h.calls⟩
  stuck s := by
    unfold Stops
    omega
  later s t u h h' := by
    have := h.calls
    unfold Stops at h' ⊢
    omega

/-- What neither asks for bytes nor takes any advances, and it also stops. -/
theorem still_of_eq {s t : Stream} (unread : t.unread = s.unread)
    (incoming : t.link.incoming = s.link.incoming) (receives : t.link.receives = s.link.receives) :
    Advances s t ∧ Stops s t := by
  have pieces : t.pieces = s.pieces := by rw [Stream.pieces, incoming, Stream.pieces]
  refine ⟨⟨?_, by rw [receives, pieces]⟩, ?_⟩
  · have hand : t.atHand = s.atHand := by rw [atHand, unread, incoming, atHand]
    exact Nat.le_of_eq (congrArg List.length hand)
  · unfold Stops
    omega

theorem still_log (s : Stream) (entry : Log.Entry) : Advances s (s.log entry) ∧ Stops s (s.log entry) :=
  still_of_eq rfl rfl (Link.receives_log _ _)

/-- Taking bytes that are unread advances. -/
theorem Advances.take {s : Stream} {rest : Bytes} (h : rest.length ≤ s.unread.length) :
    Advances s { s with unread := rest } where
  hand := by
    simp only [atHand, List.length_append]
    omega
  calls := rfl

/-- A call that gives bytes takes one piece, and leaves the bytes at hand. -/
theorem fill_takes_piece {s t : Stream} (h : s.fill = .ok () t) :
    t.link.receives = s.link.receives + 1 ∧ t.pieces + 1 = s.pieces ∧ t.atHand = s.atHand := by
  have same := (uncut_fill h).1
  unfold fill at h
  split at h
  · cases h
  rename_i isOpen
  have isOpen : s.closed = false := by simpa using isOpen
  have still : t.closed = false := (congrArg Uncut.closed same).trans isOpen
  refine ⟨?_, ?_, ?_⟩
  · split at h <;> cases h
    rename_i hreceive
    rw [← Link.receives_receive chunkLimit, hreceive]
  · split at h <;> cases h
    rename_i hreceive
    exact Link.pieces_receive (by decide) hreceive
  · rw [atHand_eq_arrived still, atHand_eq_arrived isOpen]
    exact congrArg (fun u : Uncut => arrived u.link.line) same

/-- A call that fails is one call. -/
theorem receives_of_fill_fails {s t : Stream} {fault : Fault} (h : s.fill = .error fault t) :
    t.link.receives ≤ s.link.receives + 1 := by
  unfold fill at h
  split at h
  · cases h
    exact Nat.le_succ _
  have one := Link.receives_receive chunkLimit s.link
  split at h <;> cases h
  all_goals
    rename_i hreceive
    rw [hreceive] at one
    exact Nat.le_of_eq ((Link.receives_log _ _).trans one)

theorem turns_fill : Turns Advances Stops fill := by
  intro s
  cases h : s.fill with
  | ok _ t =>
    obtain ⟨receives, pieces, hand⟩ := fill_takes_piece h
    exact ⟨Nat.le_of_eq (congrArg List.length hand), by omega⟩
  | error fault t =>
    have := receives_of_fill_fails h
    show t.link.receives ≤ s.link.receives + s.pieces + 1
    omega

theorem turns_await : Turns Advances Stops await := by
  intro s
  unfold await
  split
  · exact turns_fill s
  · exact turning.refl s

theorem advances_await {s t : Stream} (h : await s = .ok () t) : Advances s t := by
  have turns := turns_await s
  rwa [h] at turns

/-! ## The loop for a fixed number of bytes -/

/-- One pass: the bytes if there are enough, and otherwise a call for more. -/
def receivePass (n : Nat) (_ : Unit) : Act Stream (Pass Unit Bytes) := fun s =>
  match cut? n s.unread with
  | some (bytes, rest) => .ok (.done bytes) { s with unread := rest }
  | none => (fill >>= fun _ => pure (.again ()) : Act Stream (Pass Unit Bytes)) s

theorem receivePass_again {n : Nat} {s t : Stream} (h : receivePass n () s = .ok (.again ()) t) :
    s.fill = .ok () t := by
  unfold receivePass at h
  split at h
  · cases h
  · obtain ⟨_, u, hfill, hpure⟩ := Act.exists_of_bind_ok h
    cases hpure
    exact hfill

/-- A fixed number of bytes is read by passes, each of which calls for one more piece. -/
theorem isLoop_receive (n : Nat) : IsLoop (receivePass n) pieces fun _ => receive n := by
  refine IsLoop.of_unfold ?_ ?_
  · intro _ s
    simp only [bind, EStateM.bind, receivePass]
    cases hcut : cut? n s.unread with
    | some both =>
      rw [receive_of_some hcut]
      rfl
    | none =>
      rw [receive_of_none hcut]
      simp only [bind, EStateM.bind]
      cases s.fill <;> rfl
  · intro _ _ s t h
    have := (fill_takes_piece (receivePass_again h)).2.1
    omega

theorem turns_receive (n : Nat) : Turns Advances Stops (receive n) := by
  refine (isLoop_receive n).turns turning (fun _ s => ?_) ()
  unfold receivePass
  split
  · rename_i bytes rest hcut
    rw [cut?_eq] at hcut
    split at hcut <;> cases hcut
    exact .take (by rw [List.length_drop]; omega)
  · exact turning.sequencing.bind turns_fill (fun _ => turning.sequencing.pure _) s

/-! ## The loop for a text -/

/-- One pass: some byte has to be there; then the text ends, or its room is used up, or all that is there
belongs to it and more is to come. -/
def textPass (cap : Nat) (text : Bytes) : Act Stream (Pass Bytes String) := do
  await
  match scan (cap - text.length) (← get).unread with
  | .ended more rest =>
    modify fun s => { s with unread := rest }
    return .done (← Act.ofExcept ((← get).decode (text ++ more)))
  | .full rest =>
    modify fun s => { s with unread := rest }
    logged (.textTooLong cap)
    throw (.refusal (.violation (.textTooLong cap)))
  | .open more _ =>
    modify fun s => { s with unread := [] }
    return .again (text ++ more)

/-- Reads the rest of a text, of which these bytes are there already. -/
def resumeText (cap : Nat) (text : Bytes) : Act Stream String := do
  await
  match ← gather (cap - text.length) with
  | some more => Act.ofExcept ((← get).decode (text ++ more))
  | none =>
    logged (.textTooLong cap)
    throw (.refusal (.violation (.textTooLong cap)))

theorem resumeText_nil (cap : Nat) : resumeText cap [] = receiveText cap := rfl

/-- The room that is left is what the bytes have not used up. -/
theorem scan_open_room {room left : Nat} {bytes text : Bytes} (h : scan room bytes = .open text left) :
    left = room - text.length := by
  induction room generalizing bytes text with
  | zero => cases h
  | succ room ih =>
    cases bytes with
    | nil =>
      cases h
      rfl
    | cons b bytes =>
      simp only [scan] at h
      split at h
      · cases h
      · cases hs : scan room bytes with
        | ended | full =>
          rw [hs] at h
          cases h
        | «open» tail more =>
          rw [hs] at h
          cases h
          rw [ih hs, List.length_cons]
          omega

theorem await_unread {s t : Stream} (h : await s = .ok () t) : t.unread ≠ [] := by
  unfold await at h
  split at h
  · obtain ⟨b, chunk, hunread⟩ := fill_unread h
    rw [hunread]
    simp
  · rename_i some
    cases h
    exact some

/-- What a pass of the loop does once some byte is there. -/
theorem textPass_of_await {cap : Nat} {text : Bytes} {s t : Stream} (h : await s = .ok () t) :
    textPass cap text s =
      match scan (cap - text.length) t.unread with
      | .ended more rest =>
        (Pass.done <$> Act.ofExcept (t.decode (text ++ more)) : Act Stream (Pass Bytes String))
          { t with unread := rest }
      | .full rest =>
        .error (.refusal (.violation (.textTooLong cap))) (log (.textTooLong cap) { t with unread := rest })
      | .open more _ => .ok (.again (text ++ more)) { t with unread := [] } := by
  simp only [textPass, bind, EStateM.bind, h, Act.get_eq]
  cases scan (cap - text.length) t.unread with
  | ended more rest => rfl
  | full rest => rfl
  | «open» more left => rfl

/-- Bytes that are there are handed on from one pass to the next. -/
theorem resumeText_of_open {cap left : Nat} {text more : Bytes} {s t : Stream} (h : await s = .ok () t)
    (hscan : scan (cap - text.length) t.unread = .open more left) :
    resumeText cap text s = resumeText cap (text ++ more) { t with unread := [] } := by
  have room : left = cap - (text ++ more).length := by
    rw [scan_open_room hscan, List.length_append]
    omega
  have later : await { t with unread := [] } = fill { t with unread := [] } := rfl
  simp only [resumeText, bind, EStateM.bind, h, gather_of_open hscan, later, Functor.map, EStateM.map, room]
  cases fill { t with unread := [] } with
  | error fault u => rfl
  | ok _ u =>
    simp only
    cases gather (cap - (text ++ more).length) u with
    | error fault v => rfl
    | ok rest v =>
      cases rest with
      | none => rfl
      | some rest => simp only [Option.map_some, List.append_assoc]

theorem resumeText_unfold (cap : Nat) (text : Bytes) (s : Stream) :
    resumeText cap text s = (textPass cap text >>= Pass.follow (resumeText cap)) s := by
  simp only [bind, EStateM.bind]
  cases h : await s with
  | error fault t => simp only [resumeText, textPass, bind, EStateM.bind, h]
  | ok _ t =>
    rw [textPass_of_await h]
    cases hscan : scan (cap - text.length) t.unread with
    | ended more rest =>
      have same : ({ t with unread := rest } : Stream).decode (text ++ more) = t.decode (text ++ more) := rfl
      simp only [resumeText, bind, EStateM.bind, h, gather_of_ended hscan, Functor.map, EStateM.map,
        Act.get_eq, same]
      cases t.decode (text ++ more) <;> rfl
    | full rest =>
      simp only [resumeText, bind, EStateM.bind, h, gather_of_full hscan]
      rfl
    | «open» more left => exact resumeText_of_open h hscan

/-- A text is read by passes, each of which takes some of the bytes at hand. -/
theorem isLoop_resumeText (cap : Nat) :
    IsLoop (textPass cap) (fun s => s.atHand.length) (resumeText cap) := by
  refine IsLoop.of_unfold (resumeText_unfold cap) ?_
  intro text next s t h
  cases ha : await s with
  | error fault u =>
    simp only [textPass, bind, EStateM.bind, ha] at h
    cases h
  | ok _ u =>
    have some := List.length_pos_iff.2 (await_unread ha)
    have hand := (advances_await ha).hand
    rw [textPass_of_await ha] at h
    cases hscan : scan (cap - text.length) u.unread with
    | ended more rest =>
      rw [hscan] at h
      obtain ⟨_, _, hdone⟩ := Act.exists_of_map_ok h
      cases hdone
    | full rest =>
      rw [hscan] at h
      cases h
    | «open» more left =>
      rw [hscan] at h
      cases h
      simp only [atHand, List.length_append, List.length_nil] at hand ⊢
      omega

theorem turns_resumeText (cap : Nat) (text : Bytes) : Turns Advances Stops (resumeText cap text) := by
  refine (isLoop_resumeText cap).turns turning (fun text s => ?_) text
  cases h : await s with
  | error fault t =>
    have failed := turns_await s
    rw [h] at failed
    simp only [textPass, bind, EStateM.bind, h]
    exact failed
  | ok _ t =>
    refine turning.after (advances_await h) ?_
    have shorter := @scan_spends (cap - text.length) t.unread
    rw [textPass_of_await h]
    cases hscan : scan (cap - text.length) t.unread with
    | ended more rest =>
      rw [hscan] at shorter
      exact turning.after (.take shorter) (turning.sequencing.map _ (turning.ofExcept _) _)
    | full rest =>
      rw [hscan] at shorter
      exact turning.later _ _ _ (.take shorter) (still_log _ _).2
    | «open» more left => exact .take (Nat.zero_le _)

end Stream

end SimpleQuery
