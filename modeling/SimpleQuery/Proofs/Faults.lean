import SimpleQuery.Proofs.Calls

/-!
# The faults of reading

Up to the end of an answer, reading gives up for one of a few reasons: the stream is lost, the backend
violates the protocol, the charset is none that is known or a codec that gives up, or the handler of
notices gives up. The error that the backend reports is given only when the answer is complete.

* `Act.Within` — all faults of an action are of some kind.
* `Reader.assembly_reads` — and so can all that is put together for an answer, up to its end.
-/

set_option autoImplicit false

namespace SimpleQuery

/-- Whether reading can give up with this fault before the answer is complete. -/
def Fault.ofReading : Fault → Bool
  | .loss _ | .refusal (.violation _) | .unknownCharset | .malformedCharset | .foreign _ | .handler _ => true
  | _ => false

theorem Fault.ofKind_of_isLoss {kind : Fault → Bool} (losses : ∀ cause, kind (.loss cause) = true)
    {fault : Fault} (h : fault.isLoss = true) : kind fault = true := by
  cases fault with
  | loss cause => exact losses cause
  | _ => cases h

/-- All faults of the action are of one kind. -/
def Act.Within {σ α : Type} (kind : Fault → Bool) (act : Act σ α) : Prop :=
  ∀ s fault t, act s = .error fault t → kind fault = true

theorem Act.Within.mono {σ α : Type} {kind wider : Fault → Bool} {act : Act σ α} (h : Within kind act)
    (wide : ∀ fault, kind fault = true → wider fault = true) : Within wider act :=
  fun s fault t ht => wide fault (h s fault t ht)

theorem Act.Within.sequencing {σ : Type} {kind : Fault → Bool}
    (violation : ∀ cause, kind (.refusal (.violation cause)) = true) :
    Act.Sequencing fun {α : Type} (act : Act σ α) => Within kind act where
  pure _ _ _ _ h := by cases h
  violate cause _ _ _ h := by
    cases h
    exact violation cause
  bind {α β act next} h hn := by
    intro s fault t ht
    simp only [Bind.bind, EStateM.bind] at ht
    cases hr : act s with
    | ok a u =>
      rw [hr] at ht
      exact hn a u fault t ht
    | error cause u =>
      rw [hr] at ht
      cases ht
      exact h s _ _ hr

/-- Actions that give up only as reading does. -/
abbrev Act.Reads {σ α : Type} (act : Act σ α) : Prop := Act.Within Fault.ofReading act

theorem Act.Reads.sequencing {σ : Type} : Act.Sequencing fun {α : Type} (act : Act σ α) => Reads act :=
  Within.sequencing fun _ => rfl

/-- A charset gives up reading only in this way. -/
theorem Text.ofReading_of_decodeIn {charset : NamedCharset} {bytes : Bytes} {fault : Fault}
    (h : decodeIn charset bytes = .error fault) : fault.ofReading = true := by
  cases charset with
  | known cs => cases h
  | malformed =>
    cases h
    rfl
  | unknown =>
    cases bytes with
    | nil => cases h
    | cons b bytes =>
      cases h
      rfl
  | other codec =>
    cases bytes with
    | nil => cases h
    | cons b bytes =>
      have h : (codec.decode (b :: bytes)).mapError Fault.foreign = .error fault := h
      cases hd : codec.decode (b :: bytes) with
      | ok text =>
        rw [hd] at h
        cases h
      | error cause =>
        rw [hd] at h
        cases h
        rfl

namespace Stream

open Act (Reads Within)

variable {kind : Fault → Bool}

theorem within_receive (losses : ∀ cause, kind (.loss cause) = true) (n : Nat) :
    Within kind (receive n) := by
  intro s fault t
  show receiveFrom n s = .error fault t → _
  fun_induction receiveFrom n s with
  | case1 s bytes rest h =>
    intro ht
    cases ht
  | case2 s h u hu ih => exact ih
  | case3 s h cause u hu =>
    intro ht
    cases ht
    exact Fault.ofKind_of_isLoss losses (lost_of_fill hu)

theorem within_gather (losses : ∀ cause, kind (.loss cause) = true) (room : Nat) :
    Within kind (gather room) := by
  intro s fault t
  show gatherFrom room s = .error fault t → _
  fun_induction gatherFrom room s with
  | case1 room s text rest h | case2 room s rest h | case3 room s text left h u hu rest v hv ih
  | case4 room s text left h u hu v hv ih =>
    intro ht
    cases ht
  | case5 room s text left h u hu cause v hv ih =>
    intro ht
    cases ht
    exact ih hv
  | case6 room s text left h cause u hu =>
    intro ht
    cases ht
    exact Fault.ofKind_of_isLoss losses (lost_of_fill hu)

theorem within_await (losses : ∀ cause, kind (.loss cause) = true) : Within kind await := by
  intro s fault t ht
  unfold await at ht
  split at ht
  · exact Fault.ofKind_of_isLoss losses (lost_of_fill ht)
  · cases ht

theorem reads_decode (bytes : Bytes) :
    Reads (MonadState.get >>= fun s : Stream => Act.ofExcept (s.decode bytes)) := by
  intro s fault t ht
  have ht : (Act.ofExcept (s.decode bytes) : Act Stream String) s = .error fault t := ht
  cases hd : s.decode bytes with
  | ok text =>
    rw [hd] at ht
    cases ht
  | error cause =>
    rw [hd] at ht
    cases ht
    exact Text.ofReading_of_decodeIn hd

theorem assembly_reads : Assembly fun {α : Type} (act : Act Stream α) => Reads act where
  toSequencing := Reads.sequencing
  logged _ _ _ _ h := by cases h
  receive := within_receive fun _ => rfl
  receiveText cap _ := by
    apply receiveText_of Reads.sequencing
    · exact fun _ _ _ _ h => by cases h
    · exact Reads.sequencing.bind (within_await fun _ => rfl) fun _ => within_gather (fun _ => rfl) cap
    · exact reads_decode

theorem within_sendQuery (losses : ∀ cause, kind (.loss cause) = true) (statement : Bytes) :
    Within kind (sendQuery statement) := by
  intro s fault t ht
  rcases sendQuery_run statement s with ⟨-, h⟩ | ⟨-, -, h⟩ | ⟨reason, -, -, h⟩ <;> rw [h] at ht <;> cases ht
  · exact losses _
  · exact losses _

end Stream

namespace Reader

open Act (Reads)

theorem assembly_reads (handling : NoticeHandling) :
    Assembly handling (fun {α : Type} (act : Act Stream α) => Reads act)
      fun {α : Type} (act : Act Reader α) => Reads act where
  toSequencing := Reads.sequencing
  reading := Stream.assembly_reads
  handle notice s fault t ht := by
    cases handling with
    | logged => cases ht
    | handled raises =>
      simp only [handle] at ht
      split at ht <;> cases ht
      rfl
  sends := Stream.within_sendQuery (fun _ => rfl) _
  onStream {α act} h r fault t ht := by
    simp only [onStream, Act.on] at ht
    cases hr : act r.stream with
    | ok a s =>
      rw [hr] at ht
      cases ht
    | error cause s =>
      rw [hr] at ht
      cases ht
      exact h _ _ _ hr
  respond _ _ _ _ h := by cases h
  response _ hn r := hn r.response r
  pairwise h r fault t ht := by
    obtain ⟨part, hpart, hr, -⟩ := h r r
    exact hpart r fault t (hr ▸ ht)

end Reader

end SimpleQuery
