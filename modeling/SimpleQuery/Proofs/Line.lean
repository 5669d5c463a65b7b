import SimpleQuery.Link.Arrivals
import SimpleQuery.Stream.Basic

/-!
# Deliveries byte by byte

A *line* is a list of deliveries taken apart into single bytes, with the barriers between them. It is
what is left of the deliveries once the way they are cut is forgotten.

* `Link.joined_eq_joined_iff` — two lists of deliveries join to the same exactly when they have the
  same line.
* `Link.line_takeDelivery` — a call for bytes takes them, or one barrier, off the front of the line.
* `Stream.joined_remaining_eq_iff` — the same for the bytes that are unread with those still to come.
-/

set_option autoImplicit false

namespace SimpleQuery

namespace Link

/-- One thing that arrives: a byte, or what keeps the next one from arriving. -/
inductive Arrival where
  | byte (b : UInt8)
  | barrier (barrier : Barrier)
  deriving DecidableEq, Repr

/-- Deliveries byte by byte. -/
def line : List Delivery → List Arrival
  | [] => []
  | .fault reason :: rest => .barrier (.fault reason) :: line rest
  | .bytes [] :: rest => .barrier .endOfStream :: line rest
  | .bytes (b :: chunk) :: rest => (b :: chunk).map .byte ++ line rest

/-- The bytes in front of the first barrier. -/
def arrived : List Arrival → Bytes
  | .byte b :: rest => b :: arrived rest
  | _ => []

/-- What comes from the first barrier on. -/
def beyond : List Arrival → List Arrival
  | .byte _ :: rest => beyond rest
  | rest => rest

@[simp] theorem arrived_append (bytes : Bytes) (rest : List Arrival) :
    arrived (bytes.map .byte ++ rest) = bytes ++ arrived rest := by
  induction bytes with
  | nil => rfl
  | cons b r ih => simp only [List.map_cons, List.cons_append, arrived, ih]

@[simp] theorem beyond_append (bytes : Bytes) (rest : List Arrival) :
    beyond (bytes.map .byte ++ rest) = beyond rest := by
  induction bytes with
  | nil => rfl
  | cons b r ih => simp only [List.map_cons, List.cons_append, beyond, ih]

@[simp] theorem arrived_map (bytes : Bytes) : arrived (bytes.map .byte) = bytes := by
  simpa [arrived] using arrived_append bytes []

@[simp] theorem beyond_map (bytes : Bytes) : beyond (bytes.map .byte) = [] := by
  simpa [beyond] using beyond_append bytes []

/-- A line is its bytes up to the first barrier and what comes from there on. -/
theorem arrived_append_beyond (l : List Arrival) : (arrived l).map .byte ++ beyond l = l := by
  induction l with
  | nil => rfl
  | cons a l ih =>
    cases a with
    | byte b => simp only [arrived, beyond, List.map_cons, List.cons_append, ih]
    | barrier barrier => rfl

/-- Where no byte is in front of the first barrier, the line is what comes from there on. -/
theorem beyond_eq_self {l : List Arrival} (h : arrived l = []) : beyond l = l := by
  have hl := arrived_append_beyond l
  rwa [h] at hl

theorem line_append (first rest : List Delivery) : line (first ++ rest) = line first ++ line rest := by
  fun_induction line first with
  | case1 => rfl
  | case2 reason r ih => simp only [List.cons_append, line, ih]
  | case3 r ih => simp only [List.cons_append, line, ih]
  | case4 b chunk r ih => rw [List.cons_append, line, ih, List.append_assoc]

/-- Chunks that all have bytes are seen as their bytes. -/
theorem line_chunks {chunks : List Bytes} (h : ∀ chunk ∈ chunks, chunk ≠ []) :
    line (chunks.map .bytes) = chunks.flatten.map .byte := by
  induction chunks with
  | nil => rfl
  | cons chunk rest ih =>
    have hr := ih fun c hc => h c (List.mem_cons_of_mem _ hc)
    cases chunk with
    | nil => exact absurd rfl (h [] List.mem_cons_self)
    | cons b c => simp only [List.map_cons, line, hr, List.flatten_cons, List.map_append]

theorem line_joinFront (b : UInt8) (chunk : Bytes) (rest : List Delivery) :
    line (joinFront (b :: chunk) rest) = (b :: chunk).map .byte ++ line rest := by
  cases rest with
  | nil => rfl
  | cons d rest =>
    cases d with
    | fault reason => rfl
    | bytes more =>
      cases more with
      | nil => rfl
      | cons c more => simp [joinFront, line]

/-- Joining is not seen on the line. -/
theorem line_joined (incoming : List Delivery) : line (joined incoming) = line incoming := by
  fun_induction joined incoming with
  | case1 => rfl
  | case2 reason rest ih => simp only [line, ih]
  | case3 rest ih => simp only [line, ih]
  | case4 b chunk rest ih => rw [line_joinFront, ih, line]

/-- The joined deliveries that have a given line. -/
def ofLine : List Arrival → List Delivery
  | [] => []
  | .barrier .endOfStream :: rest => .bytes [] :: ofLine rest
  | .barrier (.fault reason) :: rest => .fault reason :: ofLine rest
  | .byte b :: rest => joinFront [b] (ofLine rest)

theorem joinFront_cons (b c : UInt8) (chunk : Bytes) (rest : List Delivery) :
    joinFront (b :: c :: chunk) rest = joinFront [b] (joinFront (c :: chunk) rest) := by
  cases rest with
  | nil => rfl
  | cons d rest =>
    cases d with
    | fault reason => rfl
    | bytes more => cases more <;> rfl

theorem ofLine_append (b : UInt8) (chunk : Bytes) (rest : List Arrival) :
    ofLine ((b :: chunk).map .byte ++ rest) = joinFront (b :: chunk) (ofLine rest) := by
  induction chunk generalizing b with
  | nil => rfl
  | cons c chunk ih =>
    have := ih c
    rw [List.map_cons, List.cons_append, ofLine, this, ← joinFront_cons]

/-- The line has all that the joined deliveries have. -/
theorem ofLine_line (incoming : List Delivery) : ofLine (line incoming) = joined incoming := by
  fun_induction line incoming with
  | case1 => rfl
  | case2 reason rest ih => simp only [ofLine, joined, ih]
  | case3 rest ih => simp only [ofLine, joined, ih]
  | case4 b chunk rest ih => rw [ofLine_append, ih, joined]

/-- Every line is that of some deliveries. -/
theorem line_ofLine (l : List Arrival) : line (ofLine l) = l := by
  induction l with
  | nil => rfl
  | cons a l ih =>
    cases a with
    | byte b => rw [ofLine, line_joinFront, ih, List.map_cons, List.map_nil, List.singleton_append]
    | barrier barrier => cases barrier <;> simp only [ofLine, line, ih]

/-- Two lists of deliveries join to the same exactly when they have the same line. -/
theorem joined_eq_joined_iff (first second : List Delivery) :
    joined first = joined second ↔ line first = line second := by
  constructor
  · intro h
    rw [← line_joined first, h, line_joined]
  · intro h
    rw [← ofLine_line first, h, ofLine_line]

theorem arrivals_eq_arrived (incoming : List Delivery) :
    (arrivals incoming).1 = arrived (line incoming) := by
  fun_induction line incoming with
  | case1 => rfl
  | case2 reason rest ih => rfl
  | case3 rest ih => rfl
  | case4 b chunk rest ih => rw [arrivals, arrived_append, ih]

/-- A call for bytes takes them, or one barrier, off the front of the line. With nothing left it takes
nothing. -/
theorem line_takeDelivery {limit : Nat} (h : 0 < limit) (incoming : List Delivery) :
    match takeDelivery limit incoming with
    | (.ok (b :: chunk), rest) => line incoming = (b :: chunk).map .byte ++ line rest
    | (.ok [], rest) =>
      line incoming = .barrier .endOfStream :: line rest ∨ line incoming = [] ∧ line rest = []
    | (.error reason, rest) => line incoming = .barrier (.fault reason) :: line rest := by
  cases incoming with
  | nil => exact .inr ⟨rfl, rfl⟩
  | cons d rest =>
    cases d with
    | fault reason => rfl
    | bytes chunk =>
      cases chunk with
      | nil => exact .inl rfl
      | cons b chunk =>
        simp only [takeDelivery]
        by_cases hlt : limit < (b :: chunk).length
        · obtain ⟨n, rfl⟩ : ∃ n, limit = n + 1 := ⟨limit - 1, by omega⟩
          have hd : chunk.drop n ≠ [] := by
            simp only [ne_eq, List.drop_eq_nil_iff]
            simp only [List.length_cons] at hlt
            omega
          obtain ⟨c, r, hr⟩ := List.exists_cons_of_ne_nil hd
          have e : chunk.take n ++ c :: r = chunk := by rw [← hr, List.take_append_drop]
          simp only [if_pos hlt, List.take_succ_cons, List.drop_succ_cons, hr, line]
          rw [← List.append_assoc, ← List.map_append, List.cons_append, e]
        · simp only [if_neg hlt, line]

end Link

namespace Stream

/-- The bytes that are unread as a delivery of their own, and the deliveries still to come. -/
def remaining (s : Stream) : List Delivery :=
  if s.unread = [] then s.link.incoming else .bytes s.unread :: s.link.incoming

theorem line_remaining (s : Stream) :
    Link.line s.remaining = s.unread.map .byte ++ Link.line s.link.incoming := by
  unfold remaining
  split
  · rename_i h
    simp [h]
  · rename_i h
    obtain ⟨b, chunk, hb⟩ := List.exists_cons_of_ne_nil h
    rw [hb, Link.line]

theorem joined_remaining_eq_iff (s t : Stream) :
    Link.joined s.remaining = Link.joined t.remaining ↔
      s.unread.map .byte ++ Link.line s.link.incoming =
        t.unread.map .byte ++ Link.line t.link.incoming := by
  rw [Link.joined_eq_joined_iff, line_remaining, line_remaining]

end Stream

end SimpleQuery
