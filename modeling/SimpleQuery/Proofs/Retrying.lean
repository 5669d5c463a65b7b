import SimpleQuery.Proofs.Demand
import SimpleQuery.Proofs.Grammar
import SimpleQuery.Proofs.Terminated
import SimpleQuery.Stream.Command

/-!
# Reading again after a barrier

A call for a fixed number of bytes that fails at a barrier keeps what has arrived, so it can be made
again once there is more. Where each call that fails is made again until it does not, the barriers leave
no trace: the calls give what they give where all bytes come in one piece.

* `Stream.content` — all bytes that are still to be read, whatever is between them.
* `Stream.read_enough`, `Stream.read_few` — what a call for a fixed number of bytes comes to.
* `Stream.Persists` — runs in which failed calls are made again, and more is delivered meanwhile.
* `repeated_reads_lose_nothing` — such a run gives what the run without barriers gives, and where that
  one has enough bytes there is such a run.
-/

set_option autoImplicit false

namespace SimpleQuery

/-! ## Bytes without barriers -/

/-- The bytes of a delivery. -/
def Delivery.content : Delivery → Bytes
  | .bytes chunk => chunk
  | .fault _ => []

namespace Link

/-- All bytes of the deliveries, whatever is between them. -/
def content (incoming : List Delivery) : Bytes := incoming.flatMap Delivery.content

theorem content_append (first rest : List Delivery) :
    content (first ++ rest) = content first ++ content rest := List.flatMap_append

/-- The byte that arrives, if one does. -/
def Arrival.byte? : Arrival → Option UInt8
  | .byte b => some b
  | .barrier _ => none

theorem filterMap_byte (bytes : Bytes) : (bytes.map Arrival.byte).filterMap Arrival.byte? = bytes := by
  rw [List.filterMap_map]
  exact List.filterMap_some

theorem content_eq_line (incoming : List Delivery) :
    content incoming = (line incoming).filterMap Arrival.byte? := by
  fun_induction line incoming with
  | case1 => rfl
  | case2 reason rest ih => exact ih
  | case3 rest ih => exact ih
  | case4 b chunk rest ih =>
    rw [List.filterMap_append, filterMap_byte, ← ih]
    rfl

/-- A barrier is no byte. -/
theorem filterMap_tail_beyond (l : List Arrival) :
    (beyond l).tail.filterMap Arrival.byte? = (beyond l).filterMap Arrival.byte? := by
  induction l with
  | nil => rfl
  | cons first rest ih =>
    cases first with
    | byte b => exact ih
    | barrier barrier => rfl

end Link

namespace Stream

open Link (Arrival arrived beyond)
open Event (brought)

/-- All bytes that are still to be read, whatever is between them. -/
def content (s : Stream) : Bytes := s.unread ++ Link.content s.link.incoming

theorem content_eq_line {s : Stream} (isOpen : s.closed = false) :
    s.content = s.line.filterMap Arrival.byte? := by
  rw [content, Link.content_eq_line, line, isOpen, List.filterMap_append, Link.filterMap_byte]
  rfl

/-- What is at hand comes first. -/
theorem content_eq_atHand {s : Stream} (isOpen : s.closed = false) :
    s.content = s.atHand ++ (beyond s.line).filterMap Arrival.byte? := by
  have hline := Link.arrived_append_beyond s.line
  rw [content_eq_line isOpen, atHand_eq_arrived isOpen]
  rw [← hline, List.filterMap_append, Link.filterMap_byte, hline]

/-! ## A call for a fixed number of bytes -/

/-- With enough bytes at hand the call takes them. -/
theorem read_enough {n : Nat} {s : Stream} (isOpen : s.closed = false) (enough : n ≤ s.atHand.length) :
    ∃ t, receive n s = .ok (s.atHand.take n) t := by
  have hsplit := Link.take_append_drop (l := s.line) (n := n) (by rwa [← atHand_eq_arrived isOpen])
  rw [← atHand_eq_arrived isOpen] at hsplit
  obtain ⟨t, hrun, -⟩ :=
    (accepts_receive n).complete (s := s) ⟨rfl, List.length_take_of_le enough⟩ hsplit.symm
  exact ⟨t, hrun⟩

/-- The bytes that are taken are the first of those still to be read. -/
theorem content_read {n : Nat} {s t : Stream} {bytes : Bytes} (isOpen : s.closed = false)
    (h : receive n s = .ok bytes t) :
    t.closed = false ∧ bytes.length = n ∧ s.atHand = bytes ++ t.atHand ∧
      s.content = bytes ++ t.content := by
  obtain ⟨_, ⟨rfl, hlength⟩, hline, ht⟩ := (accepts_receive n).sound h
  have still : t.closed = false := (congrArg Uncut.closed ht).trans isOpen
  refine ⟨still, hlength, ?_, ?_⟩
  · rw [atHand_eq_arrived isOpen, atHand_eq_arrived still, hline, Link.arrived_append]
  · rw [content_eq_line isOpen, content_eq_line still, hline, List.filterMap_append, Link.filterMap_byte]

/-- A call for bytes that fails brings none. -/
theorem fill_fails {s t : Stream} {fault : Fault} (h : s.fill = .error fault t) :
    t.unread = s.unread ∧ ∃ events, t.link.history = s.link.history ++ events ∧ brought events = [] := by
  unfold fill at h
  split at h
  · cases h
    exact ⟨rfl, [], (List.append_nil _).symm, rfl⟩
  simp only [Link.receive] at h
  split at h
  · rename_i reason link hreceive
    cases h
    simp only [Prod.mk.injEq] at hreceive
    refine ⟨rfl, [.unreceived, .logged (.receiveFailed reason)], ?_, rfl⟩
    rw [log, Link.log, Link.history_record, ← hreceive.2, Link.history_record, hreceive.1, List.append_assoc]
    rfl
  · rename_i link hreceive
    cases h
    simp only [Prod.mk.injEq] at hreceive
    refine ⟨rfl, [.received [], .logged .streamEnded], ?_, rfl⟩
    rw [log, Link.log, Link.history_record, ← hreceive.2, Link.history_record, hreceive.1, List.append_assoc]
    rfl
  · cases h

/-- With too few bytes at hand the call fails at the barrier, and all that has arrived stays unread. -/
theorem read_few {n : Nat} {s t : Stream} {fault : Fault} (isOpen : s.closed = false)
    (h : receive n s = .error fault t) :
    s.atHand.length < n ∧ fault = .loss s.barrier.loss ∧ t.closed = false ∧
      t.line = s.atHand.map .byte ++ (beyond s.line).tail := by
  have hseen := seen_receive n s
  rw [h, Uncut.receive, uncut_line, ← atHand_eq_arrived isOpen] at hseen
  split at hseen
  · cases hseen
  rename_i few
  obtain ⟨v, hstarve, hline⟩ := Uncut.starve_at_barrier Bytes (u := s.uncut) isOpen
  rw [hstarve, uncut_line, ← barrier_eq_stop isOpen] at hseen
  rw [uncut_line, ← atHand_eq_arrived isOpen] at hline
  injection hseen with hfault ht
  have keeps := along_keeps.receive n s
  rw [h] at keeps
  exact ⟨by omega, hfault, keeps.closed.trans isOpen, by rw [← hline, ← ht, uncut_line]⟩

/-- A failed call leaves all bytes to be read. -/
theorem content_few {n : Nat} {s t : Stream} {fault : Fault} (isOpen : s.closed = false)
    (h : receive n s = .error fault t) : t.content = s.content := by
  obtain ⟨-, -, still, hline⟩ := read_few isOpen h
  rw [content_eq_atHand isOpen, content_eq_line still, hline, List.filterMap_append,
    Link.filterMap_byte, Link.filterMap_tail_beyond]

/-- A failed call takes the barrier off the line, if there is one. -/
theorem length_line_few {n : Nat} {s t : Stream} {fault : Fault} (isOpen : s.closed = false)
    (h : receive n s = .error fault t) (more : beyond s.line ≠ []) : t.line.length < s.line.length := by
  obtain ⟨-, -, -, hline⟩ := read_few isOpen h
  have whole := congrArg List.length (Link.arrived_append_beyond s.line)
  have left := congrArg List.length hline
  have positive := List.length_pos_iff.2 more
  rw [← atHand_eq_arrived isOpen] at whole
  simp only [List.length_append, List.length_map, List.length_tail] at whole left
  omega

/-- The failed call has added what it was brought to the unread bytes, and nothing else. -/
theorem unread_of_few {n : Nat} {s t : Stream} {fault : Fault} (isOpen : s.closed = false)
    (h : receive n s = .error fault t) :
    t.unread = s.atHand ∧
      ∃ events, t.link.history = s.link.history ++ events ∧ t.unread = s.unread ++ brought events := by
  revert h
  show receiveFrom n s = .error fault t → _
  fun_induction receiveFrom n s with
  | case1 s bytes rest h =>
    intro he
    cases he
  | case2 s h u hu ih =>
    intro he
    have same := (uncut_fill hu).1
    have still : u.closed = false := (congrArg Uncut.closed same).trans isOpen
    obtain ⟨hunread, events, hhistory, hadded⟩ := ih still he
    have hhand : u.atHand = s.atHand := by
      rw [atHand_eq_arrived still, atHand_eq_arrived isOpen]
      exact congrArg (fun u : Uncut => arrived u.link.line) same
    obtain ⟨chunk, hchunk, hreceived⟩ := fill_brings hu
    refine ⟨hunread.trans hhand, .received chunk :: events, ?_, ?_⟩
    · rw [hhistory, hreceived, List.append_assoc]
      rfl
    · rw [hadded, hchunk, List.append_assoc]
      rfl
  | case3 s h u v hu =>
    intro he
    cases he
    obtain ⟨hunread, events, hhistory, hnone⟩ := fill_fails hu
    have hhand := (seen_fill_error hu Bytes).1
    rw [← atHand_eq_arrived isOpen] at hhand
    exact ⟨by rw [hunread, hhand], events, hhistory, by rw [hunread, hnone, List.append_nil]⟩

/-! ## Commands that are repeated -/

/-- Whether a command reads a fixed number of bytes. -/
def Command.isFixed : Command → Bool
  | .receiveByte | .receive _ | .receiveInteger _ => true
  | _ => false

/-- An integer in a width in which none travels is refused before anything is done. -/
theorem perform_unsupported (handling : NoticeHandling) {bytes : Nat} (h : Width.ofNat? bytes = none)
    (s : Stream) :
    perform handling (.receiveInteger bytes) s = .error (.unsupportedWidth bytes) s := by
  simp only [perform, width, h]
  rfl

/-- An integer in a width is made of as many bytes. -/
theorem perform_receiveInteger (handling : NoticeHandling) {bytes : Nat} {w : Width}
    (h : Width.ofNat? bytes = some w) (s : Stream) :
    perform handling (.receiveInteger bytes) s =
      ((fun given => .number (BigEndian.decode given)) <$> receive w.bytes : Act Stream Answer) s := by
  simp only [perform, width, h, Act.ofExcept, receiveInteger, Pure.pure, EStateM.pure, Bind.bind,
    EStateM.bind, Functor.map, EStateM.map]
  cases receive w.bytes s <;> rfl

/-- Such a command is refused whatever the stream, or it makes its answer of so many bytes. -/
theorem perform_fixed (handling : NoticeHandling) {command : Command} (fixed : command.isFixed = true) :
    (∃ bytes, command = .receiveInteger bytes ∧ Width.ofNat? bytes = none) ∨
      ∃ n answer, ∀ s, perform handling command s = (answer <$> receive n : Act Stream Answer) s := by
  cases command with
  | receiveByte =>
    refine .inr ⟨1, fun bytes => .number (bytes.headD 0).toNat, fun s => ?_⟩
    simp only [perform, receiveByte, Bind.bind, EStateM.bind, Functor.map, EStateM.map]
    cases receive 1 s <;> rfl
  | receive count =>
    refine .inr ⟨count, .bytes, fun s => ?_⟩
    simp only [perform, Bind.bind, EStateM.bind, Functor.map, EStateM.map]
    cases receive count s <;> rfl
  | receiveInteger bytes =>
    cases hwidth : Width.ofNat? bytes with
    | none => exact .inl ⟨bytes, rfl, hwidth⟩
    | some w => exact .inr ⟨w.bytes, _, perform_receiveInteger handling hwidth⟩
  | _ => cases fixed

/-- A run in which each command that fails at a barrier is carried out again until it does not, and more
may be delivered between any two calls: the commands, what is delivered in all, and the outcomes that are
not failures at a barrier. -/
inductive Persists (handling : NoticeHandling) :
    List Command → List Delivery → List (Except Fault Answer) → Stream → Stream → Prop where
  | done (s : Stream) : Persists handling [] [] [] s s
  | feed {commands : List Command} {fed : List Delivery} {outcomes : List (Except Fault Answer)}
      {s t : Stream} (more : List Delivery)
      (rest : Persists handling commands fed outcomes
        (Act.state (perform handling (.feed more) s)) t) :
      Persists handling commands (more ++ fed) outcomes s t
  | again {command : Command} {commands : List Command} {fed : List Delivery}
      {outcomes : List (Except Fault Answer)} {s t : Stream}
      (failed : Act.isLost (perform handling command s) = true)
      (rest : Persists handling (command :: commands) fed outcomes
        (Act.state (perform handling command s)) t) :
      Persists handling (command :: commands) fed outcomes s t
  | next {command : Command} {commands : List Command} {fed : List Delivery}
      {outcomes : List (Except Fault Answer)} {s t : Stream}
      (kept : Act.isLost (perform handling command s) = false)
      (rest : Persists handling commands fed outcomes (Act.state (perform handling command s)) t) :
      Persists handling (command :: commands) fed
        (Act.outcome (perform handling command s) :: outcomes) s t

/-- The stream when all that it is still to deliver, and all that it is fed later, comes in one piece. -/
def pooled (fed : List Delivery) (s : Stream) : Stream :=
  s.supplied s.unread [.bytes (Link.content (s.link.incoming ++ fed))]

/-- Both streams are open. What is still to be read on the first, and is fed to it later, is at hand on
the second. -/
structure Pools (s : Stream) (fed : List Delivery) (whole : Stream) : Prop where
  isOpen : s.closed = false
  wholeOpen : whole.closed = false
  content : whole.content = s.content ++ Link.content fed
  atHand : whole.atHand = whole.content

theorem pools_pooled {s : Stream} (isOpen : s.closed = false) (fed : List Delivery) :
    Pools s fed (s.pooled fed) where
  isOpen := isOpen
  wholeOpen := isOpen
  content := by
    have one : Link.content [.bytes (Link.content (s.link.incoming ++ fed))] =
        Link.content (s.link.incoming ++ fed) := List.append_nil _
    show s.unread ++ Link.content [.bytes (Link.content (s.link.incoming ++ fed))] = _
    rw [one, Link.content_append, Stream.content, List.append_assoc]
  atHand := by
    simp only [Stream.atHand, Stream.content, pooled, supplied]
    cases Link.content (s.link.incoming ++ fed) with
    | nil => rfl
    | cons b bytes => rfl

namespace Pools

variable {s t whole : Stream} {fed : List Delivery} {n : Nat}

/-- More is delivered. -/
theorem feed {more : List Delivery} (handling : NoticeHandling) (h : Pools s (more ++ fed) whole) :
    Pools (Act.state (perform handling (.feed more) s)) fed whole where
  isOpen := h.isOpen
  wholeOpen := h.wholeOpen
  content := by
    show whole.content = (s.unread ++ Link.content (s.link.incoming ++ more)) ++ Link.content fed
    rw [h.content, Link.content_append, Link.content_append, Stream.content]
    simp only [List.append_assoc]
  atHand := h.atHand

/-- A call for bytes fails. -/
theorem again {fault : Fault} (h : Pools s fed whole) (few : receive n s = .error fault t) :
    Pools t fed whole where
  isOpen := (read_few h.isOpen few).2.2.1
  wholeOpen := h.wholeOpen
  content := h.content.trans (congrArg (· ++ _) (content_few h.isOpen few).symm)
  atHand := h.atHand

/-- A call for bytes is answered, and so it is on the whole stream, by the same bytes. -/
theorem next {bytes : Bytes} (h : Pools s fed whole) (enough : receive n s = .ok bytes t) :
    ∃ left, receive n whole = .ok bytes left ∧ Pools t fed left := by
  obtain ⟨still, hlength, -, hcontent⟩ := content_read h.isOpen enough
  have all : whole.content = bytes ++ (t.content ++ Link.content fed) := by
    rw [h.content, hcontent, List.append_assoc]
  obtain ⟨left, hrun⟩ := read_enough (n := n) h.wholeOpen (by
    rw [h.atHand, all, List.length_append]
    omega)
  have htake : whole.atHand.take n = bytes := by
    rw [h.atHand, all, ← hlength, List.take_left]
  rw [htake] at hrun
  obtain ⟨leftOpen, -, hhand, hleft⟩ := content_read h.wholeOpen hrun
  refine ⟨left, hrun, still, leftOpen, ?_, ?_⟩
  · exact List.append_cancel_left (hleft.symm.trans all)
  · exact List.append_cancel_left (hhand.symm.trans (h.atHand.trans hleft))

/-- If the first stream is short of bytes that the whole one has, more comes behind a barrier. -/
theorem beyond_ne_nil (h : Pools s [] whole) (few : s.atHand.length < n)
    (enough : n ≤ whole.content.length) : beyond s.line ≠ [] := by
  intro none
  have all := content_eq_atHand h.isOpen
  rw [none, List.filterMap_nil, List.append_nil] at all
  have same : whole.content = s.atHand := by
    rw [h.content, all]
    exact List.append_nil _
  rw [same] at enough
  omega

variable {handling : NoticeHandling} {command : Command}

/-- A command fails at a barrier on the first stream, or it comes to the same on both. -/
theorem perform (h : Pools s fed whole) (fixed : command.isFixed = true) :
    Act.isLost (perform handling command s) = true ∧
        Pools (Act.state (Stream.perform handling command s)) fed whole ∨
      Act.isLost (Stream.perform handling command s) = false ∧
        Act.outcome (Stream.perform handling command s) =
          Act.outcome (Stream.perform handling command whole) ∧
        Pools (Act.state (Stream.perform handling command s)) fed
          (Act.state (Stream.perform handling command whole)) := by
  rcases perform_fixed handling fixed with ⟨bytes, rfl, none⟩ | ⟨n, answer, hn⟩
  · rw [perform_unsupported handling none, perform_unsupported handling none]
    exact .inr ⟨rfl, rfl, h⟩
  · simp only [hn, Functor.map, EStateM.map]
    cases hrun : receive n s with
    | ok bytes t =>
      obtain ⟨left, hwhole, hpools⟩ := h.next hrun
      rw [hwhole]
      exact .inr ⟨rfl, rfl, hpools⟩
    | error fault t =>
      obtain ⟨-, rfl, -⟩ := read_few h.isOpen hrun
      exact .inl ⟨rfl, h.again hrun⟩

/-- Where the whole stream has enough bytes, a command that fails takes a barrier off the line. -/
theorem shorter (h : Pools s [] whole) (fixed : command.isFixed = true)
    (failed : Act.isLost (Stream.perform handling command s) = true)
    (kept : Act.isLost (Stream.perform handling command whole) = false) :
    (Act.state (Stream.perform handling command s)).line.length < s.line.length := by
  rcases perform_fixed handling fixed with ⟨bytes, rfl, none⟩ | ⟨n, answer, hn⟩
  · rw [perform_unsupported handling none] at failed
    cases failed
  simp only [hn, Functor.map, EStateM.map] at failed kept ⊢
  cases hrun : receive n s with
  | ok bytes t =>
    rw [hrun] at failed
    cases failed
  | error fault t =>
    cases hwhole : receive n whole with
    | error cause left =>
      obtain ⟨-, rfl, -⟩ := read_few h.wholeOpen hwhole
      rw [hwhole] at kept
      cases kept
    | ok bytes left =>
      obtain ⟨few, -⟩ := read_few h.isOpen hrun
      obtain ⟨-, hlength, -, hcontent⟩ := content_read h.wholeOpen hwhole
      apply length_line_few h.isOpen hrun (h.beyond_ne_nil few _)
      rw [hcontent, List.length_append]
      omega

end Pools

variable {handling : NoticeHandling}

/-- A run with repetitions gives what the run on the whole stream gives, and leaves the same. -/
theorem Persists.pools {commands : List Command} {fed : List Delivery}
    {outcomes : List (Except Fault Answer)} {s t : Stream} (h : Persists handling commands fed outcomes s t)
    (fixed : ∀ command ∈ commands, command.isFixed = true) {whole : Stream} (hpools : Pools s fed whole) :
    (performAll handling commands whole).1 = outcomes ∧
      Pools t [] (performAll handling commands whole).2 := by
  -- `Pools` holds between what is left of the run and what is left of the whole stream, at every step.
  induction h generalizing whole with
  | done s => exact ⟨rfl, hpools⟩
  | feed more rest ih => exact ih fixed (hpools.feed handling)
  | again failed rest ih =>
    rcases hpools.perform (fixed _ List.mem_cons_self) with ⟨-, hpools'⟩ | ⟨kept, -⟩
    · exact ih fixed hpools'
    · rw [failed] at kept
      cases kept
  | next kept rest ih =>
    rcases hpools.perform (fixed _ List.mem_cons_self) with ⟨failed, -⟩ | ⟨-, houtcome, hpools'⟩
    · rw [failed] at kept
      cases kept
    · obtain ⟨houtcomes, hleft⟩ := ih (fun c hc => fixed c (List.mem_cons_of_mem _ hc)) hpools'
      refine ⟨?_, hleft⟩
      simp only [performAll, houtcome, houtcomes]

/-- A command that does not fail on the whole stream is carried out again until it does not fail. -/
theorem persists_until {command : Command} (fixed : command.isFixed = true) {s whole : Stream}
    (hpools : Pools s [] whole) (kept : Act.isLost (perform handling command whole) = false) :
    ∃ u : Stream, Pools u [] whole ∧ Act.isLost (perform handling command u) = false ∧
      ∀ {commands fed outcomes t}, Persists handling (command :: commands) fed outcomes u t →
        Persists handling (command :: commands) fed outcomes s t := by
  -- Each failure takes a barrier off the line.
  induction hlength : s.line.length using Nat.strongRecOn generalizing s with
  | ind length ih =>
    rcases hpools.perform fixed with ⟨failed, hpools'⟩ | ⟨here, -⟩
    · have shorter := hpools.shorter fixed failed kept
      rw [hlength] at shorter
      obtain ⟨u, hu, there, hpersists⟩ := ih _ shorter hpools' rfl
      exact ⟨u, hu, there, fun run => .again failed (hpersists run)⟩
    · exact ⟨s, hpools, here, fun run => run⟩

/-- Where the whole stream has enough bytes, repetitions come to an end. -/
theorem exists_persists {commands : List Command}
    (fixed : ∀ command ∈ commands, command.isFixed = true) {s whole : Stream} (hpools : Pools s [] whole)
    (enough : ∀ cause, .error (.loss cause) ∉ (performAll handling commands whole).1) :
    ∃ t, Persists handling commands [] (performAll handling commands whole).1 s t := by
  induction commands generalizing s whole with
  | nil => exact ⟨s, .done s⟩
  | cons command commands ih =>
    have kept : Act.isLost (perform handling command whole) = false := by
      cases lost : Act.isLost (perform handling command whole) with
      | false => rfl
      | true =>
        obtain ⟨cause, hcause⟩ := (Act.isLost_iff _).1 lost
        exact absurd (List.mem_cons.2 (.inl hcause.symm)) (enough cause)
    obtain ⟨u, hu, there, hpersists⟩ := persists_until (fixed command List.mem_cons_self) hpools kept
    rcases hu.perform (fixed command List.mem_cons_self) with ⟨failed, -⟩ | ⟨-, houtcome, hrest⟩
    · rw [failed] at there
      cases there
    obtain ⟨t, run⟩ := ih (fun c hc => fixed c (List.mem_cons_of_mem _ hc)) hrest
      fun cause hmem => enough cause (List.mem_cons_of_mem _ hmem)
    have all := Persists.next there run
    rw [houtcome] at all
    exact ⟨t, hpersists all⟩

end Stream

open SimpleQuery.Stream (Command Persists perform performAll)

/-- **Reads that are repeated lose nothing.** Let calls for a byte, for a fixed number of bytes or for an
integer be carried out on an open stream, each that fails at a barrier being made again until it does not,
whatever is delivered meanwhile. They give what they give where all bytes come in one piece with nothing
between, and leave the same bytes to be read; and where there are enough bytes, repeating them comes to an
end. A failed call leaves unread all that was at hand, which is what was unread before and what the call
was brought. An integer in a width in which none travels is refused, and the stream stays as it was. -/
theorem repeated_reads_lose_nothing (handling : NoticeHandling) {s : Stream} (isOpen : s.closed = false)
    {commands : List Command} (fixed : ∀ command ∈ commands, command.isFixed = true) :
    (∀ fed outcomes t, Persists handling commands fed outcomes s t →
      (performAll handling commands (s.pooled fed)).1 = outcomes ∧
        (performAll handling commands (s.pooled fed)).2.content = t.content) ∧
    ((∀ cause, .error (.loss cause) ∉ (performAll handling commands (s.pooled [])).1) →
      ∃ t, Persists handling commands [] (performAll handling commands (s.pooled [])).1 s t) ∧
    (∀ command, command.isFixed = true → ∀ u : Stream, u.closed = false →
      ∀ cause t, perform handling command u = .error (.loss cause) t →
        t.unread = u.atHand ∧ t.content = u.content ∧ u.Keeps t ∧
          ∃ events, t.link.history = u.link.history ++ events ∧
            t.unread = u.unread ++ Event.brought events) ∧
    ∀ bytes, Width.ofNat? bytes = none → ∀ u : Stream,
      perform handling (.receiveInteger bytes) u = .error (.unsupportedWidth bytes) u := by
  refine ⟨?runs, ?ends, ?failures, fun bytes none u => Stream.perform_unsupported handling none u⟩
  case runs =>
    intro fed outcomes t run
    obtain ⟨houtcomes, hleft⟩ := run.pools fixed (Stream.pools_pooled isOpen fed)
    exact ⟨houtcomes, hleft.content.trans (List.append_nil _)⟩
  case ends => exact Stream.exists_persists fixed (Stream.pools_pooled isOpen [])
  case failures =>
    intro command hfixed u hopen cause t failed
    rcases Stream.perform_fixed handling hfixed with ⟨bytes, rfl, none⟩ | ⟨n, answer, hn⟩
    · rw [Stream.perform_unsupported handling none] at failed
      cases failed
    · rw [hn] at failed
      simp only [Functor.map, EStateM.map] at failed
      cases hrun : Stream.receive n u with
      | ok bytes v =>
        rw [hrun] at failed
        cases failed
      | error fault v =>
        rw [hrun] at failed
        cases failed
        have keeps := Stream.along_keeps.receive n u
        rw [hrun] at keeps
        obtain ⟨hunread, hbrought⟩ := Stream.unread_of_few hopen hrun
        exact ⟨hunread, Stream.content_few hopen hrun, keeps, hbrought⟩

/-- An integer of four bytes that are brought between a fault, an exhausted link and an end of the
stream, a width in which none travels, and a byte. -/
theorem integer_across_three_barriers :
    let s : Stream := { unread := [1], link := { incoming := [.bytes [2], .fault "reset", .bytes [3]] } }
    let commands : List Command := [.receiveInteger 4, .receiveInteger 3, .receiveByte]
    let fed : List Delivery := [.bytes [], .bytes [4, 5]]
    s.closed = false ∧ (∀ command ∈ commands, command.isFixed = true) ∧
      ∃ t, Persists .collected commands fed
        [.ok (.number 0x01020304), .error (.unsupportedWidth 3), .ok (.number 5)] s t := by
  intro s commands fed
  have fixed : ∀ command ∈ commands, command.isFixed = true := by decide
  obtain ⟨outcomes, t, run⟩ : ∃ outcomes t, Persists .collected commands fed outcomes s t :=
    ⟨_, _, .again (by decide +kernel) (.again (by decide +kernel) (@Persists.feed _ _ [] _ _ _ fed
      (.again (by decide +kernel) (.next (by decide +kernel) (.next (by decide +kernel)
        (.next (by decide +kernel) (.done _)))))))⟩
  obtain ⟨houtcomes, -⟩ := (repeated_reads_lose_nothing .collected rfl fixed).1 fed outcomes t run
  have whole : (performAll .collected commands (s.pooled fed)).1 =
      [.ok (.number 0x01020304), .error (.unsupportedWidth 3), .ok (.number 5)] := by decide +kernel
  rw [← houtcomes, whole] at run
  exact ⟨rfl, fixed, t, run⟩

end SimpleQuery
