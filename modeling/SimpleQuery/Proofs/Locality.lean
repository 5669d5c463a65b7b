import SimpleQuery.Proofs.Boundaries
import SimpleQuery.Proofs.Grammar

/-!
# Reading looks no further than it takes

An action that succeeds gives the same, and takes the same off the line, whatever is behind what it takes.
So a run can be repeated up to any of its messages on a stream with another end.

* `Act.Local` — the actions of which this holds. Sequences inherit it.
* `Stream.assembly_local`, `Reader.assembly_local` — all of reading, from its primitives.
* `Reader.Reaches.again` — a run up to a message, by induction on the messages.
-/

set_option autoImplicit false

namespace SimpleQuery

open Link (Arrival)

namespace Act

variable {σ : Type} {line : σ → List Arrival} {swapped : List Arrival → σ → σ → Prop}

/-- Where the action succeeds it takes bytes off the line. From a state in which the line behind these is
swapped for another it does the same, and leaves the other line. -/
structure Local (line : σ → List Arrival) (swapped : List Arrival → σ → σ → Prop) {α : Type}
    (act : Act σ α) : Prop where
  takes : ∀ {s t : σ} {a : α}, act s = .ok a t → ∃ bytes : Bytes, line s = bytes.map .byte ++ line t
  again : ∀ {s s' t : σ} {a : α} {taken rest : List Arrival}, act s = .ok a t →
    line s = taken ++ line t → swapped (taken ++ rest) s s' → ∃ t', act s' = .ok a t' ∧ swapped rest t t'

namespace Local

variable {α β : Type}

/-- An action that always succeeds and takes nothing. -/
theorem of_idle {act : Act σ α} {a : α} {next : σ → σ} (runs : ∀ s, act s = .ok a (next s))
    (same : ∀ s, line (next s) = line s)
    (keeps : ∀ rest s s', swapped rest s s' → swapped rest (next s) (next s')) :
    Local line swapped act where
  takes {s t b} h := by
    cases (runs s).symm.trans h
    exact ⟨[], (same s).symm⟩
  again {s s' t b taken rest} h hline hswapped := by
    cases (runs s).symm.trans h
    obtain rfl : taken = [] := by simpa [same] using hline
    exact ⟨_, runs s', keeps _ _ _ hswapped⟩

theorem pure (a : α) : Local line swapped (Pure.pure a : Act σ α) :=
  of_idle (fun _ => rfl) (fun _ => rfl) fun _ _ _ h => h

theorem throw (fault : Fault) : Local line swapped (throw fault : Act σ α) where
  takes h := by cases h
  again h := by cases h

theorem bind {act : Act σ α} {next : α → Act σ β} (h : Local line swapped act)
    (hn : ∀ a, Local line swapped (next a)) : Local line swapped (act >>= next) where
  takes {s t b} hrun := by
    obtain ⟨a, u, hact, hnext⟩ := exists_of_bind_ok hrun
    obtain ⟨first, hfirst⟩ := h.takes hact
    obtain ⟨second, hsecond⟩ := (hn a).takes hnext
    exact ⟨first ++ second, by rw [hfirst, hsecond, List.map_append, List.append_assoc]⟩
  again {s s' t b taken rest} hrun hline hswapped := by
    obtain ⟨a, u, hact, hnext⟩ := exists_of_bind_ok hrun
    obtain ⟨first, hfirst⟩ := h.takes hact
    obtain ⟨second, hsecond⟩ := (hn a).takes hnext
    obtain rfl : taken = first.map .byte ++ second.map .byte := by
      rw [hfirst, hsecond, ← List.append_assoc] at hline
      exact (List.append_cancel_right hline).symm
    rw [List.append_assoc] at hswapped
    obtain ⟨u', hact', hu⟩ := h.again hact hfirst hswapped
    obtain ⟨t', hnext', ht⟩ := (hn a).again hnext hsecond hu
    refine ⟨t', ?_, ht⟩
    simp only [Bind.bind, EStateM.bind, hact']
    exact hnext'

theorem sequencing : Sequencing fun {α : Type} (act : Act σ α) => Local line swapped act where
  pure := pure
  violate _ := throw _
  bind := bind

end Local

end Act

/-! ## Streams -/

namespace Stream

open Act (Local)

/-- The streams are the same but for the line, which is this one on the second. -/
def Swapped (rest : List Arrival) (s s' : Stream) : Prop := s'.uncut = s.uncut.withLine rest

variable {α : Type} {rest : List Arrival} {s s' : Stream}

namespace Swapped

theorem line (h : Swapped rest s s') : s'.line = rest := congrArg (·.link.line) h

theorem charset (h : Swapped rest s s') : s'.charset = s.charset := congrArg Uncut.charset h

theorem told (h : Swapped rest s s') : s'.link.uncut.told = s.link.uncut.told := congrArg (·.link.told) h

theorem record (h : Swapped rest s s') {event : Event} (hevent : event.isReceive = false) :
    Swapped rest { s with link := s.link.record event } { s' with link := s'.link.record event } := by
  rw [Swapped, uncut_say hevent s s.link.sendFaults s.staged,
    uncut_say hevent s' s'.link.sendFaults s'.staged]
  exact congrArg (fun u : Uncut => { u with link := { u.link with told := event :: u.link.told } }) h

end Swapped

/-- What is known by the bytes that it accepts looks no further. -/
theorem Accepts.isLocal {act : Act Stream α} {derives : NamedCharset → Bytes → α → Prop}
    (h : Accepts act derives) : Local line Swapped act where
  takes hrun := by
    obtain ⟨bytes, -, hline, -⟩ := h.sound hrun
    exact ⟨bytes, hline⟩
  again {s s' t a taken rest} hrun hline hswapped := by
    obtain ⟨bytes, hderives, htaken, ht⟩ := h.sound hrun
    obtain rfl : taken = bytes.map .byte := List.append_cancel_right (hline.symm.trans htaken)
    rw [← hswapped.charset] at hderives
    obtain ⟨t', hrun', ht'⟩ := h.complete hderives hswapped.line
    exact ⟨t', hrun', by rw [Swapped, ht', hswapped, ht]; rfl⟩

theorem local_logged (entry : Log.Entry) : Local line Swapped (logged entry) :=
  .of_idle (fun _ => rfl) (fun _ => rfl) fun _ _ _ h => h.record rfl

/-- All that is put together for a message looks no further than it takes. -/
theorem assembly_local : Assembly fun {α : Type} (act : Act Stream α) => Local line Swapped act where
  toSequencing := Local.sequencing
  logged := local_logged
  receive n := (accepts_receive n).isLocal
  receiveText cap _ := (accepts_receiveText cap).isLocal

/-- A handler remembers the same notices on both streams. -/
theorem local_handle (handling : NoticeHandling) (notice : String) :
    Local line Swapped (Reader.handle handling notice) := by
  cases handling with
  | logged => exact local_logged _
  | handled raises =>
    have told {s t : Stream} (h : Reader.handle (.handled raises) notice s = .ok () t) :
        raises (s.link.record (.noticed notice)).notices = none ∧
          t = { s with link := s.link.record (.noticed notice) } := by
      simp only [Reader.handle] at h
      split at h
      · cases h
        exact ⟨‹_›, rfl⟩
      · cases h
    constructor
    · intro s t a h
      obtain ⟨-, rfl⟩ := told h
      exact ⟨[], rfl⟩
    · intro s s' t a taken rest h hline hswapped
      obtain ⟨silent, rfl⟩ := told h
      obtain rfl : taken = [] := List.self_eq_append_left.1 hline
      have after := @Swapped.record _ _ _ hswapped (.noticed notice) rfl
      have notices := Link.notices_of_uncut_eq after.told
      refine ⟨_, ?_, after⟩
      simp only [Reader.handle]
      rw [show (s'.link.record (.noticed notice)).notices = _ from notices, silent]

/-- Sending leaves the line alone. -/
theorem line_flush {s t : Stream} (h : flush s = .ok () t) : t.line = s.line := by
  have hseen := seen_flush s
  rw [show s.uncut = s.uncut.withLine s.line from rfl, Uncut.flush_withLine, h] at hseen
  obtain ⟨v, -, hv⟩ := Act.exists_of_seen_ok hseen.symm
  exact (congrArg (·.link.line) hv).symm

theorem swapped_flush {t : Stream} (hswapped : Swapped rest s s') (h : flush s = .ok () t) :
    ∃ t', flush s' = .ok () t' ∧ Swapped rest t t' := by
  have hseen := seen_flush s'
  have hsent := seen_flush s
  rw [h] at hsent
  rw [hswapped, Uncut.flush_withLine, ← hsent] at hseen
  exact Act.exists_of_seen_ok hseen

/-- What is sent does not depend on the line, and leaves it. -/
theorem swapped_sendQuery {t : Stream} {statement : Bytes} (hswapped : Swapped rest s s')
    (h : sendQuery statement s = .ok () t) :
    t.line = s.line ∧ ∃ t', sendQuery statement s' = .ok () t' ∧ Swapped rest t t' := by
  have hflush : flush { s with staged := s.staged ++ Query.frame statement } = .ok () t := h
  have hstaged : Swapped rest { s with staged := s.staged ++ Query.frame statement }
      { s' with staged := s'.staged ++ Query.frame statement } := by
    show { s'.uncut with staged := s'.uncut.staged ++ Query.frame statement } = _
    rw [show s'.uncut = s.uncut.withLine rest from hswapped]
    rfl
  have hline := line_flush hflush
  exact ⟨hline, swapped_flush hstaged hflush⟩

theorem local_sendQuery (statement : Bytes) : Local line Swapped (sendQuery statement) where
  takes {s t _} h := by
    have same : s.Swapped s.line s := rfl
    exact ⟨[], (swapped_sendQuery same h).1.symm⟩
  again {s s' t _ taken rest} h hline hswapped := by
    obtain ⟨same, -⟩ := swapped_sendQuery hswapped h
    obtain rfl : taken = [] := by simpa [same] using hline
    exact (swapped_sendQuery hswapped h).2

end Stream

/-! ## Readers -/

namespace Reader

open Act (Local)

/-- Readers with the same response, on streams that are the same but for the line. -/
structure Swapped (rest : List Arrival) (r r' : Reader) : Prop where
  stream : Stream.Swapped rest r.stream r'.stream
  response : r'.response = r.response

/-- The line of the stream. -/
def line (r : Reader) : List Arrival := r.stream.line

theorem assembly_local (handling : NoticeHandling) :
    Assembly handling (fun {α : Type} (act : Act Stream α) => Local Stream.line Stream.Swapped act)
      fun {α : Type} (act : Act Reader α) => Local line Swapped act where
  toSequencing := Local.sequencing
  reading := Stream.assembly_local
  handle := Stream.local_handle handling
  sends := Stream.local_sendQuery _
  onStream {α act} h := by
    constructor
    · intro r t a hrun
      obtain ⟨s, hact, rfl⟩ := onStream_ok_iff.1 hrun
      exact h.takes hact
    · intro r r' t a taken rest hrun hline hswapped
      obtain ⟨s, hact, rfl⟩ := onStream_ok_iff.1 hrun
      obtain ⟨s', hact', hs⟩ := h.again hact hline hswapped.stream
      exact ⟨_, onStream_ok_iff.2 ⟨s', hact', rfl⟩, hs, hswapped.response⟩
  respond f := .of_idle (fun _ => rfl) (fun _ => rfl) fun _ _ _ h => ⟨h.stream, congrArg f h.response⟩
  response {α} next hn := by
    constructor
    · intro r t a h
      exact (hn r.response).takes h
    · intro r r' t a taken rest h hline hswapped
      obtain ⟨t', ht', hs⟩ := (hn r.response).again h hline hswapped
      refine ⟨t', ?_, hs⟩
      show next r'.response r' = _
      rw [hswapped.response, ht']
  pairwise {α act} h := by
    constructor
    · intro r t a hrun
      obtain ⟨part, hpart, hr, -⟩ := h r r
      rw [hr] at hrun
      exact hpart.takes hrun
    · intro r r' t a taken rest hrun hline hswapped
      obtain ⟨part, hpart, hr, hr'⟩ := h r r'
      rw [hr] at hrun
      rw [hr']
      exact hpart.again hrun hline hswapped

variable {handling : NoticeHandling} {r r' t : Reader} {transcript : Transcript} {taken rest : List Arrival}

/-- What is read up to a message is taken off the line. -/
theorem Reaches.takes (h : Reaches handling r transcript t) :
    ∃ bytes : Bytes, r.line = bytes.map .byte ++ t.line := by
  induction h with
  | refl r => exact ⟨[], rfl⟩
  | step undone read acted _ ih =>
    obtain ⟨first, hfirst⟩ := (assembly_local handling).step.takes acted
    obtain ⟨second, hsecond⟩ := ih
    exact ⟨first ++ second, by rw [hfirst, hsecond, List.map_append, List.append_assoc]⟩

/-- Messages that are read are read again where they are first on another line. -/
theorem Reaches.again (h : Reaches handling r transcript t) (hline : r.line = taken ++ t.line)
    (hswapped : Swapped (taken ++ rest) r r') :
    ∃ t', Reaches handling r' transcript t' ∧ Swapped rest t t' := by
  induction h generalizing r' taken with
  | refl r =>
    obtain rfl : taken = [] := by simpa using hline
    exact ⟨r', .refl r', hswapped⟩
  | @step r x u t message others undone read acted later ih =>
    have looks := assembly_local handling
    have reads := looks.toReading.readMessage
    have acts := looks.bind (looks.respond (·.after message)) fun _ => looks.answer message
    have hacts : (respond (·.after message) >>= fun _ => answer handling message : Act Reader Unit) x =
        .ok () u := (step_of_message read).symm.trans acted
    obtain ⟨first, hfirst⟩ := reads.takes read
    obtain ⟨second, hsecond⟩ := acts.takes hacts
    obtain ⟨third, hthird⟩ := later.takes
    obtain rfl : taken = first.map .byte ++ (second.map .byte ++ third.map .byte) := by
      rw [hfirst, hsecond, hthird] at hline
      exact List.append_cancel_right (hline.symm.trans (by simp only [List.append_assoc]))
    simp only [List.append_assoc] at hswapped
    obtain ⟨x', hread', hx⟩ := reads.again read hfirst hswapped
    obtain ⟨u', hacts', hu⟩ := acts.again hacts hsecond hx
    obtain ⟨t', hlater', ht⟩ := ih hthird hu
    refine ⟨t', .step ?_ hread' ?_ hlater', ht⟩
    · rw [hswapped.response]
      exact undone
    · rw [step_of_message hread']
      exact hacts'

end Reader

end SimpleQuery
