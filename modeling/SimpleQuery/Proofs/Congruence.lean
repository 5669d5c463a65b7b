import SimpleQuery.Proofs.Agreement
import SimpleQuery.Proofs.Assembly

/-!
# Relations that reading does not see

Two streams may differ in much that no answer depends on. Where the primitives of reading and sending
respect a relation between streams, so does all that is put together from them, up to a statement with
its answer. Only a handler of notices sees more: what it has taken before.

* `Stream.Congruence` — what has to be known of the relation.
* `NoticeHandling.Blind` — what has to be known of the handler.
* `Stream.Congruence.read` — reading an answer.
* `Stream.Congruence.query` — a statement and its answer.
-/

set_option autoImplicit false

namespace SimpleQuery

open Act (Respects)

/-- Respecting a relation is inherited. -/
theorem Act.Respects.sequencing {σ : Type} {R : σ → σ → Prop} :
    Act.Sequencing fun {α : Type} (act : Act σ α) => Respects R act where
  pure := Respects.pure
  violate _ := Respects.throw _
  bind := Respects.bind

/-- A relation that the primitives of reading and sending respect. -/
structure Stream.Congruence (R : Stream → Stream → Prop) : Prop where
  charset : ∀ s t, R s t → s.charset = t.charset
  receive : ∀ n, Respects R (receive n)
  gather : ∀ room, Respects R (gather room)
  await : Respects R await
  record : ∀ event, event.isReceive = false → ∀ s t, R s t →
    R { s with link := s.link.record event } { t with link := t.link.record event }
  stage : ∀ bytes, Respects R (stage bytes)
  flush : Respects R flush

/-- A handler that does not tell related streams apart. -/
def NoticeHandling.Blind (handling : NoticeHandling) (R : Stream → Stream → Prop) : Prop :=
  ∀ notice, Respects R (Reader.handle handling notice)

/-- Readers with the same response, on streams that are related. -/
structure Reader.Over (R : Stream → Stream → Prop) (r t : Reader) : Prop where
  stream : R r.stream t.stream
  response : r.response = t.response

namespace Stream.Congruence

variable {R : Stream → Stream → Prop} {α : Type}

/-! ## Reading from a stream -/

theorem log (h : Congruence R) (entry : Log.Entry) {s t : Stream} (hst : R s t) :
    R (s.log entry) (t.log entry) := h.record (.logged entry) rfl s t hst

theorem logged (h : Congruence R) (entry : Log.Entry) : Respects R (logged entry) :=
  fun _ _ hst => .ok rfl (h.log entry hst)

/-- What is made of a text by the charset of the stream. -/
theorem text (h : Congruence R) {next : Stream → Except Fault α}
    (same : ∀ s t : Stream, s.charset = t.charset → next s = next t) :
    Respects R (MonadState.get >>= fun s : Stream => Act.ofExcept (next s)) :=
  Respects.get_bind (fun s t hst => by rw [same s t (h.charset s t hst)]) fun _ => Respects.ofExcept _

theorem receiveText (h : Congruence R) (cap : Nat) : Respects R (receiveText cap) := by
  apply receiveText_of Respects.sequencing h.logged
  · exact Respects.bind h.await fun _ => h.gather cap
  · exact fun bytes => h.text fun s t same => by simp only [Stream.decode, same]

/-- All that is put together for a message respects the relation. -/
theorem assembly (h : Congruence R) : Assembly fun {α : Type} (act : Act Stream α) => Respects R act where
  toSequencing := Respects.sequencing
  logged := h.logged
  receive := h.receive
  receiveText cap _ := h.receiveText cap

theorem sendQuery (h : Congruence R) (statement : Bytes) : Respects R (sendQuery statement) :=
  Respects.bind (h.stage _) fun _ => h.flush

/-- A handler does not tell streams apart on which it has taken the same notices. -/
theorem blind (h : Congruence R) (notices : ∀ s t, R s t → s.link.notices = t.link.notices)
    (handling : NoticeHandling) : handling.Blind R := by
  intro notice s t hst
  cases handling with
  | logged => exact h.logged _ s t hst
  | handled raises =>
    have hnoticed := h.record (.noticed notice) rfl s t hst
    simp only [Reader.handle, notices _ _ hnoticed]
    cases raises (t.link.record (.noticed notice)).notices with
    | none => exact .ok rfl hnoticed
    | some reason => exact .error hnoticed

/-- Nor does one that never raises an error. -/
theorem blind_of_willing (h : Congruence R) {handling : NoticeHandling} (willing : handling.Willing) :
    handling.Blind R := by
  intro notice s t hst
  cases handling with
  | logged => exact h.logged _ s t hst
  | handled raises =>
    rw [Reader.handle_of_willing willing, Reader.handle_of_willing willing]
    exact .ok rfl (h.record (.noticed notice) rfl s t hst)

/-! ## Reading an answer -/

theorem onStream {act : Act Stream α} (ha : Respects R act) :
    Respects (Reader.Over R) (Reader.onStream act) :=
  Respects.on ha (fun _ _ hrt => hrt.stream) fun _ _ _ _ hrt hst => ⟨hst, hrt.response⟩

theorem respond (f : Response → Response) : Respects (Reader.Over R) (Reader.respond f) :=
  fun _ _ hrt => .ok rfl ⟨hrt.stream, congrArg f hrt.response⟩

/-- So does all that is put together for an answer. -/
theorem answering (h : Congruence R) {handling : NoticeHandling} (blind : handling.Blind R) :
    Reader.Assembly handling (fun {α : Type} (act : Act Stream α) => Respects R act)
      fun {α : Type} (act : Act Reader α) => Respects (Reader.Over R) act where
  toSequencing := Respects.sequencing
  reading := h.assembly
  handle := blind
  sends := h.sendQuery _
  onStream := onStream
  respond := respond
  response _ hn := Respects.get_bind (fun r t hrt => by rw [hrt.response]) fun r => hn r.response
  pairwise h r t hrt := by
    obtain ⟨part, hpart, hr, ht⟩ := h r t
    rw [hr, ht]
    exact hpart r t hrt

theorem read (h : Congruence R) {handling : NoticeHandling} (blind : handling.Blind R) :
    Respects (Reader.Over R) (Reader.read handling) :=
  (h.answering blind).read fun _ => Respects.throw _

/-! ## A statement and its answer -/

theorem receiveAnswer (h : Congruence R) {handling : NoticeHandling} (blind : handling.Blind R) :
    Respects R (receiveAnswer handling) := by
  intro s t hst
  have hr := h.read blind { stream := s } { stream := t } ⟨hst, rfl⟩
  unfold Stream.receiveAnswer
  revert hr
  generalize Reader.read handling { stream := s } = r
  generalize Reader.read handling { stream := t } = r'
  intro hr
  cases hr with
  | ok hv hs => exact .ok hv hs.stream
  | error hs => exact .error hs.stream

theorem query (h : Congruence R) {handling : NoticeHandling} (blind : handling.Blind R)
    (statement : String) : Respects R (query handling statement) := by
  apply query_of Respects.sequencing
  · exact fun text => h.text fun s t same => by simp only [Stream.encode, same]
  · exact h.sendQuery
  · exact h.receiveAnswer blind
  · exact fun _ => Respects.throw _

end Stream.Congruence

end SimpleQuery
