import SimpleQuery.Response

/-!
# How reading is put together

All of reading is put together from a few primitives. A property of actions that sequences inherit from
their parts is one that all of reading has as soon as the primitives have it, so that a proof about
reading looks at the primitives and at nothing above them. The loop over the messages is one of these
sequences too, when it is seen from a state with so many bytes ahead.

* `Act.Sequencing` — a property of actions that sequences inherit.
* `Stream.Assembly` — one that the primitives of reading have, and so every part of a message.
* `Reader.Assembly` — one that moreover lifts from the stream to the reader, and so holds of a whole
  step.
* `Reader.Assembly.read` — it holds of reading an answer, by induction on the number of its messages.
-/

set_option autoImplicit false

namespace SimpleQuery

namespace Act

/-- A property of actions that sequences inherit from their parts, and that giving up on what the
backend sends has. -/
structure Sequencing {σ : Type} (P : ∀ {α : Type}, Act σ α → Prop) : Prop where
  pure : ∀ {α : Type} (a : α), P (Pure.pure a : Act σ α)
  violate : ∀ {α : Type} (cause : Violation), P (throw (.refusal (.violation cause)) : Act σ α)
  bind : ∀ {α β : Type} {act : Act σ α} {next : α → Act σ β}, P act → (∀ a, P (next a)) →
    P (act >>= next)

namespace Sequencing

variable {σ : Type} {P : ∀ {α : Type}, Act σ α → Prop} {α β : Type}

theorem map (h : Sequencing P) (f : α → β) {act : Act σ α} (ha : P act) : P (f <$> act) :=
  show P (act >>= fun a => Pure.pure (f a)) from h.bind ha fun a => h.pure (f a)

theorem mapM (h : Sequencing P) {f : α → Act σ β} (hf : ∀ a, P (f a)) : ∀ l : List α, P (l.mapM f)
  | [] => by
    rw [List.mapM_nil]
    exact h.pure _
  | a :: l => by
    rw [List.mapM_cons]
    exact h.bind (hf a) fun b => h.bind (h.mapM hf l) fun _ => h.pure _

end Sequencing

/-- Moving the state along a relation is inherited where the relation is reflexive and transitive. -/
theorem Moves.sequencing {σ : Type} {r : σ → σ → Prop} (refl : ∀ s, r s s)
    (trans : ∀ a b c, r a b → r b c → r a c) :
    Sequencing fun {α : Type} (act : Act σ α) => Moves r act where
  pure := Moves.pure refl
  violate _ := Moves.throw refl _
  bind := Moves.bind trans

end Act

/-! ## Parts of a message -/

namespace Stream

/-- A property that the primitives of reading have. No text is read without room for its last byte. -/
structure Assembly (P : ∀ {α : Type}, Act Stream α → Prop) : Prop extends Act.Sequencing P where
  logged : ∀ entry, P (logged entry)
  receive : ∀ n, P (receive n)
  receiveText : ∀ cap, 0 < cap → P (receiveText cap)

/-- Reading a text is waiting for a byte, gathering bytes, and decoding them. -/
theorem receiveText_of {P : ∀ {α : Type}, Act Stream α → Prop} (h : Act.Sequencing P) {cap : Nat}
    (logged : ∀ entry, P (logged entry)) (gathered : P (await >>= fun _ => gather cap))
    (decode : ∀ bytes, P (MonadState.get >>= fun s : Stream => Act.ofExcept (s.decode bytes))) :
    P (receiveText cap) := by
  unfold receiveText
  rw [← bind_assoc]
  refine h.bind gathered fun text => ?_
  cases text with
  | none => exact h.bind (logged _) fun _ => h.violate _
  | some text => exact decode text

namespace Assembly

variable {P : ∀ {α : Type}, Act Stream α → Prop}

theorem receiveByte (h : Assembly P) : P receiveByte := h.bind (h.receive 1) fun _ => h.pure _

theorem receiveInteger (h : Assembly P) (width : Width) : P (receiveInteger width) :=
  h.bind (h.receive width.bytes) fun _ => h.pure _

theorem receiveColumn (h : Assembly P) : P receiveColumn :=
  h.bind (h.receiveText maxColumnName (by decide)) fun _ => h.bind (h.receiveInteger .four) fun _ =>
    h.bind (h.receiveInteger .two) fun _ => h.pure _

theorem receiveColumns (h : Assembly P) : P receiveColumns :=
  h.bind (h.receiveInteger .two) fun _ => h.mapM (fun _ => h.receiveColumn) _

theorem receiveSlot (h : Assembly P) (binary present : Bool) : P (receiveSlot binary present) := by
  cases present with
  | false => exact h.pure _
  | true => exact h.map some (h.bind (h.receiveInteger .four) fun _ => h.receive _)

theorem receiveRow (h : Assembly P) (columns : Nat) (binary : Bool) : P (receiveRow columns binary) :=
  h.bind (h.receive _) fun _ => h.mapM (h.receiveSlot binary) _

theorem receiveBody (h : Assembly P) (r : Response) (tag : Tag) : P (r.receiveBody tag) := by
  have row (binary : Bool) : P (Response.receiveBody.receiveRow r binary) := by
    unfold Response.receiveBody.receiveRow
    split
    · exact h.violate _
    · exact h.map _ (h.receiveRow _ binary)
  have status : 0 < maxStatus := by decide
  have error : 0 < maxError := by decide
  cases tag with
  | columns =>
    simp only [Response.receiveBody]
    split
    · exact h.violate _
    · exact h.map _ h.receiveColumns
  | binaryRow => exact row true
  | textRow => exact row false
  | complete | portal => exact h.map _ (h.receiveText _ status)
  | error | notice => exact h.map _ (h.receiveText _ error)
  | acknowledgment =>
    refine h.bind h.receiveByte fun b => ?_
    split
    · exact h.pure _
    · exact h.violate _
  | notification => exact h.bind (h.receiveInteger .four) fun _ => h.map _ (h.receiveText _ status)

end Assembly

/-- Reading an answer is what its reader does. -/
theorem receiveAnswer_eq (handling : NoticeHandling) (s : Stream) :
    Act.outcome (receiveAnswer handling s) = Act.outcome (Reader.read handling { stream := s }) ∧
      Act.state (receiveAnswer handling s) = (Act.state (Reader.read handling { stream := s })).stream := by
  unfold receiveAnswer
  cases Reader.read handling { stream := s } <;> exact ⟨rfl, rfl⟩

/-- Once a statement is sent, what is left of the query is its answer. -/
theorem query_eq_receiveAnswer {handling : NoticeHandling} {s t : Stream} {statement : String} {text : Bytes}
    (short : statement.length ≤ maxStatementLength) (encoded : s.encode statement = .ok text)
    (sends : sendQuery text s = .ok () t) : s.query handling statement = receiveAnswer handling t := by
  rw [query_of_short short, encoded]
  simp only [Act.ofExcept, bind, EStateM.bind, pure, EStateM.pure, sends]

/-- A statement is encoded and sent, and its answer is read. -/
theorem query_of {P : ∀ {α : Type}, Act Stream α → Prop} (h : Act.Sequencing P)
    {handling : NoticeHandling}
    (encode : ∀ text, P (MonadState.get >>= fun s : Stream => Act.ofExcept (s.encode text)))
    (send : ∀ bytes, P (sendQuery bytes)) (answer : P (receiveAnswer handling))
    (refused : ∀ length, P (throw (.refusal (.statementTooLong length)) : Act Stream Bundle))
    (statement : String) : P (query handling statement) := by
  unfold query
  split
  · exact refused _
  · have rest := h.bind (encode statement) fun bytes => h.bind (send bytes) fun _ => answer
    rwa [bind_assoc] at rest

end Stream

/-! ## Messages -/

namespace Reader

/-- A property of actions on a reader that those on its stream hand on. Of the reader itself an action
may read no more than the response. -/
structure Reading (P : ∀ {α : Type}, Act Stream α → Prop) (Q : ∀ {α : Type}, Act Reader α → Prop) :
    Prop extends Act.Sequencing Q where
  reading : Stream.Assembly P
  onStream : ∀ {α : Type} {act : Act Stream α}, P act → Q (onStream act)
  response : ∀ {α : Type} (next : Response → Act Reader α), (∀ r, Q (next r)) →
    Q (MonadState.get >>= fun reader : Reader => next reader.response)

namespace Reading

variable {P : ∀ {α : Type}, Act Stream α → Prop} {Q : ∀ {α : Type}, Act Reader α → Prop}

theorem logged (h : Reading P Q) (entry : Log.Entry) : Q (Reader.onStream (Stream.logged entry)) :=
  h.onStream (h.reading.logged entry)

theorem receiveTag (h : Reading P Q) : Q receiveTag :=
  h.bind (h.onStream h.reading.receiveByte) fun b =>
    h.response (fun r => Reader.onStream
        (Stream.logged (.messageBegun b r.finalSeen r.pendingFlushes)) >>= fun _ => Pure.pure b)
      fun _ => h.bind (h.logged _) fun _ => h.pure _

theorem receiveMessage (h : Reading P Q) (b : UInt8) : Q (receiveMessage b) := by
  unfold Reader.receiveMessage
  split
  · exact h.response (fun r => Reader.onStream (r.receiveBody _)) fun r =>
      h.onStream (h.reading.receiveBody r _)
  · exact h.bind (h.logged _) fun _ => h.violate _

end Reading

/-- A property that moreover the ways of acting on a message have, and that is seen from two states at a
time. -/
structure Assembly (handling : NoticeHandling) (P : ∀ {α : Type}, Act Stream α → Prop)
    (Q : ∀ {α : Type}, Act Reader α → Prop) : Prop extends Reading P Q where
  handle : ∀ notice, P (handle handling notice)
  sends : P (Stream.sendQuery Query.blankBytes)
  respond : ∀ f, Q (respond f)
  pairwise : ∀ {α : Type} {act : Act Reader α},
    (∀ r t, ∃ part : Act Reader α, Q part ∧ act r = part r ∧ act t = part t) → Q act

theorem stream_onStream {α : Type} (act : Act Stream α) (r : Reader) :
    (Act.state (onStream act r)).stream = Act.state (act r.stream) := by
  simp only [onStream, Act.on]
  cases act r.stream <;> rfl

theorem readFrom_of_undone {handling : NoticeHandling} {r : Reader} (h : r.response.done = false) :
    readFrom handling r = (step handling >>= fun _ => readFrom handling) r := by
  simp only [bind, EStateM.bind]
  cases hs : step handling r with
  | ok _ t => exact readFrom_of_step h hs
  | error fault t => exact readFrom_of_fault h hs

/-- Reads messages until the answer is complete, but no more than so many. -/
def readAtMost (handling : NoticeHandling) : Nat → Act Reader Unit
  | 0 => pure ()
  | n + 1 => MonadState.get >>= fun reader : Reader =>
    if reader.response.done then pure () else step handling >>= fun _ => readAtMost handling n

/-- More messages than bytes ahead are never read. -/
theorem readAtMost_eq (handling : NoticeHandling) {n : Nat} {r : Reader} (h : r.stream.ahead < n) :
    readAtMost handling n r = readFrom handling r := by
  induction n generalizing r with
  | zero => omega
  | succ n ih =>
    show (if r.response.done then pure () else
      step handling >>= fun _ => readAtMost handling n : Act Reader Unit) r = _
    cases hd : r.response.done with
    | true =>
      rw [readFrom_of_done hd]
      rfl
    | false =>
      rw [readFrom_of_undone hd]
      simp only [Bool.false_eq_true, if_false, bind, EStateM.bind]
      cases hs : step handling r with
      | error fault t => rfl
      | ok _ t =>
        have := ahead_step hs
        exact ih (by omega)

/-- What is done at the end of an answer, by what its messages have told. -/
def conclude (r : Response) : Act Reader Bundle :=
  match r.result with
  | .ok bundle => pure bundle
  | .error message => do
    onStream (Stream.logged (.queryFailed message r.rows.size))
    respond fun r => { r with rows := #[] }
    throw (.refusal (.server message))

theorem finish_eq : finish = MonadState.get >>= fun reader : Reader => conclude reader.response := by
  funext reader
  simp only [finish, conclude, bind, EStateM.bind, Act.get_eq]
  cases reader.response.result <;> rfl

namespace Assembly

variable {handling : NoticeHandling} {P : ∀ {α : Type}, Act Stream α → Prop}
  {Q : ∀ {α : Type}, Act Reader α → Prop}

theorem flush (h : Assembly handling P Q) (status : String) : Q (flush status) :=
  h.bind (h.onStream h.sends) fun _ => h.bind (h.respond _) fun _ =>
    h.response (fun r => Reader.onStream (Stream.logged (.flushSent status r.pendingFlushes)))
      fun _ => h.logged _

theorem answer (h : Assembly handling P Q) (message : Message) : Q (answer handling message) := by
  cases message with
  | columns | notification | portal => exact h.logged _
  | notice notice => exact h.onStream (h.handle notice)
  | row | acknowledgment | error => exact h.pure _
  | complete status =>
    refine h.response (fun r => if r.columns.isNone then Reader.flush status else Pure.pure ()) fun r => ?_
    split
    · exact h.flush status
    · exact h.pure _

theorem step (h : Assembly handling P Q) : Q (step handling) :=
  h.bind h.receiveTag fun b => h.bind (h.receiveMessage b) fun message =>
    h.bind (h.respond _) fun _ => h.answer message

theorem finish (h : Assembly handling P Q)
    (refused : ∀ message, Q (throw (.refusal (.server message)) : Act Reader Bundle)) : Q finish := by
  rw [finish_eq]
  refine h.response conclude fun r => ?_
  unfold conclude
  split
  · exact h.pure _
  · exact h.bind (h.logged _) fun _ => h.bind (h.respond _) fun _ => refused _

theorem readAtMost (h : Assembly handling P Q) : ∀ n, Q (readAtMost handling n)
  | 0 => h.pure _
  | n + 1 => by
    refine h.response (fun r => if r.done then Pure.pure () else
      Reader.step handling >>= fun _ => Reader.readAtMost handling n) fun r => ?_
    split
    · exact h.pure _
    · exact h.bind h.step fun _ => h.readAtMost n

/-- From two states the loop reads no more messages than the larger number of bytes ahead. -/
theorem readFrom (h : Assembly handling P Q) : Q (readFrom handling) := by
  refine h.pairwise fun r t => ?_
  refine ⟨_, h.readAtMost (max r.stream.ahead t.stream.ahead + 1), ?_, ?_⟩
  · exact (readAtMost_eq handling (by omega)).symm
  · exact (readAtMost_eq handling (by omega)).symm

theorem read (h : Assembly handling P Q)
    (refused : ∀ message, Q (throw (.refusal (.server message)) : Act Reader Bundle)) :
    Q (read handling) :=
  h.bind h.readFrom fun _ => h.finish refused

end Assembly

end Reader

end SimpleQuery
