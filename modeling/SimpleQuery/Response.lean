import SimpleQuery.Message
import SimpleQuery.Query

/-!
# Responses

The answer to one query is a run of messages. A `Response` is what they have told so far, and
`Response.after` is what a message adds to it. A `Reader` takes messages from a stream until the answer
is complete.

A statement without rows has no message that ends its answer. Its status is therefore answered with an
empty statement, the *flush query*, and the answer is complete when a last message was seen and the
backend has acknowledged every flush query.

* `Reader.ahead_step` — each message takes at least one byte, so reading always ends.

Model of `ResponseReader` and `execute_simple_query`.
-/

set_option autoImplicit false

namespace SimpleQuery

/-- What becomes of the notices of the backend. -/
inductive NoticeHandling where
  /-- There is no handler, and notices go to the log. -/
  | logged
  /-- A handler takes them. Of those that it has taken so far, the latest last, it depends whether it
  raises an error, and with which text. -/
  | handled (raises : List String → Option String)

namespace NoticeHandling

/-- A handler that only takes notices. -/
def collected : NoticeHandling := .handled fun _ => none

/-- Whether no handler ever raises an error. -/
def Willing : NoticeHandling → Prop
  | .logged => True
  | .handled raises => ∀ taken, raises taken = none

theorem willing_logged : logged.Willing := trivial

theorem willing_collected : collected.Willing := fun _ => rfl

end NoticeHandling

/-- What the messages of an answer have told so far. -/
structure Response where
  columns : Option (List Column) := none
  rows : Array Row := #[]
  status : Option String := none
  /-- The last error that was reported. -/
  error : Option String := none
  /-- Whether a message was seen after which the answer may end. -/
  finalSeen : Bool := false
  /-- The flush queries that were not acknowledged yet. -/
  pendingFlushes : Nat := 0
  deriving DecidableEq, Repr

namespace Response

/-- Whether the answer is complete. -/
def done (r : Response) : Bool := r.finalSeen && r.pendingFlushes == 0

/-- What a message adds to a response. -/
def after (r : Response) : Message → Response
  | .columns group => { r with columns := some group }
  | .row _ slots => { r with rows := r.rows.push slots }
  | .complete status => { r with status := some status, finalSeen := r.finalSeen || r.columns.isSome }
  | .acknowledgment =>
    { r with pendingFlushes := r.pendingFlushes - 1,
             finalSeen := r.finalSeen || r.pendingFlushes ≤ 1 }
  | .error message => { r with error := some message, finalSeen := true }
  | .notice _ | .notification .. | .portal _ => r

/-- The response after a flush query was sent. -/
def flushed (r : Response) : Response := { r with pendingFlushes := r.pendingFlushes + 1 }

/-- What a complete answer gives: its error if one was reported, and otherwise its rows and status. -/
def result (r : Response) : Except String Bundle :=
  match r.error with
  | some message => .error message
  | none => .ok { columns := r.columns.getD [], rows := r.rows, status := r.status }

/-- Reads what follows a tag byte. Columns may come once, and rows only after them. -/
def receiveBody (r : Response) : Tag → Act Stream Message
  | .columns =>
    match r.columns with
    | some _ => throw (.refusal (.violation .secondRowGroup))
    | none => .columns <$> Stream.receiveColumns
  | .binaryRow => receiveRow true
  | .textRow => receiveRow false
  | .complete => .complete <$> Stream.receiveText maxStatus
  | .acknowledgment => do
    if (← Stream.receiveByte) = 0 then return .acknowledgment
    else throw (.refusal (.violation .garbledAcknowledgment))
  | .error => .error <$> Stream.receiveText maxError
  | .notice => .notice <$> Stream.receiveText maxError
  | .notification => do
    let process ← Stream.receiveInteger .four
    .notification process <$> Stream.receiveText maxStatus
  | .portal => .portal <$> Stream.receiveText maxStatus
where
  /-- Reads a row of the columns that are known. -/
  receiveRow (binary : Bool) : Act Stream Message :=
    match r.columns with
    | none => throw (.refusal (.violation .rowBeforeColumns))
    | some group => .row binary <$> Stream.receiveRow group.length binary

theorem spends_receiveBody (r : Response) (tag : Tag) : Stream.Spends (r.receiveBody tag) := by
  have row (binary : Bool) : Stream.Spends (receiveBody.receiveRow r binary) := by
    unfold receiveBody.receiveRow
    split
    · exact Stream.Spends.throw _
    · exact Stream.Spends.map _ (Stream.spends_receiveRow _ _)
  cases tag with
  | columns =>
    simp only [receiveBody]
    split
    · exact Stream.Spends.throw _
    · exact Stream.Spends.map _ Stream.spends_receiveColumns
  | binaryRow => exact row true
  | textRow => exact row false
  | complete | error | notice | portal => exact Stream.Spends.map _ (Stream.spends_receiveText _)
  | acknowledgment =>
    refine Stream.Spends.bind Stream.spends_receiveByte fun b => ?_
    split
    · exact Stream.Spends.pure _
    · exact Stream.Spends.throw _
  | notification =>
    exact Stream.Spends.bind (Stream.spends_receiveInteger _) fun _ =>
      Stream.Spends.map _ (Stream.spends_receiveText _)

end Response

/-- Reading an answer from a stream. -/
structure Reader where
  stream : Stream
  response : Response := {}

namespace Reader

/-- An action on the stream. -/
def onStream {α : Type} (act : Act Stream α) : Act Reader α :=
  Act.on Reader.stream (fun s r => { r with stream := s }) act

/-- Changes the response. -/
def respond (f : Response → Response) : Act Reader Unit := fun r =>
  .ok () { r with response := f r.response }

/-- Reads a tag byte. -/
def receiveTag : Act Reader UInt8 := do
  let b ← onStream Stream.receiveByte
  let r := (← get).response
  onStream (Stream.logged (.messageBegun b r.finalSeen r.pendingFlushes))
  return b

/-- Reads what follows a tag byte. -/
def receiveMessage (b : UInt8) : Act Reader Message := do
  match Tag.ofByte? b with
  | some tag => onStream ((← get).response.receiveBody tag)
  | none =>
    onStream (Stream.logged (.tagUnknown b))
    throw (.refusal (.violation (.unknownTag b)))

/-- Hands a notice to the handler, if there is one. -/
def handle (handling : NoticeHandling) (notice : String) : Act Stream Unit := fun s =>
  match handling with
  | .logged => .ok () (s.log (.noticeUnhandled notice))
  | .handled raises =>
    let t := { s with link := s.link.record (.noticed notice) }
    match raises t.link.notices with
    | none => .ok () t
    | some reason => .error (.handler reason) t

/-- Whether or not a handler raises an error, it has taken the notice. -/
theorem state_handle_handled (raises : List String → Option String) (notice : String) (s : Stream) :
    Act.state (handle (.handled raises) notice s) = { s with link := s.link.record (.noticed notice) } := by
  simp only [handle]
  split <;> rfl

/-- A handler that never raises an error only takes the notice. -/
theorem handle_of_willing {raises : List String → Option String}
    (willing : (NoticeHandling.handled raises).Willing) (notice : String) (s : Stream) :
    handle (.handled raises) notice s = .ok () { s with link := s.link.record (.noticed notice) } := by
  simp only [handle, willing _]

/-- Sends a flush query for the status of a statement without rows. -/
def flush (status : String) : Act Reader Unit := do
  onStream (Stream.sendQuery Query.blankBytes)
  respond Response.flushed
  onStream (Stream.logged (.flushSent status (← get).response.pendingFlushes))

/-- Acts on a message, after the response has taken it in. -/
def answer (handling : NoticeHandling) : Message → Act Reader Unit
  | .columns group => onStream (Stream.logged (.columnsRead group.length))
  | .complete status => do
    if (← get).response.columns.isNone then flush status
  | .notice notice => onStream (handle handling notice)
  | .notification process text => onStream (Stream.logged (.notificationIgnored process text))
  | .portal name => onStream (Stream.logged (.portalIgnored name))
  | .row .. | .acknowledgment | .error _ => pure ()

/-- What is done once a tag byte is read. -/
def afterTag (handling : NoticeHandling) (b : UInt8) : Act Reader Unit := do
  let message ← receiveMessage b
  respond (·.after message)
  answer handling message

/-- Reads one message and acts on it. -/
def step (handling : NoticeHandling) : Act Reader Unit := do
  afterTag handling (← receiveTag)

/-- Actions that make up no byte to be read. -/
abbrev Spends {α : Type} (act : Act Reader α) : Prop :=
  Act.Moves (fun r t : Reader => Stream.NoMoreAhead r.stream t.stream) act

theorem Spends.onStream {α : Type} {act : Act Stream α} (h : Stream.Spends act) :
    Spends (onStream act) := by
  intro r
  have := h r.stream
  simp only [Reader.onStream, Act.on]
  split <;> rename_i hr <;> rw [hr] at this <;> exact this

theorem Spends.bind {α β : Type} {act : Act Reader α} {next : α → Act Reader β} (h : Spends act)
    (hn : ∀ a, Spends (next a)) : Spends (act >>= next) :=
  Act.Moves.bind (fun a b c => Stream.NoMoreAhead.trans a.stream b.stream c.stream) h hn

theorem Spends.pure {α : Type} (a : α) : Spends (Pure.pure a : Act Reader α) :=
  fun r => Stream.NoMoreAhead.refl r.stream

theorem Spends.get : Spends (MonadState.get : Act Reader Reader) :=
  fun r => Stream.NoMoreAhead.refl r.stream

theorem Spends.throw {α : Type} (fault : Fault) : Spends (throw fault : Act Reader α) :=
  fun r => Stream.NoMoreAhead.refl r.stream

theorem spends_respond (f : Response → Response) : Spends (respond f) :=
  fun r => Stream.NoMoreAhead.refl r.stream

theorem spends_handle (handling : NoticeHandling) (notice : String) :
    Stream.Spends (handle handling notice) := by
  intro s
  cases handling with
  | logged => exact Nat.le_refl _
  | handled raises =>
    rw [state_handle_handled]
    exact Nat.le_refl _

theorem spends_receiveMessage (b : UInt8) : Spends (receiveMessage b) := by
  simp only [receiveMessage]
  split
  · exact Spends.bind Spends.get fun r => Spends.onStream (Response.spends_receiveBody _ _)
  · exact Spends.bind (Spends.onStream (Stream.Spends.logged _)) fun _ => Spends.throw _

theorem spends_flush (status : String) : Spends (flush status) :=
  Spends.bind (Spends.onStream (Stream.spends_sendQuery _)) fun _ =>
    Spends.bind (spends_respond _) fun _ => Spends.bind Spends.get fun _ =>
      Spends.onStream (Stream.Spends.logged _)

theorem spends_answer (handling : NoticeHandling) (message : Message) :
    Spends (answer handling message) := by
  cases message with
  | columns | notification | portal => exact Spends.onStream (Stream.Spends.logged _)
  | notice => exact Spends.onStream (spends_handle _ _)
  | row | acknowledgment | error => exact Spends.pure _
  | complete status =>
    refine Spends.bind Spends.get fun r => ?_
    split
    · exact spends_flush status
    · exact Spends.pure _

theorem spends_afterTag (handling : NoticeHandling) (b : UInt8) : Spends (afterTag handling b) :=
  Spends.bind (spends_receiveMessage b) fun _ => Spends.bind (spends_respond _) fun _ =>
    spends_answer _ _

/-- Each message takes at least one byte. -/
theorem ahead_step {handling : NoticeHandling} {r t : Reader} (h : step handling r = .ok () t) :
    t.stream.ahead < r.stream.ahead := by
  cases hb : Stream.receiveByte r.stream with
  | error fault s =>
    simp only [step, receiveTag, onStream, Act.on, bind, EStateM.bind, hb] at h
    cases h
  | ok b s =>
    have hs := Stream.ahead_receiveByte hb
    simp only [step, receiveTag, onStream, Act.on, bind, EStateM.bind, hb] at h
    have := spends_afterTag handling b
      { r with stream := s.log (.messageBegun b r.response.finalSeen r.response.pendingFlushes) }
    rw [show afterTag handling b _ = .ok () t from h] at this
    simp only [Act.state_ok, Stream.NoMoreAhead, Stream.ahead_log] at this
    omega

/-- Reads messages until the answer is complete. -/
def readFrom (handling : NoticeHandling) (r : Reader) : EStateM.Result Fault Reader Unit :=
  if r.response.done then .ok () r
  else
    match _h : step handling r with
    | .ok () t => readFrom handling t
    | .error fault t => .error fault t
termination_by r.stream.ahead
decreasing_by exact ahead_step _h

theorem readFrom_of_done {handling : NoticeHandling} {r : Reader} (h : r.response.done = true) :
    readFrom handling r = .ok () r := by
  rw [readFrom, if_pos h]

theorem readFrom_of_step {handling : NoticeHandling} {r t : Reader} (hd : r.response.done = false)
    (h : step handling r = .ok () t) : readFrom handling r = readFrom handling t := by
  rw [readFrom, if_neg (by rw [hd]; decide)]
  split
  · rename_i u hu
    rw [h] at hu
    cases hu
    rfl
  · rename_i fault u hu
    rw [h] at hu
    cases hu

theorem readFrom_of_fault {handling : NoticeHandling} {r t : Reader} {fault : Fault}
    (hd : r.response.done = false) (h : step handling r = .error fault t) :
    readFrom handling r = .error fault t := by
  rw [readFrom, if_neg (by rw [hd]; decide)]
  split
  · rename_i u hu
    rw [h] at hu
    cases hu
  · rename_i fault u hu
    rw [h] at hu
    cases hu
    rfl

/-- Gives what a complete answer has. Of an answer with an error nothing else is kept. -/
def finish : Act Reader Bundle := fun r =>
  match r.response.result with
  | .ok bundle => .ok bundle r
  | .error message =>
    .error (.refusal (.server message))
      { r with stream := r.stream.log (.queryFailed message r.response.rows.size),
               response := { r.response with rows := #[] } }

/-- Reads an answer to its end. -/
def read (handling : NoticeHandling) : Act Reader Bundle := do
  readFrom handling
  finish

end Reader

namespace Stream

/-- Reads the answer to a query. -/
def receiveAnswer (handling : NoticeHandling) : Act Stream Bundle := fun s =>
  match Reader.read handling { stream := s } with
  | .ok bundle r => .ok bundle r.stream
  | .error fault r => .error fault r.stream

/-- Runs a statement. One that is too long, or that the charset cannot spell, is refused before
anything is staged. -/
def query (handling : NoticeHandling) (statement : String) : Act Stream Bundle := do
  if maxStatementLength < statement.length then
    throw (.refusal (.statementTooLong statement.length))
  let bytes ← Act.ofExcept ((← get).encode statement)
  sendQuery bytes
  receiveAnswer handling

theorem query_of_long {handling : NoticeHandling} {statement : String}
    (h : maxStatementLength < statement.length) (s : Stream) :
    query handling statement s = .error (.refusal (.statementTooLong statement.length)) s := by
  simp only [query, if_pos h]
  rfl

theorem query_of_short {handling : NoticeHandling} {statement : String}
    (h : statement.length ≤ maxStatementLength) (s : Stream) :
    query handling statement s =
      (Act.ofExcept (s.encode statement) >>= fun bytes =>
        sendQuery bytes >>= fun _ => receiveAnswer handling : Act Stream Bundle) s := by
  simp only [query, if_neg (Nat.not_lt.2 h)]
  rfl

end Stream

end SimpleQuery
