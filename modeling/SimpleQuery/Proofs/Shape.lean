import SimpleQuery.Proofs.Boundaries
import SimpleQuery.Proofs.RowGroups

/-!
# The shape of a result

Whatever bytes arrive, and however reading them ends, a response tells what the messages told that were
read in full: the columns, the rows behind them with one slot for each column, the last status and the
last error.

* `Response.Recounts` — a response that tells what messages told.
* `Response.Admits` — the messages that are read on a response: columns once, and rows of as many slots
  as there are columns.
* `Reader.recounts_step` — what one step preserves.
* `answer_recounts_its_messages` — what holds between all messages of an answer and at its end.
-/

set_option autoImplicit false

namespace SimpleQuery

/-! ## What messages tell -/

namespace Message

/-- The columns, if these are what the message brings. -/
def group? : Message → Option (List Column)
  | .columns group => some group
  | _ => none

def status? : Message → Option String
  | .complete status => some status
  | _ => none

def error? : Message → Option String
  | .error message => some message
  | _ => none

end Message

namespace Transcript

/-- The first columns. -/
def columns? (transcript : Transcript) : Option (List Column) := transcript.findSome? Message.group?

/-- The rows of both formats, in their order. -/
def rows (transcript : Transcript) : List Row := transcript.filterMap Message.slots?

/-- The last status. -/
def status? (transcript : Transcript) : Option String := transcript.reverse.findSome? Message.status?

/-- The last error. -/
def error? (transcript : Transcript) : Option String := transcript.reverse.findSome? Message.error?

variable {told : Transcript} {message : Message}

theorem columns?_concat : columns? (told ++ [message]) = told.columns?.or message.group? := by
  simp [columns?]

theorem rows_concat : rows (told ++ [message]) = told.rows ++ message.slots?.toList := by
  rw [rows, List.filterMap_append, rows]
  cases h : message.slots? <;> simp [h]

theorem status?_concat : status? (told ++ [message]) = message.status?.or told.status? := by
  rw [status?, List.reverse_concat, List.findSome?_cons]
  cases message.status? <;> rfl

theorem error?_concat : error? (told ++ [message]) = message.error?.or told.error? := by
  rw [error?, List.reverse_concat, List.findSome?_cons]
  cases message.error? <;> rfl

theorem error_notMem (h : told.error? = none) (message : String) : .error message ∉ told := by
  intro hmem
  have none := List.findSome?_eq_none_iff.1 h (.error message) (List.mem_reverse.2 hmem)
  cases none

end Transcript

namespace Response

/-- The response tells what the messages told. Without columns there are no rows, and with columns each
row has a slot for each of them. -/
structure Recounts (r : Response) (told : Transcript) : Prop where
  columns : r.columns = told.columns?
  rows : r.rows.toList = told.rows
  status : r.status = told.status?
  error : r.error = told.error?
  rowless : r.columns = none → r.rows = #[]
  slots : ∀ group, r.columns = some group → ∀ row ∈ r.rows.toList, row.length = group.length

/-- The message may come next: columns if there are none, and rows with a slot for each column. -/
def Admits (r : Response) : Message → Prop
  | .columns _ => r.columns = none
  | .row _ slots => ∃ group, r.columns = some group ∧ slots.length = group.length
  | _ => True

theorem recounts_nothing : Recounts {} [] := ⟨rfl, rfl, rfl, rfl, fun _ => rfl, fun _ h => by cases h⟩

theorem Recounts.flushed {r : Response} {told : Transcript} (h : r.Recounts told) :
    r.flushed.Recounts told := ⟨h.columns, h.rows, h.status, h.error, h.rowless, h.slots⟩

theorem columns_after {r : Response} {message : Message} (admitted : r.Admits message) :
    (r.after message).columns = r.columns.or message.group? := by
  cases message with
  | columns group =>
    have none : r.columns = none := admitted
    rw [none]
    rfl
  | _ => exact (Option.or_none ..).symm

theorem rows_after (r : Response) (message : Message) :
    (r.after message).rows.toList = r.rows.toList ++ message.slots?.toList := by
  cases message with
  | row binary slots => exact Array.toList_push
  | _ => exact (List.append_nil _).symm

theorem status_after (r : Response) (message : Message) :
    (r.after message).status = message.status?.or r.status := by
  cases message <;> rfl

theorem error_after (r : Response) (message : Message) :
    (r.after message).error = message.error?.or r.error := by
  cases message <;> rfl

/-- A message that may come next is told as well. -/
theorem Recounts.after {r : Response} {told : Transcript} (h : r.Recounts told) {message : Message}
    (admitted : r.Admits message) : (r.after message).Recounts (told ++ [message]) where
  columns := by rw [columns_after admitted, h.columns, Transcript.columns?_concat]
  rows := by rw [rows_after, h.rows, Transcript.rows_concat]
  status := by rw [status_after, h.status, Transcript.status?_concat]
  error := by rw [error_after, h.error, Transcript.error?_concat]
  rowless none := by
    cases message with
    | columns group => cases none
    | row binary slots =>
      obtain ⟨group, known, -⟩ := admitted
      cases known.symm.trans none
    | _ => exact h.rowless none
  slots group known row hrow := by
    rw [rows_after, List.mem_append] at hrow
    rcases hrow with before | new
    · cases message with
      | columns =>
        -- no rows are in front of the columns
        rw [h.rowless admitted] at before
        cases before
      | _ => exact h.slots group known row before
    · cases message with
      | row binary slots =>
        obtain ⟨group', known', width⟩ := admitted
        obtain rfl : row = slots := by simpa [Message.slots?] using new
        obtain rfl : group' = group := Option.some.inj (known'.symm.trans known)
        exact width
      | _ => cases new

/-! ## What is read on a response -/

/-- A row that is read on a response may come next. -/
theorem admits_receiveRow {r : Response} {binary : Bool} {s t : Stream} {message : Message}
    (h : receiveBody.receiveRow r binary s = .ok message t) : r.Admits message := by
  unfold receiveBody.receiveRow at h
  cases known : r.columns with
  | none =>
    rw [known] at h
    cases h
  | some group =>
    rw [known] at h
    obtain ⟨row, hrow, rfl⟩ := Act.exists_of_map_ok h
    obtain ⟨_, ⟨_, _, _, width, _⟩, _⟩ := (Stream.accepts_receiveRow group.length binary).sound hrow
    exact ⟨group, known, width⟩

/-- What is read behind a tag byte may come next. -/
theorem admits_receiveBody {r : Response} {tag : Tag} {s t : Stream} {message : Message}
    (h : r.receiveBody tag s = .ok message t) : r.Admits message := by
  cases tag with
  | columns =>
    cases known : r.columns with
    | some group =>
      simp only [receiveBody, known] at h
      cases h
    | none =>
      simp only [receiveBody, known] at h
      obtain ⟨group, -, rfl⟩ := Act.exists_of_map_ok h
      exact known
  | binaryRow | textRow => exact admits_receiveRow h
  | complete | error | notice | portal =>
    obtain ⟨text, -, rfl⟩ := Act.exists_of_map_ok h
    trivial
  | acknowledgment =>
    obtain ⟨b, u, -, h⟩ := Act.exists_of_bind_ok h
    split at h
    · cases h
      trivial
    · cases h
  | notification =>
    obtain ⟨process, u, -, h⟩ := Act.exists_of_bind_ok h
    obtain ⟨text, -, rfl⟩ := Act.exists_of_map_ok h
    trivial

end Response

namespace Reader

variable {handling : NoticeHandling} {r t x : Reader} {told : Transcript}

/-- A message that is read may come next. -/
theorem admits_readMessage {message : Message} (h : readMessage r = .ok message x) :
    r.response.Admits message := by
  obtain ⟨b, u, htag, hbody⟩ := Act.exists_of_bind_ok h
  have same : u.response = r.response := by
    obtain ⟨_, v, hbyte, hlog⟩ := Act.exists_of_bind_ok htag
    have hv := response_onStream Stream.receiveByte r
    rw [hbyte] at hv
    cases hlog
    exact hv
  cases ht : Tag.ofByte? b with
  | none =>
    simp only [receiveMessage, ht] at hbody
    cases hbody
  | some tag =>
    simp only [receiveMessage, ht] at hbody
    obtain ⟨s, hread, -⟩ := onStream_ok_iff.1 hbody
    rw [← same]
    exact Response.admits_receiveBody hread

/-- What a step makes of the response, whether or not it succeeds. -/
theorem response_step (handling : NoticeHandling) (r : Reader) :
    let u := Act.state (step handling r)
    (heeded r = [] ∧ u.response = r.response) ∨
      ∃ message, heeded r = [message] ∧ r.response.Admits message ∧
        (u.response = r.response.after message ∨ u.response = (r.response.after message).flushed) := by
  have still := still_readMessage r
  cases hm : readMessage r with
  | error fault x =>
    rw [hm] at still
    rw [step_of_unread hm]
    exact .inl ⟨heeded_of_unread hm, still.2⟩
  | ok message x =>
    rw [hm] at still
    have same : x.response = r.response := still.2
    rw [step_of_message hm, ← same]
    exact .inr ⟨message, heeded_of_message hm, same ▸ admits_readMessage hm,
      response_answer handling message _⟩

/-- A step tells the message that it reads. -/
theorem recounts_step (handling : NoticeHandling) (h : r.response.Recounts told) :
    (Act.state (step handling r)).response.Recounts (told ++ heeded r) := by
  rcases response_step handling r with ⟨unread, same⟩ | ⟨message, read, admitted, same | flushed⟩
  · rwa [unread, same, List.append_nil]
  · rw [read, same]
    exact h.after admitted
  · rw [read, flushed]
    exact (h.after admitted).flushed

/-- Columns that are known stay. -/
theorem columns_step (handling : NoticeHandling) {group : List Column} (h : r.response.columns = some group) :
    (Act.state (step handling r)).response.columns = some group := by
  have kept {message : Message} (admitted : r.response.Admits message) :
      (r.response.after message).columns = some group := by
    rw [Response.columns_after admitted, h, Option.some_or]
  rcases response_step handling r with ⟨-, same⟩ | ⟨message, -, admitted, same | flushed⟩
  · rwa [same]
  · rw [same]
    exact kept admitted
  · rw [flushed]
    exact kept admitted

theorem recounts_run (handling : NoticeHandling) (s : Stream) :
    (∀ told t, Reaches handling { stream := s } told t → t.response.Recounts told) ∧
      (Act.state (readFrom handling { stream := s })).response.Recounts
        (messages handling { stream := s }) :=
  invariant_of_step (P := fun r told => r.response.Recounts told) (fun _ _ _ => recounts_step handling)
    Response.recounts_nothing

theorem columns_run (handling : NoticeHandling) {group : List Column} (h : r.response.columns = some group) :
    (∀ told t, Reaches handling r told t → t.response.columns = some group) ∧
      (Act.state (readFrom handling r)).response.columns = some group :=
  invariant_of_step (P := fun r _ => r.response.columns = some group)
    (fun _ _ _ => columns_step handling) h

end Reader

/-- How an answer ends, by the messages that were read of it. -/
structure Response.Concludes (last : Response) (told : Transcript)
    (outcome : Except Fault Bundle) : Prop where
  /-- Unless the backend refused, the response tells what the messages told. -/
  recounts : (∀ message, outcome ≠ .error (.refusal (.server message))) → last.Recounts told
  /-- It refused with its last error, and of what the messages told only the rows are dropped. -/
  refused : ∀ message, outcome = .error (.refusal (.server message)) → told.error? = some message ∧
    last.rows = #[] ∧ Response.Recounts { last with rows := told.rows.toArray } told
  unrefused : ∀ bundle, outcome = .ok bundle → ∀ message, .error message ∉ told
  bundle : ∀ bundle, outcome = .ok bundle → bundle.groupIndex = 1 ∧
    bundle.columns = told.columns?.getD [] ∧ bundle.rows.toList = told.rows ∧ bundle.status = told.status?
  groupless : ∀ bundle, outcome = .ok bundle → told.columns? = none →
    bundle.columns = [] ∧ bundle.rows = #[]

namespace Reader

/-- However reading an answer ends, it ends by what the messages told. -/
theorem concludes_read (handling : NoticeHandling) (s : Stream) :
    let reading := read handling { stream := s }
    (Act.state reading).response.columns =
        (Act.state (readFrom handling { stream := s })).response.columns ∧
      (Act.state reading).response.Concludes (messages handling { stream := s }) (Act.outcome reading) := by
  obtain ⟨-, ended⟩ := recounts_run handling s
  rcases read_cases handling { stream := s } with ⟨fault, hread, other⟩ | ⟨none, hread⟩ |
      ⟨message, t, some, hread⟩
  · -- the answer was not complete
    rw [hread]
    refine ⟨rfl, fun _ => ended, fun message h => ?_, fun _ h => ?_, fun _ h => ?_, fun _ h => ?_⟩
    · exact absurd (Except.error.inj h) (other message)
    all_goals cases h
  · rw [hread]
    refine ⟨rfl, fun _ => ended, fun _ h => ?_, ?_, ?_, ?_⟩
    · cases h
    · intro _ _
      exact Transcript.error_notMem (ended.error.symm.trans none)
    · rintro _ ⟨⟩
      exact ⟨rfl, congrArg (·.getD []) ended.columns, ended.rows, ended.status⟩
    · rintro _ ⟨⟩ groupless
      rw [← ended.columns] at groupless
      exact ⟨congrArg (·.getD []) groupless, ended.rowless groupless⟩
  · -- the backend reported an error
    rw [hread]
    have rows : (messages handling { stream := s }).rows.toArray =
        (Act.state (readFrom handling { stream := s })).response.rows := by rw [← ended.rows]
    refine ⟨rfl, fun h => absurd rfl (h message), ?_, fun _ h => ?_, fun _ h => ?_, fun _ h => ?_⟩
    · rintro _ ⟨⟩
      rw [rows]
      exact ⟨ended.error.symm.trans some, rfl, ended⟩
    all_goals cases h

end Reader

/-- **A response recounts its messages.** Whatever arrives, whatever calls fail and whatever becomes of the
notices: in front of each message of an answer, and when reading has ended in any way, the response tells
the columns, the rows, the last status and the last error of the messages that were read in full, each row
has a slot for each column, and columns that are known stay. If the backend reported an error the answer
gives no result; if it ends with an error of the backend that is the last one, and the rows are dropped.
A result is the first row group, and one without columns has no rows. -/
theorem answer_recounts_its_messages (handling : NoticeHandling) (s : Stream) :
    let start : Reader := { stream := s }
    let told := Reader.messages handling start
    let reading := Reader.read handling start
    (∀ transcript t, Reader.Reaches handling start transcript t →
      transcript <+: told ∧ t.response.Recounts transcript ∧
      ∀ group, t.response.columns = some group →
        (∀ more u, Reader.Reaches handling t more u → u.response.columns = some group) ∧
          (Act.state reading).response.columns = some group) ∧
    (Act.state reading).response.Concludes told (Act.outcome reading) := by
  intro start told reading
  obtain ⟨between, -⟩ := Reader.recounts_run handling s
  obtain ⟨columns, concludes⟩ := Reader.concludes_read handling s
  refine ⟨fun transcript t hreaches => ?_, concludes⟩
  refine ⟨⟨_, hreaches.messages.symm⟩, between transcript t hreaches, fun group known => ?_⟩
  obtain ⟨later, last⟩ := Reader.columns_run handling known
  exact ⟨later, by rw [columns, hreaches.readFrom, last]⟩

/-- A status, columns, an error and a row, and then the acknowledgment of the flush query that the status
called for: the row is read behind the error, and dropped with it. -/
theorem row_behind_error_is_dropped :
    let s : Stream := { link := { incoming := [.bytes [0x43, 0x61, 0, 0x54, 0, 1, 0x61, 0, 0, 0, 0, 25, 0, 4],
      .bytes [0x45, 0x62, 0, 0x44, 0x80, 0, 0, 0, 5, 7, 0x49, 0]] } }
    let told : Transcript := [.complete "a", .columns [{ name := "a", typeOid := 25, typeLength := 4 }],
      .error "b", .row false [some [7]], .acknowledgment]
    let reading := Reader.read .logged { stream := s }
    Reader.messages .logged { stream := s } = told ∧ Act.outcome reading = .error (.refusal (.server "b")) ∧
      told.error? = some "b" ∧ (Act.state reading).response.rows = #[] ∧
      Response.Recounts { (Act.state reading).response with rows := told.rows.toArray } told := by
  intro s told reading
  have hmessages : Reader.messages .logged { stream := s } = told := by decide +kernel
  have refused : Act.outcome reading = .error (.refusal (.server "b")) := by decide +kernel
  have concludes := (answer_recounts_its_messages .logged s).2
  rw [hmessages] at concludes
  exact ⟨hmessages, refused, concludes.refused "b" refused⟩

end SimpleQuery
