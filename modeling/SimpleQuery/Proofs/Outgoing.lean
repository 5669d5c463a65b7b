import SimpleQuery.Proofs.Agreement
import SimpleQuery.Proofs.Frame
import SimpleQuery.Stream.Command

/-!
# What becomes of staged bytes

Staged bytes leave a stream together: in one call that sends them, in one call that fails to, or
discarded when the stream is closed. Each such portion is a *parcel*.

* `Stream.Command.staging` — what a command stages, or why it is refused.
* `Stream.partings` — the parcels of a run, in order.
* `Stream.dispatches_perform`, `Stream.dispatches_performAll` — what is staged is the parcels, in order,
  and what waits behind them; the calls to send are the parcels that were not discarded.
* `staged_bytes_leave_once_and_in_order` — what that means for a run.
-/

set_option autoImplicit false

namespace SimpleQuery

/-! ## Parcels -/

/-- How staged bytes leave a stream. -/
inductive Fate where
  | sent
  /-- The call to send them failed. -/
  | unsent
  /-- The stream was closed before. -/
  | discarded
  deriving DecidableEq, Repr

/-- Staged bytes that leave a stream together. -/
structure Parcel where
  fate : Fate
  bytes : Bytes
  deriving DecidableEq, Repr

namespace Parcel

def isSent (parcel : Parcel) : Bool := parcel.fate = .sent

/-- Whether a call was made to send the bytes. -/
def isOffered (parcel : Parcel) : Bool := parcel.fate ≠ .discarded

end Parcel

/-- The parcel that a call was made to send, if one was. -/
def Event.parcel? : Event → Option Parcel
  | .sent payload => some ⟨.sent, payload⟩
  | .unsent payload => some ⟨.unsent, payload⟩
  | _ => none

namespace Link

/-- The parcels that calls were made to send. -/
def parcels (link : Link) : List Parcel := link.history.filterMap Event.parcel?

@[simp] theorem parcels_record (event : Event) (link : Link) :
    (link.record event).parcels = link.parcels ++ event.parcel?.toList := by
  rw [parcels, history_record, List.filterMap_append, parcels]
  cases h : event.parcel? <;> simp [h]

@[simp] theorem parcels_log (entry : Log.Entry) (link : Link) :
    (link.log entry).parcels = link.parcels := by
  simp [log, Event.parcel?]

theorem sent_eq_parcels (link : Link) :
    link.sent = (link.parcels.filter Parcel.isSent).map Parcel.bytes := by
  rw [sent, parcels, List.filter_filterMap, List.map_filterMap]
  congr 1
  funext event
  cases event <;> rfl

theorem parcels_send (payload : Bytes) (link : Link) :
    (link.send payload).2.parcels =
      link.parcels ++ [⟨if (nextFault link.sendFaults).isNone then .sent else .unsent, payload⟩] := by
  simp only [send, parcels_record]
  cases nextFault link.sendFaults <;> rfl

end Link

namespace Stream

/-! ## What is staged, and what leaves -/

/-- The bytes that a command adds to those that are staged, or why it is refused. -/
def Command.staging : Command → Except Fault Bytes
  | .sendByte value => value.byte.map fun b => [b]
  | .sendInteger value bytes => (width bytes).map fun w => w.encode value
  | .send given => .ok given
  | .sendPadded given width => .ok (padded width given)
  | .sendQuery statement => .ok (Query.frame statement)
  | _ => .ok []

/-- The bytes that a command adds to those that are staged. What is refused adds none. -/
def Command.staged (command : Command) : Bytes := command.staging.toOption.getD []

/-- The commands that stage bytes and do nothing else. -/
def Command.stagesOnly : Command → Bool
  | .sendByte _ | .sendInteger _ _ | .send _ | .sendPadded _ _ => true
  | _ => false

/-- The commands that send what is staged by then. -/
def Command.flushes : Command → Bool
  | .sendQuery _ | .flush => true
  | _ => false

/-- The commands that stage bytes, send them or discard them. -/
def Command.isSending (command : Command) : Bool :=
  command.stagesOnly || command.flushes || command = .close

/-- The parcel that leaves when what is staged is sent: all of it, unless there is none or the stream is
closed. -/
def release (s : Stream) : Option Parcel :=
  if s.staged = [] ∨ s.closed = true then none
  else some ⟨if (Link.nextFault s.link.sendFaults).isNone then .sent else .unsent, s.staged⟩

/-- The stream with more bytes staged. -/
def readied (bytes : Bytes) (s : Stream) : Stream := { s with staged := s.staged ++ bytes }

/-- The parcel that leaves with a command. -/
def parting (s : Stream) (command : Command) : Option Parcel :=
  if command.flushes then (s.readied command.staged).release
  else if command = .close then some ⟨.discarded, s.staged⟩
  else none

/-- The parcels that leave in a run. -/
def partings (handling : NoticeHandling) : List Command → Stream → List Parcel
  | [], _ => []
  | command :: rest, s =>
    (s.parting command).toList ++ partings handling rest (Act.state (perform handling command s))

theorem perform_of_stagesOnly (handling : NoticeHandling) {command : Command}
    (h : command.stagesOnly = true) (s : Stream) :
    perform handling command s =
      (Act.ofExcept command.staging >>= fun bytes => stage bytes >>= fun _ => pure Answer.done) s := by
  cases command with
  | sendByte value =>
    simp only [perform, stageByte, Command.staging]
    cases value.byte <;> rfl
  | sendInteger value bytes =>
    simp only [perform, stageInteger, Command.staging]
    cases width bytes <;> rfl
  | send _ | sendPadded _ _ => rfl
  | _ => cases h

theorem perform_of_flushes (handling : NoticeHandling) {command : Command} (h : command.flushes = true)
    (s : Stream) :
    perform handling command s = (flush >>= fun _ => pure Answer.done) (s.readied command.staged) := by
  cases command with
  | sendQuery statement => rfl
  | flush =>
    have same : s.readied (Command.staged .flush) = s := by
      show { s with staged := s.staged ++ [] } = s
      rw [List.append_nil]
    rw [same]
    rfl
  | _ => cases h

theorem Command.isSending_cases {command : Command} (h : command.isSending = true) :
    command.stagesOnly = true ∨ command.flushes = true ∨ command = .close := by
  simpa [isSending, or_assoc] using h

/-- What is refused is not staged, and nothing else happens. -/
theorem perform_refused (handling : NoticeHandling) {command : Command} {fault : Fault}
    (h : command.staging = .error fault) (s : Stream) : perform handling command s = .error fault s := by
  have stagesOnly : command.stagesOnly = true := by
    cases command <;> first | rfl | cases h
  rw [perform_of_stagesOnly handling stagesOnly, h]
  rfl

/-! ## One command -/

/-- From one stream to the other these bytes were staged and these parcels left. -/
structure Dispatches (s t : Stream) (staged : Bytes) (parcels : List Parcel) : Prop where
  staged : s.staged ++ staged = parcels.flatMap Parcel.bytes ++ t.staged
  offers : t.link.parcels = s.link.parcels ++ parcels.filter Parcel.isOffered
  closed : s.closed = true → t.closed = true ∧ parcels.filter Parcel.isOffered = []

namespace Dispatches

theorem refl (s : Stream) : s.Dispatches s [] [] where
  staged := List.append_nil _
  offers := (List.append_nil _).symm
  closed hc := ⟨hc, rfl⟩

theorem trans {s t u : Stream} {first second : Bytes} {parcels more : List Parcel}
    (h : s.Dispatches t first parcels) (h' : t.Dispatches u second more) :
    s.Dispatches u (first ++ second) (parcels ++ more) where
  staged := by
    rw [← List.append_assoc, h.staged, List.append_assoc, h'.staged, List.flatMap_append,
      List.append_assoc]
  offers := by rw [h'.offers, h.offers, List.filter_append, List.append_assoc]
  closed hc := by
    obtain ⟨ht, hnone⟩ := h.closed hc
    obtain ⟨hu, hnone'⟩ := h'.closed ht
    exact ⟨hu, by rw [List.filter_append, hnone, hnone', List.append_nil]⟩

/-- What is sent is the bytes of the parcels that are. -/
theorem sent {s t : Stream} {staged : Bytes} {parcels : List Parcel} (h : s.Dispatches t staged parcels) :
    t.link.sent = s.link.sent ++ (parcels.filter Parcel.isSent).map Parcel.bytes := by
  have both : ∀ parcel : Parcel, (parcel.isSent && parcel.isOffered) = parcel.isSent := by
    rintro ⟨fate, bytes⟩
    cases fate <;> rfl
  rw [Link.sent_eq_parcels, h.offers, List.filter_append, List.map_append, ← Link.sent_eq_parcels,
    List.filter_filter]
  simp only [both]

/-- Where all parcels are sent, what was sent and what is still staged is all that was staged. -/
theorem whole {s t : Stream} {staged : Bytes} {parcels : List Parcel} (h : s.Dispatches t staged parcels)
    (all : ∀ parcel ∈ parcels, parcel.isSent = true) :
    t.link.sent.flatten ++ t.staged = s.link.sent.flatten ++ (s.staged ++ staged) := by
  rw [h.sent, List.filter_eq_self.2 all, List.flatten_append, List.append_assoc, ← List.flatMap_def,
    h.staged]

/-- Bytes are staged, and none leave. -/
theorem stage (bytes : Bytes) (s : Stream) : s.Dispatches (s.readied bytes) bytes [] where
  staged := rfl
  offers := (List.append_nil _).symm
  closed hc := ⟨hc, rfl⟩

end Dispatches

theorem release_of_some {s : Stream} {parcel : Parcel} (h : s.release = some parcel) :
    s.staged ≠ [] ∧ s.closed = false ∧
      parcel = ⟨if (Link.nextFault s.link.sendFaults).isNone then .sent else .unsent, s.staged⟩ := by
  unfold release at h
  split at h
  · cases h
  · rename_i ready
    obtain ⟨some, isOpen⟩ : s.staged ≠ [] ∧ s.closed = false := by simpa using ready
    exact ⟨some, isOpen, by simpa using h.symm⟩

/-- Where no parcel leaves, sending does nothing. -/
theorem flush_of_none {s : Stream} (h : s.release = none) : Act.state (flush s) = s := by
  unfold release at h
  unfold flush
  by_cases none : s.staged = []
  · rw [if_pos none]
    rfl
  · by_cases hc : s.closed = true
    · rw [if_neg none, if_pos hc]
      rfl
    · rw [if_neg (by simp [none, hc])] at h
      cases h

theorem flush_of_some {s : Stream} {parcel : Parcel} (h : s.release = some parcel) :
    (Act.state (flush s)).link.parcels = s.link.parcels ++ [parcel] ∧
      (Act.state (flush s)).staged = [] ∧
      (parcel.fate ≠ .sent → parcel.fate = .unsent ∧
        ∃ reason, Act.outcome (flush s) = .error (.loss (.sendFailed reason))) := by
  obtain ⟨some, isOpen, rfl⟩ := release_of_some h
  have hsend := Link.parcels_send s.staged s.link
  unfold flush
  rw [if_neg some, if_neg (by simp [isOpen])]
  revert hsend
  simp only [Link.send]
  cases Link.nextFault s.link.sendFaults with
  | none =>
    intro hsend
    exact ⟨hsend, rfl, fun unsent => absurd rfl unsent⟩
  | some reason =>
    intro hsend
    refine ⟨?_, rfl, fun _ => ⟨rfl, reason, rfl⟩⟩
    exact (Link.parcels_log _ _).trans hsend

/-- What is staged is sent, or it fails to be. -/
theorem dispatches_flush (s : Stream) :
    s.Dispatches (Act.state (flush s)) [] s.release.toList := by
  cases h : s.release with
  | none =>
    rw [flush_of_none h]
    exact .refl s
  | some parcel =>
    obtain ⟨-, isOpen, hparcel⟩ := release_of_some h
    obtain ⟨hparcels, hstaged, -⟩ := flush_of_some h
    have offered : [parcel].filter Parcel.isOffered = [parcel] := by
      rw [hparcel]
      cases Link.nextFault s.link.sendFaults <;> rfl
    refine ⟨?_, ?_, fun hc => ?_⟩
    · simp [hstaged, hparcel]
    · rw [hparcels, Option.toList_some, offered]
    · rw [isOpen] at hc
      cases hc

theorem parcels_close (s : Stream) : s.close.link.parcels = s.link.parcels := by
  have hung : ({ s.link with hungUp := true }.record .hungUp).parcels = s.link.parcels :=
    (Link.parcels_record _ _).trans (List.append_nil _)
  simp only [close, Link.hangUp]
  split
  · rfl
  · split <;> simp only [Link.parcels_log, hung]

theorem staged_close (s : Stream) : s.close.staged = [] := by
  simp only [close]
  split <;> rfl

/-- Closing discards what is staged. -/
theorem dispatches_close (s : Stream) : s.Dispatches s.close [] [⟨.discarded, s.staged⟩] where
  staged := by simp [staged_close]
  offers := by simp [parcels_close, Parcel.isOffered]
  closed _ := ⟨closed_close s, rfl⟩

/-- What a command stages and what leaves with it. -/
theorem dispatches_perform (handling : NoticeHandling) {command : Command}
    (sending : command.isSending = true) (s : Stream) :
    s.Dispatches (Act.state (perform handling command s)) command.staged (s.parting command).toList := by
  rcases Command.isSending_cases sending with stagesOnly | flushes | rfl
  · have none : s.parting command = none := by
      cases command <;> first | rfl | cases stagesOnly
    rw [none, perform_of_stagesOnly handling stagesOnly, Command.staged]
    cases command.staging with
    | error fault => exact .refl s
    | ok bytes => exact .stage bytes s
  · have sent := (Dispatches.stage command.staged s).trans (dispatches_flush (s.readied command.staged))
    rw [List.append_nil] at sent
    rwa [parting, if_pos flushes, perform_of_flushes handling flushes, Act.state_answered]
  · exact dispatches_close s

theorem lost_of_flush {s t : Stream} {fault : Fault} (h : flush s = .error fault t) :
    ∃ cause, fault = .loss cause := by
  unfold flush at h
  split at h
  · cases h
  split at h
  · cases h
    exact ⟨_, rfl⟩
  split at h
  · cases h
  · cases h
    exact ⟨_, rfl⟩

/-- What is not refused is done, or comes to a loss. -/
theorem outcome_accepted (handling : NoticeHandling) {command : Command} {bytes : Bytes}
    (sending : command.isSending = true) (accepted : command.staging = .ok bytes) (s : Stream) :
    Act.outcome (perform handling command s) = .ok .done ∨
      ∃ cause, Act.outcome (perform handling command s) = .error (.loss cause) := by
  rcases Command.isSending_cases sending with stagesOnly | flushes | rfl
  · rw [perform_of_stagesOnly handling stagesOnly, accepted]
    exact .inl rfl
  · rw [perform_of_flushes handling flushes, Act.outcome_answered]
    cases hflush : flush (s.readied command.staged) with
    | ok _ t => exact .inl rfl
    | error fault t =>
      obtain ⟨cause, rfl⟩ := lost_of_flush hflush
      exact .inr ⟨cause, rfl⟩
  · exact .inl rfl

/-- A command takes a parcel off the stream that is not sent. It is all that is staged by then, and either
closing discards it, or the call to send it fails, and the command with it. -/
structure Drops (handling : NoticeHandling) (command : Command) (s : Stream) (parcel : Parcel) : Prop where
  bytes : parcel.bytes = s.staged ++ command.staged
  cause : parcel.fate = .discarded ∧ command = .close ∨ parcel.fate = .unsent ∧
    ∃ reason, Act.outcome (perform handling command s) = .error (.loss (.sendFailed reason))

theorem drops_of_parting (handling : NoticeHandling) {command : Command} {s : Stream} {parcel : Parcel}
    (h : s.parting command = some parcel) (unsent : parcel.fate ≠ .sent) :
    Drops handling command s parcel := by
  unfold parting at h
  split at h
  · rename_i flushes
    obtain ⟨-, -, hparcel⟩ := release_of_some h
    obtain ⟨hfate, reason, hreason⟩ := (flush_of_some h).2.2 unsent
    refine ⟨by rw [hparcel]; rfl, .inr ⟨hfate, reason, ?_⟩⟩
    rw [perform_of_flushes handling flushes, Act.outcome_answered, hreason]
    rfl
  · split at h
    · rename_i hclose
      cases h
      subst hclose
      exact ⟨(List.append_nil _).symm, .inl ⟨rfl, rfl⟩⟩
    · cases h

/-! ## Runs -/

theorem performAll_append (handling : NoticeHandling) (first rest : List Command) (s : Stream) :
    performAll handling (first ++ rest) s =
      ((performAll handling first s).1 ++ (performAll handling rest (performAll handling first s).2).1,
        (performAll handling rest (performAll handling first s).2).2) := by
  induction first generalizing s with
  | nil => rfl
  | cons command first ih => simp only [List.cons_append, performAll, ih]

/-- What a run stages and what leaves in it. -/
theorem dispatches_performAll (handling : NoticeHandling) {commands : List Command}
    (sending : ∀ command ∈ commands, command.isSending = true) (s : Stream) :
    s.Dispatches (performAll handling commands s).2 (commands.flatMap Command.staged)
      (partings handling commands s) := by
  induction commands generalizing s with
  | nil => exact .refl s
  | cons command commands ih =>
    have first := dispatches_perform handling (sending command List.mem_cons_self) s
    have rest := ih (fun c hc => sending c (List.mem_cons_of_mem _ hc))
      (Act.state (perform handling command s))
    exact first.trans rest

/-- Each parcel of a run leaves with one of its commands. -/
theorem mem_partings {handling : NoticeHandling} {commands : List Command} {s : Stream} {parcel : Parcel}
    (h : parcel ∈ partings handling commands s) :
    ∃ before command after, commands = before ++ command :: after ∧
      (performAll handling before s).2.parting command = some parcel := by
  induction commands generalizing s with
  | nil => cases h
  | cons command commands ih =>
    rcases List.mem_append.1 h with here | later
    · exact ⟨[], command, commands, rfl, Option.mem_toList.1 here⟩
    · obtain ⟨before, next, after, rfl, hparting⟩ := ih later
      exact ⟨command :: before, next, after, rfl, hparting⟩

/-- What is not sent is dropped by a command of the run. -/
theorem drops_of_mem {handling : NoticeHandling} {commands : List Command} {s : Stream} {parcel : Parcel}
    (h : parcel ∈ partings handling commands s) (unsent : parcel.fate ≠ .sent) :
    ∃ before command after, commands = before ++ command :: after ∧
      Drops handling command (performAll handling before s).2 parcel := by
  obtain ⟨before, command, after, hcommands, hparting⟩ := mem_partings h
  exact ⟨before, command, after, hcommands, drops_of_parting handling hparting unsent⟩

/-- Without closing and without a call that fails all parcels are sent. -/
theorem all_sent {handling : NoticeHandling} {commands : List Command} {s : Stream}
    (noClose : .close ∉ commands)
    (noFailure : ∀ reason, .error (.loss (.sendFailed reason)) ∉ (performAll handling commands s).1) :
    ∀ parcel ∈ partings handling commands s, parcel.isSent = true := by
  intro parcel hmem
  apply decide_eq_true
  by_cases hfate : parcel.fate = .sent
  · exact hfate
  exfalso
  obtain ⟨before, command, after, rfl, hdrops⟩ := drops_of_mem hmem hfate
  rcases hdrops.cause with ⟨-, rfl⟩ | ⟨-, reason, hreason⟩
  · apply noClose
    simp
  · apply noFailure reason
    rw [performAll_append, performAll, hreason]
    simp

/-- Once the stream is closed, no call is made to send. -/
theorem parcels_of_closed (handling : NoticeHandling) {commands : List Command}
    (sending : ∀ command ∈ commands, command.isSending = true) {s : Stream} (hc : s.closed = true) :
    (performAll handling commands s).2.link.parcels = s.link.parcels := by
  have dispatches := dispatches_performAll handling sending s
  rw [dispatches.offers, (dispatches.closed hc).2, List.append_nil]

end Stream

open SimpleQuery.Stream (Command Drops perform performAll partings)

/-- **Staged bytes leave once and in order.** In every run of sending commands the bytes that were staged
before and those that the commands stage are, in this order, the bytes of the parcels and those that are
still staged. The calls to send are made for the parcels that are not discarded, in order, each once, and
what is sent is the bytes of those that are. A parcel that is not sent is all that was staged when the
stream was closed, or when the call to send it failed. What is refused stages nothing and changes nothing,
and nothing else is refused. Without closing and without a call that fails, what was sent and what is still
staged is all that was staged. On a stream that is closed, before or in the run, no call is made to send. -/
theorem staged_bytes_leave_once_and_in_order (handling : NoticeHandling) {commands : List Command}
    (sending : ∀ command ∈ commands, command.isSending = true) (s : Stream) :
    let outcomes := (performAll handling commands s).1
    let t := (performAll handling commands s).2
    let parcels := partings handling commands s
    let staged := s.staged ++ commands.flatMap Command.staged
    staged = parcels.flatMap Parcel.bytes ++ t.staged ∧
    t.link.parcels = s.link.parcels ++ parcels.filter Parcel.isOffered ∧
    t.link.sent = s.link.sent ++ (parcels.filter Parcel.isSent).map Parcel.bytes ∧
    (∀ parcel ∈ parcels, parcel.fate ≠ .sent → ∃ before command after,
      commands = before ++ command :: after ∧
        Drops handling command (performAll handling before s).2 parcel) ∧
    (∀ command ∈ commands, ∀ u,
      (∃ fault, command.staging = .error fault ∧ perform handling command u = .error fault u) ∨
        ∃ bytes, command.staging = .ok bytes ∧
          (Act.outcome (perform handling command u) = .ok .done ∨
            ∃ cause, Act.outcome (perform handling command u) = .error (.loss cause))) ∧
    (.close ∉ commands → (∀ reason, .error (.loss (.sendFailed reason)) ∉ outcomes) →
      t.link.sent.flatten ++ t.staged = s.link.sent.flatten ++ staged) ∧
    (s.closed = true → t.link.parcels = s.link.parcels) ∧
    ∀ before after, commands = before ++ .close :: after →
      t.link.parcels = (performAll handling before s).2.link.parcels := by
  intro outcomes t parcels staged
  have dispatches := Stream.dispatches_performAll handling sending s
  refine ⟨dispatches.staged, dispatches.offers, dispatches.sent, fun _ => Stream.drops_of_mem, ?refusals,
    fun noClose noFailure => dispatches.whole (Stream.all_sent noClose noFailure),
    Stream.parcels_of_closed handling sending, ?closing⟩
  case refusals =>
    intro command hmem u
    cases hstaging : command.staging with
    | error fault => exact .inl ⟨fault, rfl, Stream.perform_refused handling hstaging u⟩
    | ok bytes =>
      exact .inr ⟨bytes, rfl, Stream.outcome_accepted handling (sending command hmem) hstaging u⟩
  case closing =>
    intro before after hcommands
    have later : ∀ command ∈ after, command.isSending = true := by
      intro command hmem
      apply sending
      simp [hcommands, hmem]
    have none := Stream.parcels_of_closed handling later (Stream.closed_close (performAll handling before s).2)
    show (performAll handling commands s).2.link.parcels = _
    rw [hcommands, Stream.performAll_append]
    exact none.trans (Stream.parcels_close _)

/-- Bytes that are sent, a width that is refused, a query that fails to be sent together with what was
staged before it, and bytes that wait on a closed stream. -/
theorem three_parcels_of_nine_commands :
    let commands : List Command := [.sendByte (.text "p"), .flush, .sendInteger 1 3, .sendInteger 258 2,
      .sendQuery [0x78], .sendPadded [7] 2, .close, .send [9], .flush]
    let s : Stream := { link := { sendFaults := [none, some "reset"] } }
    (∀ command ∈ commands, command.isSending = true) ∧
      partings .collected commands s =
        [⟨.sent, [0x70]⟩, ⟨.unsent, [1, 2, 0x51, 0x78, 0]⟩, ⟨.discarded, [7, 0]⟩] ∧
      (performAll .collected commands s).2.link.sent = [[0x70]] ∧
      (performAll .collected commands s).2.staged = [9] := by
  intro commands s
  have sending : ∀ command ∈ commands, command.isSending = true := by decide
  obtain ⟨hstaged, -, hsent, -⟩ := staged_bytes_leave_once_and_in_order .collected sending s
  have parcels : partings .collected commands s =
      [⟨.sent, [0x70]⟩, ⟨.unsent, [1, 2, 0x51, 0x78, 0]⟩, ⟨.discarded, [7, 0]⟩] := by decide +kernel
  refine ⟨sending, parcels, ?_, ?_⟩
  · rw [hsent, parcels]
    decide +kernel
  · have staging : commands.flatMap Command.staged = [0x70, 1, 2, 0x51, 0x78, 0, 7, 0, 9] := by decide +kernel
    rw [staging, parcels] at hstaged
    have waits : [0x70, 1, 2, 0x51, 0x78, 0, 7, 0] ++ [9] =
        [0x70, 1, 2, 0x51, 0x78, 0, 7, 0] ++ (performAll .collected commands s).2.staged := hstaged
    exact (List.append_cancel_left waits).symm

end SimpleQuery
