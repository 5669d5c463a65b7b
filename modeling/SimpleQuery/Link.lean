import SimpleQuery.Fault
import SimpleQuery.Number.Binary64

/-!
# The link to a backend

A link stands for the network between the client and one backend, as data: what the backend will
deliver, which calls will fail, and a journal of everything that was done and said so far. A client
run over a link is a function, and what an observer sees of it is the journal.

Model of a socket and of `socket.create_connection`.

* `Link.receive_pending` — a call that gives bytes takes something from what is pending.
* `Link.receive_pendingBytes` — it neither loses nor makes up a byte.
-/

set_option autoImplicit false

namespace SimpleQuery

/-- One thing that the backend's side does: it delivers bytes, or the transport fails. An empty
delivery is the end of the stream, once. -/
inductive Delivery where
  | bytes (chunk : Bytes)
  | fault (reason : String)
  deriving DecidableEq, Repr

/-- Why an attempt to connect fails. -/
inductive DialFault where
  /-- The system refused it for this reason. -/
  | refused (reason : String)
  /-- The host or the timeout is none with which it can be made. -/
  | foreign (cause : Foreign)
  deriving DecidableEq, Repr

/-- The fault that comes of it. -/
def DialFault.fault : DialFault → Fault
  | .refused reason => .loss (.dialFailed reason)
  | .foreign cause => .foreign cause

/-- What can be observed of a client, call by call. -/
inductive Event where
  /-- An attempt to connect, and whether it succeeded. -/
  | dialled (host : String) (port : Nat) (timeout : Option Binary64) (reached : Bool)
  /-- The transport was told to wait without limit. -/
  | unlimited
  /-- The transport was told to send small packets at once. -/
  | undelayed
  /-- Bytes were sent. -/
  | sent (payload : Bytes)
  /-- Bytes could not be sent. -/
  | unsent (payload : Bytes)
  /-- A call for bytes gave these; none is the end of the stream. -/
  | received (chunk : Bytes)
  /-- A call for bytes failed. -/
  | unreceived
  /-- The transport was closed. -/
  | hungUp
  | logged (entry : Log.Entry)
  /-- A notice was handed to the handler. -/
  | noticed (notice : String)
  deriving DecidableEq, Repr

namespace Event

/-- What was sent, if anything was. -/
def payload? : Event → Option Bytes
  | .sent payload => some payload
  | _ => none

/-- The notice that was handed over, if one was. -/
def notice? : Event → Option String
  | .noticed notice => some notice
  | _ => none

/-- The log entry that was written, if one was. -/
def entry? : Event → Option Log.Entry
  | .logged entry => some entry
  | _ => none

/-- Whether bytes were asked for. -/
def isReceive : Event → Bool
  | .received _ | .unreceived => true
  | _ => false

end Event

/-- The link to a backend. A fault listed for a call makes that call fail; no fault, or no entry left,
lets it succeed. -/
structure Link where
  incoming : List Delivery := []
  sendFaults : List (Option String) := []
  dialFaults : List (Option DialFault) := []
  hangUpFault : Option String := none
  /-- Whether the transport was ever closed. -/
  hungUp : Bool := false
  /-- What happened, the latest first. -/
  journal : List Event := []
  deriving DecidableEq, Repr

namespace Link

def record (event : Event) (link : Link) : Link :=
  { link with journal := event :: link.journal }

def log (entry : Log.Entry) (link : Link) : Link := link.record (.logged entry)

/-- What happened, the earliest first. -/
def history (link : Link) : List Event := link.journal.reverse

/-- What was sent, one byte string for each call that succeeded. -/
def sent (link : Link) : List Bytes := link.history.filterMap Event.payload?

/-- The notices that were handed to the handler. -/
def notices (link : Link) : List String := link.history.filterMap Event.notice?

/-- The calls for bytes. -/
def receives (link : Link) : Nat := link.history.countP Event.isReceive

@[simp] theorem history_record (event : Event) (link : Link) :
    (link.record event).history = link.history ++ [event] := by
  simp [history, record]

theorem sent_record (event : Event) (link : Link) :
    (link.record event).sent = link.sent ++ event.payload?.toList := by
  rw [sent, history_record, List.filterMap_append, sent]
  cases h : event.payload? <;> simp [h]

theorem notices_record (event : Event) (link : Link) :
    (link.record event).notices = link.notices ++ event.notice?.toList := by
  rw [notices, history_record, List.filterMap_append, notices]
  cases h : event.notice? <;> simp [h]

theorem receives_record (event : Event) (link : Link) :
    (link.record event).receives = link.receives + if event.isReceive then 1 else 0 := by
  rw [receives, history_record, List.countP_append, receives, List.countP_singleton]

/-- More deliveries, after those that are pending. -/
def feed (more : List Delivery) (link : Link) : Link :=
  { link with incoming := link.incoming ++ more }

/-- The next fault of a list of faults. -/
def nextFault {ε : Type} : List (Option ε) → Option ε
  | [] => none
  | fault :: _ => fault

/-- Connects: the fault if that fails. -/
def dial (host : String) (port : Nat) (timeout : Option Binary64) (link : Link) :
    Option DialFault × Link :=
  let fault := nextFault link.dialFaults
  (fault, { link with dialFaults := link.dialFaults.tail }.record
    (.dialled host port timeout fault.isNone))

/-- Sends bytes: the reason if that fails. -/
def send (payload : Bytes) (link : Link) : Option String × Link :=
  let fault := nextFault link.sendFaults
  (fault, { link with sendFaults := link.sendFaults.tail }.record
    (if fault.isNone then .sent payload else .unsent payload))

/-- Closes the transport: the reason if that is reported to have failed, though it is closed. -/
def hangUp (link : Link) : Option String × Link :=
  (link.hangUpFault, { link with hungUp := true }.record .hungUp)

/-- The result of a call for at most `limit` bytes on a list of deliveries, and the rest of it. A
longer delivery is given in pieces; two deliveries are never joined. -/
def takeDelivery (limit : Nat) : List Delivery → Except String Bytes × List Delivery
  | [] => (.ok [], [])
  | .fault reason :: rest => (.error reason, rest)
  | .bytes chunk :: rest =>
    if limit < chunk.length then (.ok (chunk.take limit), .bytes (chunk.drop limit) :: rest)
    else (.ok chunk, rest)

/-- Asks for at most `limit` bytes. -/
def receive (limit : Nat) (link : Link) : Except String Bytes × Link :=
  let taken := takeDelivery limit link.incoming
  let event := match taken.1 with
    | .ok chunk => Event.received chunk
    | .error _ => .unreceived
  (taken.1, { link with incoming := taken.2 }.record event)

/-- The size of what is pending: each delivery counts one more than its bytes. -/
def pending : List Delivery → Nat
  | [] => 0
  | .bytes chunk :: rest => chunk.length + 1 + pending rest
  | .fault _ :: rest => 1 + pending rest

/-- The number of bytes that are pending. -/
def pendingBytes : List Delivery → Nat
  | [] => 0
  | .bytes chunk :: rest => chunk.length + pendingBytes rest
  | .fault _ :: rest => pendingBytes rest

theorem pending_cons_bytes (chunk : Bytes) (rest : List Delivery) :
    pending (.bytes chunk :: rest) = chunk.length + 1 + pending rest := rfl

theorem pendingBytes_cons_bytes (chunk : Bytes) (rest : List Delivery) :
    pendingBytes (.bytes chunk :: rest) = chunk.length + pendingBytes rest := rfl

/-- A call that gives bytes takes something from what is pending. -/
theorem takeDelivery_pending {limit : Nat} {incoming rest : List Delivery} {b : UInt8} {chunk : Bytes}
    (h : takeDelivery limit incoming = (.ok (b :: chunk), rest)) : pending rest < pending incoming := by
  unfold takeDelivery at h
  split at h
  · cases h
  · cases h
  · rename_i c r
    split at h
    · rename_i hlt
      cases limit with
      | zero => simp at h
      | succ limit =>
        simp only [Prod.mk.injEq, Except.ok.injEq] at h
        obtain ⟨-, rfl⟩ := h
        simp only [pending_cons_bytes, List.length_drop]
        omega
    · simp only [Prod.mk.injEq, Except.ok.injEq] at h
      obtain ⟨rfl, rfl⟩ := h
      simp only [pending_cons_bytes]
      omega

/-- No byte is lost or made up by a call that gives bytes. -/
theorem takeDelivery_pendingBytes {limit : Nat} {incoming rest : List Delivery} {chunk : Bytes}
    (h : takeDelivery limit incoming = (.ok chunk, rest)) :
    pendingBytes incoming = chunk.length + pendingBytes rest := by
  unfold takeDelivery at h
  split at h
  · cases h; rfl
  · cases h
  · rename_i c r
    split at h
    · simp only [Prod.mk.injEq, Except.ok.injEq] at h
      obtain ⟨rfl, rfl⟩ := h
      simp only [pendingBytes_cons_bytes, List.length_drop, List.length_take]
      omega
    · simp only [Prod.mk.injEq, Except.ok.injEq] at h
      obtain ⟨rfl, rfl⟩ := h
      simp only [pendingBytes_cons_bytes]

theorem takeDelivery_pendingBytes_le (limit : Nat) (incoming : List Delivery) :
    pendingBytes (takeDelivery limit incoming).2 ≤ pendingBytes incoming := by
  cases h : takeDelivery limit incoming with
  | mk result rest =>
    cases result with
    | ok chunk => have := takeDelivery_pendingBytes h; simp only; omega
    | error reason =>
      unfold takeDelivery at h
      split at h
      · cases h
      · cases h; simp [pendingBytes]
      · split at h <;> cases h

theorem receive_fst (limit : Nat) (link : Link) :
    (link.receive limit).1 = (takeDelivery limit link.incoming).1 := rfl

@[simp] theorem incoming_receive (limit : Nat) (link : Link) :
    (link.receive limit).2.incoming = (takeDelivery limit link.incoming).2 := rfl

/-- A call that gives bytes takes something from what is pending. -/
theorem receive_pending {limit : Nat} {link after : Link} {b : UInt8} {chunk : Bytes}
    (h : link.receive limit = (.ok (b :: chunk), after)) :
    pending after.incoming < pending link.incoming := by
  have h₁ : (takeDelivery limit link.incoming).1 = .ok (b :: chunk) := by rw [← receive_fst, h]
  have h₂ : (takeDelivery limit link.incoming).2 = after.incoming := by rw [← incoming_receive, h]
  exact takeDelivery_pending (Prod.ext h₁ h₂)

/-- No byte is lost or made up by a call that gives bytes. -/
theorem receive_pendingBytes {limit : Nat} {link after : Link} {chunk : Bytes}
    (h : link.receive limit = (.ok chunk, after)) :
    pendingBytes link.incoming = chunk.length + pendingBytes after.incoming := by
  have h₁ : (takeDelivery limit link.incoming).1 = .ok chunk := by rw [← receive_fst, h]
  have h₂ : (takeDelivery limit link.incoming).2 = after.incoming := by rw [← incoming_receive, h]
  exact takeDelivery_pendingBytes (Prod.ext h₁ h₂)

theorem receive_pendingBytes_le {limit : Nat} {link after : Link} {result : Except String Bytes}
    (h : link.receive limit = (result, after)) :
    pendingBytes after.incoming ≤ pendingBytes link.incoming := by
  have h₂ : (takeDelivery limit link.incoming).2 = after.incoming := by rw [← incoming_receive, h]
  rw [← h₂]
  exact takeDelivery_pendingBytes_le limit link.incoming

@[simp] theorem incoming_send (payload : Bytes) (link : Link) :
    (link.send payload).2.incoming = link.incoming := rfl

end Link

end SimpleQuery
