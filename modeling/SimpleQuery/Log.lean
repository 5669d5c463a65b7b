import SimpleQuery.Text.Quoted

/-!
# Log entries

What the client has to say about its work, one constructor per kind of entry, with the level, the
text and the named values of each.

Model of the calls of `logger`.
-/

set_option autoImplicit false

namespace SimpleQuery.Log

/-- How much an entry matters. -/
inductive Level where
  | debug
  | info
  | warning
  | error
  deriving DecidableEq, Repr

/-- The rank of a level, the least first. -/
def Level.rank : Level → Nat
  | .debug => 0
  | .info => 1
  | .warning => 2
  | .error => 3

def Level.name : Level → String
  | .debug => "debug"
  | .info => "info"
  | .warning => "warning"
  | .error => "error"

/-- A named value of an entry. -/
inductive Datum where
  | text (value : String)
  | number (value : Nat)
  | flag (value : Bool)
  | none
  deriving DecidableEq, Repr

def Datum.ofText? : Option String → Datum
  | some value => .text value
  | .none => .none

/-- A log entry. -/
inductive Entry where
  | dialFailed (host : String) (port : Nat) (reason : String)
  | dialled (host : String) (port : Nat)
  | sendFailed (reason : String)
  | receiveFailed (reason : String)
  | streamEnded
  | textTooLong (cap : Nat)
  | hangUpFailed (reason : String)
  | streamClosed
  | messageBegun (tag : UInt8) (finalSeen : Bool) (pendingFlushes : Nat)
  | tagUnknown (tag : UInt8)
  | columnsRead (count : Nat)
  | flushSent (status : String) (pendingFlushes : Nat)
  | noticeUnhandled (notice : String)
  | notificationIgnored (process : Nat) (text : String)
  | portalIgnored (name : String)
  | queryFailed (message : String) (discarded : Nat)
  | connecting (host : String) (port : Nat) (database user : String)
  | startupSent (length : Nat)
  | established (autocommit : Bool)
  | sessionBroken
  | queryComplete (status : Option String) (columns rows : Nat)
  | sessionClosed
  deriving DecidableEq, Repr

namespace Entry

def level : Entry → Level
  | .dialFailed .. | .sendFailed .. | .receiveFailed .. | .textTooLong .. | .tagUnknown ..
  | .sessionBroken => .error
  | .streamEnded | .noticeUnhandled .. => .warning
  | .queryFailed .. | .connecting .. | .established .. | .sessionClosed => .info
  | .dialled .. | .hangUpFailed .. | .streamClosed | .messageBegun .. | .columnsRead ..
  | .flushSent .. | .notificationIgnored .. | .portalIgnored .. | .startupSent ..
  | .queryComplete .. => .debug

def text : Entry → String
  | .dialFailed .. => "Backend connection failed"
  | .dialled .. => "Backend socket opened"
  | .sendFailed .. => "Write to backend failed"
  | .receiveFailed .. => "Read from backend failed"
  | .streamEnded => "Backend closed the stream"
  | .textTooLong .. => "String exceeds cap"
  | .hangUpFailed .. => "Socket close raised"
  | .streamClosed => "Backend stream closed"
  | .messageBegun .. => "Backend message"
  | .tagUnknown .. => "Unknown response type"
  | .columnsRead .. => "Row description received"
  | .flushSent .. => "Flush query sent"
  | .noticeUnhandled .. => "Backend notice"
  | .notificationIgnored .. => "Asynchronous notify ignored"
  | .portalIgnored .. => "Portal name ignored"
  | .queryFailed .. => "Query failed on backend"
  | .connecting .. => "Connecting to backend"
  | .startupSent .. => "Startup packet sent"
  | .established .. => "Session established"
  | .sessionBroken => "Session broken by transport failure"
  | .queryComplete .. => "Query complete"
  | .sessionClosed => "Session closed"

/-- The named values of an entry. -/
def data : Entry → List (String × Datum)
  | .dialFailed host port reason =>
    [("host", .text host), ("port", .number port), ("error", .text reason)]
  | .dialled host port => [("host", .text host), ("port", .number port)]
  | .sendFailed reason | .receiveFailed reason | .hangUpFailed reason => [("error", .text reason)]
  | .textTooLong cap => [("cap", .number cap)]
  | .messageBegun tag finalSeen pendingFlushes =>
    [("tag", .text (String.singleton (Char.ofNat tag.toNat))), ("final_seen", .flag finalSeen),
     ("pending_flushes", .number pendingFlushes)]
  | .tagUnknown tag => [("tag", .text (Text.quoteBytes [tag]))]
  | .columnsRead count => [("field_count", .number count)]
  | .flushSent status pendingFlushes =>
    [("status", .text status), ("pending_flushes", .number pendingFlushes)]
  | .noticeUnhandled notice => [("notice", .text notice)]
  | .notificationIgnored process text => [("backend_pid", .number process), ("notify", .text text)]
  | .portalIgnored name => [("portal", .text name)]
  | .queryFailed message discarded => [("error", .text message), ("discarded_rows", .number discarded)]
  | .connecting host port database user =>
    [("host", .text host), ("port", .number port), ("database", .text database),
     ("user", .text user)]
  | .startupSent length => [("length", .number length)]
  | .established autocommit => [("autocommit", .flag autocommit)]
  | .queryComplete status columns rows =>
    [("status", Datum.ofText? status), ("field_count", .number columns), ("row_count", .number rows)]
  | .streamEnded | .streamClosed | .sessionBroken | .sessionClosed => []

end Entry

end SimpleQuery.Log
