import SimpleQuery.Log

/-!
# Faults

Why an operation fails, as causes; `Fault.message?` has the wording. A *refusal* ends one request and
leaves the session as it is, and a *loss* ends the session. All other faults are none of the client's own:
what it builds on, or was handed, has given up.

Model of `DatabaseError` and its subclasses, and of the errors that pass through the client.
-/

set_option autoImplicit false

namespace SimpleQuery

/-- Bytes of the backend that do not fit the conversation. -/
inductive Violation where
  | textTooLong (cap : Nat)
  | unknownTag (tag : UInt8)
  | secondRowGroup
  | rowBeforeColumns
  | garbledAcknowledgment
  deriving DecidableEq, Repr

/-- A feature that the client does not have. -/
inductive Feature where
  | isolationLevels
  | metadata
  | callableStatements
  deriving DecidableEq, Repr

/-- What ends one request. -/
inductive Refusal where
  | violation (cause : Violation)
  /-- The backend reported an error. -/
  | server (message : String)
  | statementTooLong (length : Nat)
  | unsupported (feature : Feature)
  deriving DecidableEq, Repr

/-- What ends a session. -/
inductive Loss where
  | streamClosed
  | notOpen
  | sendFailed (reason : String)
  | receiveFailed (reason : String)
  | endOfStream
  | dialFailed (reason : String)
  /-- The first requests of a session were refused. -/
  | handshake (cause : Refusal)
  deriving DecidableEq, Repr

/-- An error of what the client builds on, which it does not turn into one of its own: its class and its
text. -/
structure Foreign where
  kind : String
  message : String
  deriving DecidableEq, Repr

/-- Why an operation fails. -/
inductive Fault where
  | loss (cause : Loss)
  | refusal (cause : Refusal)
  /-- An integer has no such width. -/
  | unsupportedWidth (width : Nat)
  /-- A single byte was asked for, and so many were given. -/
  | notOneByte (count : Nat)
  /-- The handler of notices raised an error with this text. -/
  | handler (reason : String)
  /-- A text has a character that the charset lacks. -/
  | unencodable
  /-- A stream's charset is none that is known. -/
  | unknownCharset
  /-- The name of a stream's charset has a zero character. -/
  | malformedCharset
  | foreign (cause : Foreign)
  deriving DecidableEq, Repr

/-- The most characters of a statement. -/
def maxStatementLength : Nat := 8192

def Violation.message : Violation → String
  | .textTooLong cap => s!"Too much data: string longer than {cap} bytes"
  | .unknownTag tag => "Unknown response type: " ++ Text.quote (String.singleton (Char.ofNat tag.toNat))
  | .secondRowGroup => "Cannot handle multiple result groups"
  | .rowBeforeColumns => "Tuple received before metadata"
  | .garbledAcknowledgment => "Garbled data"

def Feature.message : Feature → String
  | .isolationLevels => "Transaction isolation levels are not implemented"
  | .metadata => "Database metadata is not supported"
  | .callableStatements => "Callable statements are not supported"

def Refusal.message : Refusal → String
  | .violation cause => cause.message
  | .server message => message
  | .statementTooLong length =>
    s!"SQL statement too long: {length} > {maxStatementLength} characters"
  | .unsupported feature => feature.message

def Loss.message : Loss → String
  | .streamClosed => "Stream is closed"
  | .notOpen => "Session is not open"
  | .sendFailed reason => "I/O Error: " ++ reason
  | .receiveFailed reason => "Error reading from backend: " ++ reason
  | .endOfStream => "Error reading from backend: EOF"
  | .dialFailed reason => "Connection failed: " ++ reason
  | .handshake cause => "Connection failed: " ++ cause.message

/-- The class of a refusal, as it is named to the user. -/
def Refusal.kind : Refusal → String
  | .violation _ => "ProtocolError"
  | .server _ => "ServerError"
  | .statementTooLong _ => "ValidationError"
  | .unsupported _ => "UnsupportedError"

/-- The class of a loss, as it is named to the user. -/
def Loss.kind : String := "ConnectionError"

namespace Fault

/-- Whether a fault ends the session. -/
def isLoss : Fault → Bool
  | .loss _ => true
  | _ => false

/-- Whether a fault is one of the client's own. -/
def isOwn : Fault → Bool
  | .loss _ | .refusal _ => true
  | _ => false

/-- The text of a fault, if it has one. -/
def message? : Fault → Option String
  | .loss cause => some cause.message
  | .refusal cause => some cause.message
  | .unsupportedWidth width => some s!"Unsupported integer width: {width}"
  | .notOneByte count => some s!"send_char expects one byte, got {count}"
  | .handler reason => some reason
  | .unencodable => none
  | .unknownCharset => none
  | .malformedCharset => some "embedded null character"
  | .foreign cause => some cause.message

end Fault

end SimpleQuery
