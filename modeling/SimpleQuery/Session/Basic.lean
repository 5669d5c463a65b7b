import SimpleQuery.Response
import SimpleQuery.Settings.Basic

/-!
# Sessions

A session is a stream over which one statement at a time is run. It becomes open when the backend has
answered a first empty statement, and is broken for good when its stream is lost.

With autocommit off the session keeps a transaction open: `begin` follows whatever ends one.

Model of `PGSession` and of `PGStream.open`.
-/

set_option autoImplicit false

namespace SimpleQuery

/-- What a session has to work with. -/
inductive Phase where
  /-- No stream yet, and a link to open one on. -/
  | fresh (link : Link)
  /-- A stream that runs no statements. -/
  | broken (stream : Stream)
  /-- A stream that runs statements. -/
  | open (stream : Stream)

namespace Phase

def link : Phase → Link
  | .fresh link => link
  | .broken stream => stream.link
  | .open stream => stream.link

/-- Changes the link. -/
def mapLink (f : Link → Link) : Phase → Phase
  | .fresh link => .fresh (f link)
  | .broken stream => .broken { stream with link := f stream.link }
  | .open stream => .open { stream with link := f stream.link }

end Phase

/-- A session with one backend. -/
structure Session where
  settings : Settings
  handling : NoticeHandling := .logged
  phase : Phase
  /-- Whether no transaction is kept open. -/
  autocommit : Bool := true
  /-- Advice to the caller. No message carries it. -/
  readOnly : Bool := false
  cursorName : Option String := none

namespace Startup

/-- The length of the startup packet. -/
def length : Nat := 288

/-- The code that stands for the protocol in the startup packet. -/
def code : Nat := 7

def databaseWidth : Nat := 64

def userWidth : Nat := length - 4 - 4 - databaseWidth

/-- The startup packet for encoded names: its length, the code, and both names in fixed widths. -/
def packet (database user : Bytes) : Bytes :=
  Width.four.encode length ++ Width.four.encode code ++ Stream.padded databaseWidth database ++
    Stream.padded userWidth user

theorem length_packet (database user : Bytes) : (packet database user).length = length := by
  simp [packet, Stream.length_padded, Width.bytes, databaseWidth, userWidth, length]

/-- Sends the startup packet. Each part is staged before the next name is encoded. -/
def send (settings : Settings) : Act Stream Unit := do
  let charset := settings.encoding.charset
  Stream.stageInteger .four length
  Stream.stageInteger .four code
  Stream.stagePadded databaseWidth (← Act.ofExcept (Text.encodeIn charset settings.database))
  Stream.stagePadded userWidth (← Act.ofExcept (Text.encodeIn charset settings.user))
  Stream.flush
  Stream.logged (.startupSent length)

end Startup

/-- The statements with which a session controls transactions. -/
inductive Control where
  | begin
  | end
  | commit
  | rollback
  deriving DecidableEq, Repr

def Control.statement : Control → String
  | .begin => "begin"
  | .end => "end"
  | .commit => "commit"
  | .rollback => "rollback"

namespace Session

/-- Runs a statement for a session. A loss closes the stream. -/
def execute (handling : NoticeHandling) (statement : String) : Act Stream Bundle := fun s =>
  match s.query handling statement with
  | .ok bundle t =>
    .ok bundle (t.log (.queryComplete bundle.status bundle.columns.length bundle.rowCount))
  | .error (.loss cause) t => .error (.loss cause) (t.log .sessionBroken).close
  | .error fault t => .error fault t

/-- The first requests of a session: the startup packet, an empty statement as a probe, and, with
autocommit off, the first `begin`. -/
def handshake (settings : Settings) (handling : NoticeHandling) : Act Stream Unit := do
  Startup.send settings
  let _ ← execute handling Query.blank
  if !settings.autocommit then
    let _ ← execute handling Control.begin.statement

/-- Opens a stream for the settings, or gives the fault and the link. Only what the system refuses is a
loss, and goes to the log. -/
def dial (settings : Settings) (link : Link) : Except (Fault × Link) Stream :=
  match link.dial settings.host settings.port settings.connectTimeout with
  | (some (.refused reason), link) =>
    .error (.loss (.dialFailed reason), link.log (.dialFailed settings.host settings.port reason))
  | (some (.foreign cause), link) => .error (.foreign cause, link)
  | (none, link) =>
    let link := (link.record .unlimited).record .undelayed
    .ok { link := link.log (.dialled settings.host settings.port),
          charset := settings.encoding.charset }

/-- Opens the session on its stream. A fault of the handshake is a loss, and closes the stream; what
is no fault of the backend's leaves the stream as it is. -/
def greet (stream : Stream) : Act Session Unit := fun session =>
  match handshake session.settings session.handling stream with
  | .ok () t =>
    let autocommit := session.settings.autocommit && session.autocommit
    .ok () { session with phase := .open (t.log (.established autocommit)), autocommit }
  | .error (.loss cause) t => .error (.loss cause) { session with phase := .broken t.close }
  | .error (.refusal cause) t =>
    .error (.loss (.handshake cause)) { session with phase := .broken t.close }
  | .error fault t => .error fault { session with phase := .broken t }

/-- What is logged when a session begins to connect. -/
def connecting (settings : Settings) : Log.Entry :=
  .connecting settings.host settings.port settings.database settings.user

/-- Opens the session, unless it is open. -/
def connect : Act Session Unit := fun session =>
  match session.phase with
  | .open _ => .ok () session
  | .broken stream => greet (stream.log (connecting session.settings)) session
  | .fresh link =>
    match dial session.settings (link.log (connecting session.settings)) with
    | .ok stream => greet stream session
    | .error (fault, link) => .error fault { session with phase := .fresh link }

/-- An action on the stream of an open session. A loss breaks the session. -/
def onStream {α : Type} (act : Act Stream α) : Act Session α := fun session =>
  match session.phase with
  | .open stream =>
    match act stream with
    | .ok a t => .ok a { session with phase := .open t }
    | .error fault t =>
      .error fault { session with phase := if fault.isLoss then .broken t else .open t }
  | .fresh _ | .broken _ => .error (.loss .notOpen) session

/-- Fails unless the session is open. -/
def requireOpen : Act Session Unit := onStream (pure ())

def isOpen (session : Session) : Bool :=
  match session.phase with
  | .open _ => true
  | .fresh _ | .broken _ => false

/-- On an open session an action is run on its stream. -/
theorem onStream_of_open {α : Type} (act : Act Stream α) {session : Session} {s : Stream}
    (h : session.phase = .open s) :
    onStream act session = match act s with
      | .ok a t => .ok a { session with phase := .open t }
      | .error fault t =>
        .error fault { session with phase := if fault.isLoss then .broken t else .open t } := by
  simp only [onStream, h]

/-- On any other it is refused. -/
theorem onStream_of_not_open {α : Type} (act : Act Stream α) {session : Session}
    (h : session.isOpen = false) : onStream act session = .error (.loss .notOpen) session := by
  unfold isOpen at h
  cases hp : session.phase with
  | fresh link | broken s => simp only [onStream, hp]
  | «open» s =>
    rw [hp] at h
    cases h

/-- Runs a statement. -/
def query (statement : String) : Act Session Bundle := do
  onStream (execute (← get).handling statement)

/-- Runs a statement that controls the transaction. -/
def control (statement : Control) : Act Session Unit := do
  let _ ← query statement.statement

/-- Notes whether a transaction is kept open. -/
def noteAutocommit (autocommit : Bool) : Act Session Unit := fun session =>
  .ok () { session with autocommit }

/-- Switches autocommit: off begins a transaction, and on ends it. -/
def setAutocommit (autocommit : Bool) : Act Session Unit := do
  requireOpen
  if (← get).autocommit != autocommit then
    control (if autocommit then .end else .begin)
    noteAutocommit autocommit

/-- Ends the transaction and begins the next. With autocommit there is none to end. Between the two
statements no transaction is open. -/
def finish (statement : Control) : Act Session Unit := do
  requireOpen
  if !(← get).autocommit then
    control statement
    noteAutocommit true
    control .begin
    noteAutocommit false

def commit : Act Session Unit := finish .commit

def rollback : Act Session Unit := finish .rollback

/-- Closes the session's stream, if it has one that is not closed. -/
def close (session : Session) : Session :=
  match session.phase with
  | .fresh _ => session
  | .broken stream | .open stream =>
    let stream := if stream.closed then stream else stream.close.log .sessionClosed
    { session with phase := .broken stream }

/-- One line that tells sessions apart. -/
def describe (id : String) (session : Session) : String :=
  let settings := session.settings
  let status := if session.isOpen then "open" else "broken"
  "<PGSession " ++ id ++ " " ++ settings.user ++ "@" ++ settings.host ++ ":" ++
    toString settings.port ++ "/" ++ settings.database ++ " " ++ status ++ ">"

end Session

end SimpleQuery
