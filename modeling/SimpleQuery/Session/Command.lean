import SimpleQuery.Answer
import SimpleQuery.Session.Basic

/-!
# Commands on a session

The operations of a session as data, so that a run of them is a list, and the block that closes the
session behind it.

Model of the methods and properties of `PGSession`, with `__enter__` and `__exit__`.
-/

set_option autoImplicit false

namespace SimpleQuery.Session

/-- What can be asked of a session. -/
inductive Property where
  | host
  | port
  | database
  | user
  | readOnly
  | cursorName
  | catalog
  | isolation
  | warnings
  | autocommit
  deriving DecidableEq, Repr

/-- The only isolation level. -/
def isolationLevel : String := "serializable"

/-- What a session says of itself. There are no catalogs and no warnings. -/
def property (session : Session) : Property → Answer
  | .host => .text session.settings.host
  | .port => .number session.settings.port
  | .database => .text session.settings.database
  | .user => .text session.settings.user
  | .readOnly => .flag session.readOnly
  | .cursorName => Answer.ofText? session.cursorName
  | .catalog => .done
  | .isolation => .text isolationLevel
  | .warnings => .done
  | .autocommit => .flag session.autocommit

/-- An operation of a session. -/
inductive Command where
  | connect
  | query (statement : String)
  | setAutocommit (autocommit : Bool)
  | commit
  | rollback
  | close
  | isOpen
  | get (property : Property)
  | setReadOnly (readOnly : Bool)
  | setCursorName (name : Option String)
  | setCatalog
  | setIsolation
  | metadata
  | prepareCall
  | nativeStatement (statement : String)
  | clearWarnings
  | describe (id : String)
  /-- The backend delivers more. -/
  | feed (more : List Delivery)
  deriving DecidableEq, Repr

/-- Carries out a command. -/
def perform : Command → Act Session Answer
  | .connect => do Session.connect; return .done
  | .query statement => do return .bundle (← Session.query statement)
  | .setAutocommit autocommit => do Session.setAutocommit autocommit; return .done
  | .commit => do Session.commit; return .done
  | .rollback => do Session.rollback; return .done
  | .close => do modify Session.close; return .done
  | .isOpen => do return .flag (← get).isOpen
  | .get name => do return (← get).property name
  | .setReadOnly readOnly => do
    modify fun s => { s with readOnly }
    return .done
  | .setCursorName cursorName => do
    modify fun s => { s with cursorName }
    return .done
  | .setCatalog => return .done
  | .setIsolation => throw (.refusal (.unsupported .isolationLevels))
  | .metadata => throw (.refusal (.unsupported .metadata))
  | .prepareCall => throw (.refusal (.unsupported .callableStatements))
  | .nativeStatement statement => return .text statement
  | .clearWarnings => return .done
  | .describe id => do return .text ((← get).describe id)
  | .feed more => do
    modify fun s => { s with phase := s.phase.mapLink (Link.feed more) }
    return .done

/-- A step of a run: a command, or a block of steps behind which the session is closed. -/
inductive Step where
  | one (command : Command)
  | block (body : List Step)

/-- What a step comes to. -/
inductive Outcome where
  | one (outcome : Except Fault Answer)
  | block (outcomes : List Outcome)

mutual

/-- Carries out a step. -/
def run : Step → Session → Outcome × Session
  | .one command, session =>
    let result := perform command session
    (.one (Act.outcome result), Act.state result)
  | .block body, session =>
    let (outcomes, session) := runAll body session
    (.block outcomes, session.close)

/-- Carries out steps in order; one that fails does not stop those after it. -/
def runAll : List Step → Session → List Outcome × Session
  | [], session => ([], session)
  | step :: rest, session =>
    let (outcome, session) := run step session
    let (outcomes, session) := runAll rest session
    (outcome :: outcomes, session)

end

end SimpleQuery.Session
