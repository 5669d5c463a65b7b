import SimpleQuery.Number.Binary64
import SimpleQuery.Text.Transcode

/-!
# Settings

The settings of one session, and the values that may be given for them.

Model of the fields of `SessionConfig`, and of its `safe_dict`.
-/

set_option autoImplicit false

namespace SimpleQuery

/-- A charset by its name, with what the name stands for. -/
structure Encoding where
  name : String := "utf-8"
  charset : NamedCharset := .known .utf8

/-- The settings of one session. -/
structure Settings where
  host : String := "localhost"
  port : Nat := 5432
  database : String
  user : String
  /-- Kept for the caller. No message carries it. -/
  password : String := ""
  autocommit : Bool := true
  /-- How long to wait for a connection, in seconds; none is without limit. -/
  connectTimeout : Option Binary64 := none
  encoding : Encoding := {}

/-- The names of the settings. -/
inductive Setting where
  | host
  | port
  | database
  | user
  | password
  | autocommit
  | connectTimeout
  | encoding
  deriving DecidableEq, Repr

namespace Setting

/-- All settings, in the order in which they are checked. -/
def all : List Setting :=
  [.host, .port, .database, .user, .password, .autocommit, .connectTimeout, .encoding]

def name : Setting → String
  | .host => "host"
  | .port => "port"
  | .database => "database"
  | .user => "user"
  | .password => "password"
  | .autocommit => "autocommit"
  | .connectTimeout => "connect_timeout"
  | .encoding => "encoding"

end Setting

/-- A value that may be given for a setting. What a list or an object holds does not matter. -/
inductive Value where
  | null
  | flag (value : Bool)
  | integer (value : Int)
  | real (value : Binary64)
  | text (value : String)
  | list
  | object
  deriving DecidableEq, Repr

/-- What is given for each setting, if anything is. -/
abbrev Arguments := Setting → Option Value

namespace Arguments

/-- Named values; those whose names no setting has are ignored, and of two for one setting the later
counts. -/
def ofPairs (pairs : List (String × Value)) : Arguments := fun setting =>
  (pairs.reverse.find? fun p => p.1 == setting.name).map Prod.snd

/-- The arguments, and those of `others` where there are none. -/
def orElse (arguments others : Arguments) : Arguments := fun setting =>
  (arguments setting).or (others setting)

/-- The arguments that are not null. -/
def present (arguments : Arguments) : Arguments := fun setting =>
  (arguments setting).filter (· ≠ .null)

end Arguments

namespace Settings

/-- The settings as arguments that give them again. -/
def toArguments (settings : Settings) : Arguments
  | .host => some (.text settings.host)
  | .port => some (.integer settings.port)
  | .database => some (.text settings.database)
  | .user => some (.text settings.user)
  | .password => some (.text settings.password)
  | .autocommit => some (.flag settings.autocommit)
  | .connectTimeout => some (match settings.connectTimeout with
    | some timeout => .real timeout
    | none => .null)
  | .encoding => some (.text settings.encoding.name)

/-- The settings with a password that is not empty hidden, for a log. -/
def masked (settings : Settings) : Settings :=
  if settings.password = "" then settings else { settings with password := "***" }

end Settings

end SimpleQuery
