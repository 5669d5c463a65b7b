import SimpleQuery.Settings.Reading

/-!
# Settings from the environment

All settings but the charset may come from environment variables. Arguments that are given go before
them.

Model of `SessionConfig.from_env` and `_parse_bool`, and of the settings that `connect` takes.
-/

set_option autoImplicit false

namespace SimpleQuery

/-- The environment variables that are set. -/
abbrev Environment := String → Option String

/-- Why there are no settings. -/
inductive SettingsFault where
  | complaints (complaints : List Complaint)
  /-- The variable for autocommit holds no word for a flag. -/
  | autocommitWord (raw : String)
  deriving DecidableEq, Repr

namespace Environment

/-- The variable of a setting. -/
def variableName? : Setting → Option String
  | .host => some "PGWIRE_HOST"
  | .port => some "PGWIRE_PORT"
  | .database => some "PGWIRE_DATABASE"
  | .user => some "PGWIRE_USER"
  | .password => some "PGWIRE_PASSWORD"
  | .autocommit => some "PGWIRE_AUTOCOMMIT"
  | .connectTimeout => some "PGWIRE_CONNECT_TIMEOUT"
  | .encoding => none

/-- What the environment holds for a setting. -/
def raw (env : Environment) (setting : Setting) : Option String := (variableName? setting).bind env

/-- The flag that a word in the environment stands for. -/
def flag? (word : String) : Option Bool :=
  let word := String.ofList ((Text.trim Text.isSpacing word.toList).map Char.toLower)
  if ["1", "true", "yes", "on"].contains word then some true
  else if ["0", "false", "no", "off"].contains word then some false
  else none

/-- What the environment gives for each setting. A word for autocommit that stands for no flag gives
nothing here. -/
def given (env : Environment) : Arguments
  | .autocommit => ((env.raw .autocommit).bind flag?).map .flag
  | setting => (env.raw setting).map .text

/-- The arguments that the environment gives. The word for autocommit is checked here. -/
def arguments (env : Environment) : Except SettingsFault Arguments :=
  match env.raw .autocommit with
  | none => .ok env.given
  | some word => if (flag? word).isSome then .ok env.given else .error (.autocommitWord word)

end Environment

namespace Settings

/-- The settings that arguments give, as faults. -/
def read (codecs : Codecs) (arguments : Arguments) : Except SettingsFault Settings :=
  (ofArguments codecs arguments).mapError .complaints

/-- The settings that the environment gives, where arguments that are not null go first. -/
def ofEnvironment (codecs : Codecs) (env : Environment) (overrides : Arguments) :
    Except SettingsFault Settings := do
  let arguments ← env.arguments
  read codecs (overrides.present.orElse arguments)

/-- The settings of a new session: those that are given, or else those of the environment, where
named values go first. -/
def forConnection (codecs : Codecs) (env : Environment) (given : Option Settings)
    (overrides : List (String × Value)) : Except SettingsFault Settings :=
  match given, overrides with
  | none, _ => ofEnvironment codecs env (Arguments.ofPairs overrides)
  | some settings, [] => .ok settings
  | some settings, _ => read codecs ((Arguments.ofPairs overrides).orElse settings.toArguments)

end Settings

end SimpleQuery
