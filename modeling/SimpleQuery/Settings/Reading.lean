import SimpleQuery.Number.Literal
import SimpleQuery.Number.Shortest
import SimpleQuery.Settings.Basic

/-!
# Reading settings

Arguments become settings if each of them can be read as its setting; otherwise every one that cannot
is complained about. A value need not have the type of its setting: a number may be given as text, and
a flag as a number or a word.

Model of the constructor of `SessionConfig`, with its field validators.
-/

set_option autoImplicit false

namespace SimpleQuery

/-- Why a setting cannot have a value. -/
inductive Objection where
  | missing
  | notText
  | notInteger
  | notIntegerText
  | integerTooLong
  | notWhole
  | notFinite
  | notNumber
  | notNumberText
  | notFlag
  | notFlagWord
  | emptyName (setting : Setting)
  | portOutOfRange (port : Int)
  | timeoutNotPositive (timeout : Binary64)
  | unknownEncoding (name : String)
  | zeroInEncoding
  /-- Settings do not change once they are made. -/
  | frozen
  deriving DecidableEq, Repr

namespace Objection

/-- The class of an objection. -/
def kind : Objection → String
  | .missing => "missing"
  | .notText => "string_type"
  | .notInteger => "int_type"
  | .notIntegerText => "int_parsing"
  | .integerTooLong => "int_parsing_size"
  | .notWhole => "int_from_float"
  | .notFinite => "finite_number"
  | .notNumber => "float_type"
  | .notNumberText => "float_parsing"
  | .notFlag => "bool_type"
  | .notFlagWord => "bool_parsing"
  | .emptyName _ | .portOutOfRange _ | .timeoutNotPositive _ | .unknownEncoding _
  | .zeroInEncoding => "value_error"
  | .frozen => "frozen_instance"

def message : Objection → String
  | .missing => "Field required"
  | .notText => "Input should be a valid string"
  | .notInteger => "Input should be a valid integer"
  | .notIntegerText => "Input should be a valid integer, unable to parse string as an integer"
  | .integerTooLong => "Unable to parse input string as an integer, exceeded maximum size"
  | .notWhole => "Input should be a valid integer, got a number with a fractional part"
  | .notFinite => "Input should be a finite number"
  | .notNumber => "Input should be a valid number"
  | .notNumberText => "Input should be a valid number, unable to parse string as a number"
  | .notFlag => "Input should be a valid boolean"
  | .notFlagWord => "Input should be a valid boolean, unable to interpret input"
  | .emptyName setting => "Value error, " ++ setting.name ++ " must not be empty"
  | .portOutOfRange port => s!"Value error, port must be 1-65535, got {port}"
  | .timeoutNotPositive timeout =>
    "Value error, connect_timeout must be > 0, got " ++ Shortest.text .message timeout
  | .unknownEncoding name => "Value error, unknown encoding: " ++ name
  | .zeroInEncoding => "Value error, embedded null character"
  | .frozen => "Instance is frozen"

end Objection

/-- An objection to the value of a setting. -/
structure Complaint where
  setting : String
  objection : Objection
  deriving DecidableEq, Repr

namespace Value

/-- Whether an integer fits into 64 bits. -/
def isSmall (n : Int) : Bool := -9223372036854775808 ≤ n && n ≤ 9223372036854775807

/-- Whether the integer that a number is lies strictly between the ends of the 64-bit integers. -/
def isInside (n : Int) : Bool := -9223372036854775808 < n && n < 9223372036854775808

def text? : Value → Except Objection String
  | .text value => .ok value
  | _ => .error .notText

/-- A value read as an integer. -/
def integer? : Value → Except Objection Int
  | .flag value => .ok (if value then 1 else 0)
  | .integer value => .ok value
  | .real value =>
    if !value.isFinite then .error .notFinite
    else
      match value.toInt? with
      | none => .error .notWhole
      | some n => if isInside n then .ok n else .error .integerTooLong
  | .text value =>
    match Literal.integral value with
    | .value n => .ok n
    | .malformed => .error .notIntegerText
    | .tooLong => .error .integerTooLong
  | .null | .list | .object => .error .notInteger

/-- A value read as a number. -/
def real? : Value → Except Objection Binary64
  | .flag value => .ok (.ofRatio false (if value then 1 else 0) 1)
  | .integer value =>
    match Binary64.ofInt? value with
    | some x => .ok x
    | none => .error .notNumber
  | .real value => .ok value
  | .text value =>
    match Literal.real? value with
    | some x => .ok x
    | none => .error .notNumberText
  | .null | .list | .object => .error .notNumber

/-- The words for a flag that is not set. -/
def offWords : List String := ["0", "off", "f", "false", "n", "no"]

/-- The words for a flag that is set. -/
def onWords : List String := ["1", "on", "t", "true", "y", "yes"]

/-- The flag that an integer stands for. -/
def flagOfInteger (n : Int) : Except Objection Bool :=
  if n = 0 then .ok false else if n = 1 then .ok true else .error .notFlagWord

/-- A value read as a flag. -/
def flag? : Value → Except Objection Bool
  | .flag value => .ok value
  | .integer value => if isSmall value then flagOfInteger value else .error .notFlag
  | .real value =>
    match value.toInt? with
    | some n => if isInside n then flagOfInteger n else .error .notFlag
    | none => .error .notFlag
  | .text value =>
    let word := value.map Char.toLower
    if offWords.contains word then .ok false
    else if onWords.contains word then .ok true
    else .error .notFlagWord
  | .null | .list | .object => .error .notFlag

end Value

namespace Settings

/-- A name that is not empty. -/
def readName (setting : Setting) (value : Value) : Except Objection String := do
  let name ← value.text?
  if name = "" then throw (.emptyName setting)
  return name

/-- A port from 1 to 65535. -/
def readPort (value : Value) : Except Objection Nat := do
  let port ← value.integer?
  if 1 ≤ port ∧ port ≤ 65535 then return port.toNat
  throw (.portOutOfRange port)

/-- A timeout that is not zero or less, or none. -/
def readTimeout : Value → Except Objection (Option Binary64)
  | .null => .ok none
  | value => do
    let timeout ← value.real?
    if timeout.isAtMostZero then throw (.timeoutNotPositive timeout)
    return some timeout

/-- A charset, by a name that stands for one. -/
def readEncoding (codecs : Codecs) (value : Value) : Except Objection Encoding := do
  let name ← value.text?
  match NamedCharset.ofName codecs name with
  | .unknown => throw (.unknownEncoding name)
  | .malformed => throw .zeroInEncoding
  | .known charset => return { name, charset := .known charset }
  | .other codec => return { name, charset := .other codec }

/-- What is read of one argument, where a missing one has a default or is complained about. -/
def readSetting {α : Type} (arguments : Arguments) (setting : Setting) (default : Option α)
    (read : Value → Except Objection α) : Except Complaint α :=
  let result := match arguments setting, default with
    | some value, _ => read value
    | none, some value => .ok value
    | none, none => .error .missing
  result.mapError fun objection => ⟨setting.name, objection⟩

/-- The complaint of a result that is one. -/
def complaint {α : Type} : Except Complaint α → List Complaint
  | .ok _ => []
  | .error complaint => [complaint]

/-- The settings that arguments give, or all complaints about them in the order of the settings. -/
def ofArguments (codecs : Codecs) (arguments : Arguments) : Except (List Complaint) Settings :=
  let host := readSetting arguments .host (some "localhost") Value.text?
  let port := readSetting arguments .port (some 5432) readPort
  let database := readSetting arguments .database none (readName .database)
  let user := readSetting arguments .user none (readName .user)
  let password := readSetting arguments .password (some "") Value.text?
  let autocommit := readSetting arguments .autocommit (some true) Value.flag?
  let timeout := readSetting arguments .connectTimeout (some none) readTimeout
  let encoding := readSetting arguments .encoding (some {}) (readEncoding codecs)
  match host, port, database, user, password, autocommit, timeout, encoding with
  | .ok host, .ok port, .ok database, .ok user, .ok password, .ok autocommit, .ok connectTimeout,
    .ok encoding =>
    .ok { host, port, database, user, password, autocommit, connectTimeout, encoding }
  | _, _, _, _, _, _, _, _ =>
    .error (complaint host ++ complaint port ++ complaint database ++ complaint user ++
      complaint password ++ complaint autocommit ++ complaint timeout ++ complaint encoding)

/-- Whether a name is reserved for what is no setting. -/
def isReserved (name : String) : Bool := name.toList.head? == some '_'

/-- Settings refuse every change. To give a reserved name a value changes no setting. -/
def assign (settings : Settings) (name : String) (_ : Value) : Except Complaint Settings :=
  if isReserved name then .ok settings else .error ⟨name, .frozen⟩

end Settings

end SimpleQuery
