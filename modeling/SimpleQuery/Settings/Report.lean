import SimpleQuery.Settings.Environment
import SimpleQuery.Text.Quoted

/-!
# Faults of settings as text

A fault of the settings is reported in full: a headline, and every complaint with the value that it is
about. A setting that is missing has no value, and there all arguments are quoted that were given. What is
quoted is cut short in its middle where it is long.

The settings that variables give are listed before the others, each in the order in which they are looked
for.

Model of the text of a `ValidationError` of `SessionConfig`, and of the order of the values in
`SessionConfig.from_env`.
-/

set_option autoImplicit false

namespace SimpleQuery

namespace Text

/-- The longest beginning of a text that takes so many bytes or fewer. -/
def within : Nat → List Char → List Char
  | _, [] => []
  | room, c :: text => if c.utf8Size ≤ room then c :: within (room - c.utf8Size) text else []

/-- The most bytes that are quoted of a value. -/
def quotedBytes : Nat := 50

/-- A text of more bytes without its middle. -/
def shortened (text : String) : String :=
  if (Utf8.encode text.toList).length ≤ quotedBytes then text
  else
    String.ofList (within 25 text.toList) ++ "..." ++
      String.ofList (within 24 text.toList.reverse).reverse

end Text

namespace Value

/-- A value as it is quoted. What a list or an object holds is not kept. -/
def quoted : Value → String
  | .null => "None"
  | .flag value => if value then "True" else "False"
  | .integer value => toString value
  | .real value => Shortest.text .message value
  | .text value => Text.quote value
  | .list => "[]"
  | .object => "\x7b\x7d"

/-- The type of a value, as it is named to the user. -/
def typeName : Value → String
  | .null => "NoneType"
  | .flag _ => "bool"
  | .integer _ => "int"
  | .real _ => "float"
  | .text _ => "str"
  | .list => "list"
  | .object => "dict"

end Value

namespace Arguments

/-- The arguments for some settings, quoted with their names. -/
def quoted (listed : List Setting) (arguments : Arguments) : String :=
  let entries := listed.filterMap fun setting =>
    (arguments setting).map fun value => Text.quote setting.name ++ ": " ++ value.quoted
  "\x7b" ++ ", ".intercalate entries ++ "\x7d"

end Arguments

/-- The setting that a complaint is about. -/
def Complaint.about? (complaint : Complaint) : Option Setting :=
  Setting.all.find? fun setting => setting.name == complaint.setting

/-- The value that a complaint quotes, with its type: all arguments where the setting has none. -/
def Complaint.quotes (listed : List Setting) (arguments : Arguments) (complaint : Complaint) :
    String × String :=
  match complaint.about?.bind arguments with
  | some value => (value.quoted, value.typeName)
  | none => (arguments.quoted listed, "dict")

/-- The text of a complaint about arguments. Behind it stands where more is said about its kind. -/
def Complaint.text (hint : String → String) (listed : List Setting) (arguments : Arguments)
    (complaint : Complaint) : String :=
  let (value, type) := complaint.quotes listed arguments
  complaint.setting ++ "\n  " ++ complaint.objection.message ++ " [type=" ++ complaint.objection.kind ++
    ", input_value=" ++ Text.shortened value ++ ", input_type=" ++ type ++ "]" ++
    hint complaint.objection.kind

namespace SettingsFault

/-- The text of a fault that is not a list of complaints. -/
def wordMessage (raw : String) : String :=
  "PGWIRE_AUTOCOMMIT must be a boolean, got " ++ Text.quote raw

/-- The first line of a fault. -/
def headline : SettingsFault → String
  | .complaints [_] => "1 validation error for SessionConfig"
  | .complaints all => s!"{all.length} validation errors for SessionConfig"
  | .autocommitWord raw => wordMessage raw

/-- The text of a fault about arguments. -/
def text (hint : String → String) (listed : List Setting) (arguments : Arguments)
    (fault : SettingsFault) : String :=
  match fault with
  | .complaints all => "\n".intercalate (fault.headline :: all.map (·.text hint listed arguments))
  | .autocommitWord raw => wordMessage raw

end SettingsFault

namespace Environment

/-- The settings that arguments may be given for, in the order in which they are looked for. -/
def searched : List Setting :=
  [.host, .port, .database, .user, .password, .connectTimeout, .autocommit]

/-- They in the order in which they are listed: first those whose variable is set. -/
def listed (env : Environment) : List Setting :=
  searched.filter (fun setting => (env.raw setting).isSome) ++
    searched.filter fun setting => (env.raw setting).isNone

end Environment

end SimpleQuery
