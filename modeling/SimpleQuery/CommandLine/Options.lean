import SimpleQuery.Number.Literal
import SimpleQuery.Settings.Basic
import SimpleQuery.Text.Quoted

/-!
# Options

The options of the command line. An option has a long name, which may be cut short where that is not
ambiguous, and most have a letter; letters may be written together behind one hyphen, and a value may
be written together with its option or follow it. An equals sign may stand between an option and what
is written together with it, but not between letters.

What looks like a negative number, or has a blank in it, is an operand although it begins with a
hyphen, and behind two hyphens all are operands.

Model of the parser that `main` sets up, with `parse_args`.
-/

set_option autoImplicit false

namespace SimpleQuery.CommandLine

/-- An option. -/
inductive Opt where
  | help
  | host
  | port
  | database
  | user
  | password
  | noAutocommit
  | verbose
  deriving DecidableEq, Repr

namespace Opt

/-- All options, in the order in which they are listed. -/
def all : List Opt := [.help, .host, .port, .database, .user, .password, .noAutocommit, .verbose]

def long : Opt → String
  | .help => "--help"
  | .host => "--host"
  | .port => "--port"
  | .database => "--database"
  | .user => "--user"
  | .password => "--password"
  | .noAutocommit => "--no-autocommit"
  | .verbose => "--verbose"

def letter? : Opt → Option Char
  | .help => some 'h'
  | .host => some 'H'
  | .port => some 'p'
  | .database => some 'd'
  | .user => some 'U'
  | .password => some 'W'
  | .noAutocommit => none
  | .verbose => some 'v'

/-- The setting that the option's value is for. An option without one takes no value. -/
def setting? : Opt → Option Setting
  | .host => some .host
  | .port => some .port
  | .database => some .database
  | .user => some .user
  | .password => some .password
  | .help | .noAutocommit | .verbose => none

/-- All spellings of an option, as messages show them. -/
def display : Opt → String
  | .help => "-h/--help"
  | opt =>
    match opt.letter? with
    | some c => opt.long ++ "/-" ++ String.singleton c
    | none => opt.long

/-- The option of a letter. -/
def ofLetter? (c : Char) : Option Opt := all.find? fun opt => opt.letter? == some c

/-- The option of a whole long name. -/
def ofLong? (name : String) : Option Opt := all.find? fun opt => opt.long == name

/-- The option of a whole spelling: a long name, or a hyphen and a letter. -/
def ofSpelling? (spelling : List Char) : Option Opt :=
  match spelling with
  | ['-', c] => ofLetter? c
  | _ => ofLong? (String.ofList spelling)

/-- The options whose long names begin with a text. -/
def startingWith (start : String) : List Opt := all.filter fun opt => start.isPrefixOf opt.long

end Opt

/-- Why arguments are rejected, or why nothing is run. -/
inductive UsageFault where
  | ambiguous (argument : String) (candidates : List Opt)
  | valueExpected (opt : Opt)
  | valueIgnored (opt : Opt) (value : String)
  | notInteger (opt : Opt) (value : String)
  | noStatements
  | unrecognized (arguments : List String)
  /-- Help was asked for. -/
  | helpWanted
  deriving DecidableEq, Repr

/-- The text of a usage fault. -/
def UsageFault.message : UsageFault → String
  | .ambiguous argument candidates =>
    "ambiguous option: " ++ argument ++ " could match " ++ ", ".intercalate (candidates.map Opt.long)
  | .valueExpected opt => "argument " ++ opt.display ++ ": expected one argument"
  | .valueIgnored opt value =>
    "argument " ++ opt.display ++ ": ignored explicit argument " ++ Text.quote value
  | .notInteger opt value => "argument " ++ opt.display ++ ": invalid int value: " ++ Text.quote value
  | .noStatements => "the following arguments are required: sql"
  | .unrecognized arguments => "unrecognized arguments: " ++ " ".intercalate arguments
  | .helpWanted => ""

/-- What is written together with an option. -/
inductive Attached where
  | nothing
  /-- What follows a letter, and an equals sign if one stands between. -/
  | toLetter (text : List Char)
  /-- What follows a long name and an equals sign. -/
  | toName (text : List Char)
  deriving DecidableEq, Repr

/-- What an argument is. -/
inductive Token where
  | operand (text : String)
  /-- Two hyphens, behind which all are operands. -/
  | separator
  | option (opt : Opt) (attached : Attached)
  /-- What has the form of an option and is none. -/
  | unknown (text : String)
  deriving DecidableEq, Repr

namespace Token

/-- A text up to an equals sign, and what is behind that. -/
def splitEquals (text : List Char) : List Char × Attached :=
  match text.dropWhile (· != '=') with
  | '=' :: value =>
    match text.takeWhile (· != '=') with
    | '-' :: '-' :: name => ('-' :: '-' :: name, .toName value)
    | name => (name, .toLetter value)
  | _ => (text, .nothing)

/-- Whether a text has the form of a negative number: digits behind the hyphen, some of which may
follow a point. A line end behind it does not count. -/
def isNegativeNumber (text : List Char) : Bool :=
  let isDigit (c : Char) := (Text.digit? c).isSome
  match (if text.getLast? = some '\n' then text.dropLast else text) with
  | '-' :: body =>
    match body.dropWhile isDigit with
    | [] => !body.isEmpty
    | '.' :: fraction => !fraction.isEmpty && fraction.all isDigit
    | _ => false
  | _ => false

/-- What an argument is that begins with a hyphen and is no operand for its form: an option by a part
of its name or with a value attached, or a word that may still be an operand. -/
def ofHyphened (text : List Char) : Except UsageFault Token :=
  let (name, attached) := splitEquals text
  match Opt.ofSpelling? name with
  | some opt => .ok (.option opt attached)
  | none =>
    let candidates : List (Opt × Attached) :=
      match text with
      | '-' :: '-' :: _ => (Opt.startingWith (String.ofList name)).map (·, attached)
      | '-' :: c :: value => (Opt.ofLetter? c).toList.map (·, .toLetter value)
      | _ => []
    match candidates with
    | [(opt, attached)] => .ok (.option opt attached)
    | [] =>
      if isNegativeNumber text || text.contains ' ' then .ok (.operand (String.ofList text))
      else .ok (.unknown (String.ofList text))
    | _ => .error (.ambiguous (String.ofList text) (candidates.map Prod.fst))

/-- What an argument is, where no two hyphens came before it. -/
def ofArgument (argument : String) : Except UsageFault Token :=
  if argument = "--" then .ok .separator
  else
    match argument.toList with
    | '-' :: c :: rest => ofHyphened ('-' :: c :: rest)
    | _ => .ok (.operand argument)

/-- What the arguments are. -/
def ofArguments : List String → Except UsageFault (List Token)
  | [] => .ok []
  | argument :: rest => do
    let token ← ofArgument argument
    match token with
    | .separator => return .separator :: rest.map .operand
    | _ => return token :: (← ofArguments rest)

end Token

/-- What the arguments ask for. -/
structure Invocation where
  arguments : Arguments := fun _ => none
  noAutocommit : Bool := false
  verbose : Bool := false
  /-- The statements; none until some are found. -/
  statements : Option (List String) := none
  /-- Arguments that have no place. -/
  extras : List String := []

namespace Invocation

/-- The value that an option's text stands for. A port has to be an integer. Two hyphens alone are left
out as a separator is, so that the value is a list of nothing. -/
def value (opt : Opt) (text : String) : Except UsageFault Value :=
  if text = "--" then .ok .list
  else if opt = .port then
    match Literal.integer? text with
    | some n => .ok (.integer n)
    | none => .error (.notInteger opt text)
  else .ok (.text text)

/-- The invocation with an option that has a value. -/
def withValue (opt : Opt) (text : String) (invocation : Invocation) :
    Except UsageFault Invocation := do
  let given ← value opt text
  return { invocation with arguments := fun setting =>
    if opt.setting? == some setting then some given else invocation.arguments setting }

/-- The invocation with an option that has none. -/
def withFlag (opt : Opt) (invocation : Invocation) : Except UsageFault Invocation :=
  match opt with
  | .help => .error .helpWanted
  | .noAutocommit => .ok { invocation with noAutocommit := true }
  | .verbose => .ok { invocation with verbose := true }
  | _ => .ok invocation

/-- The texts of operands and separators. -/
def texts (run : List Token) : List String :=
  run.filterMap fun
    | .operand text => some text
    | .separator => some "--"
    | _ => none

/-- Takes operands that follow one another, with the separator if it is among them. The first that are
found are the statements, and others have no place. -/
def withOperands (run : List Token) (invocation : Invocation) : Invocation :=
  let isOperand : Token → Bool := fun
    | .operand _ => true
    | _ => false
  if invocation.statements.isNone && run.any isOperand then
    { invocation with statements := some ((texts run).erase "--") }
  else { invocation with extras := invocation.extras ++ texts run }

/-- What one argument with an option holds. -/
structure Unfolded where
  /-- The options, of which all but the last take no value. -/
  opts : List Opt
  /-- The value that is attached to the last. -/
  value : Option String := none

/-- Whether an option takes a value. -/
def takesValue (opt : Opt) : Bool := opt.setting?.isSome

/-- What the letters behind an option without a value stand for: each is an option of its own, up to
one that takes a value, and what follows that is its value. -/
def unfoldLetters (opt : Opt) : List Char → Except UsageFault Unfolded
  | [] => .ok { opts := [opt] }
  | c :: rest =>
    match Opt.ofLetter? c with
    | none => .error (.valueIgnored opt (String.ofList (c :: rest)))
    | some next =>
      if takesValue next then
        let value := if rest.isEmpty then none else some (String.ofList rest)
        .ok { opts := [opt, next], value }
      else do
        let more ← unfoldLetters next rest
        return { more with opts := opt :: more.opts }

/-- What an option and the text that is attached to it stand for. A text that is not the option's value
can only be letters of further options. -/
def unfold (opt : Opt) : Attached → Except UsageFault Unfolded
  | .nothing => .ok { opts := [opt] }
  | .toLetter text =>
    if takesValue opt then .ok { opts := [opt], value := some (String.ofList text) }
    else if text.isEmpty then .error (.valueIgnored opt "")
    else unfoldLetters opt text
  | .toName text =>
    if takesValue opt then .ok { opts := [opt], value := some (String.ofList text) }
    else .error (.valueIgnored opt (String.ofList text))

/-- Takes in an option and those written together with it, and tells whether the operand that comes
next was taken: it is the value of an option that needs one and has none attached. -/
def withOption (opt : Opt) (attached : Attached) (next : Option String) (invocation : Invocation) :
    Except UsageFault (Invocation × Bool) := do
  let unfolded ← unfold opt attached
  let last := unfolded.opts.getLast?.getD opt
  let flags := if takesValue last then unfolded.opts.dropLast else unfolded.opts
  let text := if takesValue last then unfolded.value.or next else none
  if takesValue last && text.isNone then throw (.valueExpected last)
  let invocation ← flags.foldlM (fun i o => withFlag o i) invocation
  match text with
  | none => return (invocation, false)
  | some text => return (← withValue last text invocation, unfolded.value.isNone)

/-- The text of the operand that comes next, if one does. -/
def nextOperand : List Token → Option String
  | .operand text :: _ => some text
  | _ => none

/-- Takes in arguments from left to right; `run` holds the operands since the last option. -/
def ofTokens (invocation : Invocation) (run : List Token) : List Token → Except UsageFault Invocation
  | [] => .ok (if run.isEmpty then invocation else invocation.withOperands run)
  | .operand text :: rest => ofTokens invocation (run ++ [.operand text]) rest
  | .separator :: rest => ofTokens invocation (run ++ [.separator]) rest
  | .unknown text :: rest =>
    let invocation := if run.isEmpty then invocation else invocation.withOperands run
    ofTokens { invocation with extras := invocation.extras ++ [text] } [] rest
  | .option opt attached :: rest => do
    let invocation := if run.isEmpty then invocation else invocation.withOperands run
    let (invocation, taken) ← withOption opt attached (nextOperand rest) invocation
    if taken then ofTokens invocation [] rest.tail else ofTokens invocation [] rest

termination_by tokens => tokens.length

/-- What the arguments ask for. Some statement has to be among them, and none may be without a
place. -/
def ofArguments (arguments : List String) : Except UsageFault Invocation := do
  let invocation ← ofTokens {} [] (← Token.ofArguments arguments)
  if invocation.statements.isNone then throw .noStatements
  if !invocation.extras.isEmpty then throw (.unrecognized invocation.extras)
  return invocation

end Invocation

end SimpleQuery.CommandLine
