import SimpleQuery.CommandLine.Options
import SimpleQuery.Report
import SimpleQuery.Session.Basic
import SimpleQuery.Settings.Report

/-!
# Running statements from the command line

The statements are run in order in one session, and their results are written as they come. The first
fault ends the run. With autocommit off all statements are one transaction, which is ended only when
every statement has succeeded.

A fault of the client's own is told to the user. Any other is none that the program expects: it escapes.

Model of `main` and `configure_logging`.
-/

set_option autoImplicit false

namespace SimpleQuery.CommandLine

/-- What a run of the program comes to. -/
structure Ending where
  exitCode : Nat
  stdout : String := ""
  /-- What is told to the user about a fault. -/
  stderr : String := ""
  /-- The fault that escaped, if one did. -/
  escaped : Option Fault := none
  /-- Whether the run ended because of how its arguments are written. -/
  usage : Bool := false
  verbose : Bool := false
  link : Link

/-- The name of the program. -/
def programName : String := "pgwire_client"

/-- Runs the statements that are left and ends the transaction: the lines of the results, and how it
went. -/
def runStatements (charset : NamedCharset) :
    List String → Session → List String × Except Fault Unit × Session
  | [], session =>
    let result := Session.setAutocommit true session
    ([], Act.outcome result, Act.state result)
  | statement :: rest, session =>
    match Session.query statement session with
    | .error fault after => ([], .error fault, after)
    | .ok bundle after =>
      match bundle.lines charset with
      | .error fault => ([], .error fault, after)
      | .ok lines =>
        let (more, outcome, session) := runStatements charset rest after
        (lines ++ more, outcome, session)

/-- Runs the statements in a new session, which is closed behind them. -/
def runSession (settings : Settings) (statements : List String) (link : Link) :
    List String × Except Fault Unit × Link :=
  match Session.connect { settings, phase := .fresh link } with
  | .error fault session => ([], .error fault, session.phase.link)
  | .ok () session =>
    let (lines, outcome, session) := runStatements settings.encoding.charset statements session
    (lines, outcome, session.close.phase.link)

/-- The class of a fault that the program tells of, as it is named to the user. -/
def kind? : Fault → Option String
  | .loss _ => some Loss.kind
  | .refusal cause => some cause.kind
  | _ => none

/-- What the program tells of a fault, unless it escapes. -/
def complaintLine? (fault : Fault) : Option String :=
  (kind? fault).map fun kind => kind ++ ": " ++ fault.message?.getD "" ++ "\n"

/-- What an invocation gives for the settings. -/
def Invocation.overrides (invocation : Invocation) : Arguments
  | .autocommit => if invocation.noAutocommit then some (.flag false) else none
  | setting => invocation.arguments setting

/-- What surrounds the program: the codecs that there are, and what is said behind a complaint of each
kind. -/
structure Installation where
  codecs : Codecs := fun _ => none
  hint : String → String := fun _ => ""

/-- The settings that an invocation asks for. -/
def settings (installed : Installation) (env : Environment) (invocation : Invocation) :
    Except SettingsFault Settings :=
  Settings.ofEnvironment installed.codecs env invocation.overrides

/-- The arguments that the settings of an invocation are made of. -/
def found (env : Environment) (invocation : Invocation) : Arguments :=
  invocation.overrides.present.orElse env.given

/-- The text of a fault of the settings that an invocation asks for. -/
def invalidLine (installed : Installation) (env : Environment) (invocation : Invocation)
    (fault : SettingsFault) : String :=
  "Invalid configuration: " ++ fault.text installed.hint env.listed (found env invocation) ++ "\n"

/-- How a run ends that came to some lines and an outcome. -/
def conclude (verbose : Bool) (lines : List String) (outcome : Except Fault Unit) (link : Link) : Ending :=
  let stdout := String.join (lines.map (· ++ "\n"))
  match outcome with
  | .ok () => { exitCode := 0, stdout, verbose, link }
  | .error fault =>
    match complaintLine? fault with
    | some stderr => { exitCode := 1, stdout, stderr, verbose, link }
    | none => { exitCode := 1, stdout, escaped := some fault, verbose, link }

/-- Runs an invocation. -/
def runInvocation (installed : Installation) (env : Environment) (link : Link) (invocation : Invocation) :
    Ending :=
  match settings installed env invocation with
  | .error fault =>
    { exitCode := 2, stderr := invalidLine installed env invocation fault, verbose := invocation.verbose,
      link }
  | .ok settings =>
    let (lines, outcome, link) := runSession settings (invocation.statements.getD []) link
    conclude invocation.verbose lines outcome link

/-- Runs the program. -/
def run (installed : Installation) (arguments : List String) (env : Environment) (link : Link) : Ending :=
  match Invocation.ofArguments arguments with
  | .error .helpWanted => { exitCode := 0, usage := true, link }
  | .error fault =>
    { exitCode := 2, usage := true, stderr := programName ++ ": error: " ++ fault.message ++ "\n", link }
  | .ok invocation => runInvocation installed env link invocation

/-- The log entries that the user is shown: warnings and worse, or all if that was asked for. -/
def shownLog (ending : Ending) : List Log.Entry :=
  let least := if ending.verbose then Log.Level.debug else .warning
  (ending.link.history.filterMap Event.entry?).filter fun entry => least.rank ≤ entry.level.rank

/-- A log entry on one line. -/
def logLine (entry : Log.Entry) : String := entry.level.name ++ ": " ++ entry.text

/-- The log that the user is shown. -/
def logged (ending : Ending) : String :=
  String.join ((shownLog ending).map fun entry => logLine entry ++ "\n")

/-- All that the user is told: the log, and behind it what is told about a fault. -/
def told (ending : Ending) : String := logged ending ++ ending.stderr

end SimpleQuery.CommandLine
