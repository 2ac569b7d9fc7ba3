import PlanSql.Arguments
import PlanSql.Assignment
import PlanSql.LogFilter
import PlanSql.ServerUrl
import PlanSql.Session
import PlanSql.Settings

namespace PlanSql

namespace Tool

/-- What is found under a path. -/
inductive Entry
  | text (s : String)
  /-- A directory, or a file that is no text. -/
  | other

def Entry.text? : Entry → Option String
  | text s => some s
  | other => none

/-- What a run finds around it. -/
structure Surroundings where
  /-- What is under a path, if there is anything. -/
  entry? : (path : String) → Option Entry
  environment? : (name : String) → Option String

namespace Surroundings

/-- The text of a file, if it can be read. -/
def text? (around : Surroundings) (path : String) : Option String :=
  (around.entry? path).bind Entry.text?

end Surroundings

/-- The path of the settings that are read if none is named: below the directory for settings, if
it is named by its whole path, or else below the home directory. -/
def settingsPath? (environment? : String → Option String) : Option String :=
  let home := ((environment? "HOME").filter (· != "")).map fun home => home ++ "/.config"
  let directory := ((environment? "XDG_CONFIG_HOME").filter fun d => d.startsWith "/") <|> home
  directory.map fun d => d ++ "/pgplan/config.toml"

/-- Styles show only where they are asked for. -/
def palette (around : Surroundings) : Palette :=
  ⟨(around.environment? "CLICOLOR_FORCE").any (· != "0")⟩

/-- Why a run stops. -/
inductive Failure
  | library (e : PlanError)
  | filter (f : FilterFault)
  | unreadable (path : String)
  | badPlan (path : String)
  | badBinding (text : String)
  | noDatabase
  deriving DecidableEq

namespace Failure

/-- The message; a server's own message comes once more after it. -/
def message : Failure → String
  | library (.backend (.server m)) => (PlanError.backend (.server m)).message ++ ": " ++ m
  | library e => e.message
  | filter f => f.message
  | unreadable path => "reading " ++ path
  | badPlan path => "parsing plan " ++ path
  | badBinding text => "binding '" ++ text ++ "' is not name=value"
  | noDatabase => "No database URL. Use --database-url or set PGPLAN_DATABASE_URL"

/-- The exit code: a filter that cannot be cut into its parts ends the run at once. -/
def code : Failure → Nat
  | filter .offset => 101
  | _ => 1

end Failure

/-- How a run ends: its exit code, its output and what it tells beside its output. -/
structure Ending where
  code : Nat
  output : List Char := []
  notes : List Char := []
  deriving DecidableEq

def versionLine : List Char := "pgplan 0.1.0".toList

def helpLines : List (List Char) := List.map String.toList
  ["Compile expression-tree query plans into PostgreSQL", "",
    "Usage: pgplan [OPTIONS] compile|query <PLAN> [--bind name=value]...",
    "       pgplan [OPTIONS] exec <SQL> [--bind name=value]... [--non-query]", "",
    "Options:",
    "  -f, --format <FORMAT>       table or json",
    "      --database-url <URL>    database connection URL",
    "      --config <CONFIG>       settings file",
    "  -v, --verbose               verbose output",
    "  -h, --help                  print help",
    "  -V, --version               print version"]

/-- The settings of a run: of the file that it names, or else of the usual one. -/
def settings (around : Surroundings) (c : Choices) : Except Failure Settings :=
  let usual : Except PlanError Settings :=
    match (settingsPath? around.environment?).bind around.entry? with
    | some entry => Settings.ofFile entry.text?
    | none => .ok {}
  let read := match c.config with
    | some path => Settings.ofFile (around.text? path)
    | none => usual
  read.mapError .library

/-- Checks the filter of the logs: one around the run that can be read, or else the one of its
settings; a verbose run has one of its own in their place. -/
def checkLogFilter (around : Surroundings) (s : Settings) (c : Choices) : Except Failure Unit :=
  if (around.environment? "RUST_LOG").any fun f => (LogFilter.check f).isOk then .ok ()
  else (LogFilter.check (if c.verbose then "pgplan=debug" else s.logFilter)).mapError .filter

/-- The files that arguments name. -/
def filesNamed (args : List String) : List String :=
  match readArguments args with
  | .ok (.run i) =>
    let plan := match i.job with
      | .compile path => [path]
      | .query path => [path]
      | .exec _ _ => []
    i.choices.config.toList ++ plan
  | _ => []

def loadPlan (around : Surroundings) (path : String) : Except Failure Plan :=
  match around.text? path with
  | none => .error (.unreadable path)
  | some s => match Plan.read? s with
    | none => .error (.badPlan path)
    | some p => .ok p

def readBindings (bindings : List String) : Except Failure (List Parameter) :=
  bindings.mapM fun b => match Parameter.ofAssignment? b with
    | none => .error (.badBinding b)
    | some p => .ok p

/-- The command of a job. -/
def command (around : Surroundings) (i : Invocation) : Except Failure Command :=
  let compiled (path : String) : Except Failure Command := do
    let p ← loadPlan around path
    let ps ← readBindings i.bindings
    (p.command ps).mapError .library
  match i.job with
  | .compile path => compiled path
  | .query path => compiled path
  | .exec sql _ => do return ⟨sql, ← readBindings i.bindings⟩

/-- Whether a run prints its command. -/
def showsCommand (i : Invocation) : Bool :=
  match i.job with
  | .compile _ => true
  | .query _ => i.choices.verbose
  | .exec _ _ => false

/-- The database that is named on the command line, or around the run, or in its settings. -/
def databaseUrl? (around : Surroundings) (c : Choices) (s : Settings) : Option String :=
  c.databaseUrl <|> around.environment? "PGPLAN_DATABASE_URL" <|> s.databaseUrl

section Running

variable {ℓ : Type} [Server ℓ]

/-- Connects to the server of a URL. -/
def connect (dial : ServerUrl → Option ℓ) (url : String) : Except Failure (Session ℓ) :=
  match ServerUrl.read? url with
  | none => .error (.library (.backend .badUrl))
  | some u => match dial u with
    | none => .error (.library (.backend .unreachable))
    | some link =>
      if u.secured then .error (.library (.backend .unsecured))
      else (Session.connect link).mapError .library

/-- Runs the command of a job and reports on what comes back. -/
def perform (p : Palette) (i : Invocation) (c : Command) : Action (Session ℓ) (List Char) :=
  let records : Action (Session ℓ) (List Char) := do
    let rs ← Database.retrieveText c
    return Report.text p (i.choices.format.getD .table) rs
  match i.job with
  | .exec _ true => do return Report.affected p (← Database.nonQuery c)
  | _ => records

def failed (p : Palette) (output notes : List Char) (f : Failure) : Ending :=
  ⟨f.code, output, notes ++ lineText [p.paint .boldRed "Error:".toList ++ ' ' :: f.message.toList]⟩

/-- Sends a command to a server; the link is given back as it is then. -/
def send (around : Surroundings) (dial : ServerUrl → Option ℓ) (i : Invocation) (s : Settings)
    (c : Command) (shown : List Char) : Ending × Option ℓ :=
  let p := palette around
  match databaseUrl? around i.choices s with
  | none => (failed p shown [] .noDatabase, none)
  | some url =>
    let notes := if i.choices.verbose then
      lineText [p.paint .dimmed "Connecting to:".toList ++ ' ' :: url.toList] else []
    match connect dial url with
    | .error f => (failed p shown notes f, none)
    | .ok session =>
      match (perform p i c).run session with
      | (.ok report, session) => (⟨0, shown ++ report, notes⟩, some session.link)
      | (.error e, session) => (failed p shown notes (.library e), some session.link)

def runJob (around : Surroundings) (dial : ServerUrl → Option ℓ) (i : Invocation) :
    Ending × Option ℓ :=
  let ready : Except Failure (Settings × Command) := do
    let s ← settings around i.choices
    checkLogFilter around s i.choices
    return (s, ← command around i)
  match ready with
  | .error f => (failed (palette around) [] [] f, none)
  | .ok (s, c) =>
    let shown := if showsCommand i then c.report (palette around) else []
    match i.job with
    | .compile _ => (⟨0, shown, []⟩, none)
    | _ => send around dial i s c shown

/-- Runs the tool with its arguments. -/
def run (around : Surroundings) (dial : ServerUrl → Option ℓ) (args : List String) :
    Ending × Option ℓ :=
  match readArguments args with
  | .error f => (⟨2, [], lineText ["error: ".toList ++ f.message.toList]⟩, none)
  | .ok .help => (⟨0, lineText helpLines, []⟩, none)
  | .ok .version => (⟨0, lineText [versionLine], []⟩, none)
  | .ok (.run i) => runJob around dial i

end Running

end Tool

end PlanSql
