import PlanSql.Characters
import PlanSql.Report

namespace PlanSql

inductive Verb
  | compile
  | query
  | exec
  deriving DecidableEq

namespace Verb

def ofName? : String → Option Verb
  | "compile" => some compile
  | "query" => some query
  | "exec" => some exec
  | _ => none

end Verb

inductive Switch
  | format
  | databaseUrl
  | config
  | verbose
  | bind
  | nonQuery
  | help
  | version
  deriving DecidableEq

namespace Switch

/-- The name after two hyphens. -/
def name : Switch → String
  | format => "format"
  | databaseUrl => "database-url"
  | config => "config"
  | verbose => "verbose"
  | bind => "bind"
  | nonQuery => "non-query"
  | help => "help"
  | version => "version"

/-- The letter after one hyphen. -/
def letter? : Switch → Option Char
  | format => some 'f'
  | verbose => some 'v'
  | bind => some 'b'
  | help => some 'h'
  | version => some 'V'
  | _ => none

def takesValue : Switch → Bool
  | format => true
  | databaseUrl => true
  | config => true
  | bind => true
  | _ => false

/-- The switches of every place. -/
def everywhere : List Switch := [format, databaseUrl, config, verbose, help]

/-- The switches after the name of a job, or before it. -/
def known : (place : Option Verb) → List Switch
  | none => version :: everywhere
  | some .exec => nonQuery :: bind :: everywhere
  | some _ => bind :: everywhere

end Switch

/-- A piece of a command line. -/
inductive Given
  | verb (v : Verb)
  | flag (s : Switch)
  | setting (s : Switch) (value : String)
  | word (text : String)
  /-- What has no meaning in its place. -/
  | stray (text : String)
  deriving DecidableEq

/-- What one argument with hyphens gives; the last switch may wait for the next argument. -/
structure Switches where
  given : List Given
  waiting : Option Switch := none

namespace Given

/-- Reads an argument after its two hyphens. -/
def ofName (place : Option Verb) (s : List Char) : Switches :=
  let (name, rest) := splitWhile (· != '=') s
  match (Switch.known place).find? fun w => w.name.toList = name with
  | none => ⟨[.stray (String.ofList s)], none⟩
  | some w =>
    match rest with
    | [] => if w.takesValue then ⟨[], some w⟩ else ⟨[.flag w], none⟩
    | _ :: value =>
      if w.takesValue then ⟨[.setting w (String.ofList value)], none⟩
      else ⟨[.stray (String.ofList s)], none⟩

/-- Reads letters after one hyphen; what follows the letter of a setting is its value, with or
without an equals sign. -/
def ofLetters (place : Option Verb) : List Char → Switches
  | [] => ⟨[], none⟩
  | c :: s =>
    match (Switch.known place).find? fun w => w.letter? = some c with
    | none => ⟨[.stray (String.ofList (c :: s))], none⟩
    | some w =>
      if w.takesValue then
        match s with
        | [] => ⟨[], some w⟩
        | '=' :: value => ⟨[.setting w (String.ofList value)], none⟩
        | value => ⟨[.setting w (String.ofList value)], none⟩
      else
        let more := ofLetters place s
        ⟨.flag w :: more.given, more.waiting⟩

/-- Reads an argument that starts with a hyphen and is longer than that. -/
def switches? (place : Option Verb) (s : String) : Option Switches :=
  match s.toList with
  | '-' :: '-' :: cs => some (ofName place cs)
  | ['-'] => none
  | '-' :: cs => some (ofLetters place cs)
  | _ => none

/-- Help in general, or about a job. -/
def helpAbout : List String → Given
  | [] => .flag .help
  | [name] => if name = "help" || (Verb.ofName? name).isSome then .flag .help else .stray name
  | _ :: name :: _ => .stray name

/-- Splits arguments; after two hyphens alone all of them are words. -/
def split (place : Option Verb) : List String → List Given
  | [] => []
  | a :: rest =>
    if a = "--" then rest.map .word
    else match switches? place a with
      | some ⟨given, none⟩ => given ++ split place rest
      | some ⟨given, some w⟩ =>
        match rest with
        | [] => given ++ [.stray a]
        | value :: rest =>
          if (switches? place value).isSome then given ++ [.stray a]
          else given ++ .setting w value :: split place rest
      | none =>
        match place with
        | some _ => .word a :: split place rest
        | none =>
          match Verb.ofName? a with
          | some v => .verb v :: split (some v) rest
          | none => if a = "help" then [helpAbout rest] else [.stray a]

end Given

/-- The switches of one place that may be given there once. -/
structure Choices where
  format : Option ReportFormat := none
  databaseUrl : Option String := none
  config : Option String := none
  verbose : Bool := false

/-- Why a command line cannot be understood. -/
inductive UsageFault
  | unexpected (text : String)
  | repeated (s : Switch)
  | badValue (s : Switch) (value : String)
  | noVerb
  | noOperand
  | emptyOperand
  deriving DecidableEq

namespace UsageFault

def message : UsageFault → String
  | unexpected text => "unexpected argument '" ++ text ++ "'"
  | repeated s => "the argument '--" ++ s.name ++ "' cannot be used multiple times"
  | badValue s value => "invalid value '" ++ value ++ "' for '--" ++ s.name ++ "'"
  | noVerb => "a subcommand is required"
  | noOperand => "a required argument was not provided"
  | emptyOperand => "a value is required for a file"

end UsageFault

namespace Choices

/-- Sets what has not been set. -/
def once {α : Type} (s : Switch) (old : Option α) (new : α) : Except UsageFault (Option α) :=
  match old with
  | none => .ok (some new)
  | some _ => .error (.repeated s)

def formatOf (name : String) : Except UsageFault ReportFormat :=
  if name = "table" then .ok .table
  else if name = "json" then .ok .json
  else .error (.badValue .format name)

def withFlag (c : Choices) (s : Switch) : Except UsageFault Choices :=
  if c.verbose then .error (.repeated s) else .ok { c with verbose := true }

def withSetting (c : Choices) (s : Switch) (value : String) : Except UsageFault Choices :=
  match s with
  | .format => do return { c with format := ← once s c.format (← formatOf value) }
  | .databaseUrl => do return { c with databaseUrl := ← once s c.databaseUrl value }
  | .config =>
    if value.isEmpty then .error (.badValue s value)
    else do return { c with config := ← once s c.config value }
  | _ => .error (.unexpected value)

/-- The choices of `inner` and, where it has none, those of `outer`. -/
def before (inner outer : Choices) : Choices where
  format := inner.format <|> outer.format
  databaseUrl := inner.databaseUrl <|> outer.databaseUrl
  config := inner.config <|> outer.config
  verbose := inner.verbose || outer.verbose

end Choices

/-- What has been taken from a command line so far. -/
structure Draft where
  verb : Option Verb := none
  outer : Choices := {}
  inner : Choices := {}
  operand : Option String := none
  bindings : List String := []
  nonQuery : Bool := false

/-- What a command line asks for. -/
inductive Job
  | compile (plan : String)
  | query (plan : String)
  | exec (sql : String) (nonQuery : Bool)
  deriving DecidableEq

structure Invocation where
  job : Job
  bindings : List String
  choices : Choices

inductive Request
  | help
  | version
  | run (i : Invocation)

namespace Draft

/-- Lets the choices of the place take a piece. -/
def choose (d : Draft) (f : Choices → Except UsageFault Choices) : Except UsageFault Draft :=
  match d.verb with
  | none => (f d.outer).map fun c => { d with outer := c }
  | some _ => (f d.inner).map fun c => { d with inner := c }

def withWord (d : Draft) (text : String) : Except UsageFault Draft :=
  match d.verb, d.operand with
  | none, _ => .error (.unexpected text)
  | some _, some _ => .error (.unexpected text)
  | some .exec, none => .ok { d with operand := some text }
  | some _, none =>
    if text.isEmpty then .error .emptyOperand else .ok { d with operand := some text }

def withPiece (d : Draft) : Given → Except UsageFault Draft
  | .verb v => .ok { d with verb := some v }
  | .flag .nonQuery =>
    if d.nonQuery then .error (.repeated .nonQuery) else .ok { d with nonQuery := true }
  | .flag s => d.choose fun c => c.withFlag s
  | .setting .bind value => .ok { d with bindings := d.bindings ++ [value] }
  | .setting s value => d.choose fun c => c.withSetting s value
  | .word text => d.withWord text
  | .stray text => .error (.unexpected text)

def job (d : Draft) : Except UsageFault Job :=
  match d.verb, d.operand with
  | none, _ => .error .noVerb
  | some _, none => .error .noOperand
  | some .compile, some plan => .ok (.compile plan)
  | some .query, some plan => .ok (.query plan)
  | some .exec, some sql => .ok (.exec sql d.nonQuery)

/-- Takes pieces up to the first that asks for something at once or cannot be taken. -/
def request (d : Draft) : List Given → Except UsageFault Request
  | [] => do return .run ⟨← d.job, d.bindings, d.inner.before d.outer⟩
  | .flag .help :: _ => .ok .help
  | .flag .version :: _ => .ok .version
  | g :: rest => (d.withPiece g).bind fun d => request d rest

end Draft

/-- Reads the arguments of a command line. -/
def readArguments (args : List String) : Except UsageFault Request :=
  Draft.request {} (Given.split none args)

end PlanSql
