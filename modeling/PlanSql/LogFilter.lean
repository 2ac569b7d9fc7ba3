import PlanSql.Bytes
import PlanSql.Numeral
import PlanSql.Pattern

namespace PlanSql

inductive FilterFault
  | directive
  | level
  /-- The value of a field is a pattern that cannot be used. -/
  | field (why : String)
  /-- A part starts or ends within a character. -/
  | offset
  deriving DecidableEq

namespace FilterFault

def levelMessage : String := "error parsing level filter: expected one of \"off\", \"error\", " ++
  "\"warn\", \"info\", \"debug\", \"trace\", or a number 0-5"

/-- The message; the cause of a bad level comes once more after it. -/
def message : FilterFault → String
  | directive => "invalid filter directive"
  | level => levelMessage ++ ": " ++ levelMessage
  | field why => "invalid field filter: " ++ why
  | offset => "a part of a directive starts or ends within a character"

end FilterFault

namespace LogFilter

def levels : List (List Char) :=
  ["off", "error", "warn", "info", "debug", "trace"].map String.toList

/-- A name of a level in any case, or its number. -/
def isLevel (s : List Char) : Bool :=
  levels.contains (s.map Char.toLower) ||
    match s with
    | '-' :: _ => false
    | s => (readInteger? s).any (· ≤ 5)

/-- The part of a directive that is being read, with the offset of its first byte. -/
inductive Part
  | start
  | target (first : Nat)
  | span (first : Nat)
  | field (first : Nat)
  | afterFields
  | afterSpan
  | level (first : Nat)

/-- The bytes of a directive from one offset up to another, as text. Offsets are counted without
the white space in front of the directive, and the bytes are taken with it. -/
def slice (bytes : List UInt8) (first stop : Nat) : Except FilterFault (List Char) :=
  match readUtf8? (bytes.take first), readUtf8? (bytes.take stop) with
  | some before, some s => .ok (s.toList.drop before.length)
  | _, _ => .error .offset

def checkLevel (s : List Char) : Except FilterFault Unit :=
  if s.isEmpty || isLevel s then .ok () else .error .level

/-- Checks a field: a name, and after an equals sign a boolean, a number or a pattern. -/
def checkField (s : List Char) : Except FilterFault Unit :=
  if s.isEmpty then .error .directive
  else
    match (splitWhile (· != '=') s).2 with
    | [] => .ok ()
    | _ :: value =>
      let value := value.takeWhile (· != '=')
      if value = "true".toList || value = "false".toList ||
          (Binary.read? value : Option Double).isSome then .ok ()
      else match Pattern.problem? value with
        | none => .ok ()
        | some why => .error (.field why)

/-- What a character at an offset does to the part that is being read. -/
def next (bytes : List UInt8) (offset : Nat) (c : Char) : Part → Except FilterFault Part
  | .start =>
    if c = '[' then .ok (.span (offset + 1))
    else if c = '-' || c = ':' || c = '_' || isLetterOrDigit c then .ok (.target offset)
    else .error .directive
  | .target first => do
    if c = '=' then
      let _ ← slice bytes first offset
      return .level (offset + 1)
    else if c = '[' then
      let _ ← slice bytes first offset
      return .span (offset + 1)
    else return .target first
  | .span first => do
    if c = ']' then
      let _ ← slice bytes first offset
      return .afterSpan
    else if c = '\x7b' then
      let _ ← slice bytes first offset
      return .field (offset + 1)
    else return .span first
  | .field first => do
    if c = '\x7d' then
      checkField (← slice bytes first offset)
      return .afterFields
    else return .field first
  | .afterFields => if c = ']' then .ok .afterSpan else .error .directive
  | .afterSpan => if c = '=' then .ok (.level (offset + 1)) else .error .directive
  | .level first => .ok (.level first)

/-- Reads the characters of a directive from an offset on. -/
def follow (bytes : List UInt8) : (offset : Nat) → Part → List Char → Except FilterFault Part
  | _, part, [] => .ok part
  | offset, part, c :: s =>
    (next bytes offset c part).bind fun part => follow bytes (offset + c.utf8Size) part s

def checkDirective (s : List Char) : Except FilterFault Unit := do
  let bytes := utf8Bytes (String.ofList s)
  match ← follow bytes 0 .start (trimBlank s) with
  | .target first =>
    let _ ← slice bytes first bytes.length
  | .level first => checkLevel (← slice bytes first bytes.length)
  | .afterSpan => return
  | _ => throw .directive

/-- Checks a whole filter; nothing stands between two commas in a row. -/
def check (s : String) : Except FilterFault Unit :=
  (((s.splitOn ",").filter (· != "")).map String.toList).forM checkDirective

end LogFilter

end PlanSql
