import PlanSql.Characters
import PlanSql.Digits

namespace PlanSql

inductive PatternFault
  | classEscape
  | classRange
  | classRangeEnd
  | classUnclosed
  | decimal
  | hexEmpty
  | hexCharacter
  | hexDigit
  | escapeEnd
  | escapeUnknown
  | flagDangling
  | flagTwice
  | flagNegatedTwice
  | flagEnd
  | flagUnknown
  | nameTwice
  | nameEmpty
  | nameCharacter
  | nameEnd
  | groupUnclosed
  | groupUnopened
  | countOrder
  | countMissing
  | countUnclosed
  | repetitionMissing
  | boundaryUnclosed
  | boundaryUnknown
  | boundaryEnd
  | propertyName
  | backreference
  | lookAround
  /-- The tables for a class, a property or small and capital letters are not there. -/
  | classUnavailable
  | propertyUnavailable
  | caseUnavailable
  deriving DecidableEq

def PatternFault.message : PatternFault → String
  | classEscape => "invalid escape sequence found in character class"
  | classRange => "invalid character class range, the start must be <= the end"
  | classRangeEnd => "invalid range boundary, must be a literal"
  | classUnclosed => "unclosed character class"
  | decimal => "decimal literal invalid"
  | hexEmpty => "hexadecimal literal empty"
  | hexCharacter => "hexadecimal literal is not a Unicode scalar value"
  | hexDigit => "invalid hexadecimal digit"
  | escapeEnd => "incomplete escape sequence, reached end of pattern prematurely"
  | escapeUnknown => "unrecognized escape sequence"
  | flagDangling => "dangling flag negation operator"
  | flagTwice => "duplicate flag"
  | flagNegatedTwice => "flag negation operator repeated"
  | flagEnd => "expected flag but got end of regex"
  | flagUnknown => "unrecognized flag"
  | nameTwice => "duplicate capture group name"
  | nameEmpty => "empty capture group name"
  | nameCharacter => "invalid capture group character"
  | nameEnd => "unclosed capture group name"
  | groupUnclosed => "unclosed group"
  | groupUnopened => "unopened group"
  | countOrder => "invalid repetition count range, the start must be <= the end"
  | countMissing => "repetition quantifier expects a valid decimal"
  | countUnclosed => "unclosed counted repetition"
  | repetitionMissing => "repetition operator missing expression"
  | boundaryUnclosed =>
    "special word boundary assertion is either unclosed or contains an invalid character"
  | boundaryUnknown => "unrecognized special word boundary assertion, valid choices are: " ++
      "start, end, start-half or end-half"
  | boundaryEnd => "found either the beginning of a special word boundary or a bounded " ++
      "repetition on a \\b with an opening brace, but no closing brace"
  | propertyName => "invalid Unicode character class"
  | backreference => "backreferences are not supported"
  | lookAround => "look-around, including look-ahead and look-behind, is not supported"
  | classUnavailable => "Unicode-aware Perl class not found (make sure the unicode-perl " ++
      "feature is enabled)"
  | propertyUnavailable => "Unicode property not found"
  | caseUnavailable => "Unicode-aware case insensitivity matching is not available (make sure " ++
      "the unicode-case feature is enabled)"

/-- Characters of a pattern, from the first one up to the one after the last. -/
structure PatternSpan where
  start : Nat
  stop : Nat
  deriving DecidableEq

/-- A fault, where it is, and where the thing is that it repeats. -/
structure PatternError where
  fault : PatternFault
  span : PatternSpan
  earlier : Option PatternSpan := none
  deriving DecidableEq

namespace PatternError

/-- The line of an offset and the column in it, both from zero. -/
def place (pattern : List Char) (offset : Nat) : Nat × Nat :=
  let before := pattern.take offset
  (before.count '\n', (before.reverse.takeWhile (· != '\n')).length)

/-- The lines of a pattern without their ends; nothing after the last end is no line. -/
def lines (pattern : List Char) : List (List Char) :=
  let all := ((String.ofList pattern).splitOn "\n").map String.toList
  let all := if all.getLast? = some [] then all.dropLast else all
  all.map fun line => if line.getLast? = some '\x0d' then line.dropLast else line

/-- The spans in order. -/
def spans (e : PatternError) : List PatternSpan :=
  match e.earlier with
  | none => [e.span]
  | some s => if s.start ≤ e.span.start then [s, e.span] else [e.span, s]

/-- Marks under columns, from `column` on. -/
def marks : (column : Nat) → List (Nat × Nat) → List Char
  | _, [] => []
  | column, (start, stop) :: rest =>
    let width := max 1 (stop - start)
    List.replicate (start - column) ' ' ++ (List.replicate width '^' ++
      marks (max column start + width) rest)

/-- The spans of one line, as columns. -/
def spansOn (e : PatternError) (pattern : List Char) (line : Nat) : List (Nat × Nat) :=
  e.spans.filterMap fun s =>
    let (first, start) := place pattern s.start
    let (last, stop) := place pattern s.stop
    if first = line && last = line then some (start, stop) else none

/-- The pattern with its marks, line by line; with more than one line, the lines are numbered. -/
def notated (e : PatternError) (pattern : List Char) : List Char :=
  let ls := lines pattern
  let count := ls.length + if pattern.getLast? = some '\n' then 1 else 0
  let width := if count ≤ 1 then 0 else (decimalDigits count).length
  (ls.zipIdx).flatMap fun (line, i) =>
    let number := decimalDigits (i + 1)
    let front := if width = 0 then List.replicate 4 ' '
      else List.replicate (width - number.length) ' ' ++ number ++ [':', ' ']
    let under := match e.spansOn pattern i with
      | [] => []
      | on => List.replicate (if width = 0 then 4 else width + 2) ' ' ++ marks 0 on ++ ['\n']
    front ++ line ++ ['\n'] ++ under

/-- Where a span over several lines begins and ends. -/
def spread (e : PatternError) (pattern : List Char) : List (List Char) :=
  e.spans.filterMap fun s =>
    let (first, start) := place pattern s.start
    let (last, stop) := place pattern s.stop
    let point (line column : Nat) : List Char :=
      "line ".toList ++ decimalDigits line ++ " (column ".toList ++ decimalDigits column ++ [')']
    if first = last then none
    else some ("on ".toList ++ point (first + 1) (start + 1) ++ " through ".toList ++
      point (last + 1) stop)

def message (e : PatternError) (pattern : List Char) : String :=
  let rule := List.replicate 79 '~' ++ ['\n']
  let body :=
    if pattern.contains '\n' then
      let spread := match e.spread pattern with
        | [] => []
        | ls => joined ['\n'] ls ++ ['\n']
      rule ++ e.notated pattern ++ rule ++ spread
    else e.notated pattern
  "regex parse error:\n" ++ String.ofList body ++ "error: " ++ e.fault.message

end PatternError

end PlanSql
