import PlanSql.Command
import PlanSql.Record

namespace PlanSql

/-- The lines of a text, each with its end. -/
def lineText (lines : List (List Char)) : List Char := lines.flatMap (· ++ ['\n'])

/-- A text with blanks after it up to `width` characters. -/
def padded (width : Nat) (s : List Char) : List Char := s ++ List.replicate (width - s.length) ' '

/-- How a part is to look. -/
inductive Style
  | dimmed
  | green
  | boldGreen
  | yellow
  | cyan
  | white
  | boldWhite
  | boldRed

/-- The number of a style in a control sequence. -/
def Style.code : Style → String
  | dimmed => "2"
  | green => "32"
  | boldGreen => "1;32"
  | yellow => "33"
  | cyan => "36"
  | white => "37"
  | boldWhite => "1;37"
  | boldRed => "1;31"

/-- The sequence that starts a style. -/
def Style.sequence (style : Style) : String := "\x1b[" ++ style.code ++ "m"

/-- The sequence that ends all styles. -/
def resetSequence : String := "\x1b[0m"

/-- A text in a style, which starts again after each end of styles in the text. -/
def Style.apply (style : Style) (s : String) : String :=
  style.sequence ++
    String.intercalate (resetSequence ++ style.sequence) (s.splitOn resetSequence) ++ resetSequence

/-- A way to show styles, or none. -/
structure Palette where
  styled : Bool

namespace Palette

def plain : Palette := ⟨false⟩

def paint (p : Palette) (style : Style) (s : List Char) : List Char :=
  if p.styled then (style.apply (String.ofList s)).toList else s

end Palette

namespace Command

/-- A parameter a line. -/
def bindingLines (p : Palette) (c : Command) : List (List Char) :=
  c.parameters.map fun q =>
    "  @".toList ++ q.name.toList ++ " = ".toList ++ p.paint .yellow q.value.plain

/-- The text of a command and its parameters, if there are any. -/
def report (p : Palette) (c : Command) : List Char :=
  let bindings := if c.parameters.isEmpty then [] else
    [] :: p.paint .cyan "Bindings:".toList :: c.bindingLines p
  lineText (p.paint .boldGreen "Generated SQL:".toList :: p.paint .white c.text.toList :: bindings)

end Command

inductive ReportFormat
  | table
  | json
  deriving DecidableEq

namespace Report

/-- The value of the first field of that name, or nothing. -/
def cell (r : Record) (name : String) : List Char :=
  match r.value name with
  | .ok v => v.plain
  | .error _ => []

/-- The width of a column: the bytes of its name, or the characters of its widest cell. -/
def columnWidth (rs : List Record) (name : String) : Nat :=
  rs.foldl (fun w r => max w (cell r name).length) name.utf8ByteSize

/-- The columns of the first record with their widths. -/
def columns (rs : List Record) : List (String × Nat) :=
  ((rs.head?.map Record.names).getD []).map fun name => (name, columnWidth rs name)

def headerLine (cs : List (String × Nat)) : List Char :=
  joined " │ ".toList (cs.map fun (name, w) => padded w name.toList)

def separatorLine (cs : List (String × Nat)) : List Char :=
  joined "─┼─".toList (cs.map fun (_, w) => List.replicate w '─')

def recordLine (cs : List (String × Nat)) (r : Record) : List Char :=
  joined " │ ".toList (cs.map fun (name, w) => padded w (cell r name))

def countLine (p : Palette) (rs : List Record) : List Char :=
  p.paint .cyan (decimalDigits rs.length) ++ " row(s) returned".toList

def table (p : Palette) (rs : List Record) : List Char :=
  let cs := columns rs
  lineText (p.paint .boldWhite (headerLine cs) :: p.paint .dimmed (separatorLine cs) ::
    rs.map (recordLine cs) ++ [[], countLine p rs])

def json (rs : List Record) : List Char :=
  lineText [(Document.array (rs.map fun r => r.toJson.document)).indented 0]

/-- The records of a query, or a line that says that there are none. -/
def text (p : Palette) (format : ReportFormat) (rs : List Record) : List Char :=
  if rs.isEmpty then lineText [p.paint .dimmed "(no results)".toList]
  else match format with
    | .table => table p rs
    | .json => json rs

/-- The number of rows that a text has changed. -/
def affected (p : Palette) (n : Nat) : List Char :=
  lineText [p.paint .green "✓".toList ++ ' ' :: (decimalDigits n ++ " rows affected".toList)]

end Report

end PlanSql
