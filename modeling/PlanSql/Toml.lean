import PlanSql.Calendar
import PlanSql.Numeral

namespace PlanSql

inductive TomlValue
  | string (s : String)
  | scalar (written : List Char)
  | array (items : List TomlValue)
  | table (entries : List (List String × TomlValue))
  deriving Inhabited

/-- A key with its value, the header of a table, or the header of an array's next table. -/
inductive TomlLine
  | entry (path : List String) (v : TomlValue)
  | table (path : List String)
  | item (path : List String)

namespace Toml

def isGap (c : Char) : Bool := c == ' ' || c == '\t'

def skipGap (s : List Char) : List Char := s.dropWhile isGap

/-- A control character other than a tab. -/
def isBadChar (c : Char) : Bool := (c.toNat < 32 && c != '\t') || c.toNat = 127

/-- Takes the end of a line. -/
def lineEnd? : List Char → Option (List Char)
  | '\n' :: rest => some rest
  | '\x0d' :: '\n' :: rest => some rest
  | _ => none

/-- Takes a comment, if there is one, up to the end of its line. -/
def comment? : List Char → Option (List Char)
  | '#' :: s =>
    let (text, rest) := splitWhile (fun c => c != '\n' && c != '\x0d') s
    if text.any isBadChar then none else some rest
  | s => some s

/-- Skips gaps, comments and ends of lines. -/
def skipLines : (fuel : Nat) → List Char → Option (List Char)
  | 0, s => some s
  | fuel + 1, s => do
    let s ← comment? (skipGap s)
    match lineEnd? s with
    | some rest => skipLines fuel rest
    | none => some s

/-- Reads `width` hexadecimal digits as a character. -/
def codePoint? (width : Nat) (s : List Char) : Option (Char × List Char) := do
  let ds := s.take width
  if ds.length < width then none
  let n ← readHex? ds
  if h : n.isValidChar then some (Char.ofNatAux n h, s.drop width) else none

/-- Reads what follows a backslash. -/
def escape? : List Char → Option (Char × List Char)
  | 'b' :: s => some ('\x08', s)
  | 't' :: s => some ('\t', s)
  | 'n' :: s => some ('\n', s)
  | 'f' :: s => some ('\x0c', s)
  | 'r' :: s => some ('\x0d', s)
  | '"' :: s => some ('"', s)
  | '\\' :: s => some ('\\', s)
  | 'u' :: s => codePoint? 4 s
  | 'U' :: s => codePoint? 8 s
  | _ => none

/-- Reads a string on one line up to its quote; escapes count in double quotes only. -/
def quoted? (quote : Char) : (fuel : Nat) → List Char → Option (List Char × List Char)
  | 0, _ => none
  | _, [] => none
  | fuel + 1, c :: s =>
    if c = quote then some ([], s)
    else if c = '\\' && quote = '"' then do
      let (d, s) ← escape? s
      let (t, r) ← quoted? quote fuel s
      return (d :: t, r)
    else if isBadChar c then none
    else (quoted? quote fuel s).map fun (t, r) => (c :: t, r)

/-- The end of a string over several lines: up to two quotes more belong to it. -/
def closing? (quote : Char) (s : List Char) : Option (List Char × List Char) :=
  let n := (s.takeWhile (· == quote)).length
  if n < 3 then none
  else
    let more := min (n - 3) 2
    some (List.replicate more quote, s.drop (more + 3))

/-- Skips white space after a backslash at the end of a line. -/
def skipFold (s : List Char) : Option (List Char) :=
  let s := skipGap s
  (lineEnd? s).map fun _ =>
    s.dropWhile fun c => isGap c || c == '\n' || c == '\x0d'

/-- Reads a string over several lines up to its three quotes. -/
def longQuoted? (quote : Char) : (fuel : Nat) → List Char → Option (List Char × List Char)
  | 0, _ => none
  | _, [] => none
  | fuel + 1, c :: s =>
    match closing? quote (c :: s) with
    | some (more, rest) => some (more, rest)
    | none =>
      if c = '\\' && quote = '"' then
        match skipFold s with
        | some s => longQuoted? quote fuel s
        | none => do
          let (d, s) ← escape? s
          let (t, r) ← longQuoted? quote fuel s
          return (d :: t, r)
      else
        match lineEnd? (c :: s) with
        | some s => (longQuoted? quote fuel s).map fun (t, r) => ('\n' :: t, r)
        | none =>
          if isBadChar c then none
          else (longQuoted? quote fuel s).map fun (t, r) => (c :: t, r)

/-- Reads a string of any kind. -/
def string? (s : List Char) : Option (String × List Char) :=
  let read (quote : Char) : Option (List Char × List Char) :=
    match dropHead? [quote, quote, quote] s with
    | some rest => longQuoted? quote (s.length + 1) ((lineEnd? rest).getD rest)
    | none => quoted? quote (s.length + 1) s.tail
  match s.head? with
  | some '"' => (read '"').map fun (t, r) => (String.ofList t, r)
  | some '\'' => (read '\'').map fun (t, r) => (String.ofList t, r)
  | _ => none

/-- Digits with single underscores between them. -/
def isDigits (p : Char → Bool) : List Char → Bool
  | [] => false
  | [c] => p c
  | c :: '_' :: rest => p c && isDigits p rest
  | c :: rest => p c && isDigits p rest

def withoutUnderscores (s : List Char) : List Char := s.filter (· != '_')

def unsigned (s : List Char) : List Char :=
  match s with
  | '+' :: rest => rest
  | '-' :: rest => rest
  | rest => rest

/-- Decimal digits without a leading zero. -/
def isWhole (s : List Char) : Bool :=
  isDigits Char.isDigit s && (s.head? != some '0' || s.length == 1)

def isDecimalInteger (s : List Char) : Bool :=
  isWhole (unsigned s) && ((readInteger? (withoutUnderscores s)).any (fitsSigned 64))

/-- Whole numbers in another base. -/
def isBased (mark : Char) (base : Nat) (s : List Char) : Bool :=
  match dropHead? ['0', mark] s with
  | none => false
  | some ds =>
    isDigits (fun c => (hexValue? c).any (· < base)) ds &&
      (withoutUnderscores ds).foldl (fun n c => base * n + (hexValue? c).getD 0) 0 < 2 ^ 63

/-- A number too great to be finite is refused, and one too small is not. -/
def isFloat (s : List Char) : Bool :=
  let body := unsigned s
  if body = "inf".toList || body = "nan".toList then true
  else
    let (mantissa, exponent) := splitWhile (fun c => c != 'e' && c != 'E') body
    let (whole, fraction) := splitWhile (· != '.') mantissa
    isWhole whole && (fraction.isEmpty || isDigits Char.isDigit fraction.tail) &&
      (exponent.isEmpty || isDigits Char.isDigit (unsigned exponent.tail)) &&
      !(fraction.isEmpty && exponent.isEmpty) &&
      ((Binary.read? (withoutUnderscores s) : Option Double).any fun x => x.isFinite || x.negative)

def twoDigits? (s : List Char) : Option (Nat × List Char) :=
  match s with
  | a :: b :: rest => if a.isDigit && b.isDigit then some (readDecimal [a, b], rest) else none
  | _ => none

/-- The rest after a date. -/
def date? (s : List Char) : Option (List Char) := do
  let year := s.take 4
  if year.length < 4 || !year.all Char.isDigit then none
  let (month, s) ← twoDigits? (← dropHead? ['-'] (s.drop 4))
  let (day, s) ← twoDigits? (← dropHead? ['-'] s)
  if isDate (readDecimal year) month day then some s else none

/-- The rest after a time of day. -/
def time? (s : List Char) : Option (List Char) := do
  let (hour, s) ← twoDigits? s
  let (minute, s) ← twoDigits? (← dropHead? [':'] s)
  let (second, s) ← twoDigits? (← dropHead? [':'] s)
  if 23 < hour || 59 < minute || 60 < second then none
  match s with
  | '.' :: s =>
    let (ds, rest) := splitWhile Char.isDigit s
    if ds.isEmpty then none else some rest
  | s => some s

/-- Whether a text is the offset of a zone. -/
def isOffset (s : List Char) : Bool :=
  let signed (s : List Char) : Bool := Option.isSome do
    let (hour, s) ← twoDigits? s
    let (minute, s) ← twoDigits? (← dropHead? [':'] s)
    if hour ≤ 23 && minute ≤ 59 && s.isEmpty then some () else none
  match s with
  | ['z'] => true
  | ['Z'] => true
  | '+' :: s => signed s
  | '-' :: s => signed s
  | _ => false

/-- A date, a time of day, or both with or without an offset. -/
def isMoment (s : List Char) : Bool :=
  match date? s with
  | none => (time? s).any List.isEmpty
  | some [] => true
  | some (c :: s) =>
    (c == 't' || c == 'T' || c == ' ') && (time? s).any fun rest => rest.isEmpty || isOffset rest

def isScalar (s : List Char) : Bool :=
  s = "true".toList || s = "false".toList || isDecimalInteger s || isBased 'x' 16 s ||
    isBased 'o' 8 s || isBased 'b' 2 s || isFloat s || isMoment s

def isScalarChar (c : Char) : Bool := isWordChar c || c == '+' || c == '-' || c == '.' || c == ':'

/-- Reads a number, a boolean or a date; a date and a time may have a blank between them. -/
def scalar? (s : List Char) : Option (TomlValue × List Char) :=
  let (front, rest) := splitWhile isScalarChar s
  let (whole, rest) := match rest with
    | ' ' :: more =>
      let (back, after) := splitWhile isScalarChar more
      if (date? front).any List.isEmpty && (time? back).isSome then (front ++ ' ' :: back, after)
      else (front, rest)
    | _ => (front, rest)
  if isScalar whole then some (.scalar whole, rest) else none

def isKeyChar (c : Char) : Bool := isWordChar c || c == '-'

/-- Reads one key: bare, or a string on one line. -/
def key? (s : List Char) : Option (String × List Char) :=
  match s with
  | '"' :: rest => (quoted? '"' (s.length + 1) rest).map fun (t, r) => (String.ofList t, r)
  | '\'' :: rest => (quoted? '\'' (s.length + 1) rest).map fun (t, r) => (String.ofList t, r)
  | s =>
    let (name, rest) := splitWhile isKeyChar s
    if name.isEmpty then none else some (String.ofList name, rest)

/-- How many keys a path has at most, and how many arrays and tables lie inside one another. -/
def depthLimit : Nat := 79

/-- Reads at most `limit` keys with points between them. -/
def keys? : (limit : Nat) → List Char → Option (List String × List Char)
  | 0, _ => none
  | limit + 1, s => do
    let (k, s) ← key? (skipGap s)
    match skipGap s with
    | '.' :: rest => (keys? limit rest).map fun (ks, r) => (k :: ks, r)
    | rest => some ([k], rest)

def path? (s : List Char) : Option (List String × List Char) := keys? depthLimit s

mutual

/-- Reads a value with at most `depth` arrays and tables inside one another. -/
def value? : (depth fuel : Nat) → List Char → Option (TomlValue × List Char)
  | _, 0, _ => none
  | depth, fuel + 1, s =>
    match s, depth with
    | '[' :: _, 0 => none
    | '\x7b' :: _, 0 => none
    | '[' :: s, depth + 1 => (items? depth fuel s).map fun (vs, r) => (.array vs, r)
    | '\x7b' :: s, depth + 1 =>
      match skipGap s with
      | '\x7d' :: rest => some (.table [], rest)
      | s => (entries? depth fuel s).map fun (es, r) => (.table es, r)
    | s, _ =>
      match string? s with
      | some (t, r) => some (.string t, r)
      | none => scalar? s

/-- Reads the items of an array and its closing bracket; a comma may follow the last one. -/
def items? : (depth fuel : Nat) → List Char → Option (List TomlValue × List Char)
  | _, 0, _ => none
  | depth, fuel + 1, s =>
    (skipLines (s.length + 1) s).bind fun s =>
      match s with
      | ']' :: rest => some ([], rest)
      | s =>
        (value? depth fuel s).bind fun (v, s) =>
          (skipLines (s.length + 1) s).bind fun s =>
            match s with
            | ',' :: rest => (items? depth fuel rest).map fun (vs, r) => (v :: vs, r)
            | ']' :: rest => some ([v], rest)
            | _ => none

/-- Reads the entries of a table on one line and its closing brace. -/
def entries? : (depth fuel : Nat) → List Char →
    Option (List (List String × TomlValue) × List Char)
  | _, 0, _ => none
  | depth, fuel + 1, s =>
    (path? s).bind fun (k, s) =>
      match s with
      | '=' :: s =>
        (value? depth fuel (skipGap s)).bind fun (v, s) =>
          match skipGap s with
          | ',' :: rest => (entries? depth fuel rest).map fun (es, r) => ((k, v) :: es, r)
          | '\x7d' :: rest => some ([(k, v)], rest)
          | _ => none
      | _ => none

end

/-- Reads a header after its opening brackets. -/
def header? (close : List Char) (s : List Char) : Option (List String × List Char) := do
  let (path, s) ← path? s
  return (path, ← dropHead? close s)

def line? (s : List Char) : Option (TomlLine × List Char) :=
  match s with
  | '[' :: '[' :: rest => (header? [']', ']'] rest).map fun (p, r) => (.item p, r)
  | '[' :: rest => (header? [']'] rest).map fun (p, r) => (.table p, r)
  | s => do
    let (path, s) ← path? s
    let (v, s) ← value? depthLimit (2 * s.length + 1) (skipGap (← dropHead? ['='] s))
    return (.entry path v, s)

def lines? : (fuel : Nat) → List Char → Option (List TomlLine)
  | 0, _ => none
  | fuel + 1, s => do
    let s ← skipLines (s.length + 1) s
    if s.isEmpty then return []
    let (line, s) ← line? s
    let s ← comment? (skipGap s)
    match s with
    | [] => return [line]
    | s => return line :: (← lines? fuel (← lineEnd? s))

/-- How a table came to be: from below, by its header, or by dotted keys. -/
inductive Origin
  | implied
  | header
  | dotted
  deriving DecidableEq

inductive Tree
  | leaf (v : TomlValue)
  | table (origin : Origin) (children : List (String × Tree))
  | list (items : List (List (String × Tree)))
  deriving Inhabited

abbrev Children := List (String × Tree)

/-- Puts a child in the place of an older one of its name, or at the end. -/
def put (k : String) (t : Tree) : Children → Children
  | [] => [(k, t)]
  | (n, u) :: rest => if n = k then (k, t) :: rest else (n, u) :: put k t rest

/-- Puts a value under dotted keys. A table with a header of its own is closed to it, and the
innermost table is one that dotted keys made. -/
def putValue (v : TomlValue) : (path : List String) → Children → Option Children
  | [], _ => none
  | [k], cs =>
    match cs.lookup k with
    | none => some (put k (.leaf v) cs)
    | some _ => none
  | k :: path, cs =>
    match cs.lookup k with
    | none => (putValue v path []).map fun inner => put k (.table .dotted inner) cs
    | some (.table origin inner) =>
      if origin = .header || (origin = .implied && path.length = 1) then none
      else (putValue v path inner).map fun inner => put k (.table origin inner) cs
    | some (.list items) =>
      match items.reverse with
      | [] => none
      | last :: before =>
        if path.length = 1 then none
        else (putValue v path last).map fun last => put k (.list (last :: before).reverse) cs
    | some (.leaf _) => none

/-- Changes the table at the end of a path of headers. -/
def changeAt (f : Children → Option Children) : (path : List String) → Children → Option Children
  | [], cs => f cs
  | k :: path, cs =>
    match cs.lookup k with
    | none => (changeAt f path []).map fun inner => put k (.table .implied inner) cs
    | some (.table origin inner) =>
      (changeAt f path inner).map fun inner => put k (.table origin inner) cs
    | some (.list items) =>
      match items.reverse with
      | [] => none
      | last :: before =>
        (changeAt f path last).map fun last => put k (.list (last :: before).reverse) cs
    | some (.leaf _) => none

/-- Opens a table by its header. -/
def openTable (k : String) (cs : Children) : Option Children :=
  match cs.lookup k with
  | none => some (put k (.table .header []) cs)
  | some (.table .implied inner) => some (put k (.table .header inner) cs)
  | some _ => none

/-- Opens the next table of an array. -/
def openItem (k : String) (cs : Children) : Option Children :=
  match cs.lookup k with
  | none => some (put k (.list [[]]) cs)
  | some (.list items) => some (put k (.list (items ++ [[]])) cs)
  | some _ => none

/-- Whether the tables inside a value define no key twice. -/
def isSound : (fuel : Nat) → TomlValue → Bool
  | 0, _ => true
  | _, .string _ => true
  | _, .scalar _ => true
  | fuel + 1, .array vs => vs.all (isSound fuel)
  | fuel + 1, .table es =>
    es.all (fun e => isSound fuel e.2) &&
      (es.foldl (fun cs (path, v) => cs.bind (putValue v path)) (some [])).isSome

/-- Builds the tree of lines under the header that came last. -/
def build (current : List String) (cs : Children) : List TomlLine → Option Children
  | [] => some cs
  | .entry path v :: rest =>
    if isSound 1000 v then
      (changeAt (putValue v path) current cs).bind fun cs => build current cs rest
    else none
  | .table path :: rest =>
    match path.getLast? with
    | none => none
    | some k =>
      (changeAt (openTable k) path.dropLast cs).bind fun cs => build path cs rest
  | .item path :: rest =>
    match path.getLast? with
    | none => none
    | some k => (changeAt (openItem k) path.dropLast cs).bind fun cs => build path cs rest

/-- Reads a whole text. -/
def read? (s : String) : Option Children :=
  let cs := match s.toList with
    | '\ufeff' :: rest => rest
    | cs => cs
  (lines? (cs.length + 1) cs).bind (build [] [])

end Toml

end PlanSql
