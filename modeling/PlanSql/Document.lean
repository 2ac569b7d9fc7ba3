import PlanSql.Numeral

namespace PlanSql

inductive Document
  | null
  | bool (b : Bool)
  | number (digits : List Char)
  /-- The characters between the quotes, escapes included. -/
  | string (body : List Char)
  | array (items : List Document)
  | object (fields : List (List Char × Document))
  deriving Inhabited

namespace Document

/-- Quotes, backslashes and control characters are escaped. -/
def escape : List Char → List Char
  | [] => []
  | c :: rest =>
    (if c = '"' then ['\\', '"']
     else if c = '\\' then ['\\', '\\']
     else if c = '\n' then ['\\', 'n']
     else if c = '\r' then ['\\', 'r']
     else if c = '\t' then ['\\', 't']
     else if c.toNat = 8 then ['\\', 'b']
     else if c.toNat = 12 then ['\\', 'f']
     else if c.toNat < 32 then '\\' :: 'u' :: hexDigits 4 c.toNat
     else [c]) ++ escape rest

/-- The character of an escape other than `\u`. -/
def escaped? (c : Char) : Option Char :=
  if c = '"' || c = '\\' || c = '/' then some c
  else if c = 'b' then some '\x08'
  else if c = 'f' then some '\x0c'
  else if c = 'n' then some '\n'
  else if c = 'r' then some '\r'
  else if c = 't' then some '\t'
  else none

def isHighSurrogate (n : Nat) : Bool := 0xD800 ≤ n && n < 0xDC00

def isLowSurrogate (n : Nat) : Bool := 0xDC00 ≤ n && n < 0xE000

/-- Undoes the escapes of a string; half of a surrogate pair is refused. -/
def unescape? : List Char → Option (List Char)
  | [] => some []
  | '\\' :: 'u' :: a :: b :: c :: d :: rest => do
    let n ← readHex? [a, b, c, d]
    if isHighSurrogate n then
      match rest with
      | '\\' :: 'u' :: e :: f :: g :: h :: rest =>
        let m ← readHex? [e, f, g, h]
        if isLowSurrogate m then
          (unescape? rest).map (Char.ofNat (0x10000 + (n - 0xD800) * 0x400 + (m - 0xDC00)) :: ·)
        else none
      | _ => none
    else if isLowSurrogate n then none
    else (unescape? rest).map (Char.ofNat n :: ·)
  | '\\' :: c :: rest => (escaped? c).bind fun c => (unescape? rest).map (c :: ·)
  | c :: rest => (unescape? rest).map (c :: ·)

def ofString (s : String) : Document := .string (escape s.toList)

def ofInt (n : Int) : Document := .number (integerText n)

/-- A number, or `null` for a float that is not finite. -/
def ofNumber (n : JsonNumber) : Document :=
  match n with
  | .integer n => ofInt n
  | .float x => if x.isFinite then .number (FloatStyle.json.write x) else .null

/-- An object whose names are given as text. -/
def record (fields : List (String × Document)) : Document :=
  .object (fields.map fun (name, d) => (escape name.toList, d))

mutual

/-- Without any white space. -/
def compact : Document → List Char
  | null => "null".toList
  | bool b => (if b then "true" else "false").toList
  | number digits => digits
  | string body => '"' :: (body ++ ['"'])
  | array items => '[' :: (compactItems items ++ [']'])
  | object fields => '\x7b' :: (compactFields fields ++ ['\x7d'])

def compactItems : List Document → List Char
  | [] => []
  | [d] => compact d
  | d :: e :: rest => compact d ++ ',' :: compactItems (e :: rest)

def compactFields : List (List Char × Document) → List Char
  | [] => []
  | [(name, d)] => '"' :: (name ++ '"' :: ':' :: compact d)
  | (name, d) :: e :: rest =>
    '"' :: (name ++ '"' :: ':' :: compact d) ++ ',' :: compactFields (e :: rest)

end

/-- A line break and two spaces a level. -/
def lineBreak (level : Nat) : List Char := '\n' :: List.replicate (2 * level) ' '

mutual

/-- An item or field a line; empty arrays and objects stay closed. -/
def indented (level : Nat) : Document → List Char
  | array [] => ['[', ']']
  | array (d :: rest) =>
    '[' :: (lineBreak (level + 1) ++ indented (level + 1) d ++ indentedItems level rest)
  | object [] => ['\x7b', '\x7d']
  | object ((name, d) :: rest) =>
    '\x7b' :: (lineBreak (level + 1) ++ '"' :: (name ++ '"' :: ':' :: ' ' ::
      (indented (level + 1) d ++ indentedFields level rest)))
  | null => "null".toList
  | bool b => (if b then "true" else "false").toList
  | number digits => digits
  | string body => '"' :: (body ++ ['"'])

def indentedItems (level : Nat) : List Document → List Char
  | [] => lineBreak level ++ [']']
  | d :: rest =>
    ',' :: (lineBreak (level + 1) ++ indented (level + 1) d ++ indentedItems level rest)

def indentedFields (level : Nat) : List (List Char × Document) → List Char
  | [] => lineBreak level ++ ['\x7d']
  | (name, d) :: rest =>
    ',' :: (lineBreak (level + 1) ++ '"' :: (name ++ '"' :: ':' :: ' ' ::
      (indented (level + 1) d ++ indentedFields level rest)))

end

/-- The compact text. -/
def text (d : Document) : String := String.ofList d.compact

def isSpace (c : Char) : Bool := c == ' ' || c == '\t' || c == '\n' || c == '\r'

def skipSpace (s : List Char) : List Char := s.dropWhile isSpace

def isHex (c : Char) : Bool := (hexValue? c).isSome

/-- Reads up to the closing quote. -/
def body? : List Char → Option (List Char × List Char)
  | [] => none
  | '"' :: rest => some ([], rest)
  | '\\' :: 'u' :: a :: b :: c :: d :: rest =>
    if [a, b, c, d].all isHex then
      (body? rest).map fun (s, r) => ('\\' :: 'u' :: a :: b :: c :: d :: s, r)
    else none
  | '\\' :: c :: rest =>
    if (escaped? c).isSome then (body? rest).map fun (s, r) => ('\\' :: c :: s, r) else none
  | c :: rest =>
    if c.toNat < 32 || c = '\\' then none else (body? rest).map fun (s, r) => (c :: s, r)

def isNumberChar (c : Char) : Bool :=
  c.isDigit || c == '-' || c == '+' || c == '.' || c == 'e' || c == 'E'

/-- Reads a number, a string or a word. -/
def scalar? : List Char → Option (Document × List Char)
  | '"' :: rest => (body? rest).map fun (s, r) => (.string s, r)
  | 'n' :: rest => (dropHead? "ull".toList rest).map fun r => (.null, r)
  | 't' :: rest => (dropHead? "rue".toList rest).map fun r => (.bool true, r)
  | 'f' :: rest => (dropHead? "alse".toList rest).map fun r => (.bool false, r)
  | s =>
    let (digits, rest) := splitWhile isNumberChar s
    if (Numeral.json? digits).isSome then some (.number digits, rest) else none

mutual

def value? : (fuel : Nat) → List Char → Option (Document × List Char)
  | 0, _ => none
  | fuel + 1, s =>
    match skipSpace s with
    | '[' :: s =>
      match skipSpace s with
      | ']' :: rest => some (.array [], rest)
      | s => (items? fuel s).map fun (ds, rest) => (.array ds, rest)
    | '\x7b' :: s =>
      match skipSpace s with
      | '\x7d' :: rest => some (.object [], rest)
      | s => (fields? fuel s).map fun (ds, rest) => (.object ds, rest)
    | s => scalar? s

/-- Reads the items of an array and its closing bracket. -/
def items? : (fuel : Nat) → List Char → Option (List Document × List Char)
  | 0, _ => none
  | fuel + 1, s =>
    (value? fuel s).bind fun (d, s) =>
      match skipSpace s with
      | ',' :: s => (items? fuel s).map fun (ds, rest) => (d :: ds, rest)
      | ']' :: rest => some ([d], rest)
      | _ => none

/-- Reads the fields of an object and its closing brace. -/
def fields? : (fuel : Nat) → List Char → Option (List (List Char × Document) × List Char)
  | 0, _ => none
  | fuel + 1, s =>
    match skipSpace s with
    | '"' :: s =>
      (body? s).bind fun (name, s) =>
        match skipSpace s with
        | ':' :: s =>
          (value? fuel s).bind fun (d, s) =>
            match skipSpace s with
            | ',' :: s => (fields? fuel s).map fun (ds, rest) => ((name, d) :: ds, rest)
            | '\x7d' :: rest => some ([(name, d)], rest)
            | _ => none
        | _ => none
    | _ => none

end

/-- Reads a whole text. -/
def read? (s : String) : Option Document :=
  let cs := s.toList
  (value? (2 * cs.length + 1) cs).bind fun (d, rest) =>
    if (skipSpace rest).isEmpty then some d else none

end Document

end PlanSql
