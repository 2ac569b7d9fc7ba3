import PlanSql.Bytes
import PlanSql.Punycode

namespace PlanSql

/-- The bytes of a text whose escapes are undone; a `%` that starts none stands for itself. -/
def unescapedBytes : List Char → List UInt8
  | '%' :: a :: b :: s =>
    match readHex? [a, b] with
    | some n => UInt8.ofNat n :: unescapedBytes s
    | none => utf8Bytes "%" ++ unescapedBytes (a :: b :: s)
  | c :: s => utf8Bytes (String.singleton c) ++ unescapedBytes s
  | [] => []

/-- The text with its escapes undone, if its bytes are text. -/
def unescaped? (s : List Char) : Option String := readUtf8? (unescapedBytes s)

namespace HostName

/-- A number below 256 without a zero in front. -/
def isByte (s : String) : Bool :=
  let ds := s.toList
  !ds.isEmpty && ds.all Char.isDigit && (ds.head? != some '0' || ds.length == 1) &&
    readDecimal ds < 256

/-- Four numbers with points between them. -/
def isQuad (s : String) : Bool :=
  let parts := s.splitOn "."
  parts.length == 4 && parts.all isByte

/-- Up to four hexadecimal digits. -/
def isGroup (s : String) : Bool :=
  0 < s.length && s.length ≤ 4 && s.toList.all fun c => (hexValue? c).isSome

/-- How many groups there are; four numbers take the place of the last two. -/
def groupCount? : List String → Option Nat
  | [] => some 0
  | [g] => if isQuad g then some 2 else if isGroup g then some 1 else none
  | g :: gs => if isGroup g then (groupCount? gs).map (· + 1) else none

/-- Eight groups; a double colon stands for those left out, of which there is at least one. -/
def isGrouped (s : String) : Bool :=
  let groups (s : String) : List String := if s.isEmpty then [] else s.splitOn ":"
  match s.splitOn "::" with
  | [whole] => groupCount? (groups whole) == some 8
  | [front, back] =>
    (groups front).all isGroup &&
      (groupCount? (groups back)).any fun n => (groups front).length + n ≤ 7
  | _ => false

/-- An address of either kind. -/
def isAddress (s : String) : Bool := isQuad s || isGrouped s

/-- A part of a numeric host: decimal, octal after a zero, or hexadecimal after `0x`. -/
def number? (s : String) : Option Nat :=
  match s.toList with
  | [] => none
  | '0' :: 'x' :: ds => readHex? ds
  | '0' :: 'X' :: ds => readHex? ds
  | ['0'] => some 0
  | '0' :: ds =>
    if ds.all fun c => '0' ≤ c && c ≤ '7' then
      some (ds.foldl (fun n c => 8 * n + (c.toNat - 48)) 0)
    else none
  | ds => if ds.all Char.isDigit then some (readDecimal ds) else none

/-- The parts between points; a point at the end adds none. -/
def parts (s : String) : List String :=
  let ps := s.splitOn "."
  if 1 < ps.length && ps.getLast? == some "" then ps.dropLast else ps

/-- Whether the last part is to be read as a number. -/
def endsInNumber (s : String) : Bool :=
  match (parts s).getLast? with
  | none => false
  | some p => (!p.isEmpty && p.toList.all Char.isDigit) || (number? p).isSome

/-- One to four numbers below 256, where the last one fills the bytes that the others leave. -/
def isNumeric (s : String) : Bool :=
  match (parts s).mapM number? with
  | none => false
  | some ns =>
    ns.length ≤ 4 && ns.dropLast.all (· < 256) &&
      ns.getLast?.any fun n => n < 256 ^ (5 - ns.length)

/-- What stands in no host. -/
def isReserved (c : Char) : Bool := "\x00\t\n\x0d #/:<>?@[\\]^|".toList.contains c

/-- What stands in no name of a host; joiners without a width are among it. -/
def isBadNameChar (c : Char) : Bool :=
  isReserved c || isControlChar c || isBlankChar c || "%\u200C\u200D\uFFFD".toList.contains c

/-- The narrow form of a wide character, and the point for a full stop between ideographs; a soft
hyphen and characters without a width are left out. -/
def narrow? (c : Char) : Option Char :=
  let n := c.toNat
  if n = 0xAD || n = 0x200B || n = 0x2060 || n = 0xFEFF then none
  else if n = 0x3002 || n = 0xFF61 then some '.'
  else if 0xFF01 ≤ n && n ≤ 0xFF5E then some (Char.ofNat (n - 0xFEE0))
  else some c

/-- A label that starts with `xn--` has characters beyond ASCII once it is decoded. -/
def isLabel (s : String) : Bool :=
  match dropHead? ['x', 'n', '-', '-'] s.toList with
  | none => true
  | some s => (Punycode.decode? s).any fun label =>
    label.any (fun c => 127 < c.toNat) &&
      label.all fun c => narrow? c == some c && !isBadNameChar c

/-- Takes the address out of its brackets. -/
def bracketed? (s : List Char) : Option String :=
  ((dropHead? [']'] s.reverse).map fun s => String.ofList s.reverse).filter isGrouped

/-- Reads a host of a scheme that does not say what its hosts are. -/
def verbatim? (s : List Char) : Option String :=
  match s with
  | '[' :: s => bracketed? s
  | s => if s.any isReserved then none else some (String.ofList s)

/-- Reads a host by its name in the net, in small letters. -/
def named? (s : List Char) : Option String :=
  match s with
  | '[' :: s => bracketed? s
  | s => do
    let name := foldCase (String.ofList ((← unescaped? s).toList.filterMap narrow?))
    if name.isEmpty || name.toList.any isBadNameChar then none
    if !(name.splitOn ".").all isLabel then none
    if endsInNumber name && !isNumeric name then none
    return name

end HostName

end PlanSql
