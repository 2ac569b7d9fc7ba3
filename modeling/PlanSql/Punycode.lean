import PlanSql.Characters

namespace PlanSql

namespace Punycode

/-- What is known of a label, and the number that is being read. -/
structure Reading where
  label : List Char
  /-- The code point of the last character put in. -/
  code : Nat := 128
  /-- Where the search for the next place starts. -/
  place : Nat := 0
  bias : Nat := 72
  sum : Nat := 0
  weight : Nat := 1
  /-- How far the next digit is from the start of its number. -/
  distance : Nat := 36

/-- The value of a digit; letters come before digits. -/
def digit? (c : Char) : Option Nat :=
  if 'a' ≤ c && c ≤ 'z' then some (c.toNat - 97)
  else if c.isDigit then some (c.toNat - 22)
  else none

/-- The bias that suits a number of this size. -/
def biasFor (n : Nat) : Nat :=
  if 455 < n then 36 + biasFor (n / 35) else 36 * n / (n + 38)

/-- Puts in the character that the number names. -/
def Reading.insert? (r : Reading) : Option Reading :=
  let size := r.label.length + 1
  let place := (r.place + r.sum) % size
  let code := r.code + (r.place + r.sum) / size
  let damped := r.sum / (if r.place = 0 then 700 else 2)
  if code.isValidChar then
    some { label := r.label.insertIdx place (Char.ofNat code), code := code, place := place + 1,
           bias := biasFor (damped + damped / size) }
  else none

/-- A digit below its threshold ends the number. -/
def Reading.digit? (r : Reading) (c : Char) : Option Reading := do
  let d ← Punycode.digit? c
  let threshold := min 26 (max 1 (r.distance - r.bias))
  let r := { r with sum := r.sum + d * r.weight }
  if d < threshold then r.insert?
  else return { r with weight := r.weight * (36 - threshold), distance := r.distance + 36 }

/-- The label that is written so; its last hyphen, if it is not the first character, ends the ASCII
characters. -/
def decode? (s : List Char) : Option (List Char) := do
  let (back, front) := splitWhile (· != '-') s.reverse
  let (label, digits) := if front.length ≤ 1 then ([], s) else (front.tail.reverse, back.reverse)
  let r ← digits.foldlM Reading.digit? { label := label }
  if r.distance = 36 then return r.label else none

end Punycode

end PlanSql
