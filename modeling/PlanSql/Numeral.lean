import PlanSql.Characters
import PlanSql.ShortestDecimal

namespace PlanSql

/-- The parts of a written number. -/
structure Numeral where
  negative : Bool
  whole : List Char
  /-- The digits after the point, if there is a point. -/
  fraction : Option (List Char)
  exponent : Option Int
  deriving DecidableEq

namespace Numeral

/-- Reads an exponent: an optional sign and at least one digit. -/
def exponentOf? (s : List Char) : Option Int := readInteger? s

/-- Splits digits, an optional fraction and an optional exponent; all of the text is read. -/
def unsigned? (negative : Bool) (s : List Char) : Option Numeral :=
  let (whole, rest) := splitWhile Char.isDigit s
  let (fraction, rest) := match rest with
    | '.' :: rest =>
      let (fraction, rest) := splitWhile Char.isDigit rest
      (some fraction, rest)
    | rest => (none, rest)
  match rest with
  | [] => some ⟨negative, whole, fraction, none⟩
  | c :: rest =>
    if c = 'e' || c = 'E' then
      (exponentOf? rest).map fun e => ⟨negative, whole, fraction, some e⟩
    else none

/-- At least one digit, before the point or after it. -/
def hasDigit (n : Numeral) : Bool := !n.whole.isEmpty || !(n.fraction.getD []).isEmpty

/-- A JSON number has digits before the point, no leading zero and digits after a point. -/
def isJson (n : Numeral) : Bool :=
  (match n.whole with
    | [] => false
    | ['0'] => true
    | c :: _ => c != '0') &&
  (match n.fraction with
    | none => true
    | some ds => !ds.isEmpty)

/-- Reads a JSON number. -/
def json? (s : List Char) : Option Numeral :=
  let n := match s with
    | '-' :: rest => unsigned? true rest
    | rest => unsigned? false rest
  n.filter isJson

end Numeral

namespace Binary

variable {l : BinaryLayout}

/-- The number nearest to `m * 10 ^ e`. -/
def ofDecimal (negative : Bool) (m : Nat) (e : Int) : Binary l :=
  let top := ((decimalDigits m).length : Int) + e
  if m = 0 || top < -400 then ofRatio negative 0 1
  else if 400 < top then infinite negative
  else if e ≥ 0 then ofRatio negative (m * 10 ^ e.toNat) 1
  else ofRatio negative m (10 ^ (-e).toNat)

def ofNumeral (n : Numeral) : Binary l :=
  let fraction := n.fraction.getD []
  ofDecimal n.negative (readDecimal (n.whole ++ fraction)) (n.exponent.getD 0 - fraction.length)

/-- Reads a number with an optional sign, or a name of infinity or NaN in any case. -/
def read? (s : List Char) : Option (Binary l) :=
  let unsigned (negative : Bool) (body : List Char) : Option (Binary l) :=
    let name := body.map Char.toLower
    if name = "inf".toList || name = "infinity".toList then some (infinite negative)
    else if name = "nan".toList then some (nan negative)
    else ((Numeral.unsigned? negative body).filter Numeral.hasDigit).map ofNumeral
  match s with
  | '-' :: body => unsigned true body
  | '+' :: body => unsigned false body
  | body => unsigned false body

end Binary

/-- A number of a JSON text. -/
inductive JsonNumber
  | integer (n : Int)
  | float (x : Double)
  deriving DecidableEq

namespace JsonNumber

/-- The significand is kept while it fits an unsigned word of 64 bits. -/
def significandLimit : Nat := 2 ^ 64

/-- Takes digits into a significand until one no longer fits, and returns those left over. -/
def takeDigits (significand : Nat) : List Char → Nat × List Char
  | [] => (significand, [])
  | c :: rest =>
    let next := significand * 10 + (c.toNat - 48)
    if next < significandLimit then takeDigits next rest else (significand, c :: rest)

def powerOfTen (e : Nat) : Double := Binary.ofDecimal false 1 e

/-- Multiplies or divides by a power of ten, one rounding a step; an infinite result is refused. -/
def scaleTen : (steps : Nat) → Double → Int → Option Double
  | 0, f, _ => some f
  | steps + 1, f, e =>
    if 308 < e then if f.magnitude = 0 then some f else none
    else if 0 ≤ e then
      let r := f.scaleUp (powerOfTen e.toNat)
      if r.isInfinite then none else some r
    else if -308 ≤ e then some (f.scaleDown (powerOfTen (-e).toNat))
    else if f.magnitude = 0 then some f
    else scaleTen steps (f.scaleDown (powerOfTen 308)) (e + 308)

/-- The float of a numeral: its first digits as a whole number, then scaled by the power of ten. -/
def float? (n : Numeral) : Option Double :=
  let (significand, beyond) := takeDigits 0 n.whole
  let fraction := n.fraction.getD []
  let (significand, dropped) := takeDigits significand fraction
  let taken : Nat := fraction.length - dropped.length
  let e := n.exponent.getD 0 + beyond.length - taken
  scaleTen 4 (Binary.ofRatio n.negative significand 1) e

/-- Whole numbers stay whole while they fit 64 bits; `-0` and all others are floats. -/
def ofNumeral? (n : Numeral) : Option JsonNumber :=
  if n.fraction.isNone && n.exponent.isNone then
    let m := readDecimal n.whole
    if !n.negative && m < 2 ^ 64 then some (.integer m)
    else if n.negative && 0 < m && m ≤ 2 ^ 63 then some (.integer (-(m : Int)))
    else (float? n).map .float
  else (float? n).map .float

/-- The text of a number; a float that is not finite is `null`. -/
def text : JsonNumber → List Char
  | .integer n => integerText n
  | .float x => if x.isFinite then FloatStyle.json.write x else "null".toList

end JsonNumber

end PlanSql
