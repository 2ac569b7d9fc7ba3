import PlanSql.Binary

namespace PlanSql

/-- How the shortest digits of a number are written. -/
structure FloatStyle where
  /-- The least and the greatest power of ten of a first digit written without an exponent. -/
  positional : Option (Int × Int)
  /-- Whether a whole number keeps `.0`. -/
  wholePoint : Bool
  /-- Whether a number halfway between two shortest ones takes the greater. -/
  tieUp : Bool

/-- Every number is written in full. -/
def FloatStyle.plain : FloatStyle := ⟨none, false, true⟩

/-- Numbers from `1e-5` up to `1e16` are written in full, the others with a signed exponent. -/
def FloatStyle.json : FloatStyle := ⟨some (-5, 15), true, false⟩

/-- Single numbers are written in full from `1e-6` up to `1e13`. -/
def FloatStyle.jsonSingle : FloatStyle := ⟨some (-6, 12), true, false⟩

/-- The power of ten just above a positive quotient. -/
def decimalPoint (num den : Nat) : Int :=
  let a := (decimalDigits num).length
  let b := (decimalDigits den).length
  let reaches : Bool :=
    if b ≤ a then den * 10 ^ (a - b) ≤ num else den ≤ num * 10 ^ (b - a)
  (a : Int) - b + (if reaches then 1 else 0)

namespace Binary

variable {l : BinaryLayout}

/-- Twice the number of quarter places below and above that still round to the number. -/
def reach (x : Binary l) : Nat × Nat :=
  let field := x.magnitude / 2 ^ l.fractionBits
  if x.magnitude % 2 ^ l.fractionBits = 0 && 1 < field then (1, 2) else (2, 2)

/-- A decimal grid point `d * 10 ^ k` that reads back as `x`, sought from the place `10 ^ k`
downwards: of the two points beside `x` the nearer one that does. -/
def shortestFrom (tieUp : Bool) (x : Binary l) : (places : Nat) → (k : Int) → Nat × Int
  | 0, k => (0, k)
  | places + 1, k =>
    let (m, e) := x.scaled
    let (below, above) := x.reach
    let unit := if e ≥ 2 then 2 ^ (e - 2).toNat else 1
    let den := if e ≥ 2 then 1 else 2 ^ (2 - e).toNat
    let step := if k ≥ 0 then den * 10 ^ k.toNat else den
    let scale := if k ≥ 0 then unit else unit * 10 ^ (-k).toNat
    let value := 4 * m * scale
    let low := (4 * m - below) * scale
    let high := (4 * m + above) * scale
    let inside (d : Nat) : Bool :=
      if m % 2 = 0 then low ≤ d * step && d * step ≤ high
      else low < d * step && d * step < high
    let d := value / step
    let back := value - d * step
    let ahead := (d + 1) * step - value
    match inside d, inside (d + 1) with
    | false, false => shortestFrom tieUp x places (k - 1)
    | true, false => (d, k)
    | false, true => (d + 1, k)
    | true, true =>
      if back < ahead then (d, k)
      else if ahead < back then (d + 1, k)
      else if tieUp || d % 2 = 1 then (d + 1, k)
      else (d, k)

/-- The shortest digits of a finite positive number and the power of ten of the last one. -/
def shortest (tieUp : Bool) (x : Binary l) : Nat × Int :=
  let top := decimalPoint x.ratio.1 x.ratio.2
  let (d, k) := shortestFrom tieUp x 17 (top - 1)
  if d % 10 = 0 then (d / 10, k + 1) else (d, k)

end Binary

namespace FloatStyle

/-- Digits set out around the decimal point; `point` counts the digits before it. -/
def positionalText (style : FloatStyle) (ds : List Char) (point : Int) : List Char :=
  if point ≤ 0 then '0' :: '.' :: (List.replicate (-point).toNat '0' ++ ds)
  else if (ds.length : Int) ≤ point then
    ds ++ List.replicate (point.toNat - ds.length) '0' ++
      (if style.wholePoint then ['.', '0'] else [])
  else ds.take point.toNat ++ '.' :: ds.drop point.toNat

/-- Digits with a point after the first one and the power of ten of that one. -/
def exponentText (ds : List Char) (power : Int) : List Char :=
  let front := match ds with
    | [] => []
    | [c] => [c]
    | c :: rest => c :: '.' :: rest
  front ++ 'e' :: (if power < 0 then '-' else '+') :: decimalDigits power.natAbs

/-- The text of a number. -/
def write (style : FloatStyle) {l : BinaryLayout} (x : Binary l) : List Char :=
  if x.isNaN then "NaN".toList
  else
    let sign := if x.negative then ['-'] else []
    if x.isInfinite then sign ++ "inf".toList
    else if x.magnitude = 0 then sign ++ style.positionalText ['0'] 1
    else
      let (d, k) := x.shortest style.tieUp
      let ds := decimalDigits d
      let power := k + ds.length - 1
      let full := match style.positional with
        | none => true
        | some (least, greatest) => least ≤ power && power ≤ greatest
      sign ++ if full then style.positionalText ds (power + 1) else exponentText ds power

end FloatStyle

end PlanSql
