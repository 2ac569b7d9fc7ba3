import PlanSql.Digits

namespace PlanSql

/-- A sign bit, then the exponent, then the fraction. -/
structure BinaryLayout where
  exponentBits : Nat
  fractionBits : Nat
  deriving DecidableEq

namespace BinaryLayout

def single : BinaryLayout := ⟨8, 23⟩

def double : BinaryLayout := ⟨11, 52⟩

/-- The exponent of the last place of the smallest numbers. -/
def leastExponent (l : BinaryLayout) : Int := 2 - 2 ^ (l.exponentBits - 1) - l.fractionBits

/-- The exponent and fraction fields of infinity; those of a NaN are greater. -/
def infinity (l : BinaryLayout) : Nat := (2 ^ l.exponentBits - 1) * 2 ^ l.fractionBits

/-- One more than the greatest exponent and fraction fields. -/
def magnitudes (l : BinaryLayout) : Nat := 2 ^ (l.exponentBits + l.fractionBits)

theorem infinity_lt (l : BinaryLayout) : l.infinity < l.magnitudes := by
  unfold infinity magnitudes
  rw [Nat.pow_add]
  have he : 0 < 2 ^ l.exponentBits := Nat.two_pow_pos _
  have hf : 0 < 2 ^ l.fractionBits := Nat.two_pow_pos _
  exact Nat.mul_lt_mul_of_pos_right (by omega) hf

end BinaryLayout

/-- A number of a layout: its sign and its exponent and fraction fields as one natural. -/
structure Binary (l : BinaryLayout) where
  negative : Bool
  magnitude : Nat
  magnitude_lt : magnitude < l.magnitudes
  deriving DecidableEq

abbrev Single := Binary .single

abbrev Double := Binary .double

/-- The natural nearest to `num / den`, of two equally near ones the even one. -/
def roundHalfEven (num den : Nat) : Nat :=
  let q := num / den
  let r := num % den
  if 2 * r < den then q else if den < 2 * r then q + 1 else q + q % 2

/-- The fields of the number nearest to `num / den`; a number too great becomes infinity. -/
def BinaryLayout.nearest (l : BinaryLayout) (num den : Nat) : Nat :=
  if num = 0 then 0
  else
    let guess : Int := (Nat.log2 num : Int) - Nat.log2 den
    let reaches : Bool :=
      if guess ≥ 0 then den * 2 ^ guess.toNat ≤ num else den ≤ num * 2 ^ (-guess).toNat
    let power := if reaches then guess else guess - 1
    let place := max (power - l.fractionBits) l.leastExponent
    let q :=
      if place ≥ 0 then roundHalfEven num (den * 2 ^ place.toNat)
      else roundHalfEven (num * 2 ^ (-place).toNat) den
    min ((place - l.leastExponent).toNat * 2 ^ l.fractionBits + q) l.infinity

theorem BinaryLayout.nearest_le (l : BinaryLayout) (num den : Nat) :
    l.nearest num den ≤ l.infinity := by
  unfold BinaryLayout.nearest
  split
  · exact Nat.zero_le _
  · exact Nat.min_le_right _ _

namespace Binary

variable {l : BinaryLayout}

def ofRatio (negative : Bool) (num den : Nat) : Binary l :=
  ⟨negative, l.nearest num den, Nat.lt_of_le_of_lt (l.nearest_le num den) l.infinity_lt⟩

def ofInt (n : Int) : Binary l := ofRatio (n < 0) n.natAbs 1

def infinite (negative : Bool) : Binary l := ⟨negative, l.infinity, l.infinity_lt⟩

/-- The number with the given bits; those beyond the layout's width are ignored. -/
def ofBits (bits : Nat) : Binary l :=
  ⟨bits / l.magnitudes % 2 == 1, bits % l.magnitudes, Nat.mod_lt _ (Nat.two_pow_pos _)⟩

def bits (x : Binary l) : Nat := (if x.negative then l.magnitudes else 0) + x.magnitude

/-- The quiet NaN without a payload. -/
def nan (negative : Bool) : Binary l :=
  ofBits ((if negative then l.magnitudes else 0) + l.infinity + 2 ^ (l.fractionBits - 1))

def isNaN (x : Binary l) : Bool := l.infinity < x.magnitude

def isInfinite (x : Binary l) : Bool := x.magnitude == l.infinity

def isFinite (x : Binary l) : Bool := x.magnitude < l.infinity

/-- The significand and the exponent of two of a finite number's absolute value. -/
def scaled (x : Binary l) : Nat × Int :=
  let field := x.magnitude / 2 ^ l.fractionBits
  let fraction := x.magnitude % 2 ^ l.fractionBits
  if field = 0 then (fraction, l.leastExponent)
  else (fraction + 2 ^ l.fractionBits, l.leastExponent + field - 1)

/-- A finite number's absolute value as a quotient. -/
def ratio (x : Binary l) : Nat × Nat :=
  let (m, e) := x.scaled
  if e ≥ 0 then (m * 2 ^ e.toNat, 1) else (m, 2 ^ (-e).toNat)

/-- The nearest number of another layout. A NaN keeps its sign and the front of its payload. -/
def convert {k : BinaryLayout} (x : Binary l) : Binary k :=
  if x.isNaN then
    let payload := x.magnitude % 2 ^ l.fractionBits * 2 ^ k.fractionBits / 2 ^ l.fractionBits
    let quiet := 2 ^ (k.fractionBits - 1)
    ofBits ((if x.negative then k.magnitudes else 0) + k.infinity + (payload ||| quiet))
  else if x.isInfinite then infinite x.negative
  else ofRatio x.negative x.ratio.1 x.ratio.2

/-- The absolute value times the absolute value of `y`, with the sign of `x`. -/
def scaleUp (x y : Binary l) : Binary l :=
  ofRatio x.negative (x.ratio.1 * y.ratio.1) (x.ratio.2 * y.ratio.2)

/-- The absolute value divided by the absolute value of `y`, with the sign of `x`. -/
def scaleDown (x y : Binary l) : Binary l :=
  ofRatio x.negative (x.ratio.1 * y.ratio.2) (x.ratio.2 * y.ratio.1)

end Binary

end PlanSql
