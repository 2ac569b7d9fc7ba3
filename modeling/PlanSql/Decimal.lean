import PlanSql.Numeral

namespace PlanSql

structure Decimal where
  negative : Bool
  mantissa : Nat
  scale : Nat
  mantissa_lt : mantissa < 2 ^ 96
  dvd_mantissa : 10 ^ (scale - 28) ∣ mantissa
  deriving DecidableEq

namespace Decimal

theorem pow_excess_dvd {scale : Nat} (h : scale ≤ 28) (n : Nat) : 10 ^ (scale - 28) ∣ n := by
  rw [Nat.sub_eq_zero_of_le h, Nat.pow_zero]
  exact Nat.one_dvd n

def zero : Decimal := ⟨false, 0, 0, Nat.two_pow_pos 96, Nat.dvd_zero _⟩

/-- The number `mantissa / 10 ^ scale` with a sign, if its parts are in range. -/
def ofParts? (negative : Bool) (mantissa scale : Nat) : Option Decimal :=
  if h : mantissa < 2 ^ 96 ∧ scale ≤ 28 then
    some ⟨negative, mantissa, scale, h.1, pow_excess_dvd h.2 mantissa⟩
  else none

/-- The same for a number that is read, where zero has no sign. -/
def unsignedZero? (negative : Bool) (mantissa scale : Nat) : Option Decimal :=
  ofParts? (negative && mantissa != 0) mantissa scale

def ofInt? (n : Int) : Option Decimal := ofParts? (n < 0) n.natAbs 0

/-- The digits with a point before the last `scale` of them. -/
def text (x : Decimal) : List Char :=
  let ds := paddedDigits (x.scale + 1) x.mantissa
  let whole := ds.take (ds.length - x.scale)
  let fraction := ds.drop (ds.length - x.scale)
  (if x.negative then ['-'] else []) ++ whole ++ (if x.scale = 0 then [] else '.' :: fraction)

/-- The number after a full one whose next digit is at least five. A number that then grows too
great gives up its last place. -/
def next? (negative : Bool) (mantissa scale : Nat) : Option Decimal :=
  if mantissa + 1 < 2 ^ 96 then unsignedZero? negative (mantissa + 1) scale
  else if scale = 0 then none
  else unsignedZero? negative ((mantissa + 5) / 10) (scale - 1)

/-- Rounds a full number by the first digit of those that are left. -/
def roundedBy (negative : Bool) (mantissa scale : Nat) (rest : List Char) : Option Decimal :=
  if rest.all fun c => c.isDigit || c == '_' then
    if (rest.find? Char.isDigit).any fun c => '5' ≤ c then next? negative mantissa scale
    else unsignedZero? negative mantissa scale
  else none

/-- Reads digits, at most one point, and `_` between digits. Places for which the number has no
room round it. -/
def readFrom (negative : Bool) :
    (mantissa scale : Nat) → (point started : Bool) → List Char → Option Decimal
  | m, s, _, started, [] => if started then unsignedZero? negative m s else none
  | m, s, point, started, c :: rest =>
    if point && 28 ≤ s then roundedBy negative m s (c :: rest)
    else if c.isDigit then
      let next := 10 * m + (c.toNat - 48)
      if next < 2 ^ 96 then readFrom negative next (if point then s + 1 else s) point true rest
      else if point then roundedBy negative m s (c :: rest)
      else none
    else if c = '.' && !point then readFrom negative m s true started rest
    else if c = '_' && started then readFrom negative m s point started rest
    else none

/-- Reads a number without an exponent. -/
def readPlain? : List Char → Option Decimal
  | '-' :: rest => readFrom true 0 0 false false rest
  | '+' :: rest => readFrom false 0 0 false false rest
  | rest => readFrom false 0 0 false false rest

/-- Adds zeros at the end while they fit, up to `places` of them. -/
def extend : (places : Nat) → Decimal → Decimal
  | 0, x => x
  | places + 1, x =>
    if h : x.mantissa * 10 < 2 ^ 96 then
      extend places ⟨x.negative, x.mantissa * 10, x.scale + 1, h, by
        by_cases hs : x.scale < 28
        · exact pow_excess_dvd hs _
        · rw [Nat.sub_add_comm (Nat.le_of_not_lt hs), Nat.pow_succ]
          exact Nat.mul_dvd_mul_right x.dvd_mantissa 10⟩
    else x

/-- Divides by `10 ^ places`, a half away from zero. -/
def cutPlaces (mantissa places : Nat) : Nat := (mantissa + 10 ^ places / 2) / 10 ^ places

theorem cutPlaces_le {places : Nat} (h : 0 < places) (mantissa : Nat) :
    cutPlaces mantissa places ≤ mantissa / 10 + 1 := by
  have hp : 10 ≤ 10 ^ places := Nat.le_self_pow (by omega) 10
  calc cutPlaces mantissa places
      ≤ (mantissa + 10 ^ places) / 10 ^ places :=
        Nat.div_le_div_right (Nat.add_le_add_left (Nat.div_le_self _ _) _)
    _ = mantissa / 10 ^ places + 1 := Nat.add_div_right _ (by omega)
    _ ≤ mantissa / 10 + 1 := Nat.add_le_add_right (Nat.div_le_div_left hp (by decide)) 1

theorem dvd_cutPlaces {n mantissa places : Nat} (h : n * 10 ^ places ∣ mantissa) :
    n ∣ cutPlaces mantissa places := by
  obtain ⟨t, rfl⟩ := h
  have hp : 0 < 10 ^ places := Nat.pow_pos (by decide)
  have hq : cutPlaces (n * 10 ^ places * t) places = n * t := by
    rw [cutPlaces, Nat.mul_right_comm, Nat.mul_comm, Nat.mul_add_div hp,
      Nat.div_eq_of_lt (Nat.div_lt_self hp (by decide)), Nat.add_zero]
  exact hq ▸ Nat.dvd_mul_right n t

/-- The number with fewer places. -/
def cut (x : Decimal) (scale : Nat) (h : scale < x.scale) : Decimal where
  negative := x.negative
  mantissa := cutPlaces x.mantissa (x.scale - scale)
  scale := scale
  mantissa_lt := by
    have := cutPlaces_le (Nat.sub_pos_of_lt h) x.mantissa
    have := x.mantissa_lt
    omega
  dvd_mantissa := by
    by_cases hs : scale ≤ 28
    · exact pow_excess_dvd hs _
    · refine dvd_cutPlaces ?_
      have : scale - 28 + (x.scale - scale) = x.scale - 28 := by omega
      rw [← Nat.pow_add, this]
      exact x.dvd_mantissa

/-- The number with the given count of places: cut places round a half away from zero. -/
def withScale (x : Decimal) (scale : Nat) : Decimal :=
  if h : scale < x.scale then x.cut scale h
  else if x.mantissa = 0 then ⟨x.negative, 0, min scale 28, Nat.two_pow_pos 96, Nat.dvd_zero _⟩
  else extend (scale - x.scale) x

/-- Multiplies by `10 ^ e`: the point moves, and a whole result has scale zero. Places after the
28th are cut. -/
def shift? (x : Decimal) (e : Int) : Option Decimal :=
  if e < -28 || 28 < e then none
  else if e < 0 then
    let x := if 28 < x.scale + e.natAbs then x.withScale (28 - e.natAbs) else x
    ofParts? x.negative x.mantissa (x.scale + e.natAbs)
  else if e ≤ x.scale then ofParts? x.negative x.mantissa (x.scale - e).toNat
  else unsignedZero? x.negative (x.mantissa * 10 ^ (e - x.scale).toNat) 0

/-- The exponent of a number below `2 ^ 32`: at most a `-` and a `+`, then digits. -/
def exponent? : List Char → Option Int
  | '-' :: rest => (magnitude? rest).map fun n => -(n : Int)
  | rest => (magnitude? rest).map fun n => (n : Int)
where
  magnitude? (s : List Char) : Option Nat :=
    match s with
    | '-' :: _ => none
    | s => (readInteger? s).bind fun n => if n < 2 ^ 32 then some n.toNat else none

/-- Reads a number with an exponent. -/
def readScientific? (s : List Char) : Option Decimal :=
  let isMark (c : Char) : Bool := c == 'e' || c == 'E'
  let (base, rest) := splitWhile (fun c => !isMark c) s
  match rest with
  | [] => none
  | _ :: rest => do (← readPlain? base).shift? (← exponent? rest)

def read? (s : List Char) : Option Decimal := readPlain? s <|> readScientific? s

/-- A number of a JSON text: a float is read from its full text. -/
def ofJson? : JsonNumber → Option Decimal
  | .integer n => ofInt? n
  | .float x => readPlain? (FloatStyle.plain.write x)

/-- Divides by `10 ^ places`, a half to the even neighbour. -/
def dropPlaces (mantissa places : Nat) : Nat := roundHalfEven mantissa (10 ^ places)

/-- Drops just enough places for a mantissa below `2 ^ 96`, but no more than `scale`. -/
def fitted? (negative : Bool) (mantissa scale : Nat) : Option Decimal :=
  ((List.range (scale + 1)).find? fun places => dropPlaces mantissa places < 2 ^ 96).bind
    fun places => ofParts? negative (dropPlaces mantissa places) (scale - places)

/-- The value times `10 ^ scale`, for a scale not below its own. -/
def scaled (x : Decimal) (scale : Nat) : Int :=
  (if x.negative then -1 else 1) * (x.mantissa * 10 ^ (scale - x.scale) : Nat)

/-- The sum on the finer scale of the two. -/
def add? (x y : Decimal) : Option Decimal :=
  let scale := max x.scale y.scale
  let sum := x.scaled scale + y.scaled scale
  fitted? (sum < 0) sum.natAbs scale

end Decimal

end PlanSql
