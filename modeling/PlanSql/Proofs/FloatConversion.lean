import Mathlib
import PlanSql.Binary

namespace PlanSql

/-- A number, an infinity or none of both. -/
inductive Quantity
  | number (q : ℚ)
  | infinite (negative : Bool)
  | nan
  deriving DecidableEq

theorem roundHalfEven_mul (q : Nat) {den : Nat} (h : 0 < den) :
    roundHalfEven (q * den) den = q := by
  simp [roundHalfEven, Nat.mul_div_cancel q h, h]

theorem sign_mul_natAbs (n : Int) : (if n < 0 then -1 else 1) * (n.natAbs : ℚ) = n := by
  rw [Nat.cast_natAbs]
  split
  next below => rw [abs_of_neg below, Int.cast_neg, neg_one_mul, neg_neg]
  next above => rw [abs_of_nonneg (Int.not_lt.mp above), one_mul]

theorem log2_mul_two_pow {m : Nat} (h : m ≠ 0) (k : Nat) : (m * 2 ^ k).log2 = m.log2 + k := by
  have above : m * 2 ^ k < 2 ^ (m.log2 + 1) * 2 ^ k :=
    Nat.mul_lt_mul_of_pos_right Nat.lt_log2_self (Nat.two_pow_pos k)
  rw [Nat.log2_eq_iff (Nat.mul_ne_zero h (Nat.two_pow_pos k).ne'), Nat.pow_add,
    Nat.add_right_comm, Nat.pow_add 2 (m.log2 + 1)]
  exact ⟨Nat.mul_le_mul_right _ (Nat.log2_self_le h), above⟩

namespace Binary

variable {l : BinaryLayout}

/-- `m * 2 ^ e` as a quotient. -/
def quotient (m : Nat) (e : Int) : Nat × Nat :=
  if e ≥ 0 then (m * 2 ^ e.toNat, 1) else (m, 2 ^ (-e).toNat)

theorem ratio_eq (x : Binary l) : x.ratio = quotient x.scaled.1 x.scaled.2 := rfl

/-- The number of a float that is finite. -/
def number (x : Binary l) : ℚ :=
  (if x.negative then -1 else 1) * (x.scaled.1 * 2 ^ x.scaled.2)

def quantity (x : Binary l) : Quantity :=
  if x.isNaN then .nan else if x.isInfinite then .infinite x.negative else .number x.number

section Quotient

variable {m : Nat} {e : Int}

theorem log2_quotient (nonzero : m ≠ 0) :
    ((quotient m e).1.log2 : Int) - (quotient m e).2.log2 = m.log2 + e := by
  unfold quotient
  split
  next whole =>
    have one : Nat.log2 1 = 0 := by decide
    simp only [log2_mul_two_pow nonzero, one]
    omega
  next part =>
    simp only [Nat.log2_two_pow]
    omega

/-- The guess at the power of two is right. -/
theorem quotient_reaches (nonzero : m ≠ 0) :
    (if (m.log2 + e : Int) ≥ 0 then
      decide ((quotient m e).2 * 2 ^ (m.log2 + e : Int).toNat ≤ (quotient m e).1)
    else decide ((quotient m e).2 ≤ (quotient m e).1 * 2 ^ (-(m.log2 + e : Int)).toNat)) =
      true := by
  have least := Nat.log2_self_le nonzero
  by_cases whole : e ≥ 0
  · have power : (m.log2 + e : Int).toNat = m.log2 + e.toNat := by omega
    rw [quotient, if_pos whole, if_pos (by omega), decide_eq_true_eq, power, Nat.one_mul,
      Nat.pow_add]
    exact Nat.mul_le_mul_right _ least
  · rw [quotient, if_neg whole]
    split
    next above =>
      have power : (-e).toNat + (m.log2 + e : Int).toNat = m.log2 := by omega
      rwa [decide_eq_true_eq, ← Nat.pow_add, power]
    next below =>
      have power : (-e).toNat = m.log2 + (-(m.log2 + e : Int)).toNat := by omega
      rw [decide_eq_true_eq, power, Nat.pow_add]
      exact Nat.mul_le_mul_right _ least

/-- The nearest float's last digit has the place of the significand's, filled up with zeros. -/
theorem round_quotient (m : Nat) {place : Int} {gap : Nat} (h : place + gap = e) :
    (if place ≥ 0 then roundHalfEven (quotient m e).1 ((quotient m e).2 * 2 ^ place.toNat)
    else roundHalfEven ((quotient m e).1 * 2 ^ (-place).toNat) (quotient m e).2) =
      m * 2 ^ gap := by
  unfold quotient
  split
  next low =>
    have whole : e ≥ 0 := by omega
    have split : e.toNat = gap + place.toNat := by omega
    rw [if_pos whole]
    dsimp only
    rw [split, Nat.pow_add, ← Nat.mul_assoc, Nat.one_mul, roundHalfEven_mul _ (Nat.two_pow_pos _)]
  next high =>
    split
    next whole =>
      have split : gap = e.toNat + (-place).toNat := by omega
      dsimp only
      rw [Nat.mul_assoc, ← Nat.pow_add, ← split]
      simpa using roundHalfEven_mul (m * 2 ^ gap) Nat.one_pos
    next part =>
      have split : (-place).toNat = gap + (-e).toNat := by omega
      dsimp only
      rw [split, Nat.pow_add, ← Nat.mul_assoc, roundHalfEven_mul _ (Nat.two_pow_pos _)]

/-- The fields of the nearest float of `m * 2 ^ e` are those of its significand and the place of its
last digit. -/
theorem nearest_quotient (nonzero : m ≠ 0)
    (short : m.log2 ≤ l.fractionBits) (low : l.leastExponent ≤ m.log2 + e - l.fractionBits) :
    l.nearest (quotient m e).1 (quotient m e).2 =
      min ((m.log2 + e - l.fractionBits - l.leastExponent).toNat * 2 ^ l.fractionBits +
        m * 2 ^ (l.fractionBits - m.log2)) l.infinity := by
  have positive : (quotient m e).1 ≠ 0 := by
    unfold quotient
    split
    · exact Nat.mul_ne_zero nonzero (Nat.two_pow_pos _).ne'
    · exact nonzero
  have places : (m.log2 + e - l.fractionBits : Int) + (l.fractionBits - m.log2 : Nat) = e := by
    omega
  have rounded := round_quotient m places
  have reaches := quotient_reaches (e := e) nonzero
  unfold BinaryLayout.nearest
  rw [if_neg positive]
  dsimp only
  rw [log2_quotient nonzero, if_pos reaches, max_eq_left low, rounded]

/-- A significand with a full fraction is read back from the fields with its place. -/
theorem scaled_of_magnitude {x : Binary l} {place q : Nat}
    (fields : x.magnitude = place * 2 ^ l.fractionBits + q) (low : 2 ^ l.fractionBits ≤ q)
    (high : q < 2 ^ (l.fractionBits + 1)) : x.scaled = (q, l.leastExponent + place) := by
  obtain ⟨fraction, rfl⟩ := Nat.exists_eq_add_of_le low
  have below : fraction < 2 ^ l.fractionBits := by omega
  have split : x.magnitude = fraction + 2 ^ l.fractionBits * (place + 1) := by
    rw [fields, Nat.mul_add, Nat.mul_comm]
    omega
  have field : x.magnitude / 2 ^ l.fractionBits = place + 1 := by
    rw [split, Nat.add_mul_div_left _ _ (Nat.two_pow_pos _), Nat.div_eq_of_lt below, Nat.zero_add]
  have rest : x.magnitude % 2 ^ l.fractionBits = fraction := by
    rw [split, Nat.add_mul_mod_self_left, Nat.mod_eq_of_lt below]
  have exponent : l.leastExponent + ((place + 1 : Nat) : Int) - 1 = l.leastExponent + place := by
    omega
  rw [scaled, field, rest, if_neg (Nat.succ_ne_zero place), exponent, Nat.add_comm]

theorem quantity_of_lt {x : Binary l} (h : x.magnitude < l.infinity) :
    x.quantity = .number x.number := by
  rw [quantity, isNaN, isInfinite, if_neg (by simpa using h.le), if_neg (by simpa using h.ne)]

theorem quantity_ofRatio_zero (wide : 0 < l.exponentBits) (negative : Bool) (den : Nat) :
    (ofRatio negative 0 den : Binary l).quantity = .number 0 := by
  have positive : 0 < l.infinity :=
    Nat.mul_pos (Nat.sub_pos_of_lt (Nat.one_lt_two_pow wide.ne')) (Nat.two_pow_pos _)
  have fields : (ofRatio negative 0 den : Binary l).magnitude = 0 := by
    change l.nearest 0 den = 0
    rw [BinaryLayout.nearest, if_pos rfl]
  rw [quantity_of_lt (by rwa [fields]), number, scaled, fields]
  simp

/-- A number of few enough places is held exactly by a layout that reaches far enough. -/
theorem quantity_ofRatio (wide : 0 < l.exponentBits) (negative : Bool)
    (short : m < 2 ^ (l.fractionBits + 1))
    (low : m ≠ 0 → l.leastExponent ≤ m.log2 + e - l.fractionBits)
    (high : m ≠ 0 → m.log2 + e < 2 ^ (l.exponentBits - 1)) :
    (ofRatio negative (quotient m e).1 (quotient m e).2 : Binary l).quantity =
      .number ((if negative then -1 else 1) * (m * 2 ^ e)) := by
  by_cases hm : m = 0
  · have zero : (quotient m e).1 = 0 := by
      unfold quotient
      split <;> simp [hm]
    rw [zero, quantity_ofRatio_zero wide, hm]
    simp
  have length : m.log2 ≤ l.fractionBits := Nat.lt_succ_iff.mp ((Nat.log2_lt hm).mpr short)
  replace low := low hm
  replace high := high hm
  -- The significand is shifted up by the gap until it fills the fraction and the place above.
  obtain ⟨gap, split⟩ := Nat.exists_eq_add_of_le length
  have full : 2 ^ l.fractionBits ≤ m * 2 ^ gap :=
    calc 2 ^ l.fractionBits = 2 ^ m.log2 * 2 ^ gap := by rw [← Nat.pow_add, split]
      _ ≤ m * 2 ^ gap := Nat.mul_le_mul_right _ (Nat.log2_self_le hm)
  have below : m * 2 ^ gap < 2 ^ (l.fractionBits + 1) :=
    calc m * 2 ^ gap < 2 ^ (m.log2 + 1) * 2 ^ gap :=
          Nat.mul_lt_mul_of_pos_right Nat.lt_log2_self (Nat.two_pow_pos _)
      _ = 2 ^ (l.fractionBits + 1) := by rw [← Nat.pow_add, Nat.add_right_comm, split]
  obtain ⟨place, place_eq⟩ := Int.eq_ofNat_of_zero_le (Int.sub_nonneg_of_le low)
  have fields := nearest_quotient (l := l) hm length low
  rw [place_eq, Int.toNat_natCast, split, Nat.add_sub_cancel_left, ← split] at fields
  have finite : place * 2 ^ l.fractionBits + m * 2 ^ gap < l.infinity := by
    have double : 2 ^ l.exponentBits = 2 * 2 ^ (l.exponentBits - 1) := by
      rw [← Nat.pow_succ', Nat.succ_eq_add_one, Nat.sub_add_cancel wide]
    have reach : place + 2 ≤ 2 ^ l.exponentBits - 1 := by
      rw [BinaryLayout.leastExponent] at place_eq
      have cast : ((2 ^ (l.exponentBits - 1) : Nat) : Int) = 2 ^ (l.exponentBits - 1) := by simp
      omega
    calc place * 2 ^ l.fractionBits + m * 2 ^ gap
        < place * 2 ^ l.fractionBits + 2 ^ (l.fractionBits + 1) := Nat.add_lt_add_left below _
      _ = (place + 2) * 2 ^ l.fractionBits := by rw [Nat.pow_succ', Nat.add_mul]
      _ ≤ l.infinity := Nat.mul_le_mul_right _ reach
  rw [Nat.min_eq_left finite.le] at fields
  have magnitude : (ofRatio negative (quotient m e).1 (quotient m e).2 : Binary l).magnitude =
      place * 2 ^ l.fractionBits + m * 2 ^ gap := fields
  rw [quantity_of_lt (by rwa [magnitude]), number, scaled_of_magnitude magnitude full below]
  have exponent : l.leastExponent + place = e - gap := by omega
  have value : (m : ℚ) * 2 ^ gap * 2 ^ (e - gap : Int) = m * 2 ^ e := by
    rw [zpow_sub₀ two_ne_zero, zpow_natCast]
    field_simp
  rw [exponent, Nat.cast_mul, Nat.cast_pow, Nat.cast_ofNat, value]
  rfl

end Quotient

/-- An integer with no more digits than the fraction has places is held exactly. -/
theorem quantity_ofInt {n : Int} (wide : 1 < l.exponentBits)
    (reach : l.fractionBits < 2 ^ (l.exponentBits - 1))
    (short : n.natAbs < 2 ^ (l.fractionBits + 1)) :
    (ofInt n : Binary l).quantity = .number n := by
  have whole : ofInt n =
      (ofRatio (n < 0) (quotient n.natAbs 0).1 (quotient n.natAbs 0).2 : Binary l) := by
    simp [quotient, ofInt]
  have two : 2 ≤ 2 ^ (l.exponentBits - 1) := Nat.le_self_pow (by omega) 2
  have cast : ((2 ^ (l.exponentBits - 1) : Nat) : Int) = 2 ^ (l.exponentBits - 1) := by simp
  rw [whole, quantity_ofRatio (by omega) _ short]
  · have value := sign_mul_natAbs n
    simpa using value
  · intro _
    rw [BinaryLayout.leastExponent]
    omega
  · intro nonzero
    have := (Nat.log2_lt nonzero).mpr short
    omega

theorem single_quantity_ofInt {n : Int} (h : n.natAbs < 2 ^ 24) :
    (ofInt n : Single).quantity = .number n :=
  quantity_ofInt (by decide) (by decide) h

theorem double_quantity_ofInt {n : Int} (h : n.natAbs < 2 ^ 53) :
    (ofInt n : Double).quantity = .number n :=
  quantity_ofInt (by decide) (by decide) h

theorem single_scaled_bounds {x : Single} (h : x.magnitude < BinaryLayout.single.infinity) :
    x.scaled.1 < 2 ^ 24 ∧ -149 ≤ x.scaled.2 ∧ x.scaled.2 ≤ 104 := by
  have infinity : BinaryLayout.single.infinity = 255 * 2 ^ 23 := by decide
  have least : BinaryLayout.single.leastExponent = -149 := by decide
  have fraction : BinaryLayout.single.fractionBits = 23 := rfl
  rw [infinity] at h
  rw [scaled, least, fraction]
  split <;> dsimp only <;> omega

/-- What is put into the fraction of a NaN leaves it one. -/
theorem double_quantity_nan (negative : Bool) {payload : Nat} (positive : 0 < payload)
    (fits : payload < 2 ^ 52) :
    (ofBits ((if negative then BinaryLayout.double.magnitudes else 0) +
      BinaryLayout.double.infinity + payload) : Double).quantity = .nan := by
  have room : BinaryLayout.double.infinity + 2 ^ 52 = BinaryLayout.double.magnitudes := by decide
  have fields (sign : Nat) (h : sign = BinaryLayout.double.magnitudes ∨ sign = 0) :
      (sign + BinaryLayout.double.infinity + payload) % BinaryLayout.double.magnitudes =
        BinaryLayout.double.infinity + payload := by
    rcases h with rfl | rfl
    · rw [Nat.add_assoc, Nat.add_mod_left, Nat.mod_eq_of_lt (by omega)]
    · rw [Nat.zero_add, Nat.mod_eq_of_lt (by omega)]
  have magnitude : (ofBits ((if negative then BinaryLayout.double.magnitudes else 0) +
      BinaryLayout.double.infinity + payload) : Double).magnitude =
        BinaryLayout.double.infinity + payload := fields _ (by cases negative <;> simp)
  rw [quantity, isNaN, magnitude, if_pos (by simpa using positive)]

/-- A wider float holds every number of a narrower one, also those with places below the least
exponent of normal ones. -/
theorem single_quantity_convert (x : Single) : (x.convert : Double).quantity = x.quantity := by
  rw [convert, quantity.eq_1 x]
  split
  next nan =>
    have quiet : 0 < 2 ^ (BinaryLayout.double.fractionBits - 1) := Nat.two_pow_pos _
    have payload : x.magnitude % 2 ^ BinaryLayout.single.fractionBits *
        2 ^ BinaryLayout.double.fractionBits / 2 ^ BinaryLayout.single.fractionBits < 2 ^ 52 := by
      have single : BinaryLayout.single.fractionBits = 23 := rfl
      have double : BinaryLayout.double.fractionBits = 52 := rfl
      rw [single, double]
      omega
    exact double_quantity_nan x.negative (Nat.lt_of_lt_of_le quiet Nat.right_le_or)
      (Nat.or_lt_two_pow payload (by decide))
  next notNan =>
    split
    next =>
      have fields : (infinite x.negative : Double).magnitude = BinaryLayout.double.infinity := rfl
      rw [quantity, isNaN, isInfinite, fields, if_neg (by simp), if_pos (by simp)]
      rfl
    next finite =>
      have below : x.magnitude < BinaryLayout.single.infinity := by
        have nan : x.magnitude ≤ BinaryLayout.single.infinity := by simpa [isNaN] using notNan
        have infinite : x.magnitude ≠ BinaryLayout.single.infinity := by
          simpa [isInfinite] using finite
        omega
      obtain ⟨short, low, high⟩ := single_scaled_bounds below
      have length (nonzero : x.scaled.1 ≠ 0) : x.scaled.1.log2 < 24 :=
        (Nat.log2_lt nonzero).mpr short
      have least : BinaryLayout.double.leastExponent = -1074 := by decide
      have fraction : BinaryLayout.double.fractionBits = 52 := rfl
      have power : (2 : Int) ^ (BinaryLayout.double.exponentBits - 1) = 1024 := by decide
      rw [ratio_eq, quantity_ofRatio (by decide) x.negative]
      · rfl
      · rw [fraction]
        omega
      · intro nonzero
        rw [least, fraction]
        omega
      · intro nonzero
        have := length nonzero
        rw [power]
        omega

end Binary

end PlanSql
