import PlanSql.Proofs.FloatConversion
import PlanSql.Proofs.IntervalReading
import PlanSql.Proofs.MutationText

namespace PlanSql

theorem signed_cases (s : List Char) : (∃ body, s = '-' :: body) ∨ (∃ body, s = '+' :: body) ∨
    ∀ c ∈ s.head?, c ≠ '-' ∧ c ≠ '+' := by
  rcases s with _ | ⟨c, body⟩
  · exact .inr (.inr (by simp))
  by_cases minus : c = '-'
  · exact .inl ⟨body, by rw [minus]⟩
  by_cases plus : c = '+'
  · exact .inr (.inl ⟨body, by rw [plus]⟩)
  · refine .inr (.inr ?_)
    rintro d ⟨⟩
    exact ⟨minus, plus⟩

theorem unsigned_of_digits {ds : List Char} (digits : ∀ c ∈ ds, c.isDigit = true) :
    ∀ c ∈ ds.head?, c ≠ '-' ∧ c ≠ '+' := fun c hc =>
  ne_sign_of_isDigit (digits c (List.mem_of_head? hc))

/-- At least one digit behind at most one sign, and the integer that they denote. -/
inductive WritesInteger : List Char → Int → Prop
  | plain {ds : List Char} (nonempty : ds ≠ []) (digits : ∀ c ∈ ds, c.isDigit = true) :
    WritesInteger ds (readDecimal ds)
  | plus {ds : List Char} (nonempty : ds ≠ []) (digits : ∀ c ∈ ds, c.isDigit = true) :
    WritesInteger ('+' :: ds) (readDecimal ds)
  | minus {ds : List Char} (nonempty : ds ≠ []) (digits : ∀ c ∈ ds, c.isDigit = true) :
    WritesInteger ('-' :: ds) (-(readDecimal ds : Int))

/-- A number of digits only. -/
def natural? (s : List Char) : Option Nat :=
  if s.isEmpty || !s.all Char.isDigit then none else some (readDecimal s)

theorem map_natural?_eq_some_iff {s : List Char} {f : Nat → Int} {n : Int} :
    (natural? s).map f = some n ↔
      s ≠ [] ∧ (∀ c ∈ s, c.isDigit = true) ∧ f (readDecimal s) = n := by
  rw [← List.all_eq_true, natural?]
  split
  next refused =>
    refine iff_of_false nofun ?_
    rintro ⟨nonempty, digits, -⟩
    simp [nonempty, digits] at refused
  next read =>
    simp only [Bool.or_eq_true, List.isEmpty_iff, Bool.not_eq_true', not_or,
      Bool.not_eq_false] at read
    simp [read]

theorem readInteger?_minus (s : List Char) :
    readInteger? ('-' :: s) = (natural? s).map fun n : Nat => -(n : Int) := by
  by_cases refused : (s.isEmpty || !s.all Char.isDigit) = true <;>
    simp [readInteger?, natural?, refused]

theorem readInteger?_plus (s : List Char) :
    readInteger? ('+' :: s) = (natural? s).map fun n : Nat => (n : Int) := by
  by_cases refused : (s.isEmpty || !s.all Char.isDigit) = true <;>
    simp [readInteger?, natural?, refused]

theorem readInteger?_unsigned {s : List Char} (h : ∀ c ∈ s.head?, c ≠ '-' ∧ c ≠ '+') :
    readInteger? s = (natural? s).map fun n : Nat => (n : Int) := by
  unfold readInteger?
  dsimp only
  split
  next => exact absurd rfl (h '-' rfl).1
  next => exact absurd rfl (h '+' rfl).2
  next =>
    unfold natural?
    split <;> rfl

theorem readInteger?_eq_some_iff {s : List Char} {n : Int} :
    readInteger? s = some n ↔ WritesInteger s n := by
  constructor
  · intro h
    rcases signed_cases s with ⟨ds, rfl⟩ | ⟨ds, rfl⟩ | unsigned
    · rw [readInteger?_minus] at h
      obtain ⟨nonempty, digits, rfl⟩ := map_natural?_eq_some_iff.mp h
      exact .minus nonempty digits
    · rw [readInteger?_plus] at h
      obtain ⟨nonempty, digits, rfl⟩ := map_natural?_eq_some_iff.mp h
      exact .plus nonempty digits
    · rw [readInteger?_unsigned unsigned] at h
      obtain ⟨nonempty, digits, rfl⟩ := map_natural?_eq_some_iff.mp h
      exact .plain nonempty digits
  · intro h
    cases h with
    | plain nonempty digits =>
      rw [readInteger?_unsigned (unsigned_of_digits digits), map_natural?_eq_some_iff]
      exact ⟨nonempty, digits, rfl⟩
    | plus nonempty digits =>
      rw [readInteger?_plus, map_natural?_eq_some_iff]
      exact ⟨nonempty, digits, rfl⟩
    | minus nonempty digits =>
      rw [readInteger?_minus, map_natural?_eq_some_iff]
      exact ⟨nonempty, digits, rfl⟩

theorem WritesInteger.mem {s : List Char} {n : Int} (h : WritesInteger s n) {c : Char}
    (hc : c ∈ s) : c.isDigit = true ∨ c = '+' ∨ c = '-' := by
  cases h with
  | plain _ digits => exact .inl (digits c hc)
  | plus _ digits =>
    rcases List.mem_cons.mp hc with rfl | hc
    · exact .inr (.inl rfl)
    · exact .inl (digits c hc)
  | minus _ digits =>
    rcases List.mem_cons.mp hc with rfl | hc
    · exact .inr (.inr rfl)
    · exact .inl (digits c hc)

theorem count_minus_digits {ds : List Char} (digits : ∀ c ∈ ds, c.isDigit = true) :
    ds.count '-' = 0 :=
  List.count_eq_zero_of_not_mem fun mem => by simpa using digits _ mem

theorem WritesInteger.count_minus_le {s : List Char} {n : Int} (h : WritesInteger s n) :
    s.count '-' ≤ 1 := by
  cases h with
  | plain _ digits => simp [count_minus_digits digits]
  | plus _ digits => simp [count_minus_digits digits]
  | minus _ digits => simp [count_minus_digits digits]

namespace Numeral

variable {n : Numeral} {s : List Char}

/-- The power of ten behind `e`, if there is one. -/
inductive PowerText : Option Int → List Char → Prop
  | absent : PowerText none []
  | present {c : Char} {t : List Char} {e : Int} (mark : c = 'e' ∨ c = 'E')
    (power : WritesInteger t e) : PowerText (some e) (c :: t)

def fractionText : Option (List Char) → List Char
  | none => []
  | some ds => '.' :: ds

/-- The parts of a number stand one after the other, its fraction behind a point. -/
def IsWritten (n : Numeral) (s : List Char) : Prop :=
  ∃ power, s = n.whole ++ (fractionText n.fraction ++ power) ∧
    (∀ c ∈ n.whole, c.isDigit = true) ∧ (∀ c ∈ n.fraction.getD [], c.isDigit = true) ∧
    PowerText n.exponent power

def cutFraction : List Char → Option (List Char) × List Char
  | '.' :: rest => (some (splitWhile Char.isDigit rest).1, (splitWhile Char.isDigit rest).2)
  | rest => (none, rest)

def power? : List Char → Option (Option Int)
  | [] => some none
  | c :: rest => if c = 'e' || c = 'E' then (exponentOf? rest).map some else none

/-- The parts are cut off one after the other. -/
theorem unsigned?_eq (negative : Bool) (s : List Char) : unsigned? negative s =
    (power? (cutFraction (splitWhile Char.isDigit s).2).2).map fun e =>
      ⟨negative, (splitWhile Char.isDigit s).1,
        (cutFraction (splitWhile Char.isDigit s).2).1, e⟩ := by
  have ending (whole : List Char) (fraction : Option (List Char)) (rest : List Char) :
      (match rest with
      | [] => some (⟨negative, whole, fraction, none⟩ : Numeral)
      | c :: rest =>
        if c = 'e' || c = 'E' then
          (exponentOf? rest).map fun e => ⟨negative, whole, fraction, some e⟩
        else none) = (power? rest).map fun e => ⟨negative, whole, fraction, e⟩ := by
    cases rest with
    | nil => rfl
    | cons c rest =>
      unfold power?
      dsimp only
      split
      · rw [Option.map_map]
        rfl
      · rfl
  unfold unsigned?
  generalize splitWhile Char.isDigit s = parts
  obtain ⟨whole, rest⟩ := parts
  dsimp only
  rw [← ending]
  rfl

theorem power?_eq_some_iff {e : Option Int} : power? s = some e ↔ PowerText e s := by
  constructor
  · intro h
    cases s with
    | nil =>
      cases h
      exact .absent
    | cons c s =>
      rw [power?] at h
      split at h
      next mark =>
        obtain ⟨k, power, rfl⟩ := Option.map_eq_some_iff.mp h
        exact .present (by simpa using mark) (readInteger?_eq_some_iff.mp power)
      next => cases h
  · rintro (_ | ⟨mark, power⟩)
    · rfl
    · rw [power?, if_pos (by simpa using mark), exponentOf?, readInteger?_eq_some_iff.mpr power]
      rfl

theorem PowerText.head? {e : Option Int} (h : PowerText e s) :
    ∀ c ∈ s.head?, c.isDigit = false ∧ c ≠ '.' := by
  cases h with
  | absent => simp
  | present mark _ =>
    rintro c ⟨⟩
    rcases mark with rfl | rfl <;> decide

theorem cutFraction_append {fraction : Option (List Char)} {power : List Char}
    (digits : ∀ c ∈ fraction.getD [], c.isDigit = true)
    (behind : ∀ c ∈ power.head?, c.isDigit = false ∧ c ≠ '.') :
    cutFraction (fractionText fraction ++ power) = (fraction, power) := by
  cases fraction with
  | none =>
    rw [fractionText, List.nil_append]
    unfold cutFraction
    split
    next => exact absurd rfl (behind '.' rfl).2
    next => rfl
  | some ds =>
    have cut := Piece.splitWhile_of_boundary digits fun c hc => (behind c hc).1
    rw [Option.getD_some] at cut
    rw [fractionText, List.cons_append, cutFraction, cut]

theorem cutFraction_spec (s : List Char) :
    fractionText (cutFraction s).1 ++ (cutFraction s).2 = s ∧
      ∀ c ∈ (cutFraction s).1.getD [], c.isDigit = true := by
  unfold cutFraction
  split
  next rest =>
    exact ⟨congrArg _ (Piece.splitWhile_append _ rest), Piece.splitWhile_inside _ rest⟩
  next => exact ⟨rfl, by simp⟩

theorem unsigned?_eq_some_iff {negative : Bool} :
    unsigned? negative s = some n ↔ n.negative = negative ∧ n.IsWritten s := by
  rw [unsigned?_eq]
  constructor
  · intro h
    obtain ⟨e, power, rfl⟩ := Option.map_eq_some_iff.mp h
    obtain ⟨text, digits⟩ := cutFraction_spec (splitWhile Char.isDigit s).2
    refine ⟨rfl, _, ?_, Piece.splitWhile_inside _ s, digits, power?_eq_some_iff.mp power⟩
    rw [text]
    exact (Piece.splitWhile_append _ s).symm
  · rintro ⟨rfl, power, rfl, whole, fraction, exponent⟩
    have cut := cutFraction_append fraction exponent.head?
    have boundary : ∀ c ∈ (fractionText n.fraction ++ power).head?, c.isDigit = false := by
      cases n.fraction with
      | none => exact fun c hc => (exponent.head? c hc).1
      | some ds =>
        rintro c ⟨⟩
        rfl
    rw [Piece.splitWhile_of_boundary whole boundary]
    dsimp only
    rw [cut, power?_eq_some_iff.mpr exponent]
    rfl

theorem PowerText.count_minus_le {e : Option Int} (h : PowerText e s) : s.count '-' ≤ 1 := by
  cases h with
  | absent => simp
  | present mark power =>
    have count := power.count_minus_le
    rcases mark with rfl | rfl <;> simpa using count

theorem IsWritten.count_minus_le (h : n.IsWritten s) : s.count '-' ≤ 1 := by
  obtain ⟨power, rfl, whole, fraction, exponent⟩ := h
  have point : (fractionText n.fraction).count '-' = 0 := by
    cases written : n.fraction with
    | none => rfl
    | some ds =>
      rw [written] at fraction
      simpa [fractionText] using count_minus_digits fraction
  have rest := exponent.count_minus_le
  rw [List.count_append, List.count_append, count_minus_digits whole, point]
  omega

theorem IsWritten.first (h : n.IsWritten s) (hd : n.hasDigit = true) :
    ∃ c t, s = c :: t ∧ (c.isDigit = true ∨ c = '.') := by
  obtain ⟨power, rfl, whole, fraction, -⟩ := h
  cases front : n.whole with
  | cons c ds =>
    rw [front] at whole
    exact ⟨c, _, rfl, .inl (whole c List.mem_cons_self)⟩
  | nil =>
    cases behind : n.fraction with
    | none => simp [hasDigit, front, behind] at hd
    | some ds => exact ⟨'.', _, rfl, .inr rfl⟩

end Numeral

/-- The names of infinity and of what is no number, in any case. -/
def IsNumberName (s : List Char) : Prop :=
  s.map Char.toLower = "inf".toList ∨ s.map Char.toLower = "infinity".toList ∨
    s.map Char.toLower = "nan".toList

def IsUnsignedNumber (s : List Char) : Prop :=
  IsNumberName s ∨ ∃ n : Numeral, n.IsWritten s ∧ n.hasDigit = true

/-- A name or a numeral with a digit, behind at most one sign. -/
def IsNumber (s : List Char) : Prop :=
  ∃ sign body, s = sign ++ body ∧ (sign = [] ∨ sign = ['+'] ∨ sign = ['-']) ∧ IsUnsignedNumber body

theorem IsNumberName.first {s : List Char} (h : IsNumberName s) :
    ∃ c t, s = c :: t ∧ (c.toLower = 'i' ∨ c.toLower = 'n') := by
  rcases s with _ | ⟨c, t⟩
  · rcases h with h | h | h <;> cases h
  · rw [IsNumberName, List.map_cons] at h
    rcases h with h | h | h
    · exact ⟨c, t, rfl, .inl (List.cons.inj h).1⟩
    · exact ⟨c, t, rfl, .inl (List.cons.inj h).1⟩
    · exact ⟨c, t, rfl, .inr (List.cons.inj h).1⟩

theorem IsNumberName.length_le {s : List Char} (h : IsNumberName s) : s.length ≤ 8 := by
  rw [← List.length_map (f := Char.toLower)]
  rcases h with h | h | h <;> rw [h] <;> decide

theorem IsNumberName.count_minus {s : List Char} (h : IsNumberName s) : s.count '-' = 0 := by
  refine List.count_eq_zero_of_not_mem fun mem => ?_
  have lower : '-' ∈ s.map Char.toLower := List.mem_map.mpr ⟨'-', mem, by decide⟩
  rcases h with h | h | h <;> rw [h] at lower <;> revert lower <;> decide

theorem IsUnsignedNumber.head? {s : List Char} (h : IsUnsignedNumber s) :
    ∀ c ∈ s.head?, c ≠ '-' ∧ c ≠ '+' := by
  rcases h with name | ⟨n, written, hd⟩
  · obtain ⟨c, t, rfl, first⟩ := name.first
    rintro d ⟨⟩
    constructor <;> (rintro rfl; revert first; decide)
  · obtain ⟨c, t, rfl, first⟩ := written.first hd
    rintro d ⟨⟩
    constructor <;> (rintro rfl; revert first; decide)

theorem IsUnsignedNumber.count_minus_le {s : List Char} (h : IsUnsignedNumber s) :
    s.count '-' ≤ 1 := by
  rcases h with name | ⟨n, written, -⟩
  · simp [name.count_minus]
  · exact written.count_minus_le

theorem IsNumber.count_minus_le {s : List Char} (h : IsNumber s) : s.count '-' ≤ 2 := by
  obtain ⟨sign, body, rfl, mark, number⟩ := h
  have signs : sign.count '-' ≤ 1 := by rcases mark with rfl | rfl | rfl <;> decide
  have rest := number.count_minus_le
  rw [List.count_append]
  omega

theorem WritesInteger.isNumber {s : List Char} {n : Int} (h : WritesInteger s n) :
    IsNumber s := by
  have number {ds : List Char} (nonempty : ds ≠ []) (digits : ∀ c ∈ ds, c.isDigit = true) :
      IsUnsignedNumber ds :=
    .inr ⟨⟨false, ds, none, none⟩, ⟨[], by simp [Numeral.fractionText], digits, by simp, .absent⟩,
      by simp [Numeral.hasDigit, nonempty]⟩
  cases h with
  | plain nonempty digits => exact ⟨[], s, rfl, .inl rfl, number nonempty digits⟩
  | @plus ds nonempty digits => exact ⟨['+'], ds, rfl, .inr (.inl rfl), number nonempty digits⟩
  | @minus ds nonempty digits => exact ⟨['-'], ds, rfl, .inr (.inr rfl), number nonempty digits⟩

namespace Binary

variable {l : BinaryLayout}

/-- Reads a number without its sign. -/
def unsigned? (negative : Bool) (s : List Char) : Option (Binary l) :=
  if s.map Char.toLower = "inf".toList || s.map Char.toLower = "infinity".toList then
    some (infinite negative)
  else if s.map Char.toLower = "nan".toList then some (nan negative)
  else ((Numeral.unsigned? negative s).filter Numeral.hasDigit).map ofNumeral

theorem read?_minus (s : List Char) :
    (read? ('-' :: s) : Option (Binary l)) = unsigned? true s := rfl

theorem read?_plus (s : List Char) :
    (read? ('+' :: s) : Option (Binary l)) = unsigned? false s := rfl

theorem read?_unsigned {s : List Char} (h : ∀ c ∈ s.head?, c ≠ '-' ∧ c ≠ '+') :
    (read? s : Option (Binary l)) = unsigned? false s := by
  unfold read?
  dsimp only
  split
  next => exact absurd rfl (h '-' rfl).1
  next => exact absurd rfl (h '+' rfl).2
  next => rfl

theorem unsigned?_of_not_name {negative : Bool} {s : List Char} (h : ¬IsNumberName s) :
    (unsigned? negative s : Option (Binary l)) =
      ((Numeral.unsigned? negative s).filter Numeral.hasDigit).map ofNumeral := by
  rw [IsNumberName, not_or, not_or] at h
  have front : ¬(decide (s.map Char.toLower = "inf".toList) ||
      decide (s.map Char.toLower = "infinity".toList)) = true := by
    rw [Bool.or_eq_true, decide_eq_true_eq, decide_eq_true_eq, not_or]
    exact ⟨h.1, h.2.1⟩
  rw [unsigned?, if_neg front, if_neg h.2.2]

theorem isSome_unsigned?_of_name {negative : Bool} {s : List Char} (h : IsNumberName s) :
    (unsigned? negative s : Option (Binary l)).isSome = true := by
  unfold unsigned?
  split
  next => rfl
  next other =>
    rw [if_pos]
    · rfl
    · simp only [Bool.or_eq_true, decide_eq_true_eq, not_or] at other
      exact (h.resolve_left other.1).resolve_left other.2

theorem isSome_unsigned?_iff {negative : Bool} {s : List Char} :
    (unsigned? negative s : Option (Binary l)).isSome = true ↔ IsUnsignedNumber s := by
  by_cases name : IsNumberName s
  · exact iff_of_true (isSome_unsigned?_of_name name) (.inl name)
  rw [unsigned?_of_not_name name, Option.isSome_map]
  constructor
  · intro h
    obtain ⟨n, found⟩ := Option.isSome_iff_exists.mp h
    obtain ⟨read, hd⟩ := Option.filter_eq_some_iff.mp found
    exact .inr ⟨n, (Numeral.unsigned?_eq_some_iff.mp read).2, hd⟩
  · rintro (other | ⟨n, written, hd⟩)
    · exact absurd other name
    · have read : Numeral.unsigned? negative s = some { n with negative } :=
        Numeral.unsigned?_eq_some_iff.mpr ⟨rfl, written⟩
      have digit : ({ n with negative } : Numeral).hasDigit = true := hd
      rw [read, Option.filter_some, if_pos digit]
      rfl

theorem isSome_read?_iff {s : List Char} :
    (read? s : Option (Binary l)).isSome = true ↔ IsNumber s := by
  constructor
  · intro h
    rcases signed_cases s with ⟨body, rfl⟩ | ⟨body, rfl⟩ | unsigned
    · rw [read?_minus, isSome_unsigned?_iff] at h
      exact ⟨['-'], body, rfl, .inr (.inr rfl), h⟩
    · rw [read?_plus, isSome_unsigned?_iff] at h
      exact ⟨['+'], body, rfl, .inr (.inl rfl), h⟩
    · rw [read?_unsigned unsigned, isSome_unsigned?_iff] at h
      exact ⟨[], s, rfl, .inl rfl, h⟩
  · rintro ⟨sign, body, rfl, rfl | rfl | rfl, number⟩
    · rw [List.nil_append, read?_unsigned number.head?, isSome_unsigned?_iff]
      exact number
    · rw [List.singleton_append, read?_plus, isSome_unsigned?_iff]
      exact number
    · rw [List.singleton_append, read?_minus, isSome_unsigned?_iff]
      exact number

/-- The integers that a double holds exactly. -/
def IsDoubleInteger (n : Int) : Prop :=
  n.natAbs < 2 ^ 1024 ∧ ∃ k e : Nat, k < 2 ^ 53 ∧ n.natAbs = k * 2 ^ e

theorem length_decimalDigits_le (n : Nat) : (decimalDigits n).length ≤ n.log2 / 3 + 1 := by
  refine (Nat.length_toDigits_le_iff (by decide) (Nat.succ_pos _)).mpr ?_
  calc n < 2 ^ (n.log2 + 1) := Nat.lt_log2_self
    _ ≤ 2 ^ (3 * (n.log2 / 3 + 1)) := Nat.pow_le_pow_right (by decide) (by omega)
    _ = (2 ^ 3) ^ (n.log2 / 3 + 1) := Nat.pow_mul ..
    _ ≤ 10 ^ (n.log2 / 3 + 1) := Nat.pow_le_pow_left (by decide) _

theorem double_quantity_whole {n : Int} (negative : Bool) (h : IsDoubleInteger n) :
    (ofDecimal negative n.natAbs 0 : Double).quantity =
      .number ((if negative then -1 else 1) * n.natAbs) := by
  obtain ⟨below, k, e, short, split⟩ := h
  by_cases zero : n.natAbs = 0
  · rw [ofDecimal, if_pos (by simp [zero]), quantity_ofRatio_zero (by decide), zero]
    simp
  · have log : n.natAbs.log2 < 1024 := (Nat.log2_lt zero).mpr below
    have length := length_decimalDigits_le n.natAbs
    have whole : (ofDecimal negative n.natAbs 0 : Double) =
        ofRatio negative (quotient k e).1 (quotient k e).2 := by
      rw [ofDecimal, if_neg (by simp [zero]), if_neg (by omega), if_pos (by omega), quotient,
        if_pos (by omega), split]
      simp
    have positive : k ≠ 0 := by
      rintro rfl
      simp [zero] at split
    have places : k.log2 + e < 1024 := by
      rwa [← log2_mul_two_pow positive, ← split]
    have least : BinaryLayout.double.leastExponent = -1074 := by decide
    have fraction : BinaryLayout.double.fractionBits = 52 := rfl
    have power : (2 : Int) ^ (BinaryLayout.double.exponentBits - 1) = 1024 := by decide
    rw [whole, quantity_ofRatio (by decide) negative]
    · rw [split, zpow_natCast, Nat.cast_mul, Nat.cast_pow, Nat.cast_ofNat]
    · rwa [fraction]
    · intro _
      rw [least, fraction]
      omega
    · intro _
      rw [power]
      omega

theorem unsigned?_digits {negative : Bool} {ds : List Char} (nonempty : ds ≠ [])
    (digits : ∀ c ∈ ds, c.isDigit = true) :
    (unsigned? negative ds : Option (Binary l)) = some (ofDecimal negative (readDecimal ds) 0) := by
  have not_name : ¬IsNumberName ds := by
    intro name
    obtain ⟨c, t, rfl, first⟩ := name.first
    have digit := digits c List.mem_cons_self
    rw [Mutation.toLower_of_isDigit digit] at first
    rcases first with rfl | rfl <;> cases digit
  have written : Numeral.unsigned? negative ds = some ⟨negative, ds, none, none⟩ :=
    Numeral.unsigned?_eq_some_iff.mpr
      ⟨rfl, [], by simp [Numeral.fractionText], digits, by simp, .absent⟩
  rw [unsigned?_of_not_name not_name, written, Option.filter_some,
    if_pos (by simp [Numeral.hasDigit, nonempty])]
  simp [ofNumeral]

/-- The text of an integer, whatever its length, is read as the double that holds it. -/
theorem double_read?_integer {s : List Char} {n : Int} (h : WritesInteger s n)
    (held : IsDoubleInteger n) : ∃ x : Double, read? s = some x ∧ x.quantity = .number n := by
  have value (negative : Bool) := double_quantity_whole negative held
  cases h with
  | plain nonempty digits =>
    have read := read?_unsigned (l := .double) (unsigned_of_digits digits)
    refine ⟨_, read.trans (unsigned?_digits nonempty digits), ?_⟩
    simpa using value false
  | plus nonempty digits =>
    refine ⟨_, (read?_plus _).trans (unsigned?_digits nonempty digits), ?_⟩
    simpa using value false
  | minus nonempty digits =>
    refine ⟨_, (read?_minus _).trans (unsigned?_digits nonempty digits), ?_⟩
    simpa using value true

end Binary

end PlanSql
