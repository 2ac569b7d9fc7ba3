import PlanSql.Uuid
import PlanSql.Proofs.ConstantText

namespace PlanSql

theorem readDecimal_append (s t : List Char) :
    readDecimal (s ++ t) = 10 ^ t.length * readDecimal s + readDecimal t := by
  rw [readDecimal, Nat.ofDigitChars_append, Nat.ofDigitChars_eq_ofDigitChars_zero]
  rfl

theorem readDecimal_cons (c : Char) (s : List Char) :
    readDecimal (c :: s) = 10 ^ s.length * (c.toNat - 48) + readDecimal s := by
  rw [← List.singleton_append, readDecimal_append]
  simp [readDecimal, Nat.ofDigitChars_cons]

theorem readDecimal_paddedDigits (width n : Nat) : readDecimal (paddedDigits width n) = n := by
  rw [paddedDigits, readDecimal_append, readDecimal_decimalDigits]
  simp [readDecimal]

theorem decimalDigits_ne_nil (n : Nat) : decimalDigits n ≠ [] := Nat.toDigits_ne_nil

theorem paddedDigits_ne_nil (width n : Nat) : paddedDigits width n ≠ [] := by
  simp [paddedDigits, decimalDigits_ne_nil]

theorem length_paddedDigits (width n : Nat) :
    (paddedDigits width n).length = max width (decimalDigits n).length := by
  simp only [paddedDigits, List.length_append, List.length_replicate]
  omega

theorem length_paddedDigits_of_lt {width n : Nat} (hw : 0 < width) (h : n < 10 ^ width) :
    (paddedDigits width n).length = width := by
  have short : (decimalDigits n).length ≤ width :=
    (Nat.length_toDigits_le_iff (by decide) hw).mpr h
  rw [length_paddedDigits]
  omega

theorem readDecimal_lt {s : List Char} (h : ∀ c ∈ s, c.isDigit = true) :
    readDecimal s < 10 ^ s.length := by
  induction s with
  | nil => decide
  | cons c s ih =>
    have digit := Char.isDigit_iff_toNat.mp (h c List.mem_cons_self)
    have below : c.toNat - 48 ≤ 9 := Nat.sub_le_of_le_add digit.2
    have rest := ih fun d hd => h d (List.mem_cons_of_mem c hd)
    calc readDecimal (c :: s) = 10 ^ s.length * (c.toNat - 48) + readDecimal s :=
          readDecimal_cons c s
      _ < 10 ^ s.length * 9 + 10 ^ s.length :=
        Nat.add_lt_add_of_le_of_lt (Nat.mul_le_mul_left _ below) rest
      _ = 10 ^ (c :: s).length := by rw [List.length_cons, Nat.pow_succ]; omega

/-- Only zeros denote zero. -/
theorem eq_zero_of_readDecimal {s : List Char} (h : ∀ c ∈ s, c.isDigit = true)
    (zero : readDecimal s = 0) : s = List.replicate s.length '0' := by
  induction s with
  | nil => rfl
  | cons c s ih =>
    have digit := Char.isDigit_iff_toNat.mp (h c List.mem_cons_self)
    rw [readDecimal_cons, Nat.add_eq_zero_iff, Nat.mul_eq_zero] at zero
    have first : c.toNat - 48 = 0 := zero.1.resolve_left (Nat.pow_pos (by decide)).ne'
    obtain rfl : c = '0' :=
      Char.toNat_inj.mp (Nat.le_antisymm (Nat.sub_eq_zero_iff_le.mp first) digit.1)
    have rest := ih (fun d hd => h d (List.mem_cons_of_mem _ hd)) zero.2
    rw [List.length_cons, List.replicate_succ, ← rest]

/-- A number begins with a zero only if it is zero. -/
theorem decimalDigits_head?_ne {n : Nat} (h : n ≠ 0) : (decimalDigits n).head? ≠ some '0' := by
  induction n using Nat.strong_induction_on with
  | h n ih =>
    by_cases small : n < 10
    · rw [decimalDigits, Nat.toDigits_of_lt_base small]
      simpa using h
    · have front := ih (n / 10) (by omega) (by omega)
      rw [decimalDigits, Nat.toDigits_of_base_le (by decide) (by omega),
        List.head?_append_of_ne_nil _ Nat.toDigits_ne_nil]
      exact front

namespace Numeral

theorem isJson_decimalDigits (negative : Bool) (n : Nat) :
    isJson ⟨negative, decimalDigits n, none, none⟩ = true := by
  obtain ⟨c, s, hc⟩ := List.exists_cons_of_ne_nil (decimalDigits_ne_nil n)
  by_cases zero : n = 0
  · rw [zero]
    rfl
  · have first := decimalDigits_head?_ne zero
    rw [hc] at first ⊢
    have nonzero : c ≠ '0' := by simpa using first
    unfold isJson
    dsimp only
    split
    next e => cases e
    next e => exact absurd (List.cons.inj e).1 nonzero
    next _ e =>
      obtain rfl := (List.cons.inj e).1
      simpa using nonzero

theorem unsigned?_decimalDigits (negative : Bool) (n : Nat) :
    unsigned? negative (decimalDigits n) = some ⟨negative, decimalDigits n, none, none⟩ := by
  have digits : ∀ c ∈ decimalDigits n, c.isDigit = true := fun c => isDigit_of_mem_decimalDigits
  have stop : ∀ c ∈ ([] : List Char).head?, c.isDigit = false := by simp
  have split := Piece.splitWhile_of_boundary digits stop
  rw [List.append_nil] at split
  rw [unsigned?, split]

/-- The parts of a whole number's text. -/
theorem json?_integerText (n : Int) :
    json? (integerText n) = some ⟨decide (n < 0), decimalDigits n.natAbs, none, none⟩ := by
  have parts := unsigned?_decimalDigits (decide (n < 0)) n.natAbs
  have valid := isJson_decimalDigits (decide (n < 0)) n.natAbs
  unfold integerText
  split
  next neg =>
    rw [decide_eq_true neg] at parts valid ⊢
    simp [json?, parts, valid]
  next pos =>
    rw [decide_eq_false pos] at parts valid ⊢
    obtain ⟨c, s, hc⟩ := List.exists_cons_of_ne_nil (decimalDigits_ne_nil n.natAbs)
    have unsigned : c ≠ '-' := by
      rintro rfl
      cases isDigit_of_mem_decimalDigits (n := n.natAbs) (by rw [hc]; exact List.mem_cons_self)
    rw [hc] at parts valid ⊢
    unfold json?
    split
    next e => exact absurd (List.cons.inj e).1 unsigned
    next => simp [parts, valid]

end Numeral

/-- The numbers that JSON texts hold as whole ones. -/
def IsJsonInteger (n : Int) : Prop := -2 ^ 63 ≤ n ∧ n < 2 ^ 64

theorem JsonNumber.ofNumeral?_integer {n : Int} (h : IsJsonInteger n) :
    (Numeral.json? (integerText n)).bind JsonNumber.ofNumeral? = some (.integer n) := by
  obtain ⟨low, high⟩ := h
  rw [Numeral.json?_integerText, Option.bind_some, ofNumeral?, readDecimal_decimalDigits]
  by_cases neg : n < 0
  · have range : 0 < n.natAbs ∧ n.natAbs ≤ 2 ^ 63 := by omega
    have value : -(n.natAbs : Int) = n := by omega
    simp [neg, range, -Nat.cast_natAbs, value]
  · have range : n.natAbs < 2 ^ 64 := by omega
    have value : (n.natAbs : Int) = n := by omega
    simp [neg, range, -Nat.cast_natAbs, value]

theorem hexValue?_hexDigit {n : Nat} (h : n < 16) : hexValue? (hexDigit n) = some n := by
  interval_cases n <;> rfl

theorem length_hexDigits (width n : Nat) : (hexDigits width n).length = width := by
  induction width generalizing n with
  | zero => rfl
  | succ width ih => rw [hexDigits, List.length_append, ih, List.length_singleton]

theorem isHex_of_mem_hexDigits {width n : Nat} {c : Char} (h : c ∈ hexDigits width n) :
    (hexValue? c).isSome = true := by
  induction width generalizing n with
  | zero => cases h
  | succ width ih =>
    rcases List.mem_append.mp h with front | last
    · exact ih front
    · rw [List.mem_singleton.mp last, hexValue?_hexDigit (Nat.mod_lt _ (by decide))]
      rfl

theorem readHex?_hexDigits (width n : Nat) :
    readHex? (hexDigits width n) = some (n % 16 ^ width) := by
  induction width generalizing n with
  | zero => simp [hexDigits, readHex?, Nat.mod_one]
  | succ width ih =>
    have last := hexValue?_hexDigit (Nat.mod_lt n (by decide : 16 > 0))
    unfold readHex? at ih ⊢
    rw [hexDigits, List.foldl_append, ih, List.foldl_cons, List.foldl_nil, Option.bind_some, last,
      Option.map_some, Nat.pow_succ', Nat.mod_mul, Nat.add_comm]

namespace Uuid

theorem ofDigits?_hexDigits (u : Uuid) : ofDigits? (hexDigits 32 u.bits.toNat) = some u := by
  have range : u.bits.toNat % 16 ^ 32 = u.bits.toNat := Nat.mod_eq_of_lt u.bits.isLt
  rw [ofDigits?, readHex?_hexDigits, range, Option.map_some, BitVec.ofNat_toNat, BitVec.setWidth_eq]

/-- The groups of the text, and what is read from them. -/
theorem grouped?_groups {a b c d e : List Char} (ha : a.length = 8) (hb : b.length = 4)
    (hc : c.length = 4) (hd : d.length = 4) (he : e.length = 12) :
    grouped? (a ++ '-' :: (b ++ '-' :: (c ++ '-' :: (d ++ '-' :: e)))) =
      ofDigits? (a ++ b ++ c ++ d ++ e) := by
  unfold grouped?
  rw [if_pos]
  · simp (disch := omega) [List.drop_append, List.drop_of_length_le, ha, hb, hc, hd]
  · simp (disch := omega) only [List.getElem?_append_right, List.getElem?_cons_succ, ha, hb, hc, hd,
      Nat.reduceSub]
    simp [ha, hb, hc, hd, he]

theorem read?_text (u : Uuid) : read? u.text = some u := by
  have digits := ofDigits?_hexDigits u
  have length := length_hexDigits 32 u.bits.toNat
  have hex (c : Char) (hc : c ∈ hexDigits 32 u.bits.toNat) := isHex_of_mem_hexDigits hc
  unfold text
  generalize hexDigits 32 u.bits.toNat = ds at digits length hex
  dsimp only
  have groups : ds.take 8 ++ (ds.drop 8).take 4 ++ (ds.drop 12).take 4 ++ (ds.drop 16).take 4 ++
      ds.drop 20 = ds := by
    have cut (k : Nat) : (ds.drop k).take 4 ++ ds.drop (k + 4) = ds.drop k := by
      rw [← List.drop_drop, List.take_append_drop]
    rw [List.append_assoc, List.append_assoc, List.append_assoc, cut 16, cut 12, cut 8,
      List.take_append_drop]
  have read := grouped?_groups (a := ds.take 8) (b := (ds.drop 8).take 4)
    (c := (ds.drop 12).take 4) (d := (ds.drop 16).take 4) (e := ds.drop 20) (by simp [length])
    (by simp [length]) (by simp [length]) (by simp [length]) (by simp [length])
  rw [groups, digits] at read
  obtain ⟨c, s, rfl⟩ : ∃ c s, ds = c :: s := List.exists_cons_of_length_pos (by omega)
  -- A text of another form would begin with a letter that is no digit.
  have first : 'u' ≠ c := by
    rintro rfl
    exact absurd (hex 'u' List.mem_cons_self) (by decide)
  have other_form : ∀ r, dropHead? "urn:uuid:".toList (c :: r) = none := fun r => by
    simp [dropHead?, first]
  have total : ((c :: s).take 8 ++ '-' :: (((c :: s).drop 8).take 4 ++ '-' ::
      (((c :: s).drop 12).take 4 ++ '-' :: (((c :: s).drop 16).take 4 ++ '-' ::
        (c :: s).drop 20)))).length = 36 := by
    have : s.length = 31 := by simpa using length
    simp [this]
  rw [read?, if_neg (by omega), if_neg (by rw [total]; simp)]
  rw [List.take_succ_cons, List.cons_append] at read ⊢
  rw [other_form]
  exact read

end Uuid

namespace Decimal

/-- Decimals of the same value. -/
def Same (x y : Decimal) : Prop :=
  x.scaled (max x.scale y.scale) = y.scaled (max x.scale y.scale)

theorem readFrom_digits {negative point started : Bool} {m s : Nat} {ds : List Char}
    (digits : ∀ c ∈ ds, c.isDigit = true) (bound : Nat.ofDigitChars 10 ds m < 2 ^ 96)
    (room : point = true → s + ds.length ≤ 28) (rest : List Char) :
    readFrom negative m s point started (ds ++ rest) =
      readFrom negative (Nat.ofDigitChars 10 ds m) (if point then s + ds.length else s) point
        (started || !ds.isEmpty) rest := by
  induction ds generalizing m s started with
  | nil => simp
  | cons c ds ih =>
    have digit := digits c List.mem_cons_self
    have step : Nat.ofDigitChars 10 (c :: ds) m =
        Nat.ofDigitChars 10 ds (10 * m + (c.toNat - 48)) := Nat.ofDigitChars_cons
    rw [step] at bound ⊢
    have next : 10 * m + (c.toNat - 48) < 2 ^ 96 := by
      refine Nat.lt_of_le_of_lt ?_ bound
      rw [Nat.ofDigitChars_eq_ofDigitChars_zero]
      exact Nat.le_trans (Nat.le_mul_of_pos_left _ (Nat.pow_pos (by decide))) (Nat.le_add_right ..)
    have full : ¬(point && decide (28 ≤ s)) = true := by
      simp only [Bool.and_eq_true, decide_eq_true_eq, not_and]
      intro hp
      have := room hp
      simp only [List.length_cons] at this
      omega
    have rest_room : point = true → (if point then s + 1 else s) + ds.length ≤ 28 := by
      intro hp
      have := room hp
      simp only [List.length_cons] at this
      rw [if_pos hp]
      omega
    rw [List.cons_append, readFrom, if_neg full, if_pos digit, if_pos next,
      ih (fun d hd => digits d (List.mem_cons_of_mem c hd)) bound rest_room]
    cases point <;> simp [Nat.add_assoc, Nat.add_comm 1]

/-- Zeros without room are left out. -/
theorem readFrom_zeros {negative : Bool} {m s : Nat} (k : Nat) (h : k = 0 ∨ s = 28) :
    readFrom negative m s true true (List.replicate k '0') = unsignedZero? negative m s := by
  cases k with
  | zero => rfl
  | succ k =>
    obtain rfl : s = 28 := h.resolve_left (Nat.succ_ne_zero k)
    rw [List.replicate_succ, readFrom, if_pos (by decide), roundedBy, if_pos]
    · rfl
    · simp

theorem ofParts?_eq {negative : Bool} {m s : Nat} (hm : m < 2 ^ 96) (hs : s ≤ 28) :
    ofParts? negative m s = some ⟨negative, m, s, hm, pow_excess_dvd hs m⟩ := dif_pos ⟨hm, hs⟩

/-- The digits of a decimal: those before the point, those after it for which there is room, and
zeros. -/
theorem exists_digits (x : Decimal) : ∃ whole front : List Char,
    x.text = (if x.negative then ['-'] else []) ++
      (whole ++ if x.scale = 0 then [] else '.' :: (front ++ List.replicate (x.scale - 28) '0')) ∧
    whole ≠ [] ∧ (∀ c ∈ whole ++ front, c.isDigit = true) ∧ front.length = min x.scale 28 ∧
    readDecimal (whole ++ front) * 10 ^ (x.scale - 28) = x.mantissa := by
  have digits (c : Char) (hc : c ∈ paddedDigits (x.scale + 1) x.mantissa) :=
    isDigit_of_mem_paddedDigits hc
  have value := readDecimal_paddedDigits (x.scale + 1) x.mantissa
  have long : x.scale + 1 ≤ (paddedDigits (x.scale + 1) x.mantissa).length := by
    rw [length_paddedDigits]
    omega
  unfold text
  generalize paddedDigits (x.scale + 1) x.mantissa = ds at digits value long
  dsimp only
  obtain ⟨whole, fraction, rfl, length⟩ : ∃ whole fraction, ds = whole ++ fraction ∧
      fraction.length = x.scale :=
    ⟨_, _, (List.take_append_drop (ds.length - x.scale) ds).symm, by rw [List.length_drop]; omega⟩
  obtain ⟨front, back, rfl, room⟩ : ∃ front back, fraction = front ++ back ∧
      front.length = min x.scale 28 :=
    ⟨_, _, (List.take_append_drop (min x.scale 28) fraction).symm, by
      rw [List.length_take]
      omega⟩
  rw [List.length_append] at length
  have rest : back.length = x.scale - 28 := by omega
  have back_digits : ∀ c ∈ back, c.isDigit = true := fun c hc => digits c (by simp [hc])
  rw [← List.append_assoc, readDecimal_append, rest] at value
  -- The mantissa is a multiple, so the digits behind it are zeros.
  have dvd : 10 ^ (x.scale - 28) ∣ readDecimal back := by
    rw [← Nat.dvd_add_right (Nat.dvd_mul_right _ (readDecimal (whole ++ front))), value]
    exact x.dvd_mantissa
  have zero : readDecimal back = 0 := Nat.eq_zero_of_dvd_of_lt dvd (by
    rw [← rest]
    exact readDecimal_lt back_digits)
  have zeros := eq_zero_of_readDecimal back_digits zero
  rw [rest] at zeros
  have cut : (whole ++ (front ++ back)).length - x.scale = whole.length := by
    simp only [List.length_append]
    omega
  refine ⟨whole, front, ?_, ?_, fun c hc => digits c ?_, room, ?_⟩
  · rw [cut, List.take_left, List.drop_left, List.append_assoc, ← zeros]
  · rintro rfl
    simp only [List.nil_append, List.length_append] at long
    omega
  · rw [← List.append_assoc]
    exact List.mem_append_left back hc
  · rw [Nat.mul_comm, ← value, zero, Nat.add_zero]

/-- The digits before a point and those after it, for which there is room. -/
theorem readFrom_parts {negative : Bool} {whole front : List Char} {scale : Nat}
    (nonempty : whole ≠ []) (digits : ∀ c ∈ whole ++ front, c.isDigit = true)
    (length : front.length = min scale 28) (bound : readDecimal (whole ++ front) < 2 ^ 96) :
    readFrom negative 0 0 false false (whole ++ if scale = 0 then [] else
      '.' :: (front ++ List.replicate (scale - 28) '0')) =
      unsignedZero? negative (readDecimal (whole ++ front)) (min scale 28) := by
  have whole_bound : Nat.ofDigitChars 10 whole 0 < 2 ^ 96 := by
    refine Nat.lt_of_le_of_lt ?_ bound
    rw [readDecimal_append]
    exact Nat.le_trans (Nat.le_mul_of_pos_left _ (Nat.pow_pos (by decide))) (Nat.le_add_right ..)
  have whole_digits : ∀ c ∈ whole, c.isDigit = true := fun c hc => digits c (by simp [hc])
  have front_digits : ∀ c ∈ front, c.isDigit = true := fun c hc => digits c (by simp [hc])
  have joined : Nat.ofDigitChars 10 front (Nat.ofDigitChars 10 whole 0) =
      readDecimal (whole ++ front) := (Nat.ofDigitChars_append 0).symm
  have started : (false || !whole.isEmpty) = true := by simpa using nonempty
  rw [readFrom_digits whole_digits whole_bound (by simp), ← joined, started,
    if_neg Bool.false_ne_true]
  split
  next empty =>
    obtain rfl : front = [] := List.eq_nil_of_length_eq_zero (by omega)
    rw [empty]
    rfl
  next filled =>
    have point (rest : List Char) : readFrom negative (Nat.ofDigitChars 10 whole 0) 0 false true
        ('.' :: rest) = readFrom negative (Nat.ofDigitChars 10 whole 0) 0 true true rest := by
      simp [readFrom]
    have room : true = true → 0 + front.length ≤ 28 := by omega
    rw [point, readFrom_digits front_digits (by rwa [joined]) room, if_pos rfl, Bool.true_or,
      Nat.zero_add, length]
    exact readFrom_zeros _ (by omega)

theorem readPlain?_signed (negative : Bool) {c : Char} (digit : c.isDigit = true) (s : List Char) :
    readPlain? ((if negative then ['-'] else []) ++ c :: s) =
      readFrom negative 0 0 false false (c :: s) := by
  cases negative with
  | true => rfl
  | false =>
    have unsigned : c ≠ '-' ∧ c ≠ '+' := by
      constructor <;> (rintro rfl; cases digit)
    rw [if_neg Bool.false_ne_true, List.nil_append, readPlain?]
    · exact fun _ e => unsigned.1 (List.cons.inj e).1
    · exact fun _ e => unsigned.2 (List.cons.inj e).1

theorem read?_text (x : Decimal) : ∃ y, read? x.text = some y ∧ y.Same x := by
  obtain ⟨whole, front, text, nonempty, digits, length, value⟩ := x.exists_digits
  have bound : readDecimal (whole ++ front) < 2 ^ 96 := by
    refine Nat.lt_of_le_of_lt ?_ x.mantissa_lt
    rw [← value]
    exact Nat.le_mul_of_pos_right _ (Nat.pow_pos (by decide))
  have plain : readPlain? x.text =
      unsignedZero? x.negative (readDecimal (whole ++ front)) (min x.scale 28) := by
    obtain ⟨c, s, rfl⟩ := List.exists_cons_of_ne_nil nonempty
    rw [text, ← readFrom_parts nonempty digits length bound, List.cons_append]
    exact readPlain?_signed x.negative (digits c (by simp)) _
  rw [read?, plain, unsignedZero?, ofParts?_eq bound (Nat.min_le_right ..)]
  refine ⟨_, rfl, ?_⟩
  have scale : max (min x.scale 28) x.scale = x.scale := by omega
  have excess : x.scale - min x.scale 28 = x.scale - 28 := by omega
  simp only [Same, scaled, scale, excess, value, Nat.sub_self, Nat.pow_zero, Nat.mul_one]
  by_cases zero : readDecimal (whole ++ front) = 0
  · -- A zero is read without its sign.
    have zeroMantissa : x.mantissa = 0 := by rw [← value, zero, Nat.zero_mul]
    simp [zeroMantissa]
  · simp [zero]

end Decimal

end PlanSql
