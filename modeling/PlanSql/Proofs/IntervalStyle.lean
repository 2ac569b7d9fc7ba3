import PlanSql.Proofs.IntervalReading

namespace PlanSql

namespace Interval

/-- The years, months and days, each with its unit. -/
def counted (i : Interval) : List (Int × String) :=
  [(i.months.toInt.tdiv 12, "year"), (i.months.toInt.tmod 12, "mon"), (i.days.toInt, "day")]

/-- The amounts of a length of time that are not zero, the microseconds last. -/
def amounts (i : Interval) : List Int :=
  (i.counted.map Prod.fst ++ [i.microseconds.toInt]).filter (· ≠ 0)

/-- What a text is made of. -/
inductive Part
  | count (n : Int) (unit : String)
  | clock (micros : Int)

def Part.amount : Part → Int
  | count n _ => n
  | clock micros => micros

/-- The counts that are not zero. -/
def shownCounts (i : Interval) : List Part :=
  (i.counted.filter fun c => c.1 ≠ 0).map fun c => .count c.1 c.2

/-- The clock comes last and is left out at zero, unless nothing else is shown. -/
def shownParts (i : Interval) : List Part :=
  if i.microseconds.toInt = 0 ∧ i.shownCounts ≠ [] then i.shownCounts
  else i.shownCounts ++ [.clock i.microseconds.toInt]

/-- A part that is not below zero has a sign only behind one that is. -/
def serverSign (behindNegative : Bool) (n : Int) : List Char :=
  if n < 0 then ['-'] else if behindNegative then ['+'] else []

/-- Hours, minutes and seconds, and millionths of them without the zeros at the end. -/
def serverClock (micros : Nat) : List Char :=
  let millionths := (paddedDigits 6 (micros % 1000000)).rdropWhile (· == '0')
  [':'].intercalate
      ([micros / 3600000000, micros / 60000000 % 60, micros / 1000000 % 60].map (paddedDigits 2)) ++
    if millionths = [] then [] else '.' :: millionths

def Part.serverText (behindNegative : Bool) : Part → List Char
  | count n unit => serverSign behindNegative n ++ decimalDigits n.natAbs ++
      ' ' :: (unit.toList ++ if n = 1 then [] else ['s'])
  | clock micros => serverSign behindNegative micros ++ serverClock micros.natAbs

/-- The texts of parts in turn, where the one before the first is below zero or not. -/
def serverTexts (behindNegative : Bool) : List Part → List (List Char)
  | [] => []
  | p :: ps => p.serverText behindNegative :: serverTexts (p.amount < 0) ps

/-- The text of a length of time in the server's default style. -/
def serverText (i : Interval) : List Char := [' '].intercalate (serverTexts false i.shownParts)

def Part.text : Part → List Char
  | count n unit => integerText n ++ ' ' :: (unit.toList ++ if n.natAbs = 1 then [] else ['s'])
  | clock micros => clockText micros

theorem counts_eq (i : Interval) : i.counts = i.shownCounts.map Part.text := by
  have one (n : Int) (unit : String) : countText n unit =
      (([(n, unit)].filter fun c => c.1 ≠ 0).map fun c => Part.count c.1 c.2).map Part.text := by
    by_cases zero : n = 0 <;> simp [countText, zero, Part.text]
  simp only [counts, one, ← List.map_append, ← List.filter_append]
  rfl

theorem parts_eq (i : Interval) : i.parts = i.shownParts.map Part.text := by
  have empty : i.counts.isEmpty = true ↔ i.shownCounts = [] := by
    rw [counts_eq, List.isEmpty_iff, List.map_eq_nil_iff]
  unfold shownParts
  split
  next hidden =>
    have omitted : ¬(i.microseconds.toInt != 0 || i.counts.isEmpty) = true := by
      simp [hidden, empty]
    have parts : i.parts = i.counts := if_neg omitted
    rw [parts, counts_eq]
  next shown =>
    have written : (i.microseconds.toInt != 0 || i.counts.isEmpty) = true := by
      rw [Bool.or_eq_true, empty]
      simpa [imp_iff_not_or] using shown
    have parts : i.parts = i.counts ++ [clockText i.microseconds.toInt] := if_pos written
    rw [parts, counts_eq, List.map_append]
    rfl

theorem serverClock_eq (n : Nat) : serverClock n = unsignedText n := by
  have hours : n / 3600000000 = n / 1000000 / 3600 := by omega
  have minutes : n / 60000000 = n / 1000000 / 60 := by omega
  have fraction : (if (paddedDigits 6 (n % 1000000)).rdropWhile (· == '0') = [] then []
      else '.' :: (paddedDigits 6 (n % 1000000)).rdropWhile (· == '0')) =
      fractionText (n % 1000000) := by
    rw [fractionText]
    by_cases zero : n % 1000000 = 0
    · rw [if_pos zero, zero, if_pos (by decide +kernel)]
    · rw [if_neg zero, if_neg]
      · rfl
      · intro empty
        have zeros : ∀ c ∈ paddedDigits 6 (n % 1000000), c = '0' := by
          simpa using List.rdropWhile_eq_nil_iff.mp empty
        have value := readDecimal_paddedDigits 6 (n % 1000000)
        rw [List.eq_replicate_of_mem zeros] at value
        exact zero (by simpa [readDecimal] using value.symm)
  simp only [serverClock, unsignedText, hours, minutes, fraction]
  simp

theorem integerText_eq (n : Int) :
    integerText n = (if n < 0 then ['-'] else []) ++ decimalDigits n.natAbs := by
  unfold integerText
  split <;> rfl

theorem sign_eq_serverSign_iff (behindNegative : Bool) (n : Int) :
    (if n < 0 then ['-'] else []) = serverSign behindNegative n ↔
      (behindNegative = true → n < 0) := by
  unfold serverSign
  by_cases below : n < 0 <;> cases behindNegative <;> simp [below]

theorem plural_eq_iff (n : Int) :
    ((if n.natAbs = 1 then [] else ['s']) = if n = 1 then [] else ['s']) ↔ n ≠ -1 := by
  by_cases one : n = 1
  · simp [one]
  by_cases back : n = -1
  · simp [back]
  · have other : n.natAbs ≠ 1 := by omega
    simp [one, back, other]

/-- A part has the server's sign just when it is below zero or not behind such a part, and the
server's unit just when it is no count of minus one. -/
theorem Part.text_eq_iff (behindNegative : Bool) (p : Part) :
    p.text = p.serverText behindNegative ↔
      (behindNegative = true → p.amount < 0) ∧ ∀ unit, p ≠ .count (-1) unit := by
  cases p with
  | clock micros =>
    rw [Part.text, clockText_eq, ← serverClock_eq, Part.serverText, List.append_left_inj,
      sign_eq_serverSign_iff]
    simp [Part.amount]
  | count n unit =>
    have unitless : (∀ other, Part.count n unit ≠ .count (-1) other) ↔ n ≠ -1 := by simp
    rw [Part.text, integerText_eq, Part.serverText, Part.amount, unitless]
    by_cases signs : behindNegative = true → n < 0
    · rw [(sign_eq_serverSign_iff behindNegative n).mpr signs, List.append_right_inj,
        List.cons_inj_right, List.append_right_inj, plural_eq_iff]
      exact (and_iff_right signs).symm
    · -- The server writes a plus in front of the digits.
      have plus : serverSign behindNegative n = ['+'] := by
        simp only [Classical.not_imp, Int.not_lt] at signs
        rw [serverSign, if_neg (by omega), if_pos signs.1]
      obtain ⟨c, ds, digits⟩ := List.exists_cons_of_ne_nil (decimalDigits_ne_nil n.natAbs)
      have first : c ≠ '+' := (ne_sign_of_isDigit (isDigit_of_mem_decimalDigits
        (by rw [digits]; exact List.mem_cons_self))).2
      have above : ¬n < 0 := fun below => signs fun _ => below
      refine iff_of_false (fun same => ?_) fun h => signs h.1
      rw [if_neg above, plus, digits] at same
      exact first (List.cons.inj same).1

theorem texts_eq_serverTexts_iff (behindNegative : Bool) (ps : List Part) :
    ps.map Part.text = serverTexts behindNegative ps ↔
      (∀ p ∈ ps.head?, behindNegative = true → p.amount < 0) ∧
      (∀ p ∈ ps, ∀ unit, p ≠ .count (-1) unit) ∧
      ps.IsChain fun p q => p.amount < 0 → q.amount < 0 := by
  induction ps generalizing behindNegative with
  | nil => simp [serverTexts]
  | cons p ps ih =>
    rw [List.map_cons, serverTexts, List.cons_eq_cons, p.text_eq_iff, ih,
      List.isChain_cons, List.forall_mem_cons]
    simp only [List.head?_cons, Option.mem_def, Option.some.injEq, forall_eq', decide_eq_true_eq]
    tauto

theorem append_inj_of_count {a b r s : List Char} (same : a.count ' ' = b.count ' ')
    (h : a ++ ' ' :: r = b ++ ' ' :: s) : a = b ∧ r = s := by
  rcases List.append_eq_append_iff.mp h with ⟨t, rfl, rest⟩ | ⟨t, rfl, rest⟩
  all_goals
    cases t with
    | nil => simpa [eq_comm] using rest
    | cons c t =>
      obtain ⟨rfl, -⟩ := List.cons_eq_cons.mp rest
      simp at same

/-- Texts with as many blanks as each other are told apart by the text that they make together. -/
theorem intercalate_inj_of_count {as bs : List (List Char)}
    (same : List.Forall₂ (fun a b => a.count ' ' = b.count ' ') as bs)
    (h : [' '].intercalate as = [' '].intercalate bs) : as = bs := by
  induction same with
  | nil => rfl
  | cons first rest ih =>
    cases rest with
    | nil => simpa using h
    | cons second others =>
      rw [List.intercalate_cons_cons, List.intercalate_cons_cons, List.append_assoc,
        List.append_assoc] at h
      obtain ⟨rfl, tails⟩ := append_inj_of_count first h
      rw [ih tails]

theorem count_blank_serverText (behindNegative : Bool) (p : Part) :
    p.text.count ' ' = (p.serverText behindNegative).count ' ' := by
  have sign (n : Int) : (serverSign behindNegative n).count ' ' = 0 := by
    unfold serverSign
    split
    · decide
    · split <;> decide
  have own_sign (n : Int) : (if n < 0 then ['-'] else []).count ' ' = 0 := by
    split <;> decide
  cases p with
  | clock micros =>
    have written := List.count_eq_zero_of_not_mem (not_mem_clockText micros)
    rw [clockText_eq, List.count_append, own_sign, Nat.zero_add] at written
    rw [Part.text, clockText_eq, Part.serverText, serverClock_eq, List.count_append,
      List.count_append, own_sign, sign, written]
  | count n unit =>
    have plural (one : Prop) [Decidable one] : (if one then [] else ['s']).count ' ' = 0 := by
      split <;> decide
    rw [Part.text, integerText_eq, Part.serverText]
    simp only [List.count_append, List.count_cons, own_sign, sign, plural]

theorem forall₂_count_blank (behindNegative : Bool) (ps : List Part) :
    List.Forall₂ (fun a b => a.count ' ' = b.count ' ') (ps.map Part.text)
      (serverTexts behindNegative ps) := by
  induction ps generalizing behindNegative with
  | nil => exact .nil
  | cons p ps ih => exact .cons (count_blank_serverText behindNegative p) (ih _)

theorem text_eq_serverText_iff_shownParts (i : Interval) :
    i.text = i.serverText ↔
      (∀ p ∈ i.shownParts, ∀ unit, p ≠ .count (-1) unit) ∧
      i.shownParts.IsChain fun p q => p.amount < 0 → q.amount < 0 := by
  have texts := texts_eq_serverTexts_iff false i.shownParts
  simp only [Bool.false_eq_true, false_implies, implies_true, true_and] at texts
  rw [← texts, text, parts_eq, serverText]
  -- A text itself has blanks, so parts are told apart by how many each one has.
  exact ⟨intercalate_inj_of_count (forall₂_count_blank false _), congrArg _⟩

theorem shownCounts_amounts (i : Interval) :
    i.shownCounts.map Part.amount = (i.counted.map Prod.fst).filter (· ≠ 0) := by
  rw [shownCounts, List.map_map, List.filter_map]
  rfl

theorem isChain_shownParts_iff (i : Interval) :
    (i.shownParts.IsChain fun p q => p.amount < 0 → q.amount < 0) ↔
      i.amounts.IsChain fun m n => m < 0 → n < 0 := by
  rw [← List.isChain_map (R := fun m n : Int => m < 0 → n < 0) Part.amount, amounts,
    List.filter_append, ← shownCounts_amounts]
  unfold shownParts
  split
  next hidden => simp [hidden]
  next shown =>
    rw [List.map_append]
    by_cases zero : i.microseconds.toInt = 0
    · have alone : i.shownCounts = [] := by simpa [zero] using shown
      simp [alone, zero]
    · simp [zero, Part.amount]

theorem notMem_shownParts_iff (i : Interval) :
    (∀ p ∈ i.shownParts, ∀ unit, p ≠ .count (-1) unit) ↔ ∀ c ∈ i.counted, c.1 ≠ -1 := by
  have counts : (∀ p ∈ i.shownCounts, ∀ unit, p ≠ .count (-1) unit) ↔
      ∀ c ∈ i.counted, c.1 ≠ -1 := by
    constructor
    · intro h c hc back
      have shown : Part.count c.1 c.2 ∈ i.shownCounts :=
        List.mem_map_of_mem (List.mem_filter.mpr ⟨hc, by simp [back]⟩)
      exact h _ shown c.2 (by rw [back])
    · rintro h p hp unit rfl
      obtain ⟨c, hc, same⟩ := List.mem_map.mp hp
      exact h c (List.mem_of_mem_filter hc) (Part.count.inj same).1
  rw [← counts]
  unfold shownParts
  split
  · rfl
  · simp [or_imp, forall_and]

/-- The text of a length of time is in the server's default style just when none of its years,
months and days is minus one and, of its amounts that are not zero, none above zero comes right
behind one below zero. -/
theorem text_eq_serverText_iff (i : Interval) :
    i.text = i.serverText ↔
      (∀ c ∈ i.counted, c.1 ≠ -1) ∧ i.amounts.IsChain fun m n => m < 0 → n < 0 := by
  rw [text_eq_serverText_iff_shownParts, notMem_shownParts_iff, isChain_shownParts_iff]

/-- A month back and a day ahead. -/
def monthBack : Interval := ⟨-1, 1, 0⟩

theorem monthBack_text_ne_serverText : monthBack.text = "-1 mon 1 day".toList ∧
    monthBack.serverText = "-1 mons +1 day".toList ∧ monthBack.text ≠ monthBack.serverText := by
  decide +kernel

end Interval

end PlanSql
