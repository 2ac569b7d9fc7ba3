import Mathlib
import PlanSql.Interval
import PlanSql.Proofs.NumberReading

namespace PlanSql

theorem ne_sign_of_isDigit {c : Char} (h : c.isDigit = true) : c ≠ '-' ∧ c ≠ '+' := by
  constructor <;> (rintro rfl; cases h)

theorem readInteger?_integerText (n : Int) : readInteger? (integerText n) = some n := by
  have digits : (decimalDigits n.natAbs).all Char.isDigit = true :=
    List.all_eq_true.mpr fun c => isDigit_of_mem_decimalDigits
  have nonempty := decimalDigits_ne_nil n.natAbs
  have value := readDecimal_decimalDigits n.natAbs
  unfold integerText
  split
  next neg =>
    have minus : -(n.natAbs : Int) = n := by omega
    simp [readInteger?, digits, nonempty, value, -Nat.cast_natAbs, minus]
  next pos =>
    have plus : (n.natAbs : Int) = n := by omega
    obtain ⟨c, s, hc⟩ := List.exists_cons_of_ne_nil nonempty
    have unsigned := ne_sign_of_isDigit (List.all_eq_true.mp digits c (by simp [hc]))
    rw [hc] at digits value ⊢
    unfold readInteger?
    split
    next e => exact absurd (List.cons.inj e).1 unsigned.1
    next e => exact absurd (List.cons.inj e).1 unsigned.2
    next => simp [digits, value, -Nat.cast_natAbs, plus]

namespace Interval

/-- A number of digits only, whose count is allowed. -/
def digits? (allowed : Nat → Bool) (s : List Char) : Option Nat :=
  if allowed s.length && s.all Char.isDigit then some (readDecimal s) else none

/-- Two digits of a number below sixty. -/
def sixtieth? (s : List Char) : Option Nat := (digits? (· == 2) s).filter (· < 60)

/-- One to six digits behind a point, without zeros at the end, as a number of millionths. -/
def millionths? (s : List Char) : Option Nat :=
  if s.getLast? = some '0' then none
  else (digits? (fun k => 1 ≤ k && k ≤ 6) s).map fun n => n * 10 ^ (6 - s.length)

/-- Seconds and their millionths, if there are any, in microseconds. -/
def seconds? (s : List Char) : Option Nat :=
  match s.splitOn '.' with
  | [whole] => (sixtieth? whole).map (· * 1000000)
  | [whole, part] => do return (← sixtieth? whole) * 1000000 + (← millionths? part)
  | _ => none

/-- Hours of at least two digits, minutes and seconds, in microseconds. -/
def unsignedClock? (s : List Char) : Option Nat :=
  match s.splitOn ':' with
  | [hours, minutes, seconds] => do
    let hours ← digits? (2 ≤ ·) hours
    return (hours * 3600 + (← sixtieth? minutes) * 60) * 1000000 + (← seconds? seconds)
  | _ => none

/-- A clock behind an optional sign. -/
def clock? : List Char → Option Int
  | '-' :: s => (unsignedClock? s).map fun n => -(n : Int)
  | '+' :: s => (unsignedClock? s).map fun n => (n : Int)
  | s => (unsignedClock? s).map fun n => (n : Int)

/-- Whether a word is the unit, in the singular or in the plural. -/
def isUnit (unit : String) (word : List Char) : Bool :=
  word == unit.toList || word == unit.toList ++ ['s']

/-- Takes a count and its unit off the words; where the unit is absent the count is zero. -/
def takeCount? (unit : String) : List (List Char) → Option (Int × List (List Char))
  | count :: word :: rest =>
    if isUnit unit word then (readInteger? count).map fun n => (n, rest)
    else some (0, count :: word :: rest)
  | words => some (0, words)

/-- The last word is a clock; without one the clock is zero. -/
def lastClock? : List (List Char) → Option Int
  | [] => some 0
  | [word] => clock? word
  | _ => none

/-- Reads years, months, days and a clock, in this order and each at most once: the months of all
years together, the days and the microseconds. -/
def read? (s : List Char) : Option (Int × Int × Int) := do
  let (years, words) ← takeCount? "year" (s.splitOn ' ')
  let (months, words) ← takeCount? "mon" words
  let (days, words) ← takeCount? "day" words
  return (12 * years + months, days, ← lastClock? words)

theorem digits?_paddedDigits {allowed : Nat → Bool} {n : Nat}
    (h : allowed (paddedDigits 2 n).length = true) :
    digits? allowed (paddedDigits 2 n) = some n := by
  have digits : (paddedDigits 2 n).all Char.isDigit = true :=
    List.all_eq_true.mpr fun c => isDigit_of_mem_paddedDigits
  rw [digits?, h, digits, Bool.and_self, if_pos rfl, readDecimal_paddedDigits]

theorem sixtieth?_paddedDigits {n : Nat} (h : n < 60) : sixtieth? (paddedDigits 2 n) = some n := by
  have two : (paddedDigits 2 n).length = 2 := length_paddedDigits_of_lt (by decide) (by omega)
  rw [sixtieth?, digits?_paddedDigits (by rw [two]; rfl), Option.filter_some, if_pos (by simpa)]

/-- Leaving out the zeros at the end divides by the power of ten for them. -/
theorem millionths?_trimmed {n : Nat} (positive : n ≠ 0) (h : n < 1000000) :
    millionths? ((paddedDigits 6 n).rdropWhile (· == '0')) = some n := by
  have digits : ∀ c ∈ paddedDigits 6 n, c.isDigit = true := fun c => isDigit_of_mem_paddedDigits
  have six : (paddedDigits 6 n).length = 6 := length_paddedDigits_of_lt (by decide) h
  have value := readDecimal_paddedDigits 6 n
  generalize paddedDigits 6 n = ds at digits six value ⊢
  have split : ds.rdropWhile (· == '0') ++ ds.rtakeWhile (· == '0') = ds :=
    List.rdropWhile_append_rtakeWhile
  have last := fun hl => List.rdropWhile_last_not (p := (· == '0')) (l := ds) hl
  have zeros : ds.rtakeWhile (· == '0') =
      List.replicate (ds.rtakeWhile (· == '0')).length '0' :=
    List.eq_replicate_of_mem fun c hc => by simpa using List.mem_rtakeWhile_imp hc
  generalize ds.rdropWhile (· == '0') = front at split last ⊢
  generalize ds.rtakeWhile (· == '0') = back at split zeros
  subst split
  rw [List.length_append] at six
  have zero : readDecimal back = 0 := by
    rw [zeros]
    simp [readDecimal]
  rw [readDecimal_append, zero, Nat.add_zero] at value
  have nonempty : front ≠ [] := by
    rintro rfl
    exact positive (value.symm.trans (Nat.mul_zero _))
  have ends : front.getLast? ≠ some '0' := by
    rw [List.getLast?_eq_some_getLast nonempty]
    simpa using last nonempty
  have front_digits : front.all Char.isDigit = true :=
    List.all_eq_true.mpr fun c hc => digits c (List.mem_append_left _ hc)
  have room : 1 ≤ front.length ∧ front.length ≤ 6 :=
    ⟨List.length_pos_of_ne_nil nonempty, by omega⟩
  have places : 6 - front.length = back.length := by omega
  rw [millionths?, if_neg ends, digits?, if_pos (by simp [room, front_digits]), Option.map_some,
    places, Nat.mul_comm, value]

theorem not_mem_paddedDigits {c : Char} (h : c.isDigit = false) (width n : Nat) :
    c ∉ paddedDigits width n := fun mem => by
  rw [isDigit_of_mem_paddedDigits mem] at h
  cases h

theorem seconds?_text {s micros : Nat} (hs : s < 60) (hm : micros < 1000000) :
    seconds? (paddedDigits 2 s ++ fractionText micros) = some (s * 1000000 + micros) := by
  have whole : '.' ∉ paddedDigits 2 s := not_mem_paddedDigits rfl 2 s
  unfold fractionText
  split
  next zero =>
    rw [List.append_nil, seconds?, List.splitOn_eq_singleton whole]
    simp [sixtieth?_paddedDigits hs, zero]
  next positive =>
    have part : '.' ∉ (paddedDigits 6 micros).rdropWhile (· == '0') := fun mem =>
      not_mem_paddedDigits rfl 6 micros ((List.rdropWhile_prefix _ _).mem mem)
    change seconds? (paddedDigits 2 s ++ '.' :: (paddedDigits 6 micros).rdropWhile (· == '0')) = _
    rw [seconds?, List.splitOn_append_cons_self_of_not_mem whole, List.splitOn_eq_singleton part]
    simp [sixtieth?_paddedDigits hs, millionths?_trimmed positive hm]

theorem mem_fractionText {micros : Nat} {c : Char} (h : c ∈ fractionText micros) :
    c = '.' ∨ c.isDigit = true := by
  unfold fractionText at h
  split at h
  · cases h
  · refine (List.mem_cons.mp h).imp_right fun mem => ?_
    exact isDigit_of_mem_paddedDigits ((List.rdropWhile_prefix (· == '0') _).mem mem)

/-- The text of a clock without its sign. -/
def unsignedText (n : Nat) : List Char :=
  paddedDigits 2 (n / 1000000 / 3600) ++ ':' :: (paddedDigits 2 (n / 1000000 / 60 % 60) ++
    ':' :: (paddedDigits 2 (n / 1000000 % 60) ++ fractionText (n % 1000000)))

theorem clockText_eq (micros : Int) :
    clockText micros = (if micros < 0 then ['-'] else []) ++ unsignedText micros.natAbs :=
  List.append_assoc ..

theorem unsignedClock?_text (n : Nat) : unsignedClock? (unsignedText n) = some n := by
  have colon (k : Nat) : ':' ∉ paddedDigits 2 k := not_mem_paddedDigits rfl 2 k
  have seconds : ':' ∉ paddedDigits 2 (n / 1000000 % 60) ++ fractionText (n % 1000000) := by
    rw [List.mem_append, not_or]
    exact ⟨colon _, fun mem => by simpa using mem_fractionText mem⟩
  have hours : digits? (2 ≤ ·) (paddedDigits 2 (n / 1000000 / 3600)) =
      some (n / 1000000 / 3600) := by
    refine digits?_paddedDigits (decide_eq_true ?_)
    rw [length_paddedDigits]
    exact Nat.le_max_left ..
  have minutes : sixtieth? (paddedDigits 2 (n / 1000000 / 60 % 60)) =
      some (n / 1000000 / 60 % 60) := sixtieth?_paddedDigits (Nat.mod_lt _ (by decide))
  have rest : seconds? (paddedDigits 2 (n / 1000000 % 60) ++ fractionText (n % 1000000)) =
      some (n / 1000000 % 60 * 1000000 + n % 1000000) :=
    seconds?_text (Nat.mod_lt _ (by decide)) (Nat.mod_lt _ (by decide))
  have total : (n / 1000000 / 3600 * 3600 + n / 1000000 / 60 % 60 * 60) * 1000000 +
      (n / 1000000 % 60 * 1000000 + n % 1000000) = n := by omega
  rw [unsignedClock?, unsignedText, List.splitOn_append_cons_self_of_not_mem (colon _),
    List.splitOn_append_cons_self_of_not_mem (colon _), List.splitOn_eq_singleton seconds]
  simp [hours, minutes, rest, total]

theorem clock?_clockText (micros : Int) : clock? (clockText micros) = some micros := by
  have read := unsignedClock?_text micros.natAbs
  rw [clockText_eq]
  split
  next neg =>
    have minus : -(micros.natAbs : Int) = micros := by omega
    simp [clock?, read, -Nat.cast_natAbs, minus]
  next pos =>
    have plus : (micros.natAbs : Int) = micros := by omega
    obtain ⟨c, s, hc⟩ := List.exists_cons_of_ne_nil
      (paddedDigits_ne_nil 2 (micros.natAbs / 1000000 / 3600))
    have unsigned := ne_sign_of_isDigit
      (isDigit_of_mem_paddedDigits (by rw [hc]; exact List.mem_cons_self))
    rw [unsignedText, hc, List.cons_append] at read ⊢
    rw [List.nil_append]
    unfold clock?
    split
    next e => exact absurd (List.cons.inj e).1 unsigned.1
    next e => exact absurd (List.cons.inj e).1 unsigned.2
    next => simp [read, -Nat.cast_natAbs, plus]

/-- The words of a count and its unit, which are left out with a count of zero. -/
def countWords (n : Int) (unit : String) : List (List Char) :=
  if n = 0 then []
  else [integerText n, unit.toList ++ if n.natAbs = 1 then [] else ['s']]

theorem takeCount?_countWords (n : Int) (unit : String) {rest : List (List Char)}
    (h : ∀ word ∈ rest[1]?, isUnit unit word = false) :
    takeCount? unit (countWords n unit ++ rest) = some (n, rest) := by
  unfold countWords
  split
  next zero =>
    rw [zero, List.nil_append]
    rcases rest with _ | ⟨count, _ | ⟨word, rest⟩⟩
    · rfl
    · rfl
    · rw [takeCount?, h word rfl, if_neg Bool.false_ne_true]
  next =>
    have word : isUnit unit (unit.toList ++ if n.natAbs = 1 then [] else ['s']) = true := by
      split <;> simp [isUnit]
    simp [takeCount?, word, readInteger?_integerText]

/-- Behind other units a count is absent. -/
theorem isUnit_behind {unit : String} (n : Int) (other : String) {rest : List (List Char)}
    (single : isUnit unit other.toList = false)
    (plural : isUnit unit (other.toList ++ ['s']) = false)
    (h : ∀ word ∈ rest[1]?, isUnit unit word = false) :
    ∀ word ∈ (countWords n other ++ rest)[1]?, isUnit unit word = false := by
  unfold countWords
  split
  · exact h
  · rintro word ⟨⟩
    split
    · rwa [List.append_nil]
    · exact plural

theorem splitOn_countText (n : Int) {unit : String} (h : ' ' ∉ unit.toList) :
    (countText n unit).flatMap (List.splitOn ' ') = countWords n unit := by
  have number : ' ' ∉ integerText n := by
    obtain ⟨sign, ds, text, sign_eq, digits⟩ := integerText_isNumeral n
    rw [text, List.mem_append, not_or]
    refine ⟨by rcases sign_eq with rfl | rfl <;> decide, fun mem => ?_⟩
    simpa using digits _ mem
  have word : ' ' ∉ unit.toList ++ if n.natAbs = 1 then [] else ['s'] := by
    split <;> simpa using h
  unfold countText countWords
  split
  · rfl
  · rw [List.flatMap_singleton, List.splitOn_append_cons_self_of_not_mem number,
      List.splitOn_eq_singleton word]

/-- The words of the parts are the words of the text. -/
theorem splitOn_intercalate {parts : List (List Char)} (h : parts ≠ []) :
    ([' '].intercalate parts).splitOn ' ' = parts.flatMap (List.splitOn ' ') := by
  induction parts with
  | nil => exact absurd rfl h
  | cons part parts ih =>
    cases parts with
    | nil => simp
    | cons second rest =>
      rw [List.intercalate_cons_cons, List.append_assoc, List.singleton_append,
        List.splitOn_append_cons_self, ih (List.cons_ne_nil _ _), List.flatMap_cons (x := part)]

theorem not_mem_clockText (micros : Int) : ' ' ∉ clockText micros := by
  have blank (k : Nat) : ' ' ∉ paddedDigits 2 k := not_mem_paddedDigits rfl 2 k
  have fraction (k : Nat) : ' ' ∉ fractionText k := fun mem => by simpa using mem_fractionText mem
  rw [clockText_eq, unsignedText]
  split <;> simp [blank, fraction]

/-- The parts in front of the clock. -/
def counts (i : Interval) : List (List Char) :=
  countText (i.months.toInt.tdiv 12) "year" ++ countText (i.months.toInt.tmod 12) "mon" ++
    countText i.days.toInt "day"

theorem exists_clock (i : Interval) : ∃ last, i.parts = i.counts ++ last ∧ i.parts ≠ [] ∧
    (last = [] ∧ i.microseconds.toInt = 0 ∨ last = [clockText i.microseconds.toInt]) := by
  by_cases shown : (i.microseconds.toInt != 0 || i.counts.isEmpty) = true
  · have parts : i.parts = i.counts ++ [clockText i.microseconds.toInt] := if_pos shown
    exact ⟨_, parts, by simp [parts], .inr rfl⟩
  · have parts : i.parts = i.counts := if_neg shown
    rw [Bool.or_eq_true, not_or] at shown
    obtain ⟨zero, nonempty⟩ := shown
    exact ⟨[], by simpa using parts, by simpa [parts] using nonempty,
      .inl ⟨rfl, by simpa using zero⟩⟩

/-- The words of a text: three counts, and a clock unless it is zero. -/
theorem exists_words (i : Interval) : ∃ last, i.text.splitOn ' ' =
      countWords (i.months.toInt.tdiv 12) "year" ++ (countWords (i.months.toInt.tmod 12) "mon" ++
        (countWords i.days.toInt "day" ++ last)) ∧
    last[1]? = none ∧ lastClock? last = some i.microseconds.toInt := by
  obtain ⟨last, parts, nonempty, clock⟩ := i.exists_clock
  have counts : i.counts.flatMap (List.splitOn ' ') =
      countWords (i.months.toInt.tdiv 12) "year" ++ (countWords (i.months.toInt.tmod 12) "mon" ++
        countWords i.days.toInt "day") := by
    simp [Interval.counts, splitOn_countText]
  refine ⟨last, ?_, ?_⟩
  · have words : last.flatMap (List.splitOn ' ') = last := by
      rcases clock with ⟨rfl, -⟩ | rfl
      · rfl
      · simp [List.splitOn_eq_singleton (not_mem_clockText _)]
    rw [text, splitOn_intercalate nonempty, parts, List.flatMap_append, counts, words]
    simp
  · rcases clock with ⟨rfl, zero⟩ | rfl
    · exact ⟨rfl, by rw [zero]; rfl⟩
    · exact ⟨rfl, clock?_clockText _⟩

theorem read?_text (i : Interval) :
    read? i.text = some (i.months.toInt, i.days.toInt, i.microseconds.toInt) := by
  obtain ⟨last, words, short, clock⟩ := i.exists_words
  have alone (unit : String) : ∀ word ∈ last[1]?, isUnit unit word = false := by simp [short]
  have months : 12 * i.months.toInt.tdiv 12 + i.months.toInt.tmod 12 = i.months.toInt :=
    Int.mul_tdiv_add_tmod ..
  have years := takeCount?_countWords (i.months.toInt.tdiv 12) "year"
    (isUnit_behind (i.months.toInt.tmod 12) "mon" (by decide) (by decide)
      (isUnit_behind i.days.toInt "day" (by decide) (by decide) (alone "year")))
  have mons := takeCount?_countWords (i.months.toInt.tmod 12) "mon"
    (isUnit_behind i.days.toInt "day" (by decide) (by decide) (alone "mon"))
  have days := takeCount?_countWords i.days.toInt "day" (alone "day")
  rw [read?, words, years]
  simp [mons, days, clock, months]

/-- The text of a length of time is not empty and is read back as its months, days and
microseconds, so it is the text of no other one. -/
theorem text_determines (i j : Interval) :
    i.text ≠ [] ∧
    read? i.text = some (i.months.toInt, i.days.toInt, i.microseconds.toInt) ∧
    (i.text = j.text ↔ i = j) := by
  refine ⟨fun empty => ?_, i.read?_text, fun same => ?_, congrArg text⟩
  · have read := i.read?_text
    rw [empty] at read
    cases read
  · have read := i.read?_text
    rw [same, j.read?_text, Option.some_inj, Prod.mk.injEq, Prod.mk.injEq] at read
    obtain ⟨months, days, micros⟩ := read
    cases i
    cases j
    rw [mk.injEq]
    exact ⟨(Int32.toInt_inj.mp months).symm, (Int32.toInt_inj.mp days).symm,
      (Int64.toInt_inj.mp micros).symm⟩

example : text ⟨-14, 3, -1500000⟩ = "-1 year -2 mons 3 days -00:00:01.5".toList := by
  decide +kernel

end Interval

end PlanSql
