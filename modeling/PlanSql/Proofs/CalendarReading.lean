import PlanSql.Calendar
import PlanSql.Proofs.NumberReading

namespace PlanSql

namespace Date

/-- The cycles of 100 years and of 4 years before a day of a cycle of 400. -/
theorem days_div {c q r doy : Nat} (hc : c < 4) (hq : q < 25) (hr : r < 4)
    (h : doy < 365 ∨ doy = 365 ∧ r = 3 ∧ (q = 24 → c = 3)) :
    (36524 * c + 1461 * q + 365 * r + doy) / 36524 =
        c + (36524 * c + 1461 * q + 365 * r + doy) / 146096 ∧
      (36524 * c + 1461 * q + 365 * r + doy) / 1460 =
        25 * c + q + (24 * c + q + 365 * r + doy) / 1460 := by
  have leaps : 36524 * c + 1461 * q + 365 * r + doy =
      1460 * (25 * c + q) + (24 * c + q + 365 * r + doy) := by omega
  refine ⟨?_, by rw [leaps, Nat.mul_add_div (by decide)]⟩
  rcases Nat.lt_or_ge (36524 * c + 1461 * q + 365 * r + doy) 146096 with inside | last
  · have small : 1461 * q + 365 * r + doy < 36524 := by omega
    rw [Nat.div_eq_of_lt inside, Nat.add_assoc, Nat.add_assoc, Nat.mul_add_div (by decide),
      ← Nat.add_assoc, Nat.div_eq_of_lt small]
  · obtain ⟨rfl, rfl, rfl, rfl⟩ : c = 3 ∧ q = 24 ∧ r = 3 ∧ doy = 365 := by omega
    rfl

theorem leap_late {c q r doy : Nat} (hc : c < 4) (hq : q < 25) (hr : r < 4)
    (h : doy < 365 ∨ doy = 365 ∧ r = 3) :
    (24 * c + q + 365 * r + doy) / 1460 ≤ doy ∧
      doy < 365 + (24 * c + q + 365 * r + doy) / 1460 := by
  rcases Nat.lt_or_ge (24 * c + q + 365 * r + doy) 1460 with early | late
  · rw [Nat.div_eq_of_lt early]
    omega
  · have one : (24 * c + q + 365 * r + doy) / 1460 = 1 :=
      Nat.div_eq_of_lt_le (by omega) (by omega)
    rw [one]
    omega

/-- The year of a cycle of 400 from the days before it, where only the last day of a leap year lies
365 days in. -/
theorem year_of_days {y doy : Nat} (hy : y < 400)
    (h : doy < 365 ∨ doy = 365 ∧ y % 4 = 3 ∧ (y % 100 = 99 → y = 399)) :
    let d := y * 365 + y / 4 - y / 100 + doy
    (d - d / 1460 + d / 36524 - d / 146096) / 365 = y := by
  intro d
  obtain ⟨c, q, r, hc, hq, hr, rfl⟩ : ∃ c q r, c < 4 ∧ q < 25 ∧ r < 4 ∧ y = 100 * c + 4 * q + r :=
    ⟨y / 100, y % 100 / 4, y % 4, by omega, by omega, by omega, by omega⟩
  have last : doy < 365 ∨ doy = 365 ∧ r = 3 ∧ (q = 24 → c = 3) := by omega
  have days : d = 36524 * c + 1461 * q + 365 * r + doy := by omega
  obtain ⟨centuries, leaps⟩ := days_div hc hq hr last
  obtain ⟨low, high⟩ := leap_late hc hq hr (last.imp id fun h => ⟨h.1, h.2.1⟩)
  rw [← days] at centuries leaps
  have whole : d - d / 1460 + d / 36524 - d / 146096 = 365 * (100 * c + 4 * q + r) +
      (doy - (24 * c + q + 365 * r + doy) / 1460) := by
    rw [centuries, leaps, days]
    generalize (24 * c + q + 365 * r + doy) / 1460 = late at low high
    omega
  rw [whole, Nat.mul_add_div (by decide), Nat.div_eq_of_lt (Nat.sub_lt_right_of_lt_add low high),
    Nat.add_zero]

theorem range (d : Date) : (-262143 ≤ d.year ∧ d.year ≤ 262142) ∧ (1 ≤ d.month ∧ d.month ≤ 12) ∧
    1 ≤ d.day ∧ d.day ≤ daysInMonth d.year d.month := by
  have valid := d.isDate
  simp only [PlanSql.isDate, Bool.and_eq_true, decide_eq_true_eq] at valid
  obtain ⟨⟨⟨⟨⟨low, high⟩, first⟩, last⟩, day⟩, days⟩ := valid
  exact ⟨⟨low, high⟩, ⟨first, last⟩, day, days⟩

/-- The days of a year from March that lie before a day. -/
def daysBefore (d : Date) : Nat := (153 * ((d.month + 9) % 12) + 2) / 5 + d.day - 1

theorem daysInMonth_february (year : Int) :
    daysInMonth year 2 ≤ 29 ∧ (daysInMonth year 2 = 29 → isLeapYear year = true) := by
  cases leap : isLeapYear year <;> simp [daysInMonth, leap]

theorem month_of_daysBefore (d : Date) :
    (5 * d.daysBefore + 2) / 153 = (d.month + 9) % 12 ∧
      d.daysBefore - (153 * ((d.month + 9) % 12) + 2) / 5 + 1 = d.day ∧
      (if (d.month + 9) % 12 < 10 then (d.month + 9) % 12 + 3 else (d.month + 9) % 12 - 9) =
        d.month := by
  obtain ⟨-, ⟨first, last⟩, day, days⟩ := d.range
  have february := (daysInMonth_february d.year).1
  unfold daysBefore
  generalize d.month = month at first last days
  interval_cases month
  case «2» => exact ⟨by omega, by omega, rfl⟩
  all_goals
    simp only [daysInMonth] at days
    simp at days ⊢
    omega

theorem daysBefore_lt (d : Date) :
    d.daysBefore < 365 ∨ d.daysBefore = 365 ∧ d.month = 2 ∧ isLeapYear d.year = true := by
  obtain ⟨-, ⟨first, last⟩, day, days⟩ := d.range
  obtain ⟨february, leap⟩ := daysInMonth_february d.year
  unfold daysBefore
  generalize d.month = month at first last days
  interval_cases month
  case «2» =>
    by_cases late : d.day = 29
    · exact .inr ⟨by omega, rfl, leap (by omega)⟩
    · exact .inl (by omega)
  all_goals
    simp [daysInMonth] at days
    omega

theorem day_le (d : Date) : d.day ≤ 31 := by
  refine Nat.le_trans d.range.2.2.2 ?_
  unfold daysInMonth
  split
  · split <;> decide
  · split <;> decide

theorem ofParts?_self (d : Date) : ofParts? d.year d.month d.day = some d := dif_pos d.isDate

/-- The year of a day when years begin in March. -/
def marchYear (d : Date) : Int := if d.month ≤ 2 then d.year - 1 else d.year

theorem exists_cycle (d : Date) : ∃ (cycle : Int) (y : Nat), y < 400 ∧
    d.marchYear = y + cycle * 400 ∧
    d.dayNumber + 730425 = (y * 365 + y / 4 - y / 100 + d.daysBefore : Nat) + cycle * 146097 := by
  obtain ⟨-, -, day, -⟩ := d.range
  obtain ⟨y, hy⟩ : ∃ y : Nat, (y : Int) = d.marchYear - d.marchYear.fdiv 400 * 400 :=
    ⟨_, Int.toNat_of_nonneg (by rw [Int.fdiv_eq_ediv_of_nonneg _ (by decide)]; omega)⟩
  refine ⟨d.marchYear.fdiv 400, y, ?_, by omega, ?_⟩
  · rw [Int.fdiv_eq_ediv_of_nonneg _ (by decide)] at hy
    omega
  · have number : d.dayNumber = d.marchYear.fdiv 400 * 146097 +
        ((y : Int) * 365 + (y : Int) / 4 - (y : Int) / 100 +
          ((153 * (((d.month : Int) + 9) % 12) + 2) / 5 + (d.day : Int) - 1)) - 730425 := by
      rw [hy]
      rfl
    have before : (d.daysBefore : Int) =
        (153 * (((d.month : Int) + 9) % 12) + 2) / 5 + (d.day : Int) - 1 := by
      rw [daysBefore, Nat.cast_sub (Nat.le_add_left_of_le day)]
      push_cast
      rfl
    rw [number, ← before, Nat.cast_add]
    generalize d.marchYear.fdiv 400 = cycle
    clear hy number before
    omega

theorem leap_of_march {d : Date} {cycle : Int} {y : Nat} (hy : y < 400)
    (march : d.marchYear = y + cycle * 400) : d.daysBefore < 365 ∨
      d.daysBefore = 365 ∧ y % 4 = 3 ∧ (y % 100 = 99 → y = 399) := by
  refine d.daysBefore_lt.imp id fun ⟨last, february, leap⟩ => ⟨last, ?_⟩
  simp only [marchYear, february, le_refl, if_true] at march
  simp only [isLeapYear, Bool.and_eq_true, Bool.or_eq_true, beq_iff_eq, bne_iff_ne] at leap
  omega

theorem daysOfCycle_lt {y k : Nat} (hy : y < 400) (hk : k ≤ 365) :
    y * 365 + y / 4 - y / 100 + k < 146097 := by omega

theorem daysOfCycle_sub (y k : Nat) :
    y * 365 + y / 4 - y / 100 + k - (365 * y + y / 4 - y / 100) = k := by omega

theorem fdiv_cycle {k : Nat} (hk : k < 146097) (cycle : Int) :
    ((k : Int) + cycle * 146097).fdiv 146097 = cycle := by
  rw [Int.fdiv_eq_ediv_of_nonneg _ (by decide)]
  omega

/-- A day's number is that of no other day. -/
theorem ofDayNumber?_dayNumber (d : Date) : ofDayNumber? d.dayNumber = some d := by
  obtain ⟨cycle, y, hy, march, days⟩ := d.exists_cycle
  have leap := leap_of_march hy march
  have inside := daysOfCycle_lt hy (leap.elim Nat.le_of_lt fun h => h.1.le)
  obtain ⟨month, day, before⟩ := d.month_of_daysBefore
  unfold ofDayNumber?
  dsimp only
  rw [days, fdiv_cycle inside, Int.add_sub_cancel, Int.toNat_natCast, year_of_days hy leap,
    daysOfCycle_sub, month, day, before]
  have year : (if d.month ≤ 2 then (y : Int) + cycle * 400 + 1 else y + cycle * 400) = d.year := by
    rw [← march, marchYear]
    split <;> simp
  rw [year]
  exact d.ofParts?_self

end Date

theorem isBlankChar_of_isDigit {c : Char} (h : c.isDigit = true) : isBlankChar c = false := by
  have range := Char.isDigit_iff_toNat.mp h
  have low : 48 ≤ c.toNat := range.1
  have high : c.toNat ≤ 57 := range.2
  simp only [isBlankChar, Bool.or_eq_false_iff, Bool.and_eq_false_iff, decide_eq_false_iff_not,
    beq_eq_false_iff_ne]
  omega

theorem trimLeft_cons {c : Char} (h : isBlankChar c = false) (s : List Char) :
    trimLeft (c :: s) = c :: s := by
  simp [trimLeft, h]

/-- Text behind a number. -/
def EndsDigits (after : List Char) : Prop := ∀ c ∈ after.head?, c.isDigit = false

namespace CalendarText

variable {after : List Char}

theorem number?_digits {width : Nat} {ds : List Char} (digits : ∀ c ∈ ds, c.isDigit = true)
    (nonempty : ds ≠ []) (room : ds.length ≤ width) (ha : EndsDigits after) :
    number? width (ds ++ after) = some (readDecimal ds, after) := by
  have trim : trimLeft (ds ++ after) = ds ++ after := by
    obtain ⟨c, s, rfl⟩ := List.exists_cons_of_ne_nil nonempty
    exact trimLeft_cons (isBlankChar_of_isDigit (digits c List.mem_cons_self)) _
  have taken : (ds ++ after).takeWhile Char.isDigit = ds :=
    congrArg Prod.fst (Piece.splitWhile_of_boundary digits ha)
  rw [number?, trim, taken, List.take_of_length_le room]
  simp [nonempty]

theorem number?_paddedDigits {width k n : Nat} (room : (paddedDigits k n).length ≤ width)
    (ha : EndsDigits after) : number? width (paddedDigits k n ++ after) = some (n, after) := by
  rw [number?_digits (fun c => isDigit_of_mem_paddedDigits) (paddedDigits_ne_nil k n) room ha,
    readDecimal_paddedDigits]

theorem number?_two {n : Nat} (h : n < 100) (ha : EndsDigits after) :
    number? 2 (paddedDigits 2 n ++ after) = some (n, after) :=
  number?_paddedDigits (length_paddedDigits_of_lt (by decide) h).le ha

theorem mark?_cons {c : Char} (h : isBlankChar c = false) (s : List Char) :
    mark? c (c :: s) = some s := by
  rw [mark?, trimLeft_cons h]
  exact Piece.dropHead?_append [c] s

theorem year?_yearText (y : Int) (ha : EndsDigits after) :
    year? (Date.yearText y ++ after) = some (y, after) := by
  obtain ⟨c, s, hc⟩ := List.exists_cons_of_ne_nil (paddedDigits_ne_nil 4 y.natAbs)
  have digit : c.isDigit = true :=
    isDigit_of_mem_paddedDigits (by rw [hc]; exact List.mem_cons_self)
  have number (width : Nat) (room : (paddedDigits 4 y.natAbs).length ≤ width) :
      number? width (c :: (s ++ after)) = some (y.natAbs, after) := by
    have read := number?_paddedDigits room ha
    rwa [hc] at read
  have signed := number (c :: (s ++ after)).length (by simp [hc])
  have first : (c :: (s ++ after)).head?.any Char.isDigit = true := digit
  unfold Date.yearText
  split
  next four =>
    have range : 0 ≤ y ∧ y ≤ 9999 := by simpa using four
    have unsigned : c ≠ '-' ∧ c ≠ '+' := by constructor <;> (rintro rfl; cases digit)
    have read := number 4 (length_paddedDigits_of_lt (by decide) (by omega)).le
    rw [hc, List.cons_append, year?, trimLeft_cons (isBlankChar_of_isDigit digit)]
    split
    next e => exact absurd (List.cons.inj e).1 unsigned.1
    next e => exact absurd (List.cons.inj e).1 unsigned.2
    next => simp [read, -Nat.cast_natAbs, Int.natAbs_of_nonneg range.1]
  next =>
    split
    next neg =>
      have value : -(y.natAbs : Int) = y := by omega
      have minus : trimLeft ('-' :: c :: (s ++ after)) = '-' :: c :: (s ++ after) :=
        trimLeft_cons (by decide) _
      rw [hc, List.cons_append, List.cons_append, year?, minus]
      simp only [first, if_true, signed, Option.map_some, value]
    next pos =>
      have value : (y.natAbs : Int) = y := by omega
      have plus : trimLeft ('+' :: c :: (s ++ after)) = '+' :: c :: (s ++ after) :=
        trimLeft_cons (by decide) _
      rw [hc, List.cons_append, List.cons_append, year?, plus]
      simp only [first, if_true, signed, Option.map_some, value]

theorem date?_text (d : Date) (ha : EndsDigits after) :
    date? (d.text ++ after) = some (d, after) := by
  obtain ⟨-, ⟨-, last⟩, -⟩ := d.range
  have short := d.day_le
  have text : d.text ++ after = Date.yearText d.year ++ '-' :: (paddedDigits 2 d.month ++
      '-' :: (paddedDigits 2 d.day ++ after)) := by
    simp [Date.text]
  have dash (r : List Char) : EndsDigits ('-' :: r) := by
    rintro c ⟨⟩
    rfl
  have mark (r : List Char) : mark? '-' ('-' :: r) = some r := mark?_cons (by decide) r
  have month (r : List Char) : number? 2 (paddedDigits 2 d.month ++ '-' :: r) =
      some (d.month, '-' :: r) := number?_two (by omega) (dash r)
  have day : number? 2 (paddedDigits 2 d.day ++ after) = some (d.day, after) :=
    number?_two (by omega) ha
  simp [text, date?, year?_yearText _ (dash _), mark, month, day, Date.ofParts?_self]

/-- The digits after a point are those of a number of the ninth place. -/
theorem fraction?_point {k n : Nat} (hk : 0 < k) (room : k ≤ 9) (hn : n < 10 ^ k)
    (ha : EndsDigits after) :
    fraction? ('.' :: (paddedDigits k n ++ after)) = some (n * 10 ^ (9 - k), after) := by
  have length := length_paddedDigits_of_lt hk hn
  have split : splitWhile Char.isDigit (paddedDigits k n ++ after) = (paddedDigits k n, after) :=
    Piece.splitWhile_of_boundary (fun c => isDigit_of_mem_paddedDigits) ha
  rw [fraction?, split]
  have short : (paddedDigits k n).take 9 = paddedDigits k n := List.take_of_length_le (by omega)
  simp [paddedDigits_ne_nil, short, readDecimal_paddedDigits, length]

theorem fraction?_fractionText {nano : Nat} (h : nano < 10 ^ 9) (ha : EndsDigits after)
    (hp : after.head? ≠ some '.') :
    fraction? (Clock.fractionText nano ++ after) = some (nano, after) := by
  unfold Clock.fractionText
  split
  next zero =>
    subst zero
    cases after with
    | nil => rfl
    | cons c s =>
      have hc : c ≠ '.' := fun e => hp (by rw [e]; rfl)
      rw [List.nil_append, fraction?]
      exact fun _ e => hc (List.cons.inj e).1
  split
  next => 
    rw [List.cons_append, fraction?_point (by decide) (by decide) (by omega) ha]
    congr 2
    omega
  split
  next =>
    rw [List.cons_append, fraction?_point (by decide) (by decide) (by omega) ha]
    congr 2
    omega
  next =>
    rw [List.cons_append, fraction?_point (by decide) (by decide) (by omega) ha]
    congr 2
    omega

theorem clock?_text (t : Clock) (ha : EndsDigits after) (hp : after.head? ≠ some '.')
    (trim : trimLeft after = after) : clock? (t.text ++ after) = some (t, after) := by
  have hour_lt := t.hour_lt
  have minute_lt := t.minute_lt
  have second_le := t.second_le
  have text : t.text ++ after = paddedDigits 2 t.hour ++ ':' :: (paddedDigits 2 t.minute ++
      ':' :: (paddedDigits 2 t.second ++ (Clock.fractionText t.nano ++ after))) := by
    simp [Clock.text]
  have colon (r : List Char) : EndsDigits (':' :: r) := by
    rintro c ⟨⟩
    rfl
  have point : EndsDigits (Clock.fractionText t.nano ++ after) := by
    unfold Clock.fractionText
    split_ifs
    · exact ha
    all_goals
      rintro c ⟨⟩
      rfl
  have mark (r : List Char) : mark? ':' (':' :: r) = some r := mark?_cons (by decide) r
  have hour (r : List Char) : number? 2 (paddedDigits 2 t.hour ++ ':' :: r) =
      some (t.hour, ':' :: r) := number?_two (by omega) (colon r)
  have minute (r : List Char) : number? 2 (paddedDigits 2 t.minute ++ ':' :: r) =
      some (t.minute, ':' :: r) := number?_two (by omega) (colon r)
  have second : number? 2 (paddedDigits 2 t.second ++ (Clock.fractionText t.nano ++ after)) =
      some (t.second, Clock.fractionText t.nano ++ after) := number?_two (by omega) point
  have nano := fraction?_fractionText t.nano_lt ha hp
  have parts : Clock.ofParts? t.hour t.minute t.second t.nano = some t :=
    dif_pos ⟨t.hour_lt, t.minute_lt, t.second_le, t.nano_lt⟩
  simp [text, clock?, minute?, second?, hour, mark, minute, second, nano, second_le, trim, parts]

theorem endsDigits_nil : EndsDigits [] := by simp [EndsDigits]

theorem whole?_some {α : Type} (a : α) : whole? (some (a, [])) = some a := rfl

end CalendarText

open CalendarText

theorem Date.read?_text (d : Date) : Date.read? d.text = some d := by
  have read := date?_text d endsDigits_nil
  rw [List.append_nil] at read
  rw [Date.read?, read, whole?_some]

theorem Clock.read?_text (t : Clock) : Clock.read? t.text = some t := by
  have read := clock?_text t endsDigits_nil (by simp) rfl
  rw [List.append_nil] at read
  rw [Clock.read?, read, whole?_some]
  rfl

theorem endsDigits_letter (s : List Char) : EndsDigits ('T' :: s) := by
  rintro c ⟨⟩
  rfl

theorem Timestamp.read?_text (t : Timestamp) : Timestamp.read? (t.text 'T') = some t := by
  have date := date?_text t.date (endsDigits_letter t.clock.text)
  have mark : mark? 'T' ('T' :: t.clock.text) = some t.clock.text := mark?_cons (by decide) _
  have clock := clock?_text t.clock endsDigits_nil (by simp) rfl
  rw [List.append_nil] at clock
  simp [Timestamp.read?, Timestamp.text, date, mark, clock, whole?_some]

namespace Instant

/-- A time of zone zero stays as it is. -/
theorem ofLocal?_zero (t : Timestamp) : ofLocal? t 0 = some ⟨t⟩ := by
  obtain ⟨date, ⟨hour, minute, second, nano, hour_lt, minute_lt, second_le, nano_lt⟩⟩ := t
  have ofDay : ((((hour * 60 + minute : Nat) : Int) - 0) % 1440).toNat = hour * 60 + minute := by
    omega
  have sameDay : (((hour * 60 + minute : Nat) : Int) - 0).fdiv 1440 = 0 := by
    rw [Int.fdiv_eq_ediv_of_nonneg _ (by decide)]
    omega
  have hours : (hour * 60 + minute) / 60 = hour := by omega
  have minutes : (hour * 60 + minute) % 60 = minute := by omega
  unfold ofLocal?
  dsimp only
  rw [sameDay, Int.add_zero, Date.ofDayNumber?_dayNumber, Option.map_some]
  simp only [ofDay, hours, minutes]

theorem read?_text (t : Instant) : read? t.text = some t := by
  have date := date?_text t.utc.date (endsDigits_letter (t.utc.clock.text ++ ['Z']))
  have zone : EndsDigits ['Z'] := by
    rintro c ⟨⟩
    rfl
  have clock := clock?_text t.utc.clock zone (by decide) rfl
  have text : t.text = t.utc.date.text ++ 'T' :: (t.utc.clock.text ++ ['Z']) := by
    simp [Instant.text, Timestamp.text]
  have offset : whole? (offset? ['Z']) = some 0 := by decide
  simp [read?, text, date, clock, offset, ofLocal?_zero]

end Instant

end PlanSql
