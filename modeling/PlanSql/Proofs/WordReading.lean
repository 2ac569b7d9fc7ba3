import PlanSql.Assignment
import PlanSql.Proofs.NumberGrammar
import PlanSql.Proofs.TypedAccess

namespace PlanSql

/-- Digits, the mark of a power of ten, and digits. -/
def IsPowerNumeral (s : List Char) : Prop :=
  ∃ whole c power, s = whole ++ c :: power ∧ (c = 'e' ∨ c = 'E') ∧ whole ≠ [] ∧ power ≠ [] ∧
    ∀ d ∈ whole ++ power, d.isDigit = true

theorem IsPowerNumeral.mark_mem {s : List Char} (h : IsPowerNumeral s) :
    ∃ c ∈ s, c = 'e' ∨ c = 'E' := by
  obtain ⟨whole, c, power, rfl, mark, -⟩ := h
  exact ⟨c, by simp, mark⟩

theorem IsPowerNumeral.isNumber {s : List Char} (h : IsPowerNumeral s) : IsNumber s := by
  obtain ⟨whole, c, power, rfl, mark, nonempty, power_some, digits⟩ := h
  have exponent : WritesInteger power (readDecimal power) :=
    .plain power_some fun d hd => digits d (List.mem_append_right _ hd)
  refine ⟨[], _, rfl, .inl rfl, .inr ⟨⟨false, whole, none, some (readDecimal power)⟩, ?_, ?_⟩⟩
  · exact ⟨c :: power, rfl, fun d hd => digits d (List.mem_append_left _ hd), by simp,
      .present mark exponent⟩
  · simp [Numeral.hasDigit, nonempty]

/-- A mark of a power is part of no whole number. -/
theorem IsPowerNumeral.not_integer {s : List Char} (h : IsPowerNumeral s) (n : Int) :
    ¬WritesInteger s n := by
  intro integer
  obtain ⟨c, hc, mark⟩ := h.mark_mem
  rcases mark with rfl | rfl <;> simpa using integer.mem hc

theorem isHex_of_readHex? {s : List Char} {n : Nat} (h : readHex? s = some n) :
    ∀ c ∈ s, (hexValue? c).isSome = true := by
  induction s using List.reverseRecOn generalizing n with
  | nil => simp
  | append_singleton s c ih =>
    rw [readHex?, List.foldl_append, List.foldl_cons, List.foldl_nil] at h
    obtain ⟨m, front, last⟩ := Option.bind_eq_some_iff.mp h
    obtain ⟨k, digit, -⟩ := Option.map_eq_some_iff.mp last
    intro d hd
    rcases List.mem_append.mp hd with hd | hd
    · exact ih front d hd
    · rw [List.mem_singleton.mp hd, digit]
      rfl

/-- What is written in hexadecimal digits only is a number without sign and point. -/
theorem IsNumber.of_hex {s : List Char} (h : IsNumber s) (long : 8 < s.length)
    (hex : ∀ c ∈ s, (hexValue? c).isSome = true) :
    (∀ c ∈ s, c.isDigit = true) ∨ IsPowerNumeral s := by
  have unsigned {t : List Char} {n : Int} (integer : WritesInteger t n)
      (hex : ∀ c ∈ t, (hexValue? c).isSome = true) : t ≠ [] ∧ ∀ c ∈ t, c.isDigit = true := by
    cases integer with
    | plain nonempty digits => exact ⟨nonempty, digits⟩
    | plus => exact absurd (hex '+' List.mem_cons_self) (by decide)
    | minus => exact absurd (hex '-' List.mem_cons_self) (by decide)
  obtain ⟨sign, body, rfl, mark, number⟩ := h
  obtain rfl : sign = [] := by
    rcases mark with rfl | rfl | rfl
    · rfl
    · exact absurd (hex '+' (by simp)) (by decide)
    · exact absurd (hex '-' (by simp)) (by decide)
  rw [List.nil_append] at hex long ⊢
  -- The names are too short; the point and the sign of a power are no hexadecimal digits.
  rcases number with name | ⟨n, ⟨power, rfl, whole, -, exponent⟩, hd⟩
  · exact absurd name.length_le (by omega)
  cases fraction : n.fraction with
  | some ds =>
    rw [fraction] at hex
    exact absurd (hex '.' (by simp [Numeral.fractionText])) (by decide)
  | none =>
    rw [fraction, Numeral.fractionText, List.nil_append] at hex
    rw [Numeral.fractionText, List.nil_append]
    generalize n.exponent = e at exponent
    cases exponent with
    | absent =>
      rw [List.append_nil]
      exact .inl whole
    | @present c t e mark integer =>
      obtain ⟨power_some, digits⟩ := unsigned integer fun d hd => hex d (by simp [hd])
      have whole_some : n.whole ≠ [] := by simpa [Numeral.hasDigit, fraction] using hd
      refine .inr ⟨n.whole, c, t, rfl, mark, whole_some, power_some, fun d hd => ?_⟩
      exact (List.mem_append.mp hd).elim (whole d) (digits d)

/-- A hyphen counts once more for what begins at it or in front of it. -/
theorem count_drop_of_getElem? {s : List Char} {i j : Nat} (le : i ≤ j) (h : s[j]? = some '-') :
    (s.drop (j + 1)).count '-' + 1 ≤ (s.drop i).count '-' := by
  obtain ⟨inside, hyphen⟩ := List.getElem?_eq_some_iff.mp h
  have cut : s.drop j = '-' :: s.drop (j + 1) := by rw [List.drop_eq_getElem_cons inside, hyphen]
  have inner : List.Sublist (s.drop j) (s.drop i) := List.drop_sublist_drop_left s le
  have count := inner.count_le '-'
  rw [cut, List.count_cons_self] at count
  exact count

namespace Uuid

variable {s : List Char} {u : Uuid}

theorem grouped?_shape (h : grouped? s = some u) : s.length = 36 ∧ 4 ≤ s.count '-' := by
  unfold grouped? at h
  dsimp only at h
  split at h
  next shape =>
    simp only [List.all_cons, List.all_nil, Bool.and_true, Bool.and_eq_true, beq_iff_eq,
      decide_eq_true_eq] at shape
    obtain ⟨length, first, second, third, fourth⟩ := shape
    have one := count_drop_of_getElem? (Nat.zero_le 8) first
    have two := count_drop_of_getElem? (by decide : 9 ≤ 13) second
    have three := count_drop_of_getElem? (by decide : 14 ≤ 18) third
    have four := count_drop_of_getElem? (by decide : 19 ≤ 23) fourth
    simp only [Nat.reduceAdd, List.drop_zero] at one two three four
    exact ⟨length, by omega⟩
  next => cases h

/-- A UUID is written in hexadecimal digits only or has four hyphens. -/
theorem read?_shape (h : read? s = some u) : 32 ≤ s.length ∧
    ((∀ c ∈ s, (hexValue? c).isSome = true) ∨ 4 ≤ s.count '-') := by
  unfold read? at h
  split at h
  next length =>
    obtain ⟨n, hex, -⟩ := Option.map_eq_some_iff.mp h
    exact ⟨length.ge, .inl (isHex_of_readHex? hex)⟩
  split at h
  next braces =>
    simp only [Bool.and_eq_true, decide_eq_true_eq] at braces
    have inner : List.Sublist (s.drop 1).dropLast s :=
      (List.dropLast_sublist _).trans (List.drop_sublist 1 s)
    have count := inner.count_le '-'
    have hyphens := (grouped?_shape h).2
    exact ⟨by omega, .inr (by omega)⟩
  split at h
  next rest head =>
    have text := dropHead?_eq_some_iff.mp head
    obtain ⟨length, hyphens⟩ := grouped?_shape h
    rw [text, List.length_append, List.count_append]
    exact ⟨by omega, .inr (by omega)⟩
  next =>
    obtain ⟨length, hyphens⟩ := grouped?_shape h
    exact ⟨by omega, .inr hyphens⟩

/-- A UUID that is a number too is a run of digits, with the mark of a power among them or not. -/
theorem number_of_read? (h : read? s = some u) (number : IsNumber s) :
    (∀ c ∈ s, c.isDigit = true) ∨ IsPowerNumeral s := by
  obtain ⟨length, hex | hyphens⟩ := read?_shape h
  · exact number.of_hex (by omega) hex
  · have few := number.count_minus_le
    omega

end Uuid

namespace Value

variable {s : List Char} {v : Value} {n : Int}

theorem fitsSigned_iff {bits : Nat} :
    fitsSigned bits n = true ↔ -2 ^ (bits - 1) ≤ n ∧ n < 2 ^ (bits - 1) := by
  simp [fitsSigned]

/-- A word that is no whole number is read as a float. -/
theorem numberOfWord?_of_no_integer (h : ∀ n, ¬WritesInteger s n) :
    numberOfWord? s = (Binary.read? s).map .double := by
  have unread : readInteger? s = none := by
    refine Option.eq_none_iff_forall_ne_some.mpr fun n read => ?_
    exact h n (readInteger?_eq_some_iff.mp read)
  simp [numberOfWord?, unread]

theorem numberOfWord?_of_integer (h : WritesInteger s n) : numberOfWord? s =
    if fitsSigned 32 n then some (.int (Int32.ofInt n))
    else if fitsSigned 64 n then some (.bigInt (Int64.ofInt n))
    else (Binary.read? s).map .double := by
  simp only [numberOfWord?, readInteger?_eq_some_iff.mpr h, Option.filter_some]
  by_cases narrow : fitsSigned 32 n = true
  · simp [narrow]
  by_cases wide : fitsSigned 64 n = true <;> simp [narrow, wide]

theorem numberOfWord?_cases (s : List Char) :
    (∃ n, WritesInteger s n ∧ (numberOfWord? s = some (.int (Int32.ofInt n)) ∨
      numberOfWord? s = some (.bigInt (Int64.ofInt n)))) ∨
    numberOfWord? s = (Binary.read? s).map .double := by
  by_cases integer : ∃ n, WritesInteger s n
  · obtain ⟨n, integer⟩ := integer
    rw [numberOfWord?_of_integer integer]
    split
    · exact .inl ⟨n, integer, .inl rfl⟩
    split
    · exact .inl ⟨n, integer, .inr rfl⟩
    · exact .inr rfl
  · exact .inr (numberOfWord?_of_no_integer (not_exists.mp integer))

theorem numberOfWord?_eq_none_iff : numberOfWord? s = none ↔ ¬IsNumber s := by
  rcases numberOfWord?_cases s with ⟨n, integer, read | read⟩ | read
  · simp [read, integer.isNumber]
  · simp [read, integer.isNumber]
  · rw [read, Option.map_eq_none_iff, ← Option.not_isSome_iff_eq_none, Binary.isSome_read?_iff]

theorem numberOfWord?_isNumeric (h : numberOfWord? s = some v) : v.type.isNumeric = true := by
  rcases numberOfWord?_cases s with ⟨n, -, read | read⟩ | read
  · cases read.symm.trans h
    rfl
  · cases read.symm.trans h
    rfl
  · rw [read] at h
    obtain ⟨x, -, rfl⟩ := Option.map_eq_some_iff.mp h
    rfl

/-- An integer that a word or a double holds is read as itself. -/
theorem exists_numberOfWord? (h : WritesInteger s n)
    (held : -2 ^ 63 ≤ n ∧ n < 2 ^ 63 ∨ Binary.IsDoubleInteger n) :
    ∃ v, numberOfWord? s = some v ∧ v.quantity? = some (.number n) := by
  rw [numberOfWord?_of_integer h]
  split
  next narrow =>
    obtain ⟨low, high⟩ := fitsSigned_iff.mp narrow
    exact ⟨_, rfl, by rw [quantity?, Int32.toInt_ofInt_of_le low high]⟩
  split
  next wide =>
    obtain ⟨low, high⟩ := fitsSigned_iff.mp wide
    exact ⟨_, rfl, by rw [quantity?, Int64.toInt_ofInt_of_le low high]⟩
  next beyond =>
    have double := held.resolve_left fun inside => beyond (fitsSigned_iff.mpr inside)
    obtain ⟨x, read, value⟩ := Binary.double_read?_integer h double
    exact ⟨.double x, by rw [read]; rfl, by rw [quantity?, value]⟩

variable {word : String} {u : Uuid}

theorem ofWord_of_number (h : numberOfWord? word.toList = some v) : ofWord word = v := by
  rw [ofWord, h]

theorem length_of_keyword (h : word = "true" ∨ word = "false" ∨ sameName word "null" = true) :
    word.toList.length ≤ 5 := by
  rcases h with rfl | rfl | null
  · decide
  · decide
  · have folded := congrArg (fun s => s.toList.length) (sameName_iff.mp null)
    simp only [foldCase, String.toList_ofList, List.length_map] at folded
    rw [folded]
    decide

/-- No keyword is as long as a UUID. -/
theorem ofWord_of_uuid (h : Uuid.read? word.toList = some u) (other : ¬IsNumber word.toList) :
    ofWord word = .uuid u := by
  have long := (Uuid.read?_shape h).1
  have not_keyword : ¬(word = "true" ∨ word = "false" ∨ sameName word "null" = true) := by
    intro keyword
    have short := length_of_keyword keyword
    omega
  rw [not_or, not_or] at not_keyword
  rw [ofWord, numberOfWord?_eq_none_iff.mpr other]
  dsimp only
  rw [if_neg not_keyword.1, if_neg not_keyword.2.1, if_neg not_keyword.2.2, h]

/-- A number comes before a UUID. -/
theorem ofWord_of_powerNumeral (h : IsPowerNumeral word.toList) :
    ∃ x, Binary.read? word.toList = some x ∧ ofWord word = .double x := by
  have read := Binary.isSome_read?_iff (l := .double).mpr h.isNumber
  obtain ⟨x, read⟩ := Option.isSome_iff_exists.mp read
  refine ⟨x, read, ofWord_of_number ?_⟩
  rw [numberOfWord?_of_no_integer h.not_integer, read]
  rfl

theorem ofWord_eq_text_iff {t : String} : ofWord word = .text t ↔
    t = word ∧ ¬IsNumber word.toList ∧ word ≠ "true" ∧ word ≠ "false" ∧
      sameName word "null" = false ∧ Uuid.read? word.toList = none := by
  unfold ofWord
  split
  next v number =>
    have numeric := numberOfWord?_isNumeric number
    have read : IsNumber word.toList := by
      by_contra other
      rw [numberOfWord?_eq_none_iff.mpr other] at number
      cases number
    refine iff_of_false ?_ fun h => h.2.1 read
    rintro rfl
    cases numeric
  next unread =>
    have other := numberOfWord?_eq_none_iff.mp unread
    split
    next yes => simp [yes]
    split
    next no => simp [no]
    split
    next null => simp [null]
    split
    next u uuid => simp [uuid]
    next yes no null uuid => simp [*, eq_comm]

/-- An integer of any length that a word of 64 bits or a double holds is kept exactly; a UUID that
is not in decimal digits only is kept, unless it is the numeral of a number times a power of ten,
which is read as a number; and a word is text just when it is neither a number nor a keyword nor a
UUID. -/
theorem ofWord_keeps (word : String) :
    (∀ n, WritesInteger word.toList n → (-2 ^ 63 ≤ n ∧ n < 2 ^ 63 ∨ Binary.IsDoubleInteger n) →
      (ofWord word).quantity? = some (.number n)) ∧
    (∀ u, Uuid.read? word.toList = some u → (∃ c ∈ word.toList, c.isDigit = false) →
      (¬IsPowerNumeral word.toList → ofWord word = .uuid u) ∧
      (IsPowerNumeral word.toList →
        ∃ x, Binary.read? word.toList = some x ∧ ofWord word = .double x)) ∧
    ∀ t, ofWord word = .text t ↔
      t = word ∧ ¬IsNumber word.toList ∧ word ≠ "true" ∧ word ≠ "false" ∧
        sameName word "null" = false ∧ Uuid.read? word.toList = none := by
  refine ⟨fun n integer held => ?_, fun u uuid other => ⟨fun plain => ?_, ofWord_of_powerNumeral⟩,
    fun t => ofWord_eq_text_iff⟩
  · obtain ⟨v, read, value⟩ := exists_numberOfWord? integer held
    rwa [ofWord_of_number read]
  · refine ofWord_of_uuid uuid fun number => ?_
    rcases Uuid.number_of_read? uuid number with digits | power
    · obtain ⟨c, hc, letter⟩ := other
      rw [digits c hc] at letter
      cases letter
    · exact plain power

/-- An integer too great for 64 bits and of too many binary digits for a double. -/
def longInteger : String := "9223372036854775809"

/-- A UUID in hexadecimal digits, of which one is a letter. -/
def powerUuid : String := "12345678901234567890123456789e10"

theorem powerUuid_isPowerNumeral : IsPowerNumeral powerUuid.toList :=
  ⟨"12345678901234567890123456789".toList, 'e', "10".toList, rfl, .inl rfl,
    by decide, by decide, List.all_eq_true.mp (by decide +kernel)⟩

theorem ofWord_keeps_wide : WritesInteger "-18446744073709551616".toList (-2 ^ 64) ∧
    (ofWord "-18446744073709551616").quantity? = some (.number (-2 ^ 64 : Int)) ∧
    ofWord "urn:uuid:0D000000-0000-0000-0000-00000000001E" =
      .uuid ⟨0x0d00000000000000000000000000001e⟩ ∧
    (∃ x, ofWord powerUuid = .double x) ∧ ofWord "9,5" = .text "9,5" := by
  have integer : WritesInteger "-18446744073709551616".toList (-2 ^ 64) :=
    readInteger?_eq_some_iff.mp (by decide +kernel)
  have held : Binary.IsDoubleInteger (-2 ^ 64) :=
    ⟨Nat.pow_lt_pow_right (by decide : 1 < 2) (by decide : 64 < 1024), 1, 64, by decide, by decide⟩
  have not_number {s : List Char} (h : (Binary.read? s : Option Double).isSome = false) :
      ¬IsNumber s := by
    rw [← Binary.isSome_read?_iff (l := .double), h]
    exact Bool.false_ne_true
  have urn : Uuid.read? "urn:uuid:0D000000-0000-0000-0000-00000000001E".toList =
      some ⟨0x0d00000000000000000000000000001e⟩ := by decide +kernel
  have plain : ¬IsPowerNumeral "urn:uuid:0D000000-0000-0000-0000-00000000001E".toList :=
    fun power => not_number (by decide +kernel) power.isNumber
  have uuid : ∃ u, Uuid.read? powerUuid.toList = some u :=
    Option.isSome_iff_exists.mp (by decide +kernel)
  obtain ⟨u, uuid⟩ := uuid
  obtain ⟨x, -, double⟩ := ((ofWord_keeps powerUuid).2.1 u uuid ⟨'e', by decide +kernel⟩).2
    powerUuid_isPowerNumeral
  refine ⟨integer, (ofWord_keeps _).1 _ integer (.inr held),
    ((ofWord_keeps _).2.1 _ urn ⟨'u', by decide +kernel⟩).1 plain, ⟨x, double⟩,
    ((ofWord_keeps _).2.2 _).mpr ⟨rfl, not_number (by decide +kernel), by decide, by decide,
      by decide +kernel, by decide +kernel⟩⟩

/-- An integer beyond those of 64 bits is read as another one, and a UUID with the mark of a power
of ten among its digits is read as a number. -/
theorem longInteger_rounded_and_powerUuid_number :
    (WritesInteger longInteger.toList 9223372036854775809 ∧
      (ofWord longInteger).quantity? = some (.number (9223372036854775808 : Int)) ∧
      (ofWord longInteger).quantity? ≠ some (.number (9223372036854775809 : Int))) ∧
    ∃ u x, Uuid.read? powerUuid.toList = some u ∧ (∃ c ∈ powerUuid.toList, c.isDigit = false) ∧
      ofWord powerUuid = .double x ∧ ofWord powerUuid ≠ .uuid u := by
  have integer : WritesInteger longInteger.toList 9223372036854775809 :=
    readInteger?_eq_some_iff.mp (by decide +kernel)
  have neighbour : WritesInteger "9223372036854775808".toList 9223372036854775808 :=
    readInteger?_eq_some_iff.mp (by decide +kernel)
  have held : Binary.IsDoubleInteger 9223372036854775808 :=
    ⟨Nat.pow_lt_pow_right (by decide : 1 < 2) (by decide : 63 < 1024), 1, 63, by decide, by decide⟩
  obtain ⟨y, read, value⟩ := Binary.double_read?_integer neighbour held
  have rounded : (Binary.read? longInteger.toList : Option Double) = some y := by
    rw [← read]
    decide +kernel
  have number : numberOfWord? longInteger.toList = some (.double y) := by
    rw [numberOfWord?_of_integer integer, if_neg (by decide), if_neg (by decide), rounded]
    rfl
  have quantity : (ofWord longInteger).quantity? =
      some (.number (9223372036854775808 : Int)) := by
    rw [ofWord_of_number number, quantity?, value]
  obtain ⟨u, uuid⟩ : ∃ u, Uuid.read? powerUuid.toList = some u :=
    Option.isSome_iff_exists.mp (by decide +kernel)
  obtain ⟨x, -, double⟩ := ofWord_of_powerNumeral powerUuid_isPowerNumeral
  refine ⟨⟨integer, quantity, ?_⟩, u, x, uuid, ⟨'e', by decide +kernel, rfl⟩, double, ?_⟩
  · rw [quantity]
    simp
  · rw [double]
    exact nofun

end Value

end PlanSql
