import PlanSql.Proofs.SpelledText
import PlanSql.Quoting

namespace PlanSql

def TableRef.Clean (t : TableRef) : Prop := '"' ∉ t.space.toList ∧ '"' ∉ t.name.toList

def ColumnRef.Clean (c : ColumnRef) : Prop := c.table.Clean ∧ '"' ∉ c.name.toList

/-- Digits and points behind at most one sign. -/
def IsNumeral (s : List Char) : Prop :=
  ∃ sign ds, s = sign ++ ds ∧ (sign = [] ∨ sign = ['-']) ∧ ∀ c ∈ ds, c.isDigit = true ∨ c = '.'

theorem isDigit_of_mem_decimalDigits {n : Nat} {c : Char} (h : c ∈ decimalDigits n) :
    c.isDigit = true :=
  Nat.isDigit_of_mem_toDigits (by decide) (by decide) h

theorem isDigit_of_mem_paddedDigits {width n : Nat} {c : Char} (h : c ∈ paddedDigits width n) :
    c.isDigit = true := by
  rcases List.mem_append.mp h with hc | hc
  · obtain rfl := List.eq_of_mem_replicate hc
    rfl
  · exact isDigit_of_mem_decimalDigits hc

theorem integerText_isNumeral (n : Int) : IsNumeral (integerText n) := by
  unfold integerText
  split
  · exact ⟨['-'], _, rfl, .inr rfl, fun c hc => .inl (isDigit_of_mem_decimalDigits hc)⟩
  · exact ⟨[], _, rfl, .inl rfl, fun c hc => .inl (isDigit_of_mem_decimalDigits hc)⟩

theorem Decimal.text_isNumeral (x : Decimal) : IsNumeral x.text := by
  unfold Decimal.text
  dsimp only
  rw [List.append_assoc]
  refine ⟨_, _, rfl, by split <;> simp, fun c hc => ?_⟩
  rcases List.mem_append.mp hc with hc | hc
  · exact .inl (isDigit_of_mem_paddedDigits (List.mem_of_mem_take hc))
  · split at hc
    · simp at hc
    · rcases List.mem_cons.mp hc with rfl | hc
      · exact .inr rfl
      · exact .inl (isDigit_of_mem_paddedDigits (List.mem_of_mem_drop hc))

theorem FloatStyle.numeral_positionalText {style : FloatStyle} {ds : List Char} {point : Int}
    (h : ∀ c ∈ ds, c.isDigit = true) {c : Char} (hc : c ∈ style.positionalText ds point) :
    c.isDigit = true ∨ c = '.' := by
  have zeros : ∀ n, c ∈ List.replicate n '0' → c.isDigit = true := fun n hn => by
    obtain rfl := List.eq_of_mem_replicate hn
    rfl
  unfold positionalText at hc
  split at hc
  · simp only [List.mem_cons, List.mem_append] at hc
    rcases hc with rfl | rfl | hc | hc
    · exact .inl rfl
    · exact .inr rfl
    · exact .inl (zeros _ hc)
    · exact .inl (h c hc)
  split at hc
  · simp only [List.mem_append] at hc
    rcases hc with (hc | hc) | hc
    · exact .inl (h c hc)
    · exact .inl (zeros _ hc)
    · split at hc <;> simp at hc
      rcases hc with rfl | rfl
      · exact .inr rfl
      · exact .inl rfl
  · simp only [List.mem_append, List.mem_cons] at hc
    rcases hc with hc | rfl | hc
    · exact .inl (h c (List.mem_of_mem_take hc))
    · exact .inr rfl
    · exact .inl (h c (List.mem_of_mem_drop hc))

theorem FloatStyle.write_isNumeral {l : BinaryLayout} {x : Binary l} (number : x.isNaN = false)
    (finite : x.isInfinite = false) : IsNumeral (FloatStyle.plain.write x) := by
  have sign : (if x.negative then ['-'] else []) = [] ∨
      (if x.negative then ['-'] else []) = ['-'] := by
    split <;> simp
  unfold write
  rw [if_neg (by simp [number]), if_neg (by simp [finite])]
  split
  · exact ⟨_, _, rfl, sign, fun c => numeral_positionalText (by simp)⟩
  · exact ⟨_, _, rfl, sign, fun c => numeral_positionalText fun d => isDigit_of_mem_decimalDigits⟩

variable {before after : List Char}

theorem isPlain_of_numeral {c : Char} (h : c.isDigit = true ∨ c = '.') : isPlain c = true := by
  rcases h with h | rfl
  · simp only [isPlain, List.contains_eq_mem, List.mem_cons, List.not_mem_nil, or_false,
      Bool.not_eq_true', decide_eq_false_iff_not, not_or]
    refine ⟨?_, ?_, ?_, ?_, ?_, ?_⟩ <;> rintro rfl <;> simp at h
  · rfl

theorem spells_numeral {s : List Char} (h : IsNumeral s) (ha : Ends after) :
    Spells before after (fun _ => s) [] := by
  obtain ⟨sign, ds, rfl, minus, digits⟩ := h
  have plain : ds.all isPlain = true :=
    List.all_eq_true.mpr fun c hc => isPlain_of_numeral (digits c hc)
  rcases minus with rfl | rfl
  · exact spells_plain plain
  · have stop : (ds ++ after).head? ≠ some '-' := by
      intro e
      cases ds with
      | nil => simpa using ha '-' e
      | cons c ds =>
        obtain rfl : c = '-' := by simpa using e
        simpa using digits '-' (by simp)
    exact (Piece.stands_of_next (Piece.next_minus stop before)).spells.append (spells_plain plain)

theorem usual_of_specialFloat? {l : BinaryLayout} {x : Binary l} (h : specialFloat? x = none) :
    x.isNaN = false ∧ x.isInfinite = false := by
  unfold specialFloat? at h
  split at h
  · cases h
  next number =>
  split at h
  · cases h
  next finite => exact ⟨Bool.eq_false_iff.mpr number, Bool.eq_false_iff.mpr finite⟩

/-- What a number type writes bare is a numeral. -/
theorem Value.plain_isNumeral {v : Value} (numeric : v.type.isNumeric = true)
    (usual : v.specialFloat? = none) : IsNumeral v.plain := by
  cases v with
  | smallInt n => simpa [plain] using integerText_isNumeral _
  | int n => simpa [plain] using integerText_isNumeral _
  | bigInt n => simpa [plain] using integerText_isNumeral _
  | numeric x => simpa [plain] using x.text_isNumeral
  | real x =>
    obtain ⟨number, finite⟩ := usual_of_specialFloat? usual
    simpa [plain] using FloatStyle.write_isNumeral number finite
  | double x =>
    obtain ⟨number, finite⟩ := usual_of_specialFloat? usual
    simpa [plain] using FloatStyle.write_isNumeral number finite
  | _ => simp [Value.type, ValueType.isNumeric] at numeric

theorem Value.not_mem_special {v : Value} {word : List Char} (h : v.specialFloat? = some word) :
    '\'' ∉ word := by
  have float {l : BinaryLayout} {x : Binary l} (h : PlanSql.specialFloat? x = some word) :
      '\'' ∉ word := by
    unfold PlanSql.specialFloat? at h
    split at h
    · obtain rfl := Option.some.inj h
      decide
    split at h
    · obtain rfl := Option.some.inj h
      split <;> decide
    · simp at h
  cases v with
  | real x => exact float h
  | double x => exact float h
  | _ => simp [Value.specialFloat?] at h

/-- A constant of its value's own type, whose text has no single quote where it is quoted. -/
def Value.Quotable (v : Value) (declared : ValueType) : Prop :=
  declared = v.type ∧ (declared.isNumeric = false → '\'' ∉ v.plain)

theorem spells_literal {v : Value} {declared : ValueType} (h : v.Quotable declared)
    (hb : Gap before) (ha : Ends after) : Spells before after (fun _ => v.literal declared) [] := by
  obtain ⟨rfl, quotable⟩ := h
  unfold Value.literal
  split
  · exact spells_plain (by decide)
  cases special : v.specialFloat? with
  | some word => exact spells_singleQuoted (Value.not_mem_special special) hb ha
  | none =>
    dsimp only
    split
    next numeric => exact spells_numeral (Value.plain_isNumeral numeric special) ha
    next quoted => exact spells_singleQuoted (quotable (by simpa using quoted)) hb ha

theorem joined_eq_intercalate (gap : List Char) (ss : List (List Char)) :
    joined gap ss = gap.intercalate ss := by
  induction ss with
  | nil => rfl
  | cons s ss ih =>
    cases ss with
    | nil => simp [joined]
    | cons t rest => rw [joined, ih, List.intercalate_cons_cons, List.append_assoc]

/-- The name of a table as it stands in quotes. -/
def TableRef.identifier (t : TableRef) : List Char :=
  if t.space.isEmpty then t.name.toList else t.space.toList ++ '.' :: t.name.toList

theorem TableRef.text_eq (t : TableRef) : t.text = quotedName t.identifier := by
  unfold text identifier
  split <;> rfl

theorem TableRef.clean_iff (t : TableRef) : '"' ∉ t.identifier ↔ t.Clean := by
  unfold identifier Clean
  split
  next empty =>
    have spaceless : t.space.toList = [] := by simpa using empty
    simp [spaceless]
  next => simp

theorem spells_table {t : TableRef} (h : t.Clean) (ha : after.head? ≠ some '"') :
    Spells before after (fun _ => t.text) [] := by
  rw [t.text_eq]
  exact spells_quotedName (t.clean_iff.mpr h) ha

theorem spells_tables {ts : List TableRef} (h : ∀ t ∈ ts, t.Clean) (ha : Ends after) :
    Spells before after (fun _ => joined ", ".toList (ts.map TableRef.text)) [] :=
  spells_joined_fixed _ _ (by decide) (by simp [Ends])
    (fun t ht _ _ ha => spells_table (h t ht) (ha.head?_ne (by decide))) ha

theorem spells_column {c : ColumnRef} (h : c.Clean) (ha : after.head? ≠ some '"') :
    Spells before after (fun _ => c.text) [] := by
  refine Spells.after_fixed (spells_table h.1 (by simp)) ?_
  exact Spells.after_char (spells_quotedName h.2 ha) (by decide)

end PlanSql
