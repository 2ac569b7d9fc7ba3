import PlanSql.Json
import PlanSql.Proofs.NumberReading

namespace PlanSql

namespace Document

/-- Documents as they are written: whole numbers, and strings and names that are escaped. -/
inductive Written : Document → Prop
  | null : Written .null
  | bool (b : Bool) : Written (.bool b)
  | int (n : Int) : Written (.ofInt n)
  | string (s : List Char) : Written (.string (escape s))
  | array {items} : (∀ d ∈ items, Written d) → Written (.array items)
  | object {fields} : (∀ f ∈ fields, ∃ s, f.1 = escape s) → (∀ f ∈ fields, Written f.2) →
      Written (.object fields)

theorem hexDigits_four (n : Nat) : hexDigits 4 n = [hexDigit (n / 16 / 16 / 16 % 16),
    hexDigit (n / 16 / 16 % 16), hexDigit (n / 16 % 16), hexDigit (n % 16)] := rfl

/-- A character is escaped on its own: reading passes over its text and gives it back. -/
theorem escape_cons (c : Char) (s : List Char) : ∃ unit : List Char,
    escape (c :: s) = unit ++ escape s ∧
      (∀ t, body? (unit ++ t) = (body? t).map fun (x, r) => (unit ++ x, r)) ∧
      ∀ t, unescape? (unit ++ t) = (unescape? t).map (c :: ·) := by
  have char {k : Nat} (hk : c.toNat = k) {d : Char} (hd : d.toNat = k) : c = d :=
    Char.toNat_inj.mp (hk.trans hd.symm)
  refine ⟨_, escape.eq_2 c s, fun t => ?_, fun t => ?_⟩
  · split_ifs with quote backslash line carriage tab back feed control
    · simp [body?, escaped?]
    · simp [body?, escaped?]
    · simp [body?, escaped?]
    · simp [body?, escaped?]
    · simp [body?, escaped?]
    · simp [body?, escaped?]
    · simp [body?, escaped?]
    · have hex : ((hexDigits 4 c.toNat).all isHex) = true :=
        List.all_eq_true.mpr fun d hd => isHex_of_mem_hexDigits hd
      rw [hexDigits_four] at hex ⊢
      simp only [List.cons_append, List.nil_append, body?]
      rw [if_pos hex]
    · simp [body?, backslash, control]
  · split_ifs with quote backslash line carriage tab back feed control
    · simp [unescape?, escaped?, quote]
    · simp [unescape?, escaped?, backslash]
    · simp [unescape?, escaped?, line]
    · simp [unescape?, escaped?, carriage]
    · simp [unescape?, escaped?, tab]
    · simp [unescape?, escaped?, char back (d := '\x08') rfl]
    · simp [unescape?, escaped?, char feed (d := '\x0c') rfl]
    · have read := readHex?_hexDigits 4 c.toNat
      have small : c.toNat % 16 ^ 4 = c.toNat := by omega
      rw [small] at read
      rw [hexDigits_four] at read ⊢
      have high : isHighSurrogate c.toNat = false := by
        simp only [isHighSurrogate, Bool.and_eq_false_iff, decide_eq_false_iff_not]
        omega
      have low : isLowSurrogate c.toNat = false := by
        simp only [isLowSurrogate, Bool.and_eq_false_iff, decide_eq_false_iff_not]
        omega
      simp [unescape?, read, high, low]
    · simp [unescape?, backslash]

theorem unescape?_escape (s : List Char) : unescape? (escape s) = some s := by
  induction s with
  | nil => rfl
  | cons c s ih =>
    obtain ⟨unit, text, -, read⟩ := escape_cons c s
    rw [text, read, ih, Option.map_some]

theorem body?_escape (s after : List Char) :
    body? (escape s ++ '"' :: after) = some (escape s, after) := by
  induction s with
  | nil => rfl
  | cons c s ih =>
    obtain ⟨unit, text, read, -⟩ := escape_cons c s
    rw [text, List.append_assoc, read, ih, Option.map_some]

/-- Text that cannot continue a number. -/
def EndsNumber (after : List Char) : Prop := ∀ c ∈ after.head?, isNumberChar c = false

/-- A document is read from its text, whatever follows. -/
def Reads (d : Document) : Prop := ∀ fuel after, 2 * d.compact.length ≤ fuel + 1 →
  EndsNumber after → value? fuel (d.compact ++ after) = some (d, after)

/-- How the text of a document begins: not with a space, and not as an array ends. -/
def Begins (s : List Char) : Prop := ∃ c t, s = c :: t ∧ isSpace c = false ∧ c ≠ ']'

/-- The first character of a number. -/
def IsNumberStart (c : Char) : Prop := c = '-' ∨ c.isDigit = true

theorem integerText_cons (n : Int) : ∃ c s, integerText n = c :: s ∧ IsNumberStart c := by
  unfold integerText
  split
  · exact ⟨_, _, rfl, .inl rfl⟩
  · obtain ⟨c, s, hc⟩ := List.exists_cons_of_ne_nil (decimalDigits_ne_nil n.natAbs)
    exact ⟨c, s, hc, .inr (isDigit_of_mem_decimalDigits (n := n.natAbs) (by simp [hc]))⟩

theorem IsNumberStart.ne {c : Char} (h : IsNumberStart c) {d : Char} (hd : d ≠ '-')
    (digit : d.isDigit = false) : c ≠ d := by
  rintro rfl
  exact h.elim hd (Bool.eq_false_iff.mp digit)

theorem IsNumberStart.not_space {c : Char} (h : IsNumberStart c) : isSpace c = false := by
  simp [isSpace, h.ne (d := ' ') (by decide) rfl, h.ne (d := '\t') (by decide) rfl,
    h.ne (d := '\n') (by decide) rfl, h.ne (d := '\r') (by decide) rfl]

theorem isNumberChar_of_mem_integerText {n : Int} {c : Char} (h : c ∈ integerText n) :
    isNumberChar c = true := by
  have digit : c ∈ decimalDigits n.natAbs → isNumberChar c = true := fun hc => by
    simp [isNumberChar, isDigit_of_mem_decimalDigits hc]
  unfold integerText at h
  split at h
  · rcases List.mem_cons.mp h with rfl | hc
    · rfl
    · exact digit hc
  · exact digit h

theorem Written.begins {d : Document} (h : d.Written) : Begins d.compact := by
  cases h with
  | null => exact ⟨_, _, rfl, rfl, by decide⟩
  | bool b => cases b <;> exact ⟨_, _, rfl, rfl, by decide⟩
  | int n =>
    obtain ⟨c, s, hc, first⟩ := integerText_cons n
    exact ⟨c, s, hc, first.not_space, first.ne (by decide) rfl⟩
  | string s => exact ⟨_, _, rfl, rfl, by decide⟩
  | array => exact ⟨_, _, rfl, rfl, by decide⟩
  | object => exact ⟨_, _, rfl, rfl, by decide⟩

theorem skipSpace_cons {c : Char} (h : isSpace c = false) (s : List Char) :
    skipSpace (c :: s) = c :: s := by
  simp [skipSpace, h]

theorem value?_scalar {c : Char} (space : isSpace c = false) (bracket : c ≠ '[')
    (brace : c ≠ '\x7b') (fuel : Nat) (s : List Char) :
    value? (fuel + 1) (c :: s) = scalar? (c :: s) := by
  rw [value?, skipSpace_cons space]
  split
  next e => exact absurd (List.cons.inj e).1 bracket
  next e => exact absurd (List.cons.inj e).1 brace
  next => rfl

theorem value?_array {c : Char} (space : isSpace c = false) (bracket : c ≠ ']') (fuel : Nat)
    (s : List Char) : value? (fuel + 1) ('[' :: c :: s) =
      (items? fuel (c :: s)).map fun (ds, rest) => (.array ds, rest) := by
  have outer := skipSpace_cons (c := '[') rfl (c :: s)
  simp [value?, outer, skipSpace_cons space, bracket]

theorem value?_object (fuel : Nat) (s : List Char) : value? (fuel + 1) ('\x7b' :: '"' :: s) =
    (fields? fuel ('"' :: s)).map fun (ds, rest) => (.object ds, rest) := by
  have outer := skipSpace_cons (c := '\x7b') rfl ('"' :: s)
  have inner := skipSpace_cons (c := '"') rfl s
  simp [value?, outer, inner]

theorem scalar?_integerText (n : Int) {after : List Char} (ha : EndsNumber after) :
    scalar? (integerText n ++ after) = some (.ofInt n, after) := by
  have inside : ∀ c ∈ integerText n, isNumberChar c = true :=
    fun c => isNumberChar_of_mem_integerText
  have split := Piece.splitWhile_of_boundary inside ha
  obtain ⟨c, s, hc, first⟩ := integerText_cons n
  have number := Numeral.json?_integerText n
  rw [hc, List.cons_append] at split ⊢
  rw [hc] at number
  rw [scalar?, split]
  · simp [number, ofInt, hc]
  · exact fun _ e => first.ne (by decide) rfl (List.cons.inj e).1
  · exact fun _ e => first.ne (by decide) rfl (List.cons.inj e).1
  · exact fun _ e => first.ne (by decide) rfl (List.cons.inj e).1
  · exact fun _ e => first.ne (by decide) rfl (List.cons.inj e).1

theorem endsNumber_cons {c : Char} (h : isNumberChar c = false) (s : List Char) :
    EndsNumber (c :: s) := by
  rintro d ⟨⟩
  exact h

/-- Items are read up to the bracket behind them. -/
theorem items?_compact {items : List Document} (nonempty : items ≠ [])
    (each : ∀ d ∈ items, d.Reads) {fuel : Nat} (enough : 2 * (compactItems items).length ≤ fuel)
    (positive : 0 < fuel) (after : List Char) :
    items? fuel (compactItems items ++ ']' :: after) = some (items, after) := by
  induction items generalizing fuel with
  | nil => exact absurd rfl nonempty
  | cons d items ih =>
    obtain ⟨fuel, rfl⟩ : ∃ k, fuel = k + 1 := ⟨fuel - 1, by omega⟩
    have reads := each d List.mem_cons_self fuel
    have bracket := skipSpace_cons (c := ']') rfl after
    cases items with
    | nil =>
      rw [compactItems] at enough ⊢
      have read := reads (']' :: after) enough (endsNumber_cons rfl after)
      simp [items?, read, bracket]
    | cons e rest =>
      rw [compactItems] at enough ⊢
      rw [List.length_append, List.length_cons] at enough
      have comma := skipSpace_cons (c := ',') rfl (compactItems (e :: rest) ++ ']' :: after)
      have others : items? fuel (compactItems (e :: rest) ++ ']' :: after) =
          some (e :: rest, after) :=
        ih (by simp) (fun f hf => each f (List.mem_cons_of_mem d hf)) (by omega) (by omega)
      have read := reads (',' :: (compactItems (e :: rest) ++ ']' :: after)) (by omega)
        (endsNumber_cons rfl _)
      simp [items?, read, comma, others]

/-- Fields are read up to the brace behind them. -/
theorem fields?_compact {fields : List (List Char × Document)} (nonempty : fields ≠ [])
    (names : ∀ f ∈ fields, ∃ s, f.1 = escape s) (each : ∀ f ∈ fields, f.2.Reads) {fuel : Nat}
    (enough : 2 * (compactFields fields).length ≤ fuel) (positive : 0 < fuel)
    (after : List Char) :
    fields? fuel (compactFields fields ++ '\x7d' :: after) = some (fields, after) := by
  induction fields generalizing fuel with
  | nil => exact absurd rfl nonempty
  | cons f fields ih =>
    obtain ⟨fuel, rfl⟩ : ∃ k, fuel = k + 1 := ⟨fuel - 1, by omega⟩
    obtain ⟨name, d⟩ := f
    obtain ⟨s, rfl⟩ : ∃ s, name = escape s := names _ List.mem_cons_self
    have reads : d.Reads := each _ List.mem_cons_self
    have quote (r : List Char) := skipSpace_cons (c := '"') rfl r
    have colon (r : List Char) := skipSpace_cons (c := ':') rfl r
    cases fields with
    | nil =>
      have brace := skipSpace_cons (c := '\x7d') rfl after
      simp only [compactFields, List.length_cons, List.length_append] at enough
      have read := reads fuel ('\x7d' :: after) (by omega) (endsNumber_cons rfl after)
      simp [compactFields, fields?, quote, body?_escape, colon, read, brace]
    | cons e rest =>
      simp only [compactFields, List.length_cons, List.length_append] at enough
      have comma := skipSpace_cons (c := ',') rfl (compactFields (e :: rest) ++ '\x7d' :: after)
      have others : fields? fuel (compactFields (e :: rest) ++ '\x7d' :: after) =
          some (e :: rest, after) :=
        ih (by simp) (fun f hf => names f (List.mem_cons_of_mem _ hf))
          (fun f hf => each f (List.mem_cons_of_mem _ hf)) (by omega) (by omega)
      have read := reads fuel (',' :: (compactFields (e :: rest) ++ '\x7d' :: after)) (by omega)
        (endsNumber_cons rfl _)
      simp [compactFields, fields?, quote, body?_escape, colon, read, comma, others]

theorem begins_compactItems {items : List Document} (h : ∀ d ∈ items, d.Written)
    (nonempty : items ≠ []) : Begins (compactItems items) := by
  obtain ⟨d, rest, rfl⟩ := List.exists_cons_of_ne_nil nonempty
  obtain ⟨c, t, text, space, bracket⟩ := (h d List.mem_cons_self).begins
  cases rest with
  | nil => exact ⟨c, t, by rw [compactItems, text], space, bracket⟩
  | cons e rest => exact ⟨c, _, by rw [compactItems, text, List.cons_append], space, bracket⟩

theorem compactFields_cons {fields : List (List Char × Document)} (nonempty : fields ≠ []) :
    ∃ s, compactFields fields = '"' :: s := by
  obtain ⟨⟨name, d⟩, rest, rfl⟩ := List.exists_cons_of_ne_nil nonempty
  cases rest with
  | nil => exact ⟨_, rfl⟩
  | cons e rest => exact ⟨_, rfl⟩

theorem Reads.of_scalar {d : Document} {c : Char} {s : List Char} (text : d.compact = c :: s)
    (space : isSpace c = false) (bracket : c ≠ '[') (brace : c ≠ '\x7b')
    (read : ∀ after, EndsNumber after → scalar? (c :: (s ++ after)) = some (d, after)) :
    d.Reads := by
  intro fuel after enough ha
  rw [text, List.length_cons] at enough
  obtain ⟨fuel, rfl⟩ : ∃ k, fuel = k + 1 := ⟨fuel - 1, by omega⟩
  rw [text, List.cons_append, value?_scalar space bracket brace, read after ha]

theorem Reads.ofInt (n : Int) : (ofInt n).Reads := by
  obtain ⟨c, s, hc, first⟩ := integerText_cons n
  refine .of_scalar hc first.not_space (first.ne (by decide) rfl) (first.ne (by decide) rfl)
    fun after ha => ?_
  rw [← List.cons_append, ← hc]
  exact scalar?_integerText n ha

theorem Reads.array {items : List Document} (written : ∀ d ∈ items, d.Written)
    (each : ∀ d ∈ items, d.Reads) : (array items).Reads := by
  intro fuel after enough ha
  simp only [compact, List.length_cons, List.length_append] at enough
  obtain ⟨fuel, rfl⟩ : ∃ k, fuel = k + 1 := ⟨fuel - 1, by omega⟩
  have text : compact (.array items) ++ after = '[' :: (compactItems items ++ ']' :: after) := by
    simp [compact]
  rw [text]
  by_cases empty : items = []
  · rw [empty]
    rfl
  · obtain ⟨c, s, first, space, bracket⟩ := begins_compactItems written empty
    have positive : 0 < (compactItems items).length := by simp [first]
    have read : items? fuel (compactItems items ++ ']' :: after) = some (items, after) :=
      items?_compact empty each (by omega) (by omega) after
    rw [first, List.cons_append] at read ⊢
    rw [value?_array space bracket, read, Option.map_some]

theorem Reads.object {fields : List (List Char × Document)}
    (names : ∀ f ∈ fields, ∃ s, f.1 = escape s) (each : ∀ f ∈ fields, f.2.Reads) :
    (object fields).Reads := by
  intro fuel after enough ha
  simp only [compact, List.length_cons, List.length_append] at enough
  obtain ⟨fuel, rfl⟩ : ∃ k, fuel = k + 1 := ⟨fuel - 1, by omega⟩
  have text : compact (.object fields) ++ after =
      '\x7b' :: (compactFields fields ++ '\x7d' :: after) := by
    simp [compact]
  rw [text]
  by_cases empty : fields = []
  · rw [empty]
    rfl
  · obtain ⟨s, first⟩ := compactFields_cons empty
    have positive : 0 < (compactFields fields).length := by simp [first]
    have read : fields? fuel (compactFields fields ++ '\x7d' :: after) = some (fields, after) :=
      fields?_compact empty names each (by omega) (by omega) after
    rw [first, List.cons_append] at read ⊢
    rw [value?_object, read, Option.map_some]

theorem Written.reads {d : Document} (h : d.Written) : d.Reads := by
  induction h with
  | null =>
    have text : compact .null = 'n' :: "ull".toList := rfl
    refine .of_scalar text rfl (by decide) (by decide) fun after _ => ?_
    rw [scalar?, Piece.dropHead?_append]
    rfl
  | bool b =>
    cases b with
    | true =>
      have text : compact (.bool true) = 't' :: "rue".toList := rfl
      refine .of_scalar text rfl (by decide) (by decide) fun after _ => ?_
      rw [scalar?, Piece.dropHead?_append]
      rfl
    | false =>
      have text : compact (.bool false) = 'f' :: "alse".toList := rfl
      refine .of_scalar text rfl (by decide) (by decide) fun after _ => ?_
      rw [scalar?, Piece.dropHead?_append]
      rfl
  | int n => exact .ofInt n
  | string s =>
    refine .of_scalar rfl rfl (by decide) (by decide) fun after _ => ?_
    rw [List.append_assoc, scalar?, List.singleton_append, body?_escape]
    rfl
  | array written ih => exact .array written ih
  | object names _ ih => exact .object names ih

/-- A document as it is written is read from its text. -/
theorem read?_text {d : Document} (h : d.Written) : read? d.text = some d := by
  have read := h.reads (2 * d.compact.length + 1) [] (by omega) (by simp [EndsNumber])
  rw [List.append_nil] at read
  rw [read?, text, String.toList_ofList, read]
  rfl

end Document

end PlanSql
