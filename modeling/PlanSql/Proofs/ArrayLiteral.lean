import PlanSql.Proofs.CalendarReading
import PlanSql.Proofs.DelimitedText
import PlanSql.Proofs.MutationText

namespace PlanSql

/-- What an array literal holds at a place. -/
inductive ArrayElement
  | null
  | bare (token : List Char)
  /-- The characters between the quotes without the escapes. -/
  | quoted (content : List Char)
  | list (elements : List ArrayElement)

/-- A token stands for itself, and `NULL` in any case for a null. -/
def ArrayElement.ofToken (token : List Char) : ArrayElement :=
  if token.map Char.toLower = "null".toList then null else bare token

/-- A character of a token. -/
def isTokenChar (c : Char) : Bool :=
  !(['\x7b', '\x7d', ',', '"', '\\'] : List Char).contains c && !isBlankChar c

/-- What stands between quotes, and what it stands for: a backslash makes the character after it a
plain one. -/
inductive Unescapes : List Char → List Char → Prop
  | nil : Unescapes [] []
  | plain {c : Char} {s t : List Char} : c ≠ '"' → c ≠ '\\' → Unescapes s t →
    Unescapes (c :: s) (c :: t)
  | escaped {c : Char} {s t : List Char} : Unescapes s t → Unescapes ('\\' :: c :: s) (c :: t)

/-- The texts of elements: a token, a text in quotes, or elements with commas between them in
braces. -/
inductive ReadsAs : List Char → ArrayElement → Prop
  | token {token : List Char} : token ≠ [] → (∀ c ∈ token, isTokenChar c = true) →
    ReadsAs token (.ofToken token)
  | quoted {body content : List Char} : Unescapes body content →
    ReadsAs ('"' :: (body ++ ['"'])) (.quoted content)
  | list {parts : List (List Char × ArrayElement)} : (∀ p ∈ parts, ReadsAs p.1 p.2) →
    ReadsAs ('\x7b' :: (joined [','] (parts.map Prod.fst) ++ ['\x7d'])) (.list (parts.map Prod.snd))

/-- What may stand behind an element: the end, a comma or a closing brace. -/
def BehindElement (r : List Char) : Prop := ∀ c ∈ r.head?, c = ',' ∨ c = '\x7d'

theorem BehindElement.not_token {r : List Char} (h : BehindElement r) :
    ∀ c ∈ r.head?, isTokenChar c = false := by
  intro c hc
  rcases h c hc with rfl | rfl <;> decide

theorem Unescapes.unique {s t : List Char} (h : Unescapes s t) {s' t' r r' : List Char}
    (h' : Unescapes s' t') (eq : s ++ '"' :: r = s' ++ '"' :: r') : s = s' ∧ t = t' ∧ r = r' := by
  induction h generalizing s' t' with
  | nil =>
    cases h' with
    | nil => exact ⟨rfl, rfl, List.tail_eq_of_cons_eq eq⟩
    | plain quote => exact absurd (List.head_eq_of_cons_eq eq).symm quote
    | escaped => cases eq
  | plain quote backslash _ ih =>
    cases h' with
    | nil => exact absurd (List.head_eq_of_cons_eq eq) quote
    | plain _ _ h' =>
      obtain ⟨rfl, rest⟩ := List.cons.inj eq
      obtain ⟨rfl, rfl, same⟩ := ih h' rest
      exact ⟨rfl, rfl, same⟩
    | escaped => exact absurd (List.head_eq_of_cons_eq eq) backslash
  | escaped _ ih =>
    cases h' with
    | nil => cases eq
    | plain _ backslash => exact absurd (List.head_eq_of_cons_eq eq).symm backslash
    | escaped h' =>
      obtain ⟨rfl, rest⟩ := List.cons.inj (List.tail_eq_of_cons_eq eq)
      obtain ⟨rfl, rfl, same⟩ := ih h' rest
      exact ⟨rfl, rfl, same⟩

theorem joined_cons (gap s : List Char) (ss : List (List Char)) :
    joined gap (s :: ss) = s ++ ss.flatMap (gap ++ ·) := by
  induction ss generalizing s with
  | nil => simp [joined]
  | cons t ss ih => rw [joined, ih, List.flatMap_cons, List.append_assoc]

theorem ReadsAs.exists_head {s : List Char} {e : ArrayElement} (h : ReadsAs s e) :
    ∃ c rest, s = c :: rest ∧ c ≠ '\x7d' := by
  cases h with
  | token nonempty word =>
    obtain ⟨c, rest, rfl⟩ := List.exists_cons_of_ne_nil nonempty
    refine ⟨c, rest, rfl, ?_⟩
    rintro rfl
    exact absurd (word '\x7d' (by simp)) (by decide)
  | quoted => exact ⟨_, _, rfl, by decide⟩
  | list => exact ⟨_, _, rfl, by decide⟩

/-- A text whose element shows, and which ends where it does whatever stands behind it. -/
def ReadOnce (s : List Char) (e : ArrayElement) : Prop :=
  ∀ ⦃s' e' r r'⦄, ReadsAs s' e' → BehindElement r → BehindElement r' → s ++ r = s' ++ r' →
    s = s' ∧ e = e' ∧ r = r'

theorem readOnce_token {token : List Char} (nonempty : token ≠ [])
    (word : ∀ c ∈ token, isTokenChar c = true) : ReadOnce token (.ofToken token) := by
  intro s' e' r r' h' hr hr' eq
  have mark {c : Char} {u : List Char} (eq : token ++ r = c :: u) : isTokenChar c = true := by
    obtain ⟨d, rest, rfl⟩ := List.exists_cons_of_ne_nil nonempty
    exact List.head_eq_of_cons_eq eq ▸ word d (by simp)
  cases h' with
  | token _ word' =>
    obtain ⟨rfl, rfl⟩ := delimited_word isTokenChar word word' hr.not_token hr'.not_token eq
    exact ⟨rfl, rfl, rfl⟩
  | quoted => exact absurd (mark eq) (by decide)
  | list => exact absurd (mark eq) (by decide)

section Parts

variable {p p' : List Char × ArrayElement} {parts parts' : List (List Char × ArrayElement)}
  {r r' : List Char}

/-- The elements behind the first one, each with its comma. -/
def laterText (parts : List (List Char × ArrayElement)) : List Char :=
  (parts.map Prod.fst).flatMap ([','] ++ ·)

theorem behind_laterText (parts : List (List Char × ArrayElement)) (r : List Char) :
    BehindElement (laterText parts ++ '\x7d' :: r) := by
  intro c hc
  cases parts with
  | nil => exact .inr (by simpa [laterText, eq_comm] using hc)
  | cons p parts => exact .inl (by simpa [laterText, eq_comm] using hc)

theorem laterText_cons (p : List Char × ArrayElement) (parts : List (List Char × ArrayElement)) :
    laterText (p :: parts) = ',' :: (p.1 ++ laterText parts) := by
  simp [laterText]

theorem laterText_unique (once : ∀ p ∈ parts, ReadOnce p.1 p.2)
    (reads : ∀ p ∈ parts', ReadsAs p.1 p.2)
    (eq : laterText parts ++ '\x7d' :: r = laterText parts' ++ '\x7d' :: r') :
    parts = parts' ∧ r = r' := by
  induction parts generalizing parts' with
  | nil =>
    cases parts' with
    | nil => exact ⟨rfl, List.tail_eq_of_cons_eq eq⟩
    | cons p' parts' => cases eq
  | cons p parts ih =>
    cases parts' with
    | nil => cases eq
    | cons p' parts' =>
      obtain ⟨first, later⟩ := List.forall_mem_cons.mp once
      obtain ⟨first', later'⟩ := List.forall_mem_cons.mp reads
      rw [laterText_cons, laterText_cons] at eq
      have rest : p.1 ++ (laterText parts ++ '\x7d' :: r) =
          p'.1 ++ (laterText parts' ++ '\x7d' :: r') := by
        simpa using List.tail_eq_of_cons_eq eq
      obtain ⟨text, element, tails⟩ :=
        first first' (behind_laterText _ _) (behind_laterText _ _) rest
      obtain ⟨same, behind⟩ := ih later later' tails
      exact ⟨by rw [Prod.ext text element, same], behind⟩

theorem parts_unique (once : ∀ p ∈ parts, ReadOnce p.1 p.2)
    (reads : ∀ p ∈ parts, ReadsAs p.1 p.2) (reads' : ∀ p ∈ parts', ReadsAs p.1 p.2)
    (eq : joined [','] (parts.map Prod.fst) ++ '\x7d' :: r =
      joined [','] (parts'.map Prod.fst) ++ '\x7d' :: r') : parts = parts' ∧ r = r' := by
  -- A first element shows that a list is not empty, as it begins with no closing brace.
  have opens {p : List Char × ArrayElement} {parts : List (List Char × ArrayElement)} {u v}
      (first : ReadsAs p.1 p.2) :
      joined [','] ((p :: parts).map Prod.fst) ++ u ≠ '\x7d' :: v := by
    obtain ⟨c, rest, text, ne⟩ := first.exists_head
    rw [List.map_cons, joined_cons, text]
    exact fun e => ne (List.head_eq_of_cons_eq e)
  cases parts with
  | nil =>
    cases parts' with
    | nil => exact ⟨rfl, List.tail_eq_of_cons_eq eq⟩
    | cons p' parts' => exact absurd eq.symm (opens (reads' p' (by simp)))
  | cons p parts =>
    cases parts' with
    | nil => exact absurd eq (opens (reads p (by simp)))
    | cons p' parts' =>
      refine laterText_unique once reads' ?_
      simpa [laterText_cons, joined_cons, laterText] using congrArg (',' :: ·) eq

end Parts

/-- No text is read as two elements, and what may stand behind one does not extend it. -/
theorem ReadsAs.readOnce {s : List Char} {e : ArrayElement} (h : ReadsAs s e) : ReadOnce s e := by
  induction h with
  | token nonempty word => exact readOnce_token nonempty word
  | quoted unescapes =>
    intro s' e' r r' h' hr hr' eq
    cases h' with
    | token nonempty word =>
      obtain ⟨same, -, -⟩ := readOnce_token nonempty word (.quoted unescapes) hr' hr eq.symm
      subst same
      exact absurd (word '"' (by simp)) (by decide)
    | quoted unescapes' =>
      obtain ⟨rfl, rfl, rfl⟩ := unescapes.unique unescapes' (by simpa using eq)
      exact ⟨rfl, rfl, rfl⟩
    | list => cases eq
  | list reads once =>
    intro s' e' r r' h' hr hr' eq
    cases h' with
    | token nonempty word =>
      obtain ⟨same, -, -⟩ := readOnce_token nonempty word (.list reads) hr' hr eq.symm
      subst same
      exact absurd (word '\x7b' (by simp)) (by decide)
    | quoted => cases eq
    | list reads' =>
      obtain ⟨rfl, rfl⟩ := parts_unique once reads reads' (by simpa using eq)
      exact ⟨rfl, rfl, rfl⟩

theorem ReadsAs.unique {s : List Char} {e e' : ArrayElement} (h : ReadsAs s e)
    (h' : ReadsAs s e') : e = e' := by
  have ends : BehindElement [] := nofun
  exact (h.readOnce h' ends ends rfl).2.1

namespace Value

mutual

/-- What the text of a value stands for in an array: nulls, arrays, the numbers and booleans by
their own text, and all else by its text in quotes. -/
def element : Value → ArrayElement
  | null => .null
  | array items => .list (elements items)
  | v => if v.type = .bool || v.type.isNumeric then .bare v.plain else .quoted v.plain

def elements : List Value → List ArrayElement
  | [] => []
  | v :: rest => element v :: elements rest

end

theorem elements_eq_map (items : List Value) : elements items = items.map element := by
  induction items with
  | nil => rfl
  | cons v rest ih => rw [elements, ih, List.map_cons]

/-- The text of a value as an element of an array. -/
def elementText (v : Value) : List Char := if v.isBare then plain v else quotedElement (plain v)

theorem plain_array (items : List Value) :
    (array items).plain = '\x7b' :: (joined [','] (items.map elementText) ++ ['\x7d']) := by
  have inner : plainItems items = joined [','] (items.map elementText) := by
    induction items with
    | nil => rfl
    | cons v rest ih =>
      cases rest with
      | nil => rfl
      | cons w rest =>
        rw [plainItems, ih]
        rfl
  rw [plain, inner]

/-- A value is no array, or its property follows from that of its items. -/
theorem induction_items {motive : Value → Prop}
    (scalar : ∀ v, v.type ≠ .array → motive v)
    (array : ∀ items, (∀ v ∈ items, motive v) → motive (.array items)) (v : Value) : motive v := by
  cases v with
  | array items =>
    exact array items fun v hv => induction_items scalar array v
  | _ => exact scalar _ nofun
termination_by v
decreasing_by
  have smaller := List.sizeOf_lt_of_mem hv
  simp only [Value.array.sizeOf_spec]
  omega

end Value

/-- A token that is no `NULL`. -/
structure IsBareText (s : List Char) : Prop where
  ne_nil : s ≠ []
  word : ∀ c ∈ s, isTokenChar c = true
  not_null : s.map Char.toLower ≠ "null".toList

theorem IsBareText.readsAs {s : List Char} (h : IsBareText s) : ReadsAs s (.bare s) := by
  have bare : ArrayElement.ofToken s = .bare s := if_neg h.not_null
  exact bare ▸ .token h.ne_nil h.word

theorem isTokenChar_of_isDigit {c : Char} (h : c.isDigit = true) : isTokenChar c = true := by
  have mark : (['\x7b', '\x7d', ',', '"', '\\'] : List Char).contains c = false := by
    rw [List.contains_eq_mem, decide_eq_false_iff_not]
    intro mem
    simp only [List.mem_cons, List.not_mem_nil, or_false] at mem
    rcases mem with rfl | rfl | rfl | rfl | rfl <;> cases h
  rw [isTokenChar, mark, isBlankChar_of_isDigit h]
  rfl

theorem IsNumeral.isBareText {s : List Char} (h : IsNumeral s) (ne_nil : s ≠ []) :
    IsBareText s := by
  obtain ⟨sign, ds, rfl, minus, digits⟩ := h
  have chars : ∀ c ∈ sign ++ ds, c = '-' ∨ c = '.' ∨ c.isDigit = true := by
    intro c hc
    rcases List.mem_append.mp hc with hc | hc
    · rcases minus with rfl | rfl
      · cases hc
      · exact .inl (List.mem_singleton.mp hc)
    · exact .inr (digits c hc).symm
  refine ⟨ne_nil, fun c hc => ?_, fun null => ?_⟩
  · rcases chars c hc with rfl | rfl | digit
    · decide
    · decide
    · exact isTokenChar_of_isDigit digit
  · have letter : 'n' ∈ (sign ++ ds).map Char.toLower := by
      rw [null]
      decide
    obtain ⟨c, hc, lower⟩ := List.mem_map.mp letter
    rcases chars c hc with rfl | rfl | digit
    · exact absurd lower (by decide)
    · exact absurd lower (by decide)
    · rw [Mutation.toLower_of_isDigit digit] at lower
      subst lower
      cases digit

theorem integerText_ne_nil (n : Int) : integerText n ≠ [] := by
  unfold integerText
  split
  · exact List.cons_ne_nil _ _
  · exact decimalDigits_ne_nil _

theorem Decimal.text_ne_nil (x : Decimal) : x.text ≠ [] := by
  have length := length_paddedDigits (x.scale + 1) x.mantissa
  have whole : (paddedDigits (x.scale + 1) x.mantissa).take
      ((paddedDigits (x.scale + 1) x.mantissa).length - x.scale) ≠ [] := by
    rw [← List.length_pos_iff, List.length_take]
    omega
  simp [text, whole]

theorem FloatStyle.positionalText_ne_nil (style : FloatStyle) {ds : List Char} (h : ds ≠ [])
    (point : Int) : style.positionalText ds point ≠ [] := by
  unfold positionalText
  split
  · exact List.cons_ne_nil _ _
  split
  · simp [h]
  · simp

theorem FloatStyle.write_isBareText {l : BinaryLayout} (x : Binary l) :
    IsBareText (FloatStyle.plain.write x) := by
  by_cases number : x.isNaN = true
  · have text : FloatStyle.plain.write x = "NaN".toList := if_pos number
    rw [text]
    exact ⟨by decide, List.all_eq_true.mp (by decide), by decide⟩
  by_cases finite : x.isInfinite = true
  · have text : FloatStyle.plain.write x =
        (if x.negative then ['-'] else []) ++ "inf".toList := by
      rw [write, if_neg number, if_pos finite]
    rw [text]
    cases x.negative
    · exact ⟨by decide, List.all_eq_true.mp (by decide), by decide⟩
    · exact ⟨by decide, List.all_eq_true.mp (by decide), by decide⟩
  · refine (write_isNumeral (by simpa using number) (by simpa using finite)).isBareText ?_
    rw [write, if_neg number, if_neg finite]
    split
    · exact List.append_ne_nil_of_right_ne_nil _ (positionalText_ne_nil _ (by simp) _)
    · exact List.append_ne_nil_of_right_ne_nil _
        (positionalText_ne_nil _ (decimalDigits_ne_nil _) _)

namespace Value

theorem plain_isBareText {v : Value} (h : v.type = .bool ∨ v.type.isNumeric = true) :
    IsBareText v.plain := by
  cases v with
  | bool b => cases b <;> exact ⟨by decide, List.all_eq_true.mp (by decide), by decide⟩
  | smallInt n => exact (integerText_isNumeral _).isBareText (integerText_ne_nil _)
  | int n => exact (integerText_isNumeral _).isBareText (integerText_ne_nil _)
  | bigInt n => exact (integerText_isNumeral _).isBareText (integerText_ne_nil _)
  | numeric x => exact x.text_isNumeral.isBareText x.text_ne_nil
  | real x => exact FloatStyle.write_isBareText x
  | double x => exact FloatStyle.write_isBareText x
  | _ => rcases h with h | h <;> cases h

theorem unescapes_escaped (s : List Char) :
    Unescapes (s.flatMap fun c => if c = '"' || c = '\\' then ['\\', c] else [c]) s := by
  induction s with
  | nil => exact .nil
  | cons c s ih =>
    rw [List.flatMap_cons]
    split
    next => exact .escaped ih
    next plain =>
      have plain : c ≠ '"' ∧ c ≠ '\\' := by simpa using plain
      exact .plain plain.1 plain.2 ih

theorem readsAs_elementText (v : Value) : ReadsAs v.elementText v.element := by
  induction v using induction_items with
  | scalar v h =>
    have bare {v : Value} (number : v.type = .bool ∨ v.type.isNumeric = true) :
        ReadsAs v.plain (.bare v.plain) := (plain_isBareText number).readsAs
    have quoted (v : Value) : ReadsAs (quotedElement v.plain) (.quoted v.plain) :=
      .quoted (unescapes_escaped v.plain)
    cases v with
    | null =>
      have word : "NULL".toList.all isTokenChar = true := by decide
      exact .token (List.cons_ne_nil _ _) (List.all_eq_true.mp word)
    | bool b => exact bare (v := .bool b) (.inl rfl)
    | smallInt n => exact bare (v := .smallInt n) (.inr rfl)
    | int n => exact bare (v := .int n) (.inr rfl)
    | bigInt n => exact bare (v := .bigInt n) (.inr rfl)
    | real x => exact bare (v := .real x) (.inr rfl)
    | double x => exact bare (v := .double x) (.inr rfl)
    | numeric x => exact bare (v := .numeric x) (.inr rfl)
    | array items => exact absurd rfl h
    | _ => exact quoted _
  | array items ih =>
    have parts : ∀ p ∈ items.map fun v => (v.elementText, v.element), ReadsAs p.1 p.2 := by
      intro p hp
      obtain ⟨v, hv, rfl⟩ := List.mem_map.mp hp
      exact ih v hv
    have reads := ReadsAs.list parts
    rw [List.map_map, List.map_map] at reads
    have text : (array items).elementText = (array items).plain := rfl
    rw [text, plain_array, element, elements_eq_map]
    exact reads

end Value

/-- The text of an array is an array literal of its elements and of nothing else. -/
theorem array_text_reads_back (items : List Value) (e : ArrayElement) :
    ReadsAs (Value.array items).plain e ↔ e = .list (items.map Value.element) := by
  have reads : ReadsAs (Value.array items).plain (.list (items.map Value.element)) := by
    rw [← Value.elements_eq_map]
    exact Value.readsAs_elementText (.array items)
  constructor
  · exact fun other => other.unique reads
  · rintro rfl
    exact reads

end PlanSql
