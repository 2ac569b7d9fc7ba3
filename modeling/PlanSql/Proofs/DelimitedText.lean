import PlanSql.Proofs.ConstantText

namespace PlanSql

/-- Texts of a kind that end where they do whatever of `After` stands behind them. -/
def Delimited (Kind After : List Char → Prop) : Prop :=
  ∀ ⦃s t r u : List Char⦄, Kind s → Kind t → After r → After u → s ++ r = t ++ u → s = t ∧ r = u

theorem delimited_word (p : Char → Bool) :
    Delimited (fun s => ∀ c ∈ s, p c = true) (fun r => ∀ c ∈ r.head?, p c = false) := by
  intro s t r u hs ht hr hu h
  have split := congrArg (splitWhile p) h
  rw [Piece.splitWhile_of_boundary hs hr, Piece.splitWhile_of_boundary ht hu] at split
  exact Prod.mk.inj split

theorem bne_of_notMem {mark : Char} {s : List Char} (h : mark ∉ s) :
    ∀ c ∈ s, (c != mark) = true := by
  intro c hc
  have ne : c ≠ mark := fun e => h (e ▸ hc)
  simpa using ne

/-- Texts that differ where both have a character do so whatever follows. -/
theorem append_ne_append {s t : List Char} (h : (s.zip t).any (fun p => p.1 != p.2) = true)
    (r u : List Char) : s ++ r ≠ t ++ u := by
  induction s generalizing t with
  | nil => cases h
  | cons c s ih =>
    cases t with
    | nil => cases h
    | cons d t =>
      intro e
      obtain ⟨rfl, rest⟩ := List.cons.inj e
      exact ih (by simpa using h) rest

/-- Text between two marks that do not stand inside ends at the second one. -/
theorem enclosed_inj {mark : Char} {s t r u : List Char} (hs : mark ∉ s) (ht : mark ∉ t)
    (h : mark :: (s ++ [mark]) ++ r = mark :: (t ++ [mark]) ++ u) : s = t ∧ r = u := by
  have bodies : s ++ mark :: r = t ++ mark :: u := by simpa using h
  obtain ⟨same, rest⟩ := delimited_word (· != mark) (bne_of_notMem hs) (bne_of_notMem ht)
    (by simp) (by simp) bodies
  exact ⟨same, List.tail_eq_of_cons_eq rest⟩

theorem quotedName_inj {s t r u : List Char} (hs : '"' ∉ s) (ht : '"' ∉ t)
    (h : quotedName s ++ r = quotedName t ++ u) : s = t ∧ r = u :=
  enclosed_inj hs ht h

theorem decimalDigits_inj {m n : Nat} {r u : List Char} (hr : ∀ c ∈ r.head?, c.isDigit = false)
    (hu : ∀ c ∈ u.head?, c.isDigit = false) (h : decimalDigits m ++ r = decimalDigits n ++ u) :
    m = n ∧ r = u := by
  obtain ⟨digits, rest⟩ := delimited_word Char.isDigit
    (fun _ hc => isDigit_of_mem_decimalDigits hc) (fun _ hc => isDigit_of_mem_decimalDigits hc)
    hr hu h
  have value := congrArg readDecimal digits
  rw [readDecimal_decimalDigits, readDecimal_decimalDigits] at value
  exact ⟨value, rest⟩

/-- A list of delimited texts: no gap begins what follows the last one. -/
theorem Delimited.joined {Kind After : List Char → Prop} (h : Delimited Kind After)
    {gap : List Char} (leave : ∀ r, After (gap ++ r)) {ss ts : List (List Char)}
    (hs : ∀ s ∈ ss, Kind s) (ht : ∀ t ∈ ts, Kind t) (hss : ss ≠ []) (hts : ts ≠ [])
    {r u : List Char} (hr : After r) (hu : After u) (hrg : ¬gap <+: r) (hug : ¬gap <+: u)
    (eq : joined gap ss ++ r = joined gap ts ++ u) : ss = ts ∧ r = u := by
  induction ss generalizing ts with
  | nil => exact absurd rfl hss
  | cons s ss ih =>
    cases ts with
    | nil => exact absurd rfl hts
    | cons t ts =>
      have kind_s : Kind s := hs s (by simp)
      have kind_t : Kind t := ht t (by simp)
      cases ss with
      | nil =>
        cases ts with
        | nil =>
          obtain ⟨rfl, rest⟩ := h kind_s kind_t hr hu eq
          exact ⟨rfl, rest⟩
        | cons t' ts =>
          have eq : s ++ r = t ++ (gap ++ (PlanSql.joined gap (t' :: ts) ++ u)) := by
            simpa [PlanSql.joined] using eq
          have rest := (h kind_s kind_t hr (leave _) eq).2
          exact absurd ⟨_, rest.symm⟩ hrg
      | cons s' ss =>
        cases ts with
        | nil =>
          have eq : s ++ (gap ++ (PlanSql.joined gap (s' :: ss) ++ r)) = t ++ u := by
            simpa [PlanSql.joined] using eq
          have rest := (h kind_s kind_t (leave _) hu eq).2
          exact absurd ⟨_, rest⟩ hug
        | cons t' ts =>
          have eq : s ++ (gap ++ (PlanSql.joined gap (s' :: ss) ++ r)) =
              t ++ (gap ++ (PlanSql.joined gap (t' :: ts) ++ u)) := by
            simpa [PlanSql.joined] using eq
          obtain ⟨rfl, rest⟩ := h kind_s kind_t (leave _) (leave _) eq
          obtain ⟨tails, rest⟩ := ih (fun x hx => hs x (by simp [hx]))
            (fun x hx => ht x (by simp [hx])) (by simp) (by simp) (List.append_cancel_left rest)
          exact ⟨congrArg _ tails, rest⟩

/-- A character of nulls, numbers and parameters: it neither ends nor begins other text. -/
def isBareChar (c : Char) : Bool := !([' ', ',', '(', ')', '\'', '"', '*'] : List Char).contains c

/-- The text of an expression that is no operation. -/
inductive LeafText : List Char → Prop
  | bare {s : List Char} : (∀ c ∈ s, isBareChar c = true) → LeafText s
  | quoted {s : List Char} : '\'' ∉ s → LeafText (singleQuoted s)
  | column {a b : List Char} : '"' ∉ a → '"' ∉ b → LeafText (quotedName a ++ '.' :: quotedName b)
  | order {a b : List Char} (d : SortDirection) : '"' ∉ a → '"' ∉ b →
    LeafText (quotedName a ++ '.' :: quotedName b ++ ' ' :: d.keyword)

/-- What may follow an expression: neither more of it nor a sort direction for a column. -/
def Follows (r : List Char) : Prop :=
  Ends r ∧ ∀ d : SortDirection, ¬(' ' :: d.keyword) <+: r

/-- The text without a sort direction at its front. -/
def afterDirection (s : List Char) : List Char :=
  match dropHead? " ASC".toList s with
  | some r => r
  | none => (dropHead? " DESC".toList s).getD s

/-- The text after what is left of a quoted run. -/
def afterQuote (quote : Char) (s : List Char) : List Char := (s.dropWhile (· != quote)).tail

/-- The text after the leaf at its front. -/
def afterLeaf : List Char → List Char
  | '\'' :: s => afterQuote '\'' s
  | '"' :: s => afterDirection (afterQuote '"' ((afterQuote '"' s).drop 2))
  | s => s.dropWhile isBareChar

theorem afterQuote_append {quote : Char} {s r : List Char} (h : quote ∉ s) :
    afterQuote quote (s ++ quote :: r) = r := by
  simp [afterQuote, List.dropWhile_append_of_pos (bne_of_notMem h)]

theorem afterDirection_of_follows {r : List Char} (h : Follows r) : afterDirection r = r := by
  have absent (d : SortDirection) : dropHead? (' ' :: d.keyword) r = none := by
    cases hd : dropHead? (' ' :: d.keyword) r with
    | none => rfl
    | some u => exact absurd ⟨u, (dropHead?_eq_some_iff.mp hd).symm⟩ (h.2 d)
  have asc : dropHead? " ASC".toList r = none := absent .ascending
  have desc : dropHead? " DESC".toList r = none := absent .descending
  rw [afterDirection, asc, desc]
  rfl

theorem afterDirection_keyword (d : SortDirection) (r : List Char) :
    afterDirection (' ' :: d.keyword ++ r) = r := by
  cases d with
  | ascending =>
    have asc : dropHead? " ASC".toList (" ASC".toList ++ r) = some r := Piece.dropHead?_append _ _
    exact congrArg (fun o => Option.getD o r) asc
  | descending =>
    have desc : dropHead? " DESC".toList (" DESC".toList ++ r) = some r :=
      Piece.dropHead?_append _ _
    exact congrArg (fun o => Option.getD o r) desc

/-- A text at whose front no quote stands. -/
theorem afterLeaf_of_head {s : List Char} (h : ∀ c ∈ s.head?, c ≠ '\'' ∧ c ≠ '"') :
    afterLeaf s = s.dropWhile isBareChar := by
  unfold afterLeaf
  split
  next s => exact absurd rfl (h '\'' rfl).1
  next s => exact absurd rfl (h '"' rfl).2
  next => rfl

theorem isBareChar_of_head {s r : List Char} {c : Char} (hs : ∀ c ∈ s, isBareChar c = true)
    (hr : Ends r) (h : (s ++ r).head? = some c) :
    isBareChar c = true ∨ c = ' ' ∨ c = ',' ∨ c = ')' := by
  cases s with
  | nil => exact .inr (hr c h)
  | cons d s =>
    obtain rfl : d = c := by simpa using h
    exact .inl (hs d (by simp))

theorem LeafText.head? {s r : List Char} (h : LeafText s) (hr : Ends r) :
    (s ++ r).head? ≠ some '(' ∧ (s ++ r).head? ≠ some '*' := by
  cases h with
  | bare hs =>
    constructor
    · intro e
      have isBare := isBareChar_of_head hs hr e
      simp [isBareChar] at isBare
    · intro e
      have isBare := isBareChar_of_head hs hr e
      simp [isBareChar] at isBare
  | quoted => simp [singleQuoted]
  | column => simp [quotedName]
  | order => simp [quotedName]

theorem LeafText.ne_parenthesis {s r u : List Char} (h : LeafText s) (hr : Ends r) :
    s ++ r ≠ '(' :: u := by
  intro e
  have head := (h.head? hr).1
  rw [e] at head
  exact head rfl

theorem afterLeaf_append {s r : List Char} (h : LeafText s) (hr : Follows r) :
    afterLeaf (s ++ r) = r := by
  have afterColumn {a b : List Char} (ha : '"' ∉ a) (hb : '"' ∉ b) (u : List Char) :
      afterLeaf (quotedName a ++ '.' :: quotedName b ++ u) = afterDirection u := by
    have shape : quotedName a ++ '.' :: quotedName b ++ u =
        '"' :: (a ++ '"' :: '.' :: '"' :: (b ++ '"' :: u)) := by simp [quotedName]
    rw [shape, afterLeaf, afterQuote_append ha, List.drop_succ_cons, List.drop_succ_cons,
      List.drop_zero, afterQuote_append hb]
  cases h with
  | bare hs =>
    have boundary : ∀ c ∈ r.head?, isBareChar c = false := fun c hc => by
      rcases hr.1 c hc with rfl | rfl | rfl <;> rfl
    have split := congrArg Prod.snd (Piece.splitWhile_of_boundary hs boundary)
    rw [afterLeaf_of_head fun c hc => ?_]
    · exact split
    · rcases isBareChar_of_head hs hr.1 hc with bare | rfl | rfl | rfl
      · constructor <;> rintro rfl <;> simp [isBareChar] at bare
      · decide
      · decide
      · decide
  | @quoted s hs =>
    have shape : singleQuoted s ++ r = '\'' :: (s ++ '\'' :: r) := by simp [singleQuoted]
    rw [shape, afterLeaf, afterQuote_append hs]
  | column ha hb => rw [afterColumn ha hb, afterDirection_of_follows hr]
  | order d ha hb => rw [List.append_assoc, afterColumn ha hb, afterDirection_keyword]

theorem delimited_leaf : Delimited LeafText Follows := by
  intro s t r u hs ht hr hu h
  have rest := congrArg afterLeaf h
  rw [afterLeaf_append hs hr, afterLeaf_append ht hu] at rest
  subst rest
  exact ⟨List.append_cancel_right h, rfl⟩

/-- No leaf is a lone quoted name. -/
theorem LeafText.ne_quotedName {s r name u : List Char} (h : LeafText s) (hr : Ends r)
    (hn : '"' ∉ name) : s ++ r ≠ quotedName name ++ ')' :: u := by
  have column {a b r : List Char} (ha : '"' ∉ a) :
      quotedName a ++ '.' :: quotedName b ++ r ≠ quotedName name ++ ')' :: u := by
    intro e
    rw [List.append_assoc] at e
    have rest := (quotedName_inj ha hn e).2
    cases rest
  intro e
  cases h with
  | bare hs =>
    have first : (s ++ r).head? = some '"' := by rw [e]; rfl
    have isBare := isBareChar_of_head hs hr first
    simp [isBareChar] at isBare
  | quoted => cases e
  | column ha => exact column ha e
  | order d ha =>
    rw [List.append_assoc] at e
    exact column ha e

end PlanSql
