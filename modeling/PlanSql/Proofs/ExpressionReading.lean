import PlanSql.Proofs.DelimitedText
import PlanSql.Proofs.PlanText

namespace PlanSql

theorem isBareChar_of {p : Char → Bool}
    (h : ([' ', ',', '(', ')', '\'', '"', '*'] : List Char).all (!p ·) = true) {c : Char}
    (hc : p c = true) : isBareChar c = true := by
  have free : c ∉ ([' ', ',', '(', ')', '\'', '"', '*'] : List Char) := fun hm => by
    have outside := List.all_eq_true.mp h c hm
    rw [hc] at outside
    cases outside
  rw [isBareChar, List.contains_eq_mem, decide_eq_false free]
  rfl

theorem IsNumeral.bare {s : List Char} (h : IsNumeral s) : ∀ c ∈ s, isBareChar c = true := by
  obtain ⟨sign, ds, rfl, minus, digits⟩ := h
  intro c hc
  rcases List.mem_append.mp hc with hc | hc
  · rcases minus with rfl | rfl
    · cases hc
    · obtain rfl := List.mem_singleton.mp hc
      rfl
  · rcases digits c hc with hd | rfl
    · exact isBareChar_of (by decide) hd
    · rfl

theorem leafText_literal {v : Value} {declared : ValueType} (h : v.Quotable declared) :
    LeafText (v.literal declared) := by
  obtain ⟨rfl, quotable⟩ := h
  unfold Value.literal
  split
  · exact .bare (List.all_eq_true.mp (by decide))
  cases special : v.specialFloat? with
  | some word => exact .quoted (Value.not_mem_special special)
  | none =>
    dsimp only
    split
    next numeric => exact .bare (Value.plain_isNumeral numeric special).bare
    next quoted => exact .quoted (quotable (by simpa using quoted))

namespace Expression

/-- The text of an expression that compiles. -/
def Renders (e : Expression) (t : List Char) : Prop :=
  ∃ s, e.scalar = .ok s ∧ s.text namedParameter = t

/-- Operations agree operand by operand, and other nodes in their text. -/
inductive Alike : Expression → Expression → Prop
  | operation {op : InfixOperator} {left left' right right' : Expression} :
    Alike left left' → Alike right right' →
      Alike (operation op left right) (operation op left' right')
  | leaf {e e' : Expression} {t : List Char} : e.kind ≠ .operation → e'.kind ≠ .operation →
    e.Renders t → e'.Renders t → Alike e e'

theorem renders_operation {op : InfixOperator} {left right : Expression} {t : List Char}
    (h : (operation op left right).Renders t) : ∃ a b, left.Renders a ∧ right.Renders b ∧
      t = '(' :: (a ++ ' ' :: (op.symbol ++ ' ' :: (b ++ [')']))) := by
  obtain ⟨s, hs, rfl⟩ := h
  obtain ⟨a, b, ha, hb, rfl⟩ := scalar_operation.mp hs
  exact ⟨_, _, ⟨a, ha, rfl⟩, ⟨b, hb, rfl⟩, rfl⟩

theorem leafText {e : Expression} {t : List Char} (clean : e.Clean) (h : e.Renders t)
    (leaf : e.kind ≠ .operation) : LeafText t := by
  have column {c : ColumnRef} (hc : c.Clean) :
      ∃ name, c.table.text = quotedName name ∧ '"' ∉ name :=
    ⟨c.table.identifier, c.table.text_eq, c.table.clean_iff.mpr hc.1⟩
  obtain ⟨s, hs, rfl⟩ := h
  cases e with
  | operation => exact absurd rfl leaf
  | constant v t =>
    obtain rfl := Except.ok.inj hs
    exact leafText_literal clean
  | parameter name =>
    obtain rfl := Except.ok.inj hs
    refine .bare fun c hc => ?_
    rcases List.mem_cons.mp hc with rfl | hc
    · rfl
    · exact isBareChar_of (by decide) (clean.2 c hc)
  | column c =>
    obtain rfl := Except.ok.inj hs
    obtain ⟨name, text, free⟩ := column clean
    rw [Scalar.text, ColumnRef.text, text]
    exact .column free clean.2
  | order c d =>
    obtain rfl := Except.ok.inj hs
    obtain ⟨name, text, free⟩ := column clean
    rw [Scalar.text, ColumnRef.text, text]
    exact .order d free clean.2
  | partition => cases hs

end Expression

theorem InfixOperator.symbol_inj {op op' : InfixOperator} {r u : List Char}
    (h : op.symbol ++ ' ' :: r = op'.symbol ++ ' ' :: u) : op = op' ∧ r = u := by
  have solid (op : InfixOperator) : ∀ c ∈ op.symbol, (c != ' ') = true := by
    refine List.all_eq_true.mp ?_
    cases op <;> rfl
  have read (op : InfixOperator) : all.find? (fun o => o.symbol == op.symbol) = some op := by
    cases op <;> rfl
  obtain ⟨same, rest⟩ := delimited_word (· != ' ') (solid op) (solid op') (by simp) (by simp) h
  have found := read op
  rw [same, read op'] at found
  exact ⟨(Option.some.inj found).symm, List.tail_eq_of_cons_eq rest⟩

theorem follows_nil : Follows [] := ⟨by simp [Ends], by simp⟩

theorem follows_cons {c : Char} (h : c = ',' ∨ c = ')') (r : List Char) : Follows (c :: r) := by
  refine ⟨?_, ?_⟩
  · rcases h with rfl | rfl <;> simp [Ends]
  · rintro d ⟨u, e⟩
    rcases h with rfl | rfl <;> cases e

theorem follows_symbol (op : InfixOperator) (r : List Char) :
    Follows (' ' :: (op.symbol ++ ' ' :: r)) := by
  refine ⟨by simp [Ends], ?_⟩
  rintro d ⟨u, e⟩
  cases op <;> cases d <;> cases e

theorem follows_from (r : List Char) : Follows (" FROM ".toList ++ r) := by
  refine ⟨by simp [Ends], ?_⟩
  rintro d ⟨u, e⟩
  cases d <;> cases e

namespace Expression

variable {e e' : Expression} {t t' r r' : List Char}

/-- A leaf meets a leaf, for its text does not begin with a parenthesis. -/
theorem alike_of_leaf (leaf : e.kind ≠ .operation) (h : e.Renders t) (h' : e'.Renders t')
    (clean : e.Clean) (clean' : e'.Clean) (hr : Follows r) (hr' : Follows r')
    (eq : t ++ r = t' ++ r') : e.Alike e' ∧ t = t' ∧ r = r' := by
  have text := leafText clean h leaf
  by_cases leaf' : e'.kind = .operation
  · cases e' with
    | operation op left right =>
      obtain ⟨a, b, -, -, rfl⟩ := renders_operation h'
      exact absurd eq (text.ne_parenthesis hr.1)
    | _ => cases leaf'
  · obtain ⟨rfl, rest⟩ := delimited_leaf text (leafText clean' h' leaf') hr hr' eq
    exact ⟨.leaf leaf leaf' h h', rfl, rest⟩

/-- The text of an expression tells where it ends and what it is. -/
theorem alike_of_renders (h : e.Renders t) (h' : e'.Renders t') (clean : e.Clean)
    (clean' : e'.Clean) (hr : Follows r) (hr' : Follows r') (eq : t ++ r = t' ++ r') :
    e.Alike e' ∧ t = t' ∧ r = r' := by
  induction e using Expression.scalar.induct generalizing e' t t' r r' with
  | case1 op left right ihl ihr =>
    obtain ⟨a, b, ha, hb, rfl⟩ := renders_operation h
    by_cases operation' : e'.kind = .operation
    · cases e' with
      | operation op' left' right' =>
        obtain ⟨a', b', ha', hb', rfl⟩ := renders_operation h'
        have eq : a ++ ' ' :: (op.symbol ++ ' ' :: (b ++ ')' :: r)) =
            a' ++ ' ' :: (op'.symbol ++ ' ' :: (b' ++ ')' :: r')) := by simpa using eq
        obtain ⟨alike_left, rfl, from_symbol⟩ := ihl ha ha' clean.1 clean'.1
          (follows_symbol op _) (follows_symbol op' _) eq
        obtain ⟨rfl, from_right⟩ := InfixOperator.symbol_inj (List.tail_eq_of_cons_eq from_symbol)
        obtain ⟨alike_right, rfl, rest⟩ := ihr hb hb' clean.2 clean'.2
          (follows_cons (.inr rfl) _) (follows_cons (.inr rfl) _) from_right
        exact ⟨.operation alike_left alike_right, rfl, List.tail_eq_of_cons_eq rest⟩
      | _ => cases operation'
    · exact absurd eq.symm ((leafText clean' h' operation').ne_parenthesis hr'.1)
  | case2 | case3 | case4 | case5 =>
    exact alike_of_leaf (by simp [kind]) h h' clean clean' hr hr' eq
  | case6 =>
    obtain ⟨s, hs, -⟩ := h
    cases hs

end Expression

/-- The text of a clean expression. -/
def ScalarText (t : List Char) : Prop := ∃ e : Expression, e.Clean ∧ e.Renders t

theorem delimited_scalar : Delimited ScalarText Follows := by
  rintro s t r u ⟨e, clean, h⟩ ⟨e', clean', h'⟩ hr hu eq
  exact (Expression.alike_of_renders h h' clean clean' hr hu eq).2

theorem ScalarText.leaf_or_operation {t : List Char} (h : ScalarText t) :
    LeafText t ∨ ∃ u, t = '(' :: u := by
  obtain ⟨e, clean, he⟩ := h
  by_cases kind : e.kind = .operation
  · cases e with
    | operation op left right =>
      obtain ⟨a, b, -, -, rfl⟩ := Expression.renders_operation he
      exact .inr ⟨_, rfl⟩
    | _ => cases kind
  · exact .inl (Expression.leafText clean he kind)

theorem ScalarText.ne_star {t r u : List Char} (h : ScalarText t) (hr : Ends r) :
    '*' :: u ≠ t ++ r := by
  intro e
  rcases h.leaf_or_operation with leaf | ⟨v, rfl⟩
  · have head := (leaf.head? hr).2
    rw [← e] at head
    exact head rfl
  · cases e

theorem ScalarText.ne_quotedName {t r name u : List Char} (h : ScalarText t) (hr : Ends r)
    (hn : '"' ∉ name) : quotedName name ++ ')' :: u ≠ t ++ r := by
  intro e
  rcases h.leaf_or_operation with leaf | ⟨v, rfl⟩
  · exact leaf.ne_quotedName hr hn e.symm
  · cases e

/-- A clean list and what it compiles to. -/
structure CleanList (es : List Expression) (ss : List Scalar) : Prop where
  compiles : List.Forall₂ (fun e s => e.scalar = .ok s) es ss
  clean : ∀ e ∈ es, e.Clean

namespace CleanList

variable {es es' : List Expression} {ss ss' : List Scalar} {r r' : List Char}

theorem scalarText (h : CleanList es ss) :
    ∀ t ∈ ss.map (Scalar.text namedParameter), ScalarText t := by
  obtain ⟨compiles, clean⟩ := h
  induction compiles with
  | nil => simp
  | @cons e s es ss head _ ih =>
    rw [List.map_cons, List.forall_mem_cons]
    exact ⟨⟨e, clean e (by simp), s, head, rfl⟩, ih fun e he => clean e (by simp [he])⟩

theorem alike_of_texts (h : CleanList es ss) (h' : CleanList es' ss')
    (eq : ss.map (Scalar.text namedParameter) = ss'.map (Scalar.text namedParameter)) :
    List.Forall₂ Expression.Alike es es' := by
  obtain ⟨compiles, clean⟩ := h
  obtain ⟨compiles', clean'⟩ := h'
  induction compiles generalizing es' ss' with
  | nil =>
    cases compiles' with
    | nil => exact .nil
    | cons => simp at eq
  | @cons e s es ss head _ ih =>
    cases compiles' with
    | nil => simp at eq
    | @cons e' s' es' ss' head' compiles' =>
      obtain ⟨first, rest⟩ := List.cons.inj eq
      have same : s.text namedParameter ++ [] = s'.text namedParameter ++ [] := by rw [first]
      have alike := Expression.alike_of_renders ⟨s, head, rfl⟩ ⟨s', head', rfl⟩ (clean e (by simp))
        (clean' e' (by simp)) follows_nil follows_nil same
      exact .cons alike.1 (ih rest (fun e he => clean e (by simp [he])) compiles'
        fun e he => clean' e (by simp [he]))

theorem isEmpty_eq (h : CleanList es ss) (h' : CleanList es' ss')
    (alike : List.Forall₂ Expression.Alike es es') : ss.isEmpty = ss'.isEmpty := by
  have lengths := h.compiles.length_eq.symm.trans (alike.length_eq.trans h'.compiles.length_eq)
  rw [Bool.eq_iff_iff, List.isEmpty_iff_length_eq_zero, List.isEmpty_iff_length_eq_zero, lengths]

/-- What begins a list that is not empty. -/
theorem listText_eq (h : CleanList es ss) (hs : ss ≠ []) (hr : Ends r) :
    ∃ t u, ScalarText t ∧ Ends u ∧ Clauses.listText namedParameter ss ++ r = t ++ u := by
  have texts := h.scalarText
  cases ss with
  | nil => exact absurd rfl hs
  | cons s ss =>
    have first : ScalarText (s.text namedParameter) := texts _ (by simp)
    cases ss with
    | nil => exact ⟨_, r, first, hr, rfl⟩
    | cons s' ss =>
      refine ⟨_, ", ".toList ++ (Clauses.listText namedParameter (s' :: ss) ++ r), first,
        by simp [Ends], ?_⟩
      simp [Clauses.listText, joined]

theorem alike_of_list (h : CleanList es ss) (h' : CleanList es' ss') (hs : ss ≠ [])
    (hs' : ss' ≠ []) (hr : Follows r) (hr' : Follows r') (comma : ¬", ".toList <+: r)
    (comma' : ¬", ".toList <+: r')
    (eq : Clauses.listText namedParameter ss ++ r = Clauses.listText namedParameter ss' ++ r') :
    List.Forall₂ Expression.Alike es es' ∧ r = r' := by
  obtain ⟨texts, rest⟩ := delimited_scalar.joined (fun r => follows_cons (.inl rfl) (' ' :: r))
    h.scalarText h'.scalarText (by simpa using hs) (by simpa using hs') hr hr' comma comma' eq
  exact ⟨h.alike_of_texts h' texts, rest⟩

/-- A list, or for no expressions a default that no expression begins with. -/
theorem alike_of_default {default : List Char} (h : CleanList es ss) (h' : CleanList es' ss')
    (hr : Follows r) (hr' : Follows r') (comma : ¬", ".toList <+: r) (comma' : ¬", ".toList <+: r')
    (apart : ∀ t u, ScalarText t → Ends u → default ++ r ≠ t ++ u)
    (apart' : ∀ t u, ScalarText t → Ends u → default ++ r' ≠ t ++ u)
    (eq : (if ss.isEmpty then default else Clauses.listText namedParameter ss) ++ r =
      (if ss'.isEmpty then default else Clauses.listText namedParameter ss') ++ r') :
    List.Forall₂ Expression.Alike es es' ∧ r = r' := by
  by_cases hs : ss = []
  · subst hs
    by_cases hs' : ss' = []
    · subst hs'
      exact ⟨h.alike_of_texts h' rfl, List.append_cancel_left eq⟩
    · rw [List.isEmpty_nil, if_pos rfl, if_neg (by simpa using hs')] at eq
      obtain ⟨t, u, text, ends, list⟩ := h'.listText_eq hs' hr'.1
      rw [list] at eq
      exact absurd eq (apart t u text ends)
  · rw [if_neg (by simpa using hs)] at eq
    by_cases hs' : ss' = []
    · subst hs'
      obtain ⟨t, u, text, ends, list⟩ := h.listText_eq hs hr.1
      rw [list] at eq
      exact absurd eq.symm (apart' t u text ends)
    · rw [if_neg (by simpa using hs')] at eq
      exact h.alike_of_list h' hs hs' hr hr' comma comma' eq

/-- Filters in parentheses. -/
theorem alike_of_filters (h : CleanList es ss) (h' : CleanList es' ss') (hs : ss ≠ [])
    (hs' : ss' ≠ []) (gap : ¬" AND ".toList <+: r) (gap' : ¬" AND ".toList <+: r')
    (eq : joined " AND ".toList (ss.map fun e => '(' :: (e.text namedParameter ++ [')'])) ++ r =
      joined " AND ".toList (ss'.map fun e => '(' :: (e.text namedParameter ++ [')'])) ++ r') :
    List.Forall₂ Expression.Alike es es' ∧ r = r' := by
  have delimited : Delimited (fun s => ∃ t, ScalarText t ∧ s = '(' :: (t ++ [')']))
      (fun _ => True) := by
    rintro _ _ r u ⟨s, hs, rfl⟩ ⟨t, ht, rfl⟩ - - eq
    have eq : s ++ ')' :: r = t ++ ')' :: u := by simpa using eq
    obtain ⟨rfl, rest⟩ := delimited_scalar hs ht (follows_cons (.inr rfl) _)
      (follows_cons (.inr rfl) _) eq
    exact ⟨rfl, List.tail_eq_of_cons_eq rest⟩
  have kind {es : List Expression} {ss : List Scalar} (h : CleanList es ss) :
      ∀ s ∈ ss.map fun e => '(' :: (e.text namedParameter ++ [')']),
        ∃ t, ScalarText t ∧ s = '(' :: (t ++ [')']) := by
    intro s hs
    obtain ⟨e, he, rfl⟩ := List.mem_map.mp hs
    exact ⟨_, h.scalarText _ (List.mem_map_of_mem he), rfl⟩
  obtain ⟨texts, rest⟩ := delimited.joined (fun _ => trivial) (kind h) (kind h')
    (by simpa using hs) (by simpa using hs') trivial trivial gap gap' eq
  have texts : ss.map (Scalar.text namedParameter) = ss'.map (Scalar.text namedParameter) := by
    have inside := congrArg (List.map fun t => t.tail.dropLast) texts
    simpa [Function.comp_def] using inside
  exact ⟨h.alike_of_texts h' texts, rest⟩

end CleanList

end PlanSql
