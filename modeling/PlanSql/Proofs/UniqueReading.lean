import PlanSql.Proofs.ExpressionReading

namespace PlanSql

/-- What may follow a whole statement. -/
def Closes (r : List Char) : Prop := ∀ c ∈ r.head?, c = ')'

/-- What may follow the source of a `SELECT`. -/
def Stops (r : List Char) : Prop := ∀ c ∈ r.head?, c = ' ' ∨ c = ')'

variable {r r' : List Char}

theorem Closes.follows (h : Closes r) : Follows r := by
  cases r with
  | nil => exact follows_nil
  | cons c r =>
    have close : c = ')' := h c rfl
    exact follows_cons (.inr close) r

theorem Closes.not_prefix (h : Closes r) {c : Char} (hc : c ≠ ')') (gap : List Char) :
    ¬(c :: gap) <+: r := by
  rintro ⟨u, rfl⟩
  exact hc (h c rfl)

theorem Closes.ne_blank (h : Closes r) (u : List Char) : r ≠ ' ' :: u := by
  rintro rfl
  exact absurd (h ' ' rfl) (by decide)

theorem closes_parenthesis (r : List Char) : Closes (')' :: r) := by simp [Closes]

/-- The optional sort keys at the end of a `SELECT` begin in their own way. -/
theorem order_begins (c : Clauses) (hr : Closes r) :
    let s := (if c.sorts.isEmpty then [] else ' ' :: c.orderText namedParameter) ++ r
    Stops s ∧ ¬" AND ".toList <+: s ∧ ¬" WHERE ".toList <+: s := by
  cases c.sorts.isEmpty with
  | true =>
    exact ⟨fun c hc => .inr (hr c hc), hr.not_prefix (by decide) _, hr.not_prefix (by decide) _⟩
  | false =>
    refine ⟨by simp [Stops], ?_, ?_⟩
    · rintro ⟨u, e⟩
      cases e
    · rintro ⟨u, e⟩
      cases e

theorem filter_begins (c : Clauses) (hr : Stops r) :
    Stops ((if c.filters.isEmpty then [] else ' ' :: c.filterText namedParameter) ++ r) := by
  cases c.filters.isEmpty with
  | true => exact hr
  | false => simp [Stops]

theorem order_rest {c c' : Clauses} {os os' : List Expression} (h : CleanList os c.sorts)
    (h' : CleanList os' c'.sorts) (alike : List.Forall₂ Expression.Alike os os') (hr : Closes r)
    (hr' : Closes r')
    (eq : (if c.sorts.isEmpty then [] else ' ' :: c.orderText namedParameter) ++ r =
      (if c'.sorts.isEmpty then [] else ' ' :: c'.orderText namedParameter) ++ r') : r = r' := by
  have same := h.isEmpty_eq h' alike
  by_cases hs : c.sorts = []
  · have hs' : c'.sorts.isEmpty = true := by rw [← same, hs]; rfl
    rw [hs, hs'] at eq
    exact eq
  · have hs' : ¬c'.sorts.isEmpty = true := by rw [← same]; simpa using hs
    rw [if_neg (by simpa using hs), if_neg hs', List.cons_append, List.cons_append] at eq
    unfold Clauses.orderText at eq
    rw [List.append_assoc, List.append_assoc] at eq
    have lists := List.append_cancel_left (List.tail_eq_of_cons_eq eq)
    exact (h.alike_of_list h' hs (by simpa using hs') hr.follows hr'.follows
      (hr.not_prefix (by decide) _) (hr'.not_prefix (by decide) _) lists).2

/-- The filters, which stand between the source and the sort keys. -/
theorem alike_of_filterText {c c' : Clauses} {fs fs' : List Expression}
    (h : CleanList fs c.filters) (h' : CleanList fs' c'.filters)
    (hr : ¬" AND ".toList <+: r ∧ ¬" WHERE ".toList <+: r)
    (hr' : ¬" AND ".toList <+: r' ∧ ¬" WHERE ".toList <+: r')
    (eq : (if c.filters.isEmpty then [] else ' ' :: c.filterText namedParameter) ++ r =
      (if c'.filters.isEmpty then [] else ' ' :: c'.filterText namedParameter) ++ r') :
    List.Forall₂ Expression.Alike fs fs' ∧ r = r' := by
  have began_where (c : Clauses) (r : List Char) :
      " WHERE ".toList <+: ' ' :: c.filterText namedParameter ++ r := by
    refine ⟨joined " AND ".toList
      (c.filters.map fun e => '(' :: (e.text namedParameter ++ [')'])) ++ r, ?_⟩
    unfold Clauses.filterText
    rw [List.cons_append, List.append_assoc]
    rfl
  by_cases hs : c.filters = []
  · by_cases hs' : c'.filters = []
    · rw [hs, hs'] at eq
      rw [hs] at h
      rw [hs'] at h'
      exact ⟨h.alike_of_texts h' rfl, eq⟩
    · rw [hs, List.isEmpty_nil, if_pos rfl, if_neg (by simpa using hs')] at eq
      have began := began_where c' r'
      rw [← eq] at began
      exact absurd began hr.2
  · rw [if_neg (by simpa using hs)] at eq
    by_cases hs' : c'.filters = []
    · rw [hs', List.isEmpty_nil, if_pos rfl] at eq
      have began := began_where c r
      rw [eq] at began
      exact absurd began hr'.2
    · rw [if_neg (by simpa using hs'), List.cons_append, List.cons_append] at eq
      unfold Clauses.filterText at eq
      rw [List.append_assoc, List.append_assoc] at eq
      have lists := List.append_cancel_left (List.tail_eq_of_cons_eq eq)
      exact h.alike_of_filters h' hs hs' hr.1 hr'.1 lists

/-- The lists of a level and what they compile to. -/
structure CleanClauses (l : Level) (c : Clauses) : Prop where
  filters : CleanList l.filters c.filters
  sorts : CleanList l.sorts c.sorts
  columns : CleanList l.projections c.columns

theorem cleanClauses_of_ok {l : Level} {c : Clauses} (h : l.clauses = .ok c) (clean : l.Clean) :
    CleanClauses l c := by
  obtain ⟨filters, sorts, columns⟩ := Level.clauses_eq_ok_iff.mp h
  rw [inOrder_eq_ok_iff] at filters sorts columns
  exact ⟨⟨filters, clean.filters⟩, ⟨sorts, clean.sorts⟩, ⟨columns, clean.projections⟩⟩

/-- A `SELECT` tells its index, its lists and its source. -/
theorem alike_of_select {l l' : Level} {c c' : Clauses} (h : CleanClauses l c)
    (h' : CleanClauses l' c') {source source' : List Char} {Same : Prop}
    (hs : ∀ r r', Stops r → Stops r' → source ++ r = source' ++ r' → Same ∧ r = r')
    (hr : Closes r) (hr' : Closes r')
    (eq : c.selectText namedParameter l.index source ++ r =
      c'.selectText namedParameter l'.index source' ++ r') :
    l.index = l'.index ∧ List.Forall₂ Expression.Alike l.filters l'.filters ∧
      List.Forall₂ Expression.Alike l.sorts l'.sorts ∧
      List.Forall₂ Expression.Alike l.projections l'.projections ∧ Same ∧ r = r' := by
  have window (c : Clauses) : (if c.sorts.isEmpty then idOrder else c.orderText namedParameter) =
      "ORDER BY ".toList ++ (if c.sorts.isEmpty then quotedName ['I', 'd'] else
        Clauses.listText namedParameter c.sorts) := by
    cases c.sorts.isEmpty <;> rfl
  unfold Clauses.selectText rankName Clauses.columnsText at eq
  simp only [window, List.append_assoc] at eq
  have from_window := List.append_cancel_left (List.append_cancel_left eq)
  obtain ⟨sorts, from_rank⟩ := h.sorts.alike_of_default h'.sorts
    (follows_cons (.inr rfl) (" AS ".toList ++ _)) (follows_cons (.inr rfl) (" AS ".toList ++ _))
    (by rintro ⟨u, e⟩; cases e) (by rintro ⟨u, e⟩; cases e)
    (fun t u ht hu => ht.ne_quotedName hu (by decide))
    (fun t u ht hu => ht.ne_quotedName hu (by decide)) from_window
  have from_index := List.append_cancel_left (List.append_cancel_left
    (List.tail_eq_of_cons_eq from_rank))
  obtain ⟨index, from_columns⟩ := decimalDigits_inj (by simp) (by simp) from_index
  obtain ⟨columns, from_source⟩ := h.columns.alike_of_default h'.columns (follows_from _)
    (follows_from _) (by rintro ⟨u, e⟩; cases e) (by rintro ⟨u, e⟩; cases e)
    (fun t u ht hu => ht.ne_star hu) (fun t u ht hu => ht.ne_star hu)
    (List.append_cancel_left from_columns)
  have order := order_begins c hr
  have order' := order_begins c' hr'
  obtain ⟨same, from_filters⟩ := hs _ _ (filter_begins c order.1) (filter_begins c' order'.1)
    (List.append_cancel_left from_source)
  obtain ⟨filters, from_order⟩ := alike_of_filterText h.filters h'.filters order.2 order'.2
    from_filters
  have rest := order_rest h.sorts h'.sorts sorts hr hr' from_order
  exact ⟨index, filters, sorts, columns, same, rest⟩

/-- Entries of partition lists that do the same, with counts alike where they take one. -/
inductive Expression.AlikeEntry : Expression → Expression → Prop
  | counted {kind : PartitionKind} {operand operand' : Option Expression}
      {count count' : Expression} : kind.takesCount = true → count.Alike count' →
    AlikeEntry (partition kind operand (some count)) (partition kind operand' (some count'))
  | uncounted {kind kind' : PartitionKind} {operand operand' count count' : Option Expression} :
    kind.takesCount = false → kind.plain = kind'.plain →
    AlikeEntry (partition kind operand count) (partition kind' operand' count')

theorem PartitionKind.takesCount_plain (kind : PartitionKind) :
    kind.plain.takesCount = kind.takesCount := by
  cases kind <;> rfl

namespace Restriction

variable {e e' : Expression} {rule rule' : Restriction}

theorem alike_of_plain {kind kind' plain : PartitionKind}
    {operand operand' count count' : Option Expression} (h : kind.plain = plain)
    (h' : kind'.plain = plain) (uncounted : plain.takesCount = false) :
    (Expression.partition kind operand count).AlikeEntry
      (Expression.partition kind' operand' count') := by
  refine .uncounted ?_ (h.trans h'.symm)
  rw [← kind.takesCount_plain, h, uncounted]

theorem alike_of_count {c c' : Expression} {s s' : Scalar} (h : c.scalar = .ok s)
    (h' : c'.scalar = .ok s') (clean : c.Clean) (clean' : c'.Clean) (hr : Closes r)
    (hr' : Closes r') (eq : s.text namedParameter ++ r = s'.text namedParameter ++ r') :
    c.Alike c' ∧ r = r' := by
  have read := Expression.alike_of_renders ⟨s, h, rfl⟩ ⟨s', h', rfl⟩ clean clean' hr.follows
    hr'.follows eq
  exact ⟨read.1, read.2.2⟩

/-- How the text after the alias begins. -/
def opening : Restriction → List Char
  | first => " ORDER BY \"Id\"".toList
  | last => " ORDER BY row_id".toList
  | all => []
  | limit _ => " LIMIT ".toList
  | after _ => " WHERE ".toList

theorem ending_eq (rule : Restriction) (index : Nat) :
    ∃ u, rule.ending namedParameter index = rule.opening ++ u := by
  cases rule with
  | first => exact ⟨" LIMIT 1".toList, rfl⟩
  | last => exact ⟨decimalDigits index ++ " DESC LIMIT 1".toList, rfl⟩
  | all => exact ⟨[], rfl⟩
  | limit count => exact ⟨count.text namedParameter, rfl⟩
  | after count => exact ⟨rankName index ++ (" > ".toList ++ count.text namedParameter), rfl⟩

theorem ending_ne {index : Nat}
    (h : (rule.opening.zip rule'.opening).any (fun p => p.1 != p.2) = true) :
    rule.ending namedParameter index ++ r ≠ rule'.ending namedParameter index ++ r' := by
  obtain ⟨u, hu⟩ := rule.ending_eq index
  obtain ⟨u', hu'⟩ := rule'.ending_eq index
  rw [hu, hu', List.append_assoc, List.append_assoc]
  exact append_ne_append h _ _

/-- The end of a restriction's text tells which entry it comes from. -/
theorem alike_of_ending {index : Nat} (h : ofExpression e = .ok rule)
    (h' : ofExpression e' = .ok rule') (clean : ∀ count ∈ e.count?, count.Clean)
    (clean' : ∀ count ∈ e'.count?, count.Clean) (hr : Closes r) (hr' : Closes r')
    (eq : rule.ending namedParameter index ++ r = rule'.ending namedParameter index ++ r') :
    e.AlikeEntry e' ∧ r = r' := by
  obtain ⟨kind, operand, count, rfl, entry⟩ := ofExpression_eq_ok h
  obtain ⟨kind', operand', count', rfl, entry'⟩ := ofExpression_eq_ok h'
  cases rule with
  | first =>
    cases rule' with
    | first => exact ⟨alike_of_plain entry entry' rfl, List.append_cancel_left eq⟩
    | all => exact absurd eq.symm (hr'.ne_blank _)
    | _ => exact absurd eq (ending_ne rfl)
  | last =>
    cases rule' with
    | last => exact ⟨alike_of_plain entry entry' rfl, List.append_cancel_left eq⟩
    | all => exact absurd eq.symm (hr'.ne_blank _)
    | _ => exact absurd eq (ending_ne rfl)
  | all =>
    cases rule' with
    | all => exact ⟨alike_of_plain entry entry' rfl, eq⟩
    | _ => exact absurd eq (hr.ne_blank _)
  | limit s =>
    cases rule' with
    | limit s' =>
      obtain ⟨rfl, c, rfl, hs⟩ := entry
      obtain ⟨rfl, c', rfl, hs'⟩ := entry'
      unfold ending at eq
      rw [List.append_assoc, List.append_assoc] at eq
      obtain ⟨counts, rest⟩ := alike_of_count hs hs' (clean c rfl) (clean' c' rfl) hr hr'
        (List.append_cancel_left eq)
      exact ⟨.counted rfl counts, rest⟩
    | all => exact absurd eq.symm (hr'.ne_blank _)
    | _ => exact absurd eq (ending_ne rfl)
  | after s =>
    cases rule' with
    | after s' =>
      obtain ⟨rfl, c, rfl, hs⟩ := entry
      obtain ⟨rfl, c', rfl, hs'⟩ := entry'
      unfold ending at eq
      simp only [List.append_assoc] at eq
      obtain ⟨counts, rest⟩ := alike_of_count hs hs' (clean c rfl) (clean' c' rfl) hr hr'
        (List.append_cancel_left (List.append_cancel_left (List.append_cancel_left eq)))
      exact ⟨.counted rfl counts, rest⟩
    | all => exact absurd eq.symm (hr'.ne_blank _)
    | _ => exact absurd eq (ending_ne rfl)

end Restriction

/-- Restrictions around statements that themselves begin otherwise. -/
theorem alike_of_restricted {i i' : Nat} {s s' out out' : Statement} {es es' : List Expression}
    (h : Restricted i s es out) (h' : Restricted i' s' es' out')
    (clean : ∀ e ∈ es, ∀ count ∈ e.count?, count.Clean)
    (clean' : ∀ e ∈ es', ∀ count ∈ e.count?, count.Clean) (Same : Prop) (index : Same → i = i')
    (begins : ∀ r u, s.text namedParameter ++ r ≠ "SELECT * FROM (".toList ++ u)
    (begins' : ∀ r u, s'.text namedParameter ++ r ≠ "SELECT * FROM (".toList ++ u)
    (inside : ∀ r r', Closes r → Closes r' →
      s.text namedParameter ++ r = s'.text namedParameter ++ r' → Same ∧ r = r')
    (hr : Closes r) (hr' : Closes r')
    (eq : out.text namedParameter ++ r = out'.text namedParameter ++ r') :
    Same ∧ List.Forall₂ Expression.AlikeEntry es es' ∧ r = r' := by
  have around (i : Nat) (rule : Restriction) (out : Statement) (r : List Char) :
      (Statement.restrict i rule out).text namedParameter ++ r = "SELECT * FROM (".toList ++
        (out.text namedParameter ++ (')' :: (" AS P".toList ++ (decimalDigits i ++
          (rule.ending namedParameter i ++ r))))) := by
    rw [Statement.text, Restriction.around_eq]
    simp only [List.append_assoc]
    rfl
  induction h generalizing es' out' r r' with
  | nil =>
    cases h' with
    | nil =>
      obtain ⟨same, rest⟩ := inside r r' hr hr' eq
      exact ⟨same, .nil, rest⟩
    | snoc prior' rule' =>
      rw [around] at eq
      exact absurd eq (begins _ _)
  | @snoc es out e rule prior head ih =>
    rw [around] at eq
    cases h' with
    | nil => exact absurd eq.symm (begins' _ _)
    | @snoc es' out' e' rule' prior' head' =>
      rw [around] at eq
      obtain ⟨same, entries, rest⟩ := ih prior' (fun e he => clean e (by simp [he]))
        (fun e he => clean' e (by simp [he])) (closes_parenthesis _) (closes_parenthesis _)
        (List.append_cancel_left eq)
      obtain rfl := index same
      have endings := List.append_cancel_left (List.append_cancel_left
        (List.tail_eq_of_cons_eq rest))
      obtain ⟨entry, rest⟩ := Restriction.alike_of_ending head head' (clean e (by simp))
        (clean' e' (by simp)) hr hr' endings
      exact ⟨same, List.rel_append entries (.cons entry .nil), rest⟩

theorem Stops.not_digit (h : Stops r) : ∀ c ∈ r.head?, c.isDigit = false := by
  intro c hc
  rcases h c hc with rfl | rfl <;> rfl

theorem Stops.not_quote (h : Stops r) : r.head? ≠ some '"' := fun e =>
  absurd (h '"' e) (by decide)

theorem Stops.not_comma (h : Stops r) : ¬", ".toList <+: r := by
  rintro ⟨u, rfl⟩
  exact absurd (h ',' rfl) (by decide)

theorem tables_head? (t : TableRef) (ts : List TableRef) (r : List Char) :
    (joined ", ".toList ((t :: ts).map TableRef.text) ++ r).head? = some '"' := by
  have first : t.text.head? = some '"' := by
    unfold TableRef.text
    split <;> rfl
  cases ts with
  | nil => simp [joined, first]
  | cons => simp [joined, first]

/-- Tables begin with a quote, so a sub-select is none. -/
theorem tables_ne_parenthesis {ts : List TableRef} (hr : Stops r) (u : List Char) :
    joined ", ".toList (ts.map TableRef.text) ++ r ≠ '(' :: u := by
  intro e
  cases ts with
  | nil =>
    have opened : r = '(' :: u := e
    subst opened
    exact absurd (hr '(' rfl) (by decide)
  | cons t ts =>
    have head := tables_head? t ts r
    rw [e] at head
    cases head

theorem tables_inj {ts ts' : List TableRef} (clean : ∀ t ∈ ts, t.Clean)
    (clean' : ∀ t ∈ ts', t.Clean) (hr : Stops r) (hr' : Stops r')
    (eq : joined ", ".toList (ts.map TableRef.text) ++ r =
      joined ", ".toList (ts'.map TableRef.text) ++ r') :
    ts.map TableRef.text = ts'.map TableRef.text ∧ r = r' := by
  have delimited : Delimited (fun s => ∃ name, s = quotedName name ∧ '"' ∉ name)
      (fun _ => True) := by
    rintro _ _ r u ⟨name, rfl, free⟩ ⟨name', rfl, free'⟩ - - eq
    obtain ⟨rfl, rest⟩ := quotedName_inj free free' eq
    exact ⟨rfl, rest⟩
  have kind {ts : List TableRef} (clean : ∀ t ∈ ts, t.Clean) :
      ∀ s ∈ ts.map TableRef.text, ∃ name, s = quotedName name ∧ '"' ∉ name := by
    intro s hs
    obtain ⟨t, ht, rfl⟩ := List.mem_map.mp hs
    exact ⟨t.identifier, t.text_eq, t.clean_iff.mpr (clean t ht)⟩
  cases ts with
  | nil =>
    cases ts' with
    | nil => exact ⟨rfl, eq⟩
    | cons t ts =>
      have head := congrArg List.head? eq
      rw [tables_head?] at head
      exact absurd head hr.not_quote
  | cons t ts =>
    cases ts' with
    | nil =>
      have head := congrArg List.head? eq
      rw [tables_head?] at head
      exact absurd head.symm hr'.not_quote
    | cons t' ts' =>
      exact delimited.joined (fun _ => trivial) (kind clean) (kind clean') (by simp) (by simp)
        trivial trivial hr.not_comma hr'.not_comma eq

/-- Levels with the same index, alike in each of their lists. -/
structure Level.Alike (l l' : Level) : Prop where
  index : l.index = l'.index
  filters : List.Forall₂ Expression.Alike l.filters l'.filters
  sorts : List.Forall₂ Expression.Alike l.sorts l'.sorts
  projections : List.Forall₂ Expression.Alike l.projections l'.projections
  partitions : List.Forall₂ Expression.AlikeEntry l.partitions l'.partitions

/-- Plans alike level by level; only the tables of the innermost level are rendered. -/
inductive Plan.Alike : Plan → Plan → Prop
  | base {l l' : Level} : l.Alike l' →
    l.tables.map TableRef.text = l'.tables.map TableRef.text → Alike (base l) (base l')
  | nested {l l' : Level} {p p' : Plan} : l.Alike l' → Alike p p' →
    Alike (nested l p) (nested l' p')

/-- A level's `SELECT` in its restrictions tells the level and its source. -/
theorem Level.alike_of_restricted {l l' : Level} {c c' : Clauses} (h : CleanClauses l c)
    (h' : CleanClauses l' c') (clean : l.Clean) (clean' : l'.Clean)
    {s s' out out' : Statement} {source source' : List Char}
    (hs : s.text namedParameter = c.selectText namedParameter l.index source)
    (hs' : s'.text namedParameter = c'.selectText namedParameter l'.index source')
    (restricted : Restricted l.index s l.partitions out)
    (restricted' : Restricted l'.index s' l'.partitions out') (Same : Prop)
    (same : ∀ r r', Stops r → Stops r' → source ++ r = source' ++ r' → Same ∧ r = r')
    (hr : Closes r) (hr' : Closes r')
    (eq : out.text namedParameter ++ r = out'.text namedParameter ++ r') :
    l.Alike l' ∧ Same ∧ r = r' := by
  have begins (c : Clauses) (i : Nat) (source r u : List Char) :
      c.selectText namedParameter i source ++ r ≠ "SELECT * FROM (".toList ++ u := by
    unfold Clauses.selectText
    rw [List.append_assoc]
    exact append_ne_append rfl _ _
  obtain ⟨⟨index, filters, sorts, projections, source_same⟩, partitions, rest⟩ :=
    PlanSql.alike_of_restricted restricted restricted' clean.counts clean'.counts
      (l.index = l'.index ∧ List.Forall₂ Expression.Alike l.filters l'.filters ∧
        List.Forall₂ Expression.Alike l.sorts l'.sorts ∧
        List.Forall₂ Expression.Alike l.projections l'.projections ∧ Same)
      (fun same => same.1) (fun r u => by rw [hs]; exact begins c l.index source r u)
      (fun r u => by rw [hs']; exact begins c' l'.index source' r u)
      (fun r r' hr hr' eq => by
        rw [hs, hs'] at eq
        obtain ⟨index, filters, sorts, projections, source, rest⟩ :=
          alike_of_select h h' same hr hr' eq
        exact ⟨⟨index, filters, sorts, projections, source⟩, rest⟩) hr hr' eq
  exact ⟨⟨index, filters, sorts, projections, partitions⟩, source_same, rest⟩

/-- A sub-select in parentheses with its alias tells what the sub-select tells. -/
theorem inner_of_source {s s' : Statement} {i i' : Nat} {Same : Prop}
    (inside : ∀ r r', s.text namedParameter ++ ')' :: r =
      s'.text namedParameter ++ ')' :: r' → Same ∧ ')' :: r = ')' :: r') (r r' : List Char)
    (hr : Stops r) (hr' : Stops r')
    (eq : '(' :: (s.text namedParameter ++ (") AS F".toList ++ decimalDigits i)) ++ r =
      '(' :: (s'.text namedParameter ++ (") AS F".toList ++ decimalDigits i')) ++ r') :
    Same ∧ r = r' := by
  have shape (s : Statement) (i : Nat) (r : List Char) :
      '(' :: (s.text namedParameter ++ (") AS F".toList ++ decimalDigits i)) ++ r =
        '(' :: (s.text namedParameter ++ ')' :: (" AS F".toList ++ (decimalDigits i ++ r))) := by
    rw [List.cons_append, List.append_assoc, List.append_assoc]
    rfl
  rw [shape, shape] at eq
  obtain ⟨same, rest⟩ := inside _ _ (List.tail_eq_of_cons_eq eq)
  have digits := List.append_cancel_left (List.tail_eq_of_cons_eq rest)
  exact ⟨same, (decimalDigits_inj hr.not_digit hr'.not_digit digits).2⟩

namespace Plan

theorem alike_of_statement {p q : Plan} {s t : Statement} (hp : p.statement = .ok s)
    (hq : q.statement = .ok t) (clean : p.Clean) (clean' : q.Clean) (hr : Closes r)
    (hr' : Closes r') (eq : s.text namedParameter ++ r = t.text namedParameter ++ r') :
    p.Alike q ∧ r = r' := by
  induction p generalizing q s t r r' with
  | base l =>
    obtain ⟨c, hc, rows⟩ := statement_base.mp hp
    have level := cleanClauses_of_ok hc clean.1
    have rows := Level.restricted_of_ok rows
    cases q with
    | base l' =>
      obtain ⟨c', hc', rows'⟩ := statement_base.mp hq
      obtain ⟨alike, tables, rest⟩ := Level.alike_of_restricted level
        (cleanClauses_of_ok hc' clean'.1) clean.1 clean'.1 rfl rfl rows
        (Level.restricted_of_ok rows') (l.tables.map TableRef.text = l'.tables.map TableRef.text)
        (fun r r' hr hr' eq => tables_inj clean.2 clean'.2 hr hr' eq) hr hr' eq
      exact ⟨.base alike tables, rest⟩
    | nested l' q =>
      obtain ⟨inner', c', -, hc', rows'⟩ := statement_nested.mp hq
      have impossible := Level.alike_of_restricted level (cleanClauses_of_ok hc' clean'.1) clean.1
        clean'.1 rfl rfl rows (Level.restricted_of_ok rows') False
        (fun r r' hr hr' eq => absurd eq (tables_ne_parenthesis hr _)) hr hr' eq
      exact impossible.2.1.elim
  | nested l p ih =>
    obtain ⟨inner, c, hi, hc, rows⟩ := statement_nested.mp hp
    have level := cleanClauses_of_ok hc clean.1
    have rows := Level.restricted_of_ok rows
    cases q with
    | base l' =>
      obtain ⟨c', hc', rows'⟩ := statement_base.mp hq
      have impossible := Level.alike_of_restricted level (cleanClauses_of_ok hc' clean'.1) clean.1
        clean'.1 rfl rfl rows (Level.restricted_of_ok rows') False
        (fun r r' hr hr' eq => absurd eq.symm (tables_ne_parenthesis hr' _)) hr hr' eq
      exact impossible.2.1.elim
    | nested l' q =>
      obtain ⟨inner', c', hi', hc', rows'⟩ := statement_nested.mp hq
      obtain ⟨alike, inside, rest⟩ := Level.alike_of_restricted level
        (cleanClauses_of_ok hc' clean'.1) clean.1 clean'.1 rfl rfl rows
        (Level.restricted_of_ok rows') (p.Alike q)
        (inner_of_source fun _ _ eq => ih hi hi' clean.2 clean'.2 (closes_parenthesis _)
          (closes_parenthesis _) eq) hr hr' eq
      exact ⟨.nested alike inside, rest⟩

/-- Clean plans of the same text are alike. -/
theorem sql_unambiguous {p q : Plan} {text : String} (hp : p.sql = .ok text)
    (hq : q.sql = .ok text) (clean : p.Clean) (clean' : q.Clean) : p.Alike q := by
  obtain ⟨s, hs, rfl⟩ := map_eq_ok_iff.mp hp
  obtain ⟨t, ht, same⟩ := map_eq_ok_iff.mp hq
  have texts : s.text namedParameter ++ [] = t.text namedParameter ++ [] := by
    rw [List.append_nil, List.append_nil]
    exact (String.ofList_injective same).symm
  have closed : Closes [] := by simp [Closes]
  exact (alike_of_statement hs ht clean clean' closed closed texts).1

/-- A plan whose names and constant hold what separates its parts. -/
def markedPlan (orders : TableRef) (count : Value) (operand : Option Expression)
    (kind : PartitionKind) : Plan :=
  .nested
    { tables := []
      filters := [.operation .lessThan (.ofValue count) (.column (orders.column "(\x27 AND"))]
      sorts := [.order (orders.column "placed at") .descending]
      partitions := [.partition .take operand (some (.ofValue count)),
        .partition kind operand none]
      index := 1 }
    (.base { tables := [orders], projections := [.constant (.text ") FROM (\" ,") .text] })

theorem markedPlan_clean {orders : TableRef} {count : Value} {operand : Option Expression}
    {kind : PartitionKind} (h : orders.Clean) (hc : count.Quotable count.type)
    (hk : kind.takesCount = false) : (markedPlan orders count operand kind).Clean := by
  have column (name : String) (free : '"' ∉ name.toList) : (orders.column name).Clean := ⟨h, free⟩
  refine ⟨⟨?_, ?_, by simp, ?_⟩, ⟨by simp, by simp, ?_, by simp⟩, List.forall_mem_singleton.mpr h⟩
  · exact List.forall_mem_singleton.mpr ⟨hc, column _ (by decide)⟩
  · exact List.forall_mem_singleton.mpr (column _ (by decide))
  · refine List.forall_mem_cons.mpr ⟨?_, List.forall_mem_singleton.mpr ?_⟩
    · rintro e ⟨⟩
      exact hc
    · rintro e he
      cases kind <;> cases hk <;> cases he
  · exact List.forall_mem_singleton.mpr ⟨rfl, by decide⟩

theorem sql_unambiguous_marked :
    let p := markedPlan ⟨"shop", "orders"⟩ (.int 5) none .first
    let q := markedPlan ⟨"", "shop.orders"⟩ (.bigInt 5) (some (.parameter "lost")) .firstOrDefault
    ∃ text, p.sql = .ok text ∧ q.sql = .ok text ∧ p.Clean ∧ q.Clean ∧ p.Alike q := by
  have clean : (markedPlan ⟨"shop", "orders"⟩ (.int 5) none .first).Clean :=
    markedPlan_clean (by unfold TableRef.Clean; decide) ⟨rfl, by decide⟩ rfl
  have clean' : (markedPlan ⟨"", "shop.orders"⟩ (.bigInt 5) (some (.parameter "lost"))
      .firstOrDefault).Clean :=
    markedPlan_clean (by unfold TableRef.Clean; decide) ⟨rfl, by decide⟩ rfl
  exact ⟨_, rfl, rfl, clean, clean', sql_unambiguous rfl rfl clean clean'⟩

end Plan

end PlanSql
