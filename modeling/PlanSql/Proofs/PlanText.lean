import PlanSql.Command
import PlanSql.Proofs.CompiledPlan
import PlanSql.Proofs.ConstantText

namespace PlanSql

namespace Expression

/-- Names have no double quotes, constants are quotable and parameters are words. Nothing is asked
of partition operators: no scalar has any. -/
def Clean : Expression → Prop
  | operation _ left right => left.Clean ∧ right.Clean
  | constant v t => v.Quotable t
  | parameter name => name ≠ "" ∧ ∀ c ∈ name.toList, isWordChar c = true
  | column c | order c _ => c.Clean
  | partition .. => True

/-- The parameters of a scalar from left to right. -/
def parameters : Expression → List String
  | operation _ left right => left.parameters ++ right.parameters
  | parameter name => [name]
  | _ => []

/-- The parameters of the count of a partition operator; its operand is not rendered. -/
def countParameters (e : Expression) : List String := e.count?.elim [] parameters

end Expression

/-- The parameters of a list of scalars. -/
def listParameters (es : List Expression) : List String := es.flatMap Expression.parameters

namespace Level

/-- Clean lists and counts. -/
structure Clean (l : Level) : Prop where
  filters : ∀ e ∈ l.filters, e.Clean
  sorts : ∀ e ∈ l.sorts, e.Clean
  projections : ∀ e ∈ l.projections, e.Clean
  counts : ∀ e ∈ l.partitions, ∀ count ∈ e.count?, count.Clean

/-- The parameters that a level renders around those of its source; sort keys stand twice. -/
def parameters (l : Level) (source : List String) : List String :=
  listParameters l.sorts ++ (listParameters l.projections ++ (source ++
    (listParameters l.filters ++ listParameters l.sorts))) ++
    l.partitions.flatMap Expression.countParameters

end Level

namespace Plan

/-- The tables of a level over an inner plan are not rendered. -/
def Clean : Plan → Prop
  | base l => l.Clean ∧ ∀ t ∈ l.tables, t.Clean
  | nested l p => l.Clean ∧ p.Clean

/-- The parameters that a plan renders, in the order of its text. -/
def parameters : Plan → List String
  | base l => l.parameters []
  | nested l p => l.parameters p.parameters

end Plan

variable {before after : List Char}

theorem InfixOperator.spells_symbol (op : InfixOperator) (s : List Char) :
    Spells before (' ' :: s) (fun _ => op.symbol) [] := by
  cases op with
  | subtract => exact (Piece.stands_of_next (Piece.next_minus (by simp) before)).spells
  | divide => exact (Piece.stands_of_next (Piece.next_slash (by simp) before)).spells
  | _ => exact spells_plain (by decide)

theorem SortDirection.spells_keyword (d : SortDirection) :
    Spells before after (fun _ => d.keyword) [] := by
  cases d <;> exact spells_plain (by decide)

/-- A scalar is read as itself wherever the statement puts one. -/
theorem Expression.spells {e : Expression} {s : Scalar} (h : e.scalar = .ok s) (clean : e.Clean)
    (hb : Gap before) (ha : Ends after) :
    Spells before after (fun write => s.text write) e.parameters := by
  induction e using Expression.scalar.induct generalizing s before after with
  | case1 op left right ihl ihr =>
    obtain ⟨a, b, hl, hr, rfl⟩ := scalar_operation.mp h
    have operand (before : List Char) (gap : Gap before) :
        Spells before after (fun write => b.text write ++ [')']) right.parameters :=
      Spells.before_plain (ihr hr clean.2 gap (by simp [Ends])) (by decide)
    refine Spells.after_char ?_ (by decide)
    refine Spells.append (ihl hl clean.1 ⟨'(', rfl, .inr rfl⟩ (by simp [Ends])) ?_
    refine Spells.after_char ?_ (by decide)
    refine Spells.after_fixed (op.spells_symbol _) ?_
    exact Spells.after_char (operand _ ⟨' ', rfl, .inl rfl⟩) (by decide)
  | case2 v t =>
    obtain rfl := Except.ok.inj h
    exact spells_literal clean hb ha
  | case3 name =>
    obtain rfl := Except.ok.inj h
    exact spells_parameter clean.1 clean.2 ha.not_word
  | case4 c =>
    obtain rfl := Except.ok.inj h
    exact spells_column clean (ha.head?_ne (by decide))
  | case5 c d =>
    obtain rfl := Except.ok.inj h
    refine Spells.after_fixed (spells_column clean (by simp)) ?_
    exact Spells.after_char d.spells_keyword (by decide)
  | case6 kind operand count => cases h

theorem forall₂_spells {es : List Expression} {ss : List Scalar}
    (h : List.Forall₂ (fun e s => e.scalar = .ok s) es ss) (clean : ∀ e ∈ es, e.Clean) :
    List.Forall₂ (fun s names => ∀ before after, Gap before → Ends after →
      Spells before after (fun write => Scalar.text write s) names) ss
      (es.map Expression.parameters) := by
  induction h with
  | nil => exact .nil
  | cons head _ ih =>
    exact .cons (fun _ _ hb ha => Expression.spells head (clean _ (by simp)) hb ha)
      (ih fun e he => clean e (by simp [he]))

theorem listParameters_eq (es : List Expression) :
    listParameters es = (es.map Expression.parameters).flatten := List.flatMap_def

theorem ends_optional (b : Bool) (s : List Char) (ha : Ends after) :
    Ends ((if b then [] else ' ' :: s) ++ after) := by
  cases b with
  | true => exact ha
  | false => simp [Ends]

theorem decimalDigits_plain (n : Nat) : (decimalDigits n).all isPlain = true :=
  List.all_eq_true.mpr fun _ hc => isPlain_of_numeral (.inl (isDigit_of_mem_decimalDigits hc))

theorem rankName_plain (index : Nat) : (rankName index).all isPlain = true := by
  change ("row_id".toList ++ decimalDigits index).all isPlain = true
  rw [List.all_append, decimalDigits_plain, Bool.and_true]
  decide

theorem spells_idOrder (ha : after.head? ≠ some '"') :
    Spells before after (fun _ => idOrder) [] := by
  have id : Spells ("ORDER BY ".toList.reverse ++ before) after
      (fun _ => quotedName ['I', 'd']) [] := spells_quotedName (by decide) ha
  exact Spells.after_plain (s := "ORDER BY ".toList) id (by decide)

namespace Clauses

variable {es : List Expression} {ss : List Scalar}

theorem spells_list (h : List.Forall₂ (fun e s => e.scalar = .ok s) es ss)
    (clean : ∀ e ∈ es, e.Clean) (hb : Gap before) (ha : Ends after) :
    Spells before after (fun write => listText write ss) (listParameters es) := by
  rw [listParameters_eq]
  exact spells_joined (fun s write => Scalar.text write s) _ (by decide)
    (fun _ => ⟨' ', rfl, .inl rfl⟩) (by simp [Ends]) (forall₂_spells h clean) hb ha

theorem spells_order {c : Clauses} (h : List.Forall₂ (fun e s => e.scalar = .ok s) es c.sorts)
    (clean : ∀ e ∈ es, e.Clean) (ha : Ends after) :
    Spells before after (fun write => c.orderText write) (listParameters es) :=
  Spells.after_plain (spells_list h clean ⟨' ', rfl, .inl rfl⟩ ha) (by decide)

theorem spells_filter {c : Clauses} (h : List.Forall₂ (fun e s => e.scalar = .ok s) es c.filters)
    (clean : ∀ e ∈ es, e.Clean) (ha : Ends after) :
    Spells before after (fun write => c.filterText write) (listParameters es) := by
  have each : List.Forall₂ (fun s names => ∀ before after, True → Ends after →
      Spells before after (fun write => '(' :: (Scalar.text write s ++ [')'])) names) c.filters
      (es.map Expression.parameters) := by
    refine (forall₂_spells h clean).imp fun s names hs before after _ _ => ?_
    refine Spells.after_char ?_ (by decide)
    exact Spells.before_plain (hs _ _ ⟨'(', rfl, .inr rfl⟩ (by simp [Ends])) (by decide)
  rw [listParameters_eq]
  refine Spells.after_plain ?_ (by decide)
  exact spells_joined _ _ (by decide) (fun _ => trivial) (by simp [Ends]) each trivial ha

/-- A `SELECT` of clean lists from a source that is read as itself. -/
theorem spells_select {l : Level} {c : Clauses} (h : l.clauses = .ok c) (clean : l.Clean)
    (index : Nat) {source : ParameterText → List Char} {names : List String}
    (hs : ∀ before after, Ends after → Spells before after source names) (ha : Ends after) :
    Spells before after (fun write => c.selectText write index (source write))
      (listParameters l.sorts ++ (listParameters l.projections ++ (names ++
        (listParameters l.filters ++ listParameters l.sorts)))) := by
  obtain ⟨filters, sorts, columns⟩ := Level.clauses_eq_ok_iff.mp h
  rw [inOrder_eq_ok_iff] at filters sorts columns
  have unsorted : c.sorts.isEmpty = true → listParameters l.sorts = [] := fun e => by
    rw [List.isEmpty_iff.mp e, List.forall₂_nil_right_iff] at sorts
    rw [sorts]
    rfl
  have unfiltered : c.filters.isEmpty = true → listParameters l.filters = [] := fun e => by
    rw [List.isEmpty_iff.mp e, List.forall₂_nil_right_iff] at filters
    rw [filters]
    rfl
  have order (before : List Char) : Spells before after
      (fun write => if c.sorts.isEmpty then [] else ' ' :: c.orderText write)
      (listParameters l.sorts) :=
    spells_ite (fun e => unsorted e ▸ spells_nil)
      (fun _ => (spells_order sorts clean.sorts ha).after_char (by decide))
  have filter (before after : List Char) (ha : Ends after) : Spells before after
      (fun write => if c.filters.isEmpty then [] else ' ' :: c.filterText write)
      (listParameters l.filters) :=
    spells_ite (fun e => unfiltered e ▸ spells_nil)
      (fun _ => (spells_filter filters clean.filters ha).after_char (by decide))
  have window (before after : List Char) (ha : Ends after) : Spells before after
      (fun write => if c.sorts.isEmpty then idOrder else c.orderText write)
      (listParameters l.sorts) :=
    spells_ite (fun e => unsorted e ▸ spells_idOrder (ha.head?_ne (by decide)))
      (fun _ => spells_order sorts clean.sorts ha)
  have column (before after : List Char) (hb : Gap before) (ha : Ends after) :
      Spells before after (fun write => c.columnsText write) (listParameters l.projections) := by
    refine spells_ite (fun e => ?_) (fun _ => spells_list columns clean.projections hb ha)
    rw [List.isEmpty_iff.mp e, List.forall₂_nil_right_iff] at columns
    rw [columns]
    exact spells_plain (by decide)
  unfold selectText
  refine Spells.after_plain ?_ (by decide)
  refine Spells.append (window _ _ (by simp [Ends])) ?_
  refine Spells.after_plain ?_ (by decide)
  refine Spells.after_plain ?_ (rankName_plain index)
  refine Spells.after_plain ?_ (by decide)
  refine Spells.append (column _ _ ⟨' ', rfl, .inl rfl⟩ (by simp [Ends])) ?_
  refine Spells.after_plain ?_ (by decide)
  refine Spells.append (hs _ _ ?_) ?_
  · rw [List.append_assoc]
    exact ends_optional _ _ (ends_optional _ _ ha)
  · exact Spells.append (filter _ _ (ends_optional _ _ ha)) (order _)

end Clauses

/-- A restriction around a statement that is read as itself. -/
theorem Restriction.spells {e : Expression} {r : Restriction} (h : ofExpression e = .ok r)
    (clean : ∀ count ∈ e.count?, count.Clean) (index : Nat) {prior : ParameterText → List Char}
    {names : List String} (hp : ∀ before after, Ends after → Spells before after prior names)
    (ha : Ends after) : Spells before after (fun write => r.around write index (prior write))
      (names ++ e.countParameters) := by
  have counted {s : Scalar} (hr : r.count? = some s) (before : List Char) (hb : Gap before) :
      Spells before after (fun write => s.text write) e.countParameters := by
    have rel := rel_count h
    rw [hr] at rel
    cases hc : e.count? with
    | none => rw [hc] at rel; cases rel
    | some count =>
      rw [hc] at rel
      cases rel with
      | some hs =>
        rw [Expression.countParameters, hc]
        exact Expression.spells hs (clean count hc) hb ha
  have uncounted (hr : r.count? = none) : e.countParameters = [] := by
    have rel := rel_count h
    rw [hr] at rel
    cases hc : e.count? with
    | none => rw [Expression.countParameters, hc]; rfl
    | some count => rw [hc] at rel; cases rel
  -- Only the end of the text depends on the restriction.
  have rest {tail : ParameterText → List Char}
      (ht : ∀ before, Spells before after tail e.countParameters) :
      Spells before after (fun write => "SELECT * FROM (".toList ++ (prior write ++
        (") AS P".toList ++ (decimalDigits index ++ tail write))))
      (names ++ e.countParameters) := by
    refine Spells.after_plain ?_ (by decide)
    refine Spells.append (hp _ _ (by simp [Ends])) ?_
    refine Spells.after_plain ?_ (by decide)
    exact Spells.after_plain (ht _) (decimalDigits_plain index)
  cases r with
  | first =>
    refine rest fun before => ?_
    rw [uncounted rfl]
    refine Spells.after_char ?_ (by decide)
    exact Spells.before_plain (spells_idOrder (by simp)) (by decide)
  | last =>
    refine rest fun before => ?_
    rw [uncounted rfl]
    refine Spells.after_plain ?_ (by decide)
    exact Spells.before_plain (spells_plain (rankName_plain index)) (by decide)
  | all =>
    refine rest fun before => ?_
    rw [uncounted rfl]
    exact spells_nil
  | limit count =>
    refine rest fun before => ?_
    exact Spells.after_plain (counted rfl _ ⟨' ', rfl, .inl rfl⟩) (by decide)
  | after count =>
    refine rest fun before => ?_
    refine Spells.after_plain ?_ (by decide)
    refine Spells.after_plain ?_ (rankName_plain index)
    exact Spells.after_plain (counted rfl _ ⟨' ', rfl, .inl rfl⟩) (by decide)

/-- Restrictions one around the other, in the order of the list. -/
theorem Level.spells_restricted {l : Level} {s out : Statement} (h : l.restricted s = .ok out)
    (clean : l.Clean) {names : List String} (hs : ∀ before after, Ends after →
      Spells before after (fun write => s.text write) names) (ha : Ends after) :
    Spells before after (fun write => out.text write)
      (names ++ l.partitions.flatMap Expression.countParameters) := by
  obtain ⟨rules, hr, rfl⟩ := restricted_eq_ok_iff.mp h
  rw [inOrder_eq_ok_iff] at hr
  have counts := clean.counts
  generalize l.partitions = entries at hr counts
  clear h
  -- An entry goes around what the entries before it made of the statement.
  induction hr generalizing s names before after with
  | nil => simpa using hs before after ha
  | @cons e r entries rules head _ ih =>
    rw [List.flatMap_cons, ← List.append_assoc]
    refine ih (fun before after ha => ?_) ha fun e he => counts e (by simp [he])
    exact Restriction.spells head (counts e (by simp)) l.index hs ha

/-- The text of a plan is read as what it renders. -/
theorem Plan.spells {p : Plan} {s : Statement} (h : p.statement = .ok s) (clean : p.Clean)
    (ha : Ends after) : Spells before after (fun write => s.text write) p.parameters := by
  induction p generalizing s before after with
  | base l =>
    obtain ⟨c, hc, h⟩ := statement_base.mp h
    refine Level.spells_restricted h clean.1 (fun before after ha => ?_) ha
    exact Clauses.spells_select hc clean.1 l.index (fun _ _ => spells_tables clean.2) ha
  | nested l p ih =>
    obtain ⟨inner, c, hi, hc, h⟩ := statement_nested.mp h
    refine Level.spells_restricted h clean.1 (fun before after ha => ?_) ha
    refine Clauses.spells_select hc clean.1 l.index (fun before after _ => ?_) ha
    have plainAlias : (") AS F".toList ++ decimalDigits l.index).all isPlain = true := by
      rw [List.all_append, decimalDigits_plain, Bool.and_true]
      decide
    refine Spells.after_char ?_ (by decide)
    exact Spells.before_plain (ih hi clean.2 (by simp [Ends])) plainAlias

theorem findParameter?_eq_some_iff {ps : List Parameter} {name : String} :
    (∃ p, findParameter? ps name = some p) ↔ ∃ p ∈ ps, sameName p.name name = true := by
  rw [← Option.isSome_iff_exists, findParameter?, List.find?_isSome]

/-- A clean plan's command is numbered just when each parameter that the plan renders is given,
and then its text is that of the plan with each parameter written for its value. -/
theorem numbered_plan {p : Plan} {ps : List Parameter} {c : Command} (h : p.command ps = .ok c)
    (clean : p.Clean) :
    ((∃ n, c.numbered = .ok n) ↔
      ∀ name ∈ p.parameters, ∃ q ∈ ps, sameName q.name name = true) ∧
    ∀ n, c.numbered = .ok n → ∃ write : ParameterText,
      p.statement.map (Statement.text write) = .ok n.sql ∧
      ∀ name ∈ p.parameters, ∃ q, findParameter? ps name = some q ∧
        Refers n.values q.value (write name) := by
  obtain ⟨s, hs, rfl⟩ : ∃ s, p.statement = .ok s ∧
      c = ⟨String.ofList (s.text namedParameter), ps⟩ := by
    unfold Plan.command Plan.sql at h
    cases hs : p.statement with
    | error e => rw [hs] at h; cases h
    | ok s => rw [hs] at h; exact ⟨s, rfl, (Except.ok.inj h).symm⟩
  have spelled : Spells [] [] (fun write => s.text write) p.parameters :=
    Plan.spells hs clean (by simp [Ends])
  have numbered (n : Numbered) :
      (⟨String.ofList (s.text namedParameter), ps⟩ : Command).numbered = .ok n ↔ _ :=
    spelled.numbered_eq_ok_iff
  simp only [findParameter?_eq_some_iff] at numbered
  constructor
  · constructor
    · rintro ⟨n, hn⟩
      exact ((numbered n).mp hn).1
    · exact fun found => ⟨_, (numbered _).mpr ⟨found, rfl⟩⟩
  · intro n hn
    obtain ⟨found, rfl⟩ := (numbered n).mp hn
    refine ⟨Numbered.writer ps p.parameters, by rw [hs]; rfl, fun name hname => ?_⟩
    obtain ⟨q, hq⟩ := findParameter?_eq_some_iff.mpr (found name hname)
    exact ⟨q, hq, refers_writer hname hq⟩

def noteColumn : ColumnRef := ⟨⟨"shop", "or@ders"⟩, "no$te--"⟩

/-- A plan over an inner plan, with sort keys, counts, an operand that is not rendered and marks in
its names and constants. -/
def pagedPlan : Plan :=
  .nested
    { tables := []
      filters := [.operation .lessOrEqual (.parameter "least") (.column noteColumn)]
      sorts := [.operation .add (.column noteColumn) (.parameter "gap")]
      partitions := [.skip (.parameter "from"),
        .partition .take (some (.parameter "lost")) (some (.parameter "Size"))]
      index := 1 }
    (.base
      { tables := [noteColumn.table]
        filters := [
          .operation .equal (.column noteColumn) (.constant (.text "@a -- /* $1 \\") .text),
          .operation .notEqual (.constant (.int (-5)) .int) (.parameter "LEAST")] })

def pagedParameters : List Parameter :=
  [⟨"least", .int 3⟩, ⟨"GAP", .null⟩, ⟨"from", .int 20⟩, ⟨"size", .int 10⟩]

def pagedSql : List Char :=
  ["SELECT * FROM (SELECT * FROM (SELECT row_number() OVER (ORDER BY (",
    "\"shop.or@ders\".\"no$te--\" + NULL)) AS row_id1, * FROM (SELECT ",
    "row_number() OVER (ORDER BY \"Id\") AS row_id0, * FROM \"shop.or@ders\" WHERE ",
    "((\"shop.or@ders\".\"no$te--\" = '@a -- /* $1 \\')) AND ((-5 <> $1))) AS F1 ",
    "WHERE (($1 <= \"shop.or@ders\".\"no$te--\")) ORDER BY ",
    "(\"shop.or@ders\".\"no$te--\" + NULL)) AS P1 WHERE row_id1 > $2) AS P1 LIMIT $3"].flatMap
      String.toList

theorem pagedPlan_clean : pagedPlan.Clean := by
  have column : noteColumn.Clean := by
    unfold ColumnRef.Clean TableRef.Clean
    decide
  have word (name : String) (hne : name ≠ "") (h : name.toList.all isWordChar = true) :
      (Expression.parameter name).Clean := ⟨hne, List.all_eq_true.mp h⟩
  refine ⟨⟨?_, ?_, by simp, ?_⟩, ⟨?_, by simp, by simp, by simp⟩, by simpa using column.1⟩
  · exact List.forall_mem_singleton.mpr ⟨word _ (by decide) (by decide), column⟩
  · exact List.forall_mem_singleton.mpr ⟨column, word _ (by decide) (by decide)⟩
  · refine List.forall_mem_cons.mpr ⟨?_, List.forall_mem_singleton.mpr ?_⟩
    · rintro count ⟨⟩
      exact word _ (by decide) (by decide)
    · rintro count ⟨⟩
      exact word _ (by decide) (by decide)
  · refine List.forall_mem_cons.mpr
      ⟨⟨column, rfl, ?_⟩, List.forall_mem_singleton.mpr ⟨⟨rfl, ?_⟩, ?_⟩⟩
    · decide
    · decide
    · exact word _ (by decide) (by decide)

theorem pagedPlan_numbered : ∃ c, pagedPlan.command pagedParameters = .ok c ∧
    c.numbered = .ok ⟨pagedSql, [.int 3, .int 20, .int 10]⟩ := by
  obtain ⟨s, hs, text⟩ : ∃ s, pagedPlan.statement = .ok s ∧
      s.text (Numbered.writer pagedParameters pagedPlan.parameters) = pagedSql :=
    ⟨_, rfl, by decide +kernel⟩
  have spelled : Spells [] [] (fun write => s.text write) pagedPlan.parameters :=
    Plan.spells hs pagedPlan_clean (by simp [Ends])
  refine ⟨⟨String.ofList (s.text namedParameter), pagedParameters⟩, ?_, ?_⟩
  · rw [Plan.command, Plan.sql, hs]
    rfl
  · refine spelled.numbered_eq_ok_iff.mpr ⟨?_, ?_⟩
    · simp only [findParameter?_eq_some_iff]
      decide
    · rw [text]
      rfl

theorem numbered_plan_paged :
    ∃ c, pagedPlan.command pagedParameters = .ok c ∧ pagedPlan.Clean ∧
      (∀ name ∈ pagedPlan.parameters, ∃ q ∈ pagedParameters, sameName q.name name = true) ∧
      c.numbered = .ok ⟨pagedSql, [.int 3, .int 20, .int 10]⟩ ∧
      ∃ write : ParameterText, pagedPlan.statement.map (Statement.text write) = .ok pagedSql ∧
        ∀ name ∈ pagedPlan.parameters, ∃ q, findParameter? pagedParameters name = some q ∧
          Refers [.int 3, .int 20, .int 10] q.value (write name) := by
  obtain ⟨c, command, numbered⟩ := pagedPlan_numbered
  obtain ⟨given, spelled⟩ := numbered_plan command pagedPlan_clean
  exact ⟨c, command, pagedPlan_clean, given.mp ⟨_, numbered⟩, numbered, spelled _ numbered⟩

end PlanSql
