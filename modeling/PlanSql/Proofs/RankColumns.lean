import PlanSql.Mutation
import PlanSql.Proofs.CompiledPlan
import PlanSql.Proofs.DelimitedText

namespace PlanSql

/-- What follows the alias around a prior statement. -/
inductive QueryEnd
  | all
  | first
  | limit (count : Scalar)
  /-- The row of the highest rank. -/
  | highest (rank : List Char)
  /-- The rows of a higher rank. -/
  | above (rank : List Char) (count : Scalar)

/-- A statement with its rank columns and aliases by name. -/
inductive Query
  | ofTables (rank : List Char) (clauses : Clauses) (tables : List TableRef)
  | ofQuery (rank : List Char) (clauses : Clauses) (inner : Query) (name : List Char)
  | around (inner : Query) (name : List Char) (ending : QueryEnd)

namespace QueryEnd

def text (param : ParameterText) : QueryEnd → List Char
  | all => []
  | first => ' ' :: (idOrder ++ " LIMIT 1".toList)
  | limit count => " LIMIT ".toList ++ count.text param
  | highest rank => " ORDER BY ".toList ++ (rank ++ " DESC LIMIT 1".toList)
  | above rank count => " WHERE ".toList ++ (rank ++ (" > ".toList ++ count.text param))

/-- The rank column that the rows are restricted by. -/
def rank? : QueryEnd → Option (List Char)
  | highest rank | above rank _ => some rank
  | _ => none

end QueryEnd

/-- A `SELECT` that numbers its rows in the column `rank`. -/
def Clauses.rankedText (param : ParameterText) (rank : List Char) (c : Clauses)
    (source : List Char) : List Char :=
  "SELECT row_number() OVER (".toList ++
    ((if c.sorts.isEmpty then idOrder else c.orderText param) ++ (") AS ".toList ++
    (rank ++ (", ".toList ++ (c.columnsText param ++ (" FROM ".toList ++ (source ++
    ((if c.filters.isEmpty then [] else ' ' :: c.filterText param) ++
      (if c.sorts.isEmpty then [] else ' ' :: c.orderText param)))))))))

/-- A `SELECT` of all columns of a prior statement. -/
def allOf (prior name ending : List Char) : List Char :=
  "SELECT * FROM (".toList ++ (prior ++ (") AS ".toList ++ (name ++ ending)))

/-- The name of a selected column; the server makes up names for all other scalars. -/
def Scalar.columnName? : Scalar → Option (List Char)
  | column c => some c.name.toList
  | _ => none

namespace Query

def text (param : ParameterText) : Query → List Char
  | ofTables rank c tables =>
    c.rankedText param rank (joined ", ".toList (tables.map TableRef.text))
  | ofQuery rank c inner name =>
    c.rankedText param rank ('(' :: (inner.text param ++ (") AS ".toList ++ name)))
  | around inner name ending => allOf (inner.text param) name (ending.text param)

/-- The rank column of the `SELECT` that the restrictions of a level stand around. -/
def rank : Query → List Char
  | ofTables rank _ _ | ofQuery rank _ _ _ => rank
  | around inner _ _ => inner.rank

/-- The rank column that each level names and the alias of its sub-select, the outermost level
first. -/
def levels : Query → List (List Char × Option (List Char))
  | ofTables rank _ _ => [(rank, none)]
  | ofQuery rank _ inner name => (rank, some name) :: inner.levels
  | around inner _ _ => inner.levels

/-- The columns that a statement returns, for tables of the given columns. -/
def columns (schema : TableRef → List (List Char)) : Query → List (List Char)
  | ofTables rank c tables =>
    rank :: if c.columns.isEmpty then tables.flatMap schema
      else c.columns.filterMap Scalar.columnName?
  | ofQuery rank c inner _ =>
    rank :: if c.columns.isEmpty then inner.columns schema
      else c.columns.filterMap Scalar.columnName?
  | around inner _ _ => inner.columns schema

/-- Every restriction by rank uses the rank column of its level, and finds it in what it wraps. -/
def RanksByLevel (schema : TableRef → List (List Char)) : Query → Prop
  | ofTables .. => True
  | ofQuery _ _ inner _ => inner.RanksByLevel schema
  | around inner _ ending =>
    (∀ rank ∈ ending.rank?, rank = inner.rank ∧ rank ∈ inner.columns schema) ∧
      inner.RanksByLevel schema

/-- Restrictions select all columns, so the rank column of the level passes through them. -/
theorem rank_mem_columns (schema : TableRef → List (List Char)) (q : Query) :
    q.rank ∈ q.columns schema := by
  induction q with
  | ofTables => exact List.mem_cons_self
  | ofQuery => exact List.mem_cons_self
  | around _ _ _ ih => exact ih

end Query

def subselectName (index : Nat) : List Char := 'F' :: decimalDigits index

/-- The end of a restriction at a level of the given index. -/
def Restriction.queryEnd (index : Nat) : Restriction → QueryEnd
  | first => .first
  | last => .highest (rankName index)
  | all => .all
  | limit count => .limit count
  | after count => .above (rankName index) count

theorem Restriction.rank?_queryEnd (index : Nat) (r : Restriction) :
    ∀ rank ∈ (r.queryEnd index).rank?, rank = rankName index := by
  intro rank h
  cases r with
  | last | after => exact (Option.some.inj h).symm
  | first | all | limit => cases h

/-- The statement by name. -/
def Statement.query : Statement → Query
  | select index tables c => .ofTables (rankName index) c tables
  | selectFrom index inner c => .ofQuery (rankName index) c inner.query (subselectName index)
  | restrict index rule inner =>
    .around inner.query ('P' :: decimalDigits index) (rule.queryEnd index)

theorem Clauses.rankedText_rankName (param : ParameterText) (index : Nat) (c : Clauses)
    (source : List Char) :
    c.rankedText param (rankName index) source = c.selectText param index source := by
  unfold rankedText selectText
  rfl

theorem allOf_restricted (prior ending : List Char) (index : Nat) :
    allOf prior ('P' :: decimalDigits index) ending = "SELECT * FROM (".toList ++ (prior ++
      (") AS P".toList ++ (decimalDigits index ++ ending))) := by
  have named : ") AS P".toList = ") AS ".toList ++ ['P'] := by decide
  rw [named, List.append_assoc]
  unfold allOf
  rfl

theorem Statement.query_text (param : ParameterText) (s : Statement) :
    s.query.text param = s.text param := by
  induction s with
  | select index tables c => rw [query, Query.text, text, Clauses.rankedText_rankName]
  | selectFrom index inner c ih =>
    have named : ") AS ".toList ++ subselectName index =
        ") AS F".toList ++ decimalDigits index := by
      rw [show ") AS F".toList = ") AS ".toList ++ ['F'] by decide, List.append_assoc]
      rfl
    rw [query, Query.text, text, Clauses.rankedText_rankName, ih, named]
  | restrict index rule inner ih =>
    have ending : (rule.queryEnd index).text param = rule.ending param index := by
      cases rule <;> rfl
    rw [query, Query.text, text, Restriction.around_eq, ih, ending, allOf_restricted]

namespace Plan

/-- Plans of a first index and a count of wrappings, made by the builder's steps in any order. -/
inductive Stacked (first : Nat) : (wrappings : Nat) → Plan → Prop
  | withIndex (tables : List TableRef) : Stacked first 0 (withIndex tables first)
  | wrapped {k : Nat} {p : Plan} : Stacked first k p → Stacked first (k + 1) p.wrapped
  | filter {k : Nat} {p : Plan} (e : Expression) : Stacked first k p → Stacked first k (p.filter e)
  | orderBy {k : Nat} {p : Plan} (c : ColumnRef) (d : SortDirection) :
    Stacked first k p → Stacked first k (p.orderBy c d)
  | project {k : Nat} {p : Plan} (e : Expression) :
    Stacked first k p → Stacked first k (p.project e)
  | partition {k : Nat} {p : Plan} (e : Expression) :
    Stacked first k p → Stacked first k (p.partition e)

/-- The indexes of the levels, the innermost one first. -/
def indexes : Plan → List Nat
  | base l => [l.index]
  | nested l p => p.indexes ++ [l.index]

theorem indexes_update (f : Level → Level) (h : ∀ l, (f l).index = l.index) (p : Plan) :
    (p.update f).indexes = p.indexes ∧ (p.update f).level.index = p.level.index := by
  cases p with
  | base l => exact ⟨congrArg (· :: []) (h l), h l⟩
  | nested l p => exact ⟨congrArg (p.indexes ++ [·]) (h l), h l⟩

/-- Only wrapping gives out an index, and the other steps keep those given out. -/
theorem Stacked.indexes_eq {first k : Nat} {p : Plan} (h : Stacked first k p) :
    p.indexes = List.range' first (k + 1) ∧ p.level.index = first + k := by
  have kept {f : Level → Level} {p : Plan} {k : Nat} (same : ∀ l, (f l).index = l.index)
      (ih : p.indexes = List.range' first (k + 1) ∧ p.level.index = first + k) :
      (p.update f).indexes = List.range' first (k + 1) ∧ (p.update f).level.index = first + k := by
    rwa [(indexes_update f same p).1, (indexes_update f same p).2]
  induction h with
  | withIndex => exact ⟨rfl, rfl⟩
  | @wrapped k p _ ih =>
    have next : p.level.index + 1 = first + (k + 1) := by omega
    refine ⟨?_, next⟩
    rw [Plan.wrapped, indexes, ih.1, next, List.range'_concat (n := k + 1), Nat.one_mul]
  | filter e _ ih => exact kept (fun _ => rfl) ih
  | orderBy c d _ ih => exact kept (fun _ => rfl) ih
  | project e _ ih => exact kept (fun _ => rfl) ih
  | partition e _ ih => exact kept (fun _ => rfl) ih

/-- The names of a level: its rank column, and the alias of its sub-select if it has one. -/
def levelNames : Plan → List (List Char × Option (List Char))
  | base l => [(rankName l.index, none)]
  | nested l p => (rankName l.index, some (subselectName l.index)) :: p.levelNames

/-- Every level but the innermost one has a sub-select. -/
theorem levelNames_eq (p : Plan) : ∃ i rest, p.indexes = i :: rest ∧
    p.levelNames = (rest.reverse.map fun i => (rankName i, some (subselectName i))) ++
      [(rankName i, none)] := by
  induction p with
  | base l => exact ⟨l.index, [], rfl, rfl⟩
  | nested l p ih =>
    obtain ⟨i, rest, indexes_eq, names⟩ := ih
    refine ⟨i, rest ++ [l.index], ?_, ?_⟩
    · rw [indexes, indexes_eq, List.cons_append]
    · rw [levelNames, names, List.reverse_append]
      rfl

theorem Stacked.levelNames {first k : Nat} {p : Plan} (h : Stacked first k p) :
    p.levelNames = ((List.range' (first + 1) k).reverse.map fun i =>
      (rankName i, some (subselectName i))) ++ [(rankName first, none)] := by
  obtain ⟨i, rest, indexes_eq, names⟩ := p.levelNames_eq
  have same : i :: rest = first :: List.range' (first + 1) k := indexes_eq.symm.trans h.indexes_eq.1
  obtain ⟨rfl, rfl⟩ := List.cons.inj same
  exact names

end Plan

theorem Restricted.query {index : Nat} {s out : Statement} {es : List Expression}
    (h : Restricted index s es out) (rank : s.query.rank = rankName index) :
    out.query.levels = s.query.levels ∧ out.query.rank = rankName index ∧
      ∀ schema, s.query.RanksByLevel schema → out.query.RanksByLevel schema := by
  induction h with
  | nil => exact ⟨rfl, rank, fun _ h => h⟩
  | @snoc es out e rule _ _ ih =>
    refine ⟨ih.1, ih.2.1, fun schema hs => ⟨fun r hr => ?_, ih.2.2 schema hs⟩⟩
    have own : r = out.query.rank := (rule.rank?_queryEnd index r hr).trans ih.2.1.symm
    exact ⟨own, own ▸ out.query.rank_mem_columns schema⟩

namespace Plan

/-- The statement of a plan names what its levels name, and restricts each level by its own rank. -/
theorem statement_query {p : Plan} {s : Statement} (h : p.statement = .ok s) :
    s.query.levels = p.levelNames ∧ ∀ schema, s.query.RanksByLevel schema := by
  induction p generalizing s with
  | base l =>
    obtain ⟨c, -, restricted⟩ := statement_base.mp h
    obtain ⟨levels, -, ranks⟩ := (Level.restricted_of_ok restricted).query rfl
    exact ⟨levels, fun schema => ranks schema trivial⟩
  | nested l p ih =>
    obtain ⟨inner, c, hi, -, restricted⟩ := statement_nested.mp h
    obtain ⟨levels, -, ranks⟩ := (Level.restricted_of_ok restricted).query rfl
    have below := ih hi
    refine ⟨?_, fun schema => ranks schema (below.2 schema)⟩
    rw [levels, levelNames, ← below.1]
    rfl

end Plan

theorem rankName_injective : Function.Injective rankName := by
  intro i j h
  have digits := List.append_cancel_left h
  have padded : decimalDigits i ++ [] = decimalDigits j ++ [] := by rw [digits]
  exact (decimalDigits_inj (by simp) (by simp) padded).1

theorem subselectName_injective : Function.Injective subselectName := by
  intro i j h
  have padded : decimalDigits i ++ [] = decimalDigits j ++ [] := by
    rw [List.tail_eq_of_cons_eq h]
  exact (decimalDigits_inj (by simp) (by simp) padded).1

theorem isRankColumn_rankName (index : Nat) :
    isRankColumn (String.ofList (rankName index)) = true := by
  refine isRankColumn_iff.mpr ⟨decimalDigits index, Nat.toDigits_ne_nil, fun c hc => ?_, ?_⟩
  · exact isDigit_of_mem_decimalDigits hc
  · exact String.toList_ofList

theorem Mutation.ofRecord_without_ranks {table : TableRef} {r : Record} {index : Nat} :
    ∀ entry ∈ (ofRecord table r).values, entry.1.toList ≠ rankName index := by
  intro entry h named
  obtain ⟨f, hf, rfl⟩ := List.mem_map.mp h
  have kept := (List.mem_filter.mp hf).2
  rw [show f.name = String.ofList (rankName index) by rw [← named, String.ofList_toList],
    isRankColumn_rankName] at kept
  cases kept

/-- Each wrapping takes the next index, so that no two levels rank by one column or name their
sub-selects alike, every restriction ranks by its own level, and a record turned into a mutation
loses the rank columns of all levels. -/
theorem levels_of_stacked {first k : Nat} {p : Plan} (h : p.Stacked first k) :
    p.indexes = List.range' first (k + 1) ∧
    ∀ text, p.sql = .ok text → ∃ s, p.statement = .ok s ∧
      text.toList = s.query.text namedParameter ∧
      s.query.levels = ((List.range' (first + 1) k).reverse.map fun i =>
        ("row_id".toList ++ decimalDigits i, some ('F' :: decimalDigits i))) ++
          [("row_id".toList ++ decimalDigits first, none)] ∧
      (s.query.levels.map Prod.fst).Nodup ∧ (s.query.levels.filterMap Prod.snd).Nodup ∧
      (∀ schema, s.query.RanksByLevel schema) ∧
      ∀ rank ∈ s.query.levels.map Prod.fst, isRankColumn (String.ofList rank) = true ∧
        ∀ table r, ∀ entry ∈ (Mutation.ofRecord table r).values, entry.1.toList ≠ rank := by
  refine ⟨h.indexes_eq.1, fun text compiled => ?_⟩
  obtain ⟨s, hs, rfl⟩ := map_eq_ok_iff.mp compiled
  obtain ⟨levels, ranks⟩ := Plan.statement_query hs
  rw [h.levelNames] at levels
  have named : s.query.levels.map Prod.fst = (List.range' first (k + 1)).reverse.map rankName := by
    rw [levels, List.map_append, List.map_map, List.range'_succ, List.reverse_cons, List.map_append]
    rfl
  have aliased : s.query.levels.filterMap Prod.snd =
      (List.range' (first + 1) k).reverse.map subselectName := by
    rw [levels, List.filterMap_append, List.filterMap_map]
    simp
  refine ⟨s, hs, ?_, levels, ?_, ?_, ranks, ?_⟩
  · rw [String.toList_ofList, s.query_text]
  · rw [named]
    exact (List.nodup_reverse.mpr List.nodup_range').map rankName_injective
  · rw [aliased]
    exact (List.nodup_reverse.mpr List.nodup_range').map subselectName_injective
  · intro rank hr
    rw [named] at hr
    obtain ⟨index, -, rfl⟩ := List.mem_map.mp hr
    exact ⟨isRankColumn_rankName index, fun _ _ => Mutation.ofRecord_without_ranks⟩

/-- The rows behind the second one of those that a level with one column ends with. -/
def stackedPlan : Plan :=
  (((Plan.withIndex [⟨"Acme.Hr", "Employee"⟩] 3).project
    (.column ⟨⟨"Acme.Hr", "Employee"⟩, "Id"⟩)).partition
      (.partition .last none none)).wrapped.partition (.skip (.ofValue (.int 2)))

def stackedSql : List Char :=
  ["SELECT * FROM (SELECT row_number() OVER (ORDER BY \"Id\") AS row_id4, * FROM (SELECT * FROM ",
    "(SELECT row_number() OVER (ORDER BY \"Id\") AS row_id3, \"Acme.Hr.Employee\".\"Id\" FROM ",
    "\"Acme.Hr.Employee\") AS P3 ORDER BY row_id3 DESC LIMIT 1) AS F4) AS P4 WHERE row_id4 > 2"
    ].flatMap String.toList

theorem stackedPlan_stacked : stackedPlan.Stacked 3 1 :=
  .partition _ (.wrapped (.partition _ (.project _ (.withIndex _))))

theorem stackedPlan_sql : stackedPlan.sql = .ok (String.ofList stackedSql) := by
  obtain ⟨s, hs, text⟩ : ∃ s, stackedPlan.statement = .ok s ∧
      s.text namedParameter = stackedSql := ⟨_, rfl, by decide +kernel⟩
  rw [Plan.sql, hs, ← text]
  rfl

theorem levels_of_stacked_pair :
    stackedPlan.Stacked 3 1 ∧ stackedPlan.indexes = [3, 4] ∧
    stackedPlan.sql = .ok (String.ofList stackedSql) ∧
    ∃ s, stackedPlan.statement = .ok s ∧ stackedSql = s.query.text namedParameter ∧
      s.query.levels = [("row_id4".toList, some "F4".toList), ("row_id3".toList, none)] ∧
      ∀ schema, s.query.RanksByLevel schema := by
  obtain ⟨indexes, named⟩ := levels_of_stacked stackedPlan_stacked
  obtain ⟨s, hs, text, levels, -, -, ranks, -⟩ := named _ stackedPlan_sql
  rw [String.toList_ofList] at text
  exact ⟨stackedPlan_stacked, indexes, stackedPlan_sql, s, hs, text, levels.trans (by decide),
    ranks⟩

end PlanSql
