import PlanSql.Proofs.CompiledPlan
import PlanSql.Proofs.ConstantText

namespace PlanSql

/-- The name of an alias: the server folds a word without quotes to small letters. -/
def aliasName (letter : Char) (index : Nat) : List Char :=
  (letter :: decimalDigits index).map Char.toLower

/-- The columns that a scalar refers to. -/
def Scalar.references : Scalar → List ColumnRef
  | operation _ left right => left.references ++ right.references
  | column c | order c _ => [c]
  | _ => []

/-- The columns that the clauses of a `SELECT` refer to; sort keys stand in two of them. -/
def Clauses.references (c : Clauses) : List ColumnRef :=
  (c.filters ++ c.sorts ++ c.columns).flatMap Scalar.references

/-- The names that the `FROM` of a `SELECT` introduces, and the columns that it refers to outside of
its sub-select. -/
structure Scope where
  names : List (List Char)
  references : List ColumnRef

/-- Every reference quotes one of the names. -/
def Scope.Closed (scope : Scope) : Prop :=
  ∀ c ∈ scope.references, ∃ name ∈ scope.names, c.table.text = quotedName name

namespace Statement

/-- The scopes of the `SELECT`s, the outermost one first. -/
def scopes : Statement → List Scope
  | select _ tables c => [⟨tables.map TableRef.identifier, c.references⟩]
  | selectFrom index inner c => ⟨[aliasName 'F' index], c.references⟩ :: inner.scopes
  | restrict index rule inner =>
    ⟨[aliasName 'P' index], rule.count?.elim [] Scalar.references⟩ :: inner.scopes

/-- A `SELECT` sees no more names than its `FROM` introduces. -/
def InScope (s : Statement) : Prop := ∀ scope ∈ s.scopes, scope.Closed

theorem inScope_select {index : Nat} {tables : List TableRef} {c : Clauses} :
    (select index tables c).InScope ↔
      ∀ r ∈ c.references, ∃ t ∈ tables, r.table.text = quotedName t.identifier := by
  simp [InScope, scopes, Scope.Closed]

theorem inScope_selectFrom {index : Nat} {inner : Statement} {c : Clauses} :
    (selectFrom index inner c).InScope ↔
      (∀ r ∈ c.references, r.table.text = quotedName (aliasName 'F' index)) ∧ inner.InScope := by
  simp [InScope, scopes, Scope.Closed]

theorem inScope_restrict {index : Nat} {rule : Restriction} {inner : Statement} :
    (restrict index rule inner).InScope ↔
      (∀ r ∈ rule.count?.elim [] Scalar.references,
        r.table.text = quotedName (aliasName 'P' index)) ∧ inner.InScope := by
  simp [InScope, scopes, Scope.Closed]

end Statement

namespace Expression

/-- The columns that the scalar of an expression refers to. -/
def references : Expression → List ColumnRef
  | operation _ left right => left.references ++ right.references
  | column c | order c _ => [c]
  | _ => []

/-- The columns that the restriction of a partition list's entry refers to. -/
def countReferences (e : Expression) : List ColumnRef := e.count?.elim [] references

/-- Every column and sort key in an expression is of one of the tables. -/
inductive Over (tables : List TableRef) : Expression → Prop
  | operation {op : InfixOperator} {left right : Expression} :
    Over tables left → Over tables right → Over tables (operation op left right)
  | constant {v : Value} {type : ValueType} : Over tables (constant v type)
  | parameter {name : String} : Over tables (parameter name)
  | column {c : ColumnRef} : c.table ∈ tables → Over tables (column c)
  | order {c : ColumnRef} {d : SortDirection} : c.table ∈ tables → Over tables (order c d)
  | partition {kind : PartitionKind} {operand count : Option Expression} :
    (∀ e ∈ operand, Over tables e) → (∀ e ∈ count, Over tables e) →
    Over tables (partition kind operand count)

theorem scalar_references {e : Expression} {s : Scalar} (h : e.scalar = .ok s) :
    s.references = e.references := by
  induction e using Expression.scalar.induct generalizing s with
  | case1 op left right ihl ihr =>
    obtain ⟨a, b, ha, hb, rfl⟩ := scalar_operation.mp h
    rw [references, Scalar.references, ihl ha, ihr hb]
  | case2 | case3 | case4 | case5 =>
    obtain rfl := Except.ok.inj h
    rfl
  | case6 => cases h

theorem forall₂_references {es : List Expression} {ss : List Scalar}
    (h : List.Forall₂ (fun e s => e.scalar = .ok s) es ss) :
    ss.flatMap Scalar.references = es.flatMap references := by
  induction h with
  | nil => rfl
  | cons head _ ih => rw [List.flatMap_cons, List.flatMap_cons, ih, scalar_references head]

theorem countReferences_eq {e : Expression} {rule : Restriction}
    (h : Restriction.ofExpression e = .ok rule) :
    rule.count?.elim [] Scalar.references = e.countReferences := by
  have counts := Restriction.rel_count h
  unfold countReferences
  generalize e.count? = count at counts ⊢
  generalize rule.count? = restricting at counts ⊢
  cases counts with
  | none => rfl
  | some head => exact scalar_references head

theorem Over.references {tables : List TableRef} {e : Expression} (h : e.Over tables) :
    ∀ c ∈ e.references, c.table ∈ tables := by
  induction h with
  | operation _ _ ihl ihr => exact List.forall_mem_append.mpr ⟨ihl, ihr⟩
  | column own | order own => exact List.forall_mem_singleton.mpr own
  | constant | parameter | partition => simp [Expression.references]

end Expression

namespace Level

/-- The columns that the clauses of a level's `SELECT` refer to. -/
def references (l : Level) : List ColumnRef :=
  (l.filters ++ l.sorts ++ l.projections).flatMap Expression.references

/-- The columns that the restrictions of a level refer to. -/
def countReferences (l : Level) : List ColumnRef :=
  l.partitions.flatMap Expression.countReferences

/-- Every column and sort key of a level is of one of its tables. -/
structure OwnTables (l : Level) : Prop where
  filters : ∀ e ∈ l.filters, e.Over l.tables
  sorts : ∀ e ∈ l.sorts, e.Over l.tables
  projections : ∀ e ∈ l.projections, e.Over l.tables
  partitions : ∀ e ∈ l.partitions, e.Over l.tables

theorem clauses_references {l : Level} {c : Clauses} (h : l.clauses = .ok c) :
    c.references = l.references := by
  obtain ⟨filters, sorts, columns⟩ := clauses_eq_ok_iff.mp h
  rw [inOrder_eq_ok_iff] at filters sorts columns
  exact Expression.forall₂_references
    (List.rel_append (List.rel_append filters sorts) columns)

theorem OwnTables.references {l : Level} (h : l.OwnTables) :
    ∀ c ∈ l.references, c.table ∈ l.tables := by
  intro c hc
  obtain ⟨e, he, hc⟩ := List.mem_flatMap.mp hc
  have all : ∀ e ∈ l.filters ++ l.sorts ++ l.projections, e.Over l.tables :=
    List.forall_mem_append.mpr ⟨List.forall_mem_append.mpr ⟨h.filters, h.sorts⟩, h.projections⟩
  exact (all e he).references c hc

end Level

namespace Plan

/-- Plans made by the builder's steps from columns and sort keys of the level's own tables. -/
inductive Built : Plan → Prop
  | withIndex (tables : List TableRef) (index : Nat) : Built (withIndex tables index)
  | wrapped {p : Plan} : Built p → Built p.wrapped
  | filter {p : Plan} {e : Expression} : Built p → e.Over p.level.tables → Built (p.filter e)
  | orderBy {p : Plan} {c : ColumnRef} {d : SortDirection} : Built p →
    c.table ∈ p.level.tables → Built (p.orderBy c d)
  | project {p : Plan} {e : Expression} : Built p → e.Over p.level.tables → Built (p.project e)
  | partition {p : Plan} {e : Expression} : Built p → e.Over p.level.tables →
    Built (p.partition e)

/-- Each level keeps to its own tables. -/
def OwnTables : Plan → Prop
  | base l => l.OwnTables
  | nested l p => l.OwnTables ∧ p.OwnTables

/-- Outside of the innermost `SELECT` all references name the alias of the sub-select there. -/
def OuterByAlias : Plan → Prop
  | base l => ∀ c ∈ l.countReferences, c.table.text = quotedName (aliasName 'P' l.index)
  | nested l p => (∀ c ∈ l.countReferences, c.table.text = quotedName (aliasName 'P' l.index)) ∧
    (∀ c ∈ l.references, c.table.text = quotedName (aliasName 'F' l.index)) ∧ p.OuterByAlias

theorem OwnTables.level {p : Plan} (h : p.OwnTables) : p.level.OwnTables := by
  cases p with
  | base => exact h
  | nested => exact h.1

theorem OwnTables.update {p : Plan} (h : p.OwnTables) {f : Level → Level}
    (own : (f p.level).OwnTables) : (p.update f).OwnTables := by
  cases p with
  | base => exact own
  | nested => exact ⟨own, h.2⟩

/-- What a step adds to a list is of the tables that the list is of. -/
theorem Built.ownTables {p : Plan} (h : p.Built) : p.OwnTables := by
  have added {tables : List TableRef} {es : List Expression} {e : Expression}
      (hes : ∀ x ∈ es, x.Over tables) (he : e.Over tables) : ∀ x ∈ es ++ [e], x.Over tables :=
    List.forall_mem_append.mpr ⟨hes, List.forall_mem_singleton.mpr he⟩
  have empty (tables : List TableRef) (index : Nat) :
      Level.OwnTables ⟨tables, [], [], [], [], index⟩ := ⟨by simp, by simp, by simp, by simp⟩
  induction h with
  | withIndex tables index => exact empty tables index
  | wrapped _ ih => exact ⟨empty _ _, ih⟩
  | filter _ own ih => exact ih.update { ih.level with filters := added ih.level.filters own }
  | orderBy _ own ih => exact ih.update { ih.level with sorts := added ih.level.sorts (.order own) }
  | project _ own ih =>
    exact ih.update { ih.level with projections := added ih.level.projections own }
  | partition _ own ih =>
    exact ih.update { ih.level with partitions := added ih.level.partitions own }

end Plan

theorem Restricted.inScope_iff {index : Nat} {s out : Statement} {es : List Expression}
    (h : Restricted index s es out) : out.InScope ↔
      (∀ c ∈ es.flatMap Expression.countReferences,
        c.table.text = quotedName (aliasName 'P' index)) ∧ s.InScope := by
  induction h with
  | nil => simp
  | snoc _ head ih =>
    rw [Statement.inScope_restrict, Expression.countReferences_eq head, ih, List.flatMap_append,
      List.forall_mem_append, List.flatMap_singleton, ← and_assoc]
    exact and_congr_left' And.comm

theorem Plan.inScope_of_ownTables {p : Plan} {s : Statement} (own : p.OwnTables)
    (h : p.statement = .ok s) : s.InScope ↔ p.OuterByAlias := by
  induction p generalizing s with
  | base l =>
    obtain ⟨c, hc, restricted⟩ := statement_base.mp h
    have innermost : (Statement.select l.index l.tables c).InScope := by
      rw [Statement.inScope_select, Level.clauses_references hc]
      exact fun r hr => ⟨r.table, own.references r hr, r.table.text_eq⟩
    rw [(Level.restricted_of_ok restricted).inScope_iff]
    exact and_iff_left innermost
  | nested l p ih =>
    obtain ⟨inner, c, hi, hc, restricted⟩ := statement_nested.mp h
    rw [(Level.restricted_of_ok restricted).inScope_iff, Statement.inScope_selectFrom,
      Level.clauses_references hc, ih own.2 hi]
    rfl

/-- The innermost `SELECT` sees its own tables; any other one sees only the alias of its
sub-select, which no reference to a table names unless the table is named so. -/
theorem Plan.references_inScope_iff {p : Plan} {s : Statement} (built : p.Built)
    (h : p.statement = .ok s) : s.InScope ↔ p.OuterByAlias :=
  inScope_of_ownTables built.ownTables h

def employeeTable : TableRef := ⟨"Acme.Hr", "Employee"⟩

def byName : Expression :=
  .operation .equal (.column (employeeTable.column "FirstName")) (.parameter "name")

theorem byName_over : byName.Over [employeeTable] :=
  .operation (.column (List.mem_singleton.mpr rfl)) .parameter

/-- The last of the employees of a name. -/
def lastOfName : Plan :=
  (((Plan.ofTable employeeTable).filter byName).wrapped).partition (.partition .last none none)

theorem inScope_lastOfName : lastOfName.Built ∧ lastOfName.OuterByAlias ∧
    ∃ s, lastOfName.statement = .ok s ∧ (s.InScope ↔ lastOfName.OuterByAlias) := by
  have built : lastOfName.Built :=
    .partition (.wrapped (.filter (.withIndex _ _) byName_over)) (.partition (by simp) (by simp))
  have outer : lastOfName.OuterByAlias :=
    ⟨List.forall_mem_nil _, List.forall_mem_nil _, List.forall_mem_nil _⟩
  exact ⟨built, outer, _, rfl, Plan.references_inScope_iff built rfl⟩

/-- The employees of a name among all of them. -/
def outerByName : Plan := ((Plan.ofTable employeeTable).wrapped).filter byName

set_option maxRecDepth 4000 in
/-- The outer `FROM` introduces `F1`, and the filter refers to the table. -/
theorem not_inScope_outerByName : outerByName.Built ∧
    outerByName.sql = .ok ("SELECT row_number() OVER (ORDER BY \"Id\") AS row_id1, * FROM (" ++
      "SELECT row_number() OVER (ORDER BY \"Id\") AS row_id0, * FROM \"Acme.Hr.Employee\") AS F1" ++
      " WHERE ((\"Acme.Hr.Employee\".\"FirstName\" = @name))") ∧
    ∃ s, outerByName.statement = .ok s ∧ ¬s.InScope := by
  have built : outerByName.Built := .filter (.wrapped (.withIndex _ _)) byName_over
  refine ⟨built, rfl, _, rfl, fun inScope => ?_⟩
  have named := (Statement.inScope_selectFrom.mp inScope).1 (employeeTable.column "FirstName")
    (by simp [Clauses.references, Scalar.references])
  revert named
  decide

end PlanSql
