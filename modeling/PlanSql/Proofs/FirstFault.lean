import PlanSql.Proofs.CompiledPlan

namespace PlanSql

/-- The outcome of a computation that comes upon faults in turn and stops at the first. -/
def Reports {α : Type} (r : Except PlanError α) : List PlanError → Prop
  | [] => ∃ a, r = .ok a
  | fault :: _ => r = .error fault

namespace Reports

variable {α β : Type} {r : Except PlanError α} {faults more : List PlanError}

theorem ok_iff (h : Reports r faults) : (∃ a, r = .ok a) ↔ faults = [] := by
  cases faults with
  | nil => exact ⟨fun _ => rfl, fun _ => h⟩
  | cons fault rest =>
    have failed : r = .error fault := h
    constructor
    · rintro ⟨a, ha⟩
      rw [ha] at failed
      cases failed
    · intro e
      cases e

theorem error_iff (h : Reports r faults) {e : PlanError} :
    r = .error e ↔ faults.head? = some e := by
  cases faults with
  | nil =>
    obtain ⟨a, rfl⟩ := h
    constructor
    · intro e
      cases e
    · intro e
      cases e
  | cons fault rest =>
    have failed : r = .error fault := h
    rw [failed, List.head?_cons, Option.some.injEq]
    exact ⟨fun e => Except.error.inj e, fun e => congrArg _ e⟩

theorem bind {f : α → Except PlanError β} (h : Reports r faults)
    (hf : ∀ a, r = .ok a → Reports (f a) more) : Reports (r >>= f) (faults ++ more) := by
  cases faults with
  | nil =>
    obtain ⟨a, rfl⟩ := h
    exact hf a rfl
  | cons fault rest =>
    have failed : r = .error fault := h
    rw [failed]
    rfl

theorem map (f : α → β) (h : Reports r faults) : Reports (r.map f) faults := by
  cases faults with
  | nil =>
    obtain ⟨a, rfl⟩ := h
    exact ⟨f a, rfl⟩
  | cons fault rest =>
    have failed : r = .error fault := h
    rw [failed]
    rfl

/-- A last step that cannot fail adds no faults. -/
theorem bind_ok {f : α → β} (h : Reports r faults) :
    Reports (r >>= fun a => .ok (f a)) faults := by
  have all : Reports (r >>= fun a => .ok (f a)) (faults ++ []) := h.bind fun a _ => ⟨f a, rfl⟩
  rwa [List.append_nil] at all

end Reports

theorem reports_inOrder {α β : Type} {f : α → Except PlanError β} {g : α → List PlanError}
    (each : ∀ a, Reports (f a) (g a)) (as : List α) : Reports (inOrder f as) (as.flatMap g) := by
  induction as with
  | nil => exact ⟨[], rfl⟩
  | cons a as ih =>
    rw [inOrder, List.flatMap_cons]
    exact (each a).bind fun b _ => ih.bind_ok

namespace Expression

/-- The nodes of a tree at any depth; those in the operand and the count of a partition operator
are among them. -/
inductive Within (n : Expression) : Expression → Prop
  | self : Within n n
  | left {op : InfixOperator} {left right : Expression} :
    Within n left → Within n (operation op left right)
  | right {op : InfixOperator} {left right : Expression} :
    Within n right → Within n (operation op left right)
  | operand {kind : PartitionKind} {e : Expression} {count : Option Expression} :
    Within n e → Within n (partition kind (some e) count)
  | count {kind : PartitionKind} {operand : Option Expression} {e : Expression} :
    Within n e → Within n (partition kind operand (some e))

/-- No node of the tree is a partition operator. -/
def IsScalar (e : Expression) : Prop :=
  ∀ kind operand count, ¬Within (partition kind operand count) e

/-- A partition operator, with a scalar for its count if it takes one. -/
def IsEntry (e : Expression) : Prop :=
  ∃ kind operand count, e = partition kind operand count ∧
    (kind.takesCount = true → ∃ c, count = some c ∧ c.IsScalar)

/-- The partition operators in a tree that is to be a scalar, from left to right. -/
def scalarFaults : Expression → List PlanError
  | operation _ left right => left.scalarFaults ++ right.scalarFaults
  | partition kind _ _ => [.unsupportedExpression kind]
  | _ => []

/-- What is wrong with an entry of a partition list. -/
def entryFaults : Expression → List PlanError
  | partition kind _ none => if kind.takesCount then [.missingArgument kind] else []
  | partition kind _ (some count) => if kind.takesCount then count.scalarFaults else []
  | e => [.unimplementedOperator e.kind]

/-- The tree without what stands inside its partition operators. -/
def outline : Expression → Expression
  | operation op left right => operation op left.outline right.outline
  | partition kind _ _ => partition kind none none
  | e => e

/-- An entry of a partition list with no more than the count that it takes. -/
def entryOutline : Expression → Expression
  | partition kind _ count =>
    partition kind none (if kind.takesCount then count.map outline else none)
  | e => e.outline

theorem isScalar_iff {e : Expression} : e.IsScalar ↔ e.scalarFaults = [] := by
  induction e using Expression.scalar.induct with
  | case1 op left right ihl ihr =>
    have parts : (operation op left right).IsScalar ↔ left.IsScalar ∧ right.IsScalar := by
      constructor
      · intro h
        exact ⟨fun k o c w => h k o c (.left w), fun k o c w => h k o c (.right w)⟩
      · rintro ⟨hl, hr⟩ kind operand count w
        cases w with
        | left w => exact hl _ _ _ w
        | right w => exact hr _ _ _ w
    rw [parts, ihl, ihr, scalarFaults, List.append_eq_nil_iff]
  | case2 | case3 | case4 | case5 =>
    refine ⟨fun _ => rfl, fun _ kind operand count w => ?_⟩
    cases w
  | case6 kind operand count =>
    refine ⟨fun h => absurd .self (h kind operand count), fun h => ?_⟩
    cases h

theorem isEntry_iff {e : Expression} : e.IsEntry ↔ e.entryFaults = [] := by
  cases e with
  | partition kind operand count =>
    have entry : (partition kind operand count).IsEntry ↔
        (kind.takesCount = true → ∃ c, count = some c ∧ c.IsScalar) := by
      constructor
      · rintro ⟨_, _, _, e, h⟩
        cases e
        exact h
      · exact fun h => ⟨kind, operand, count, rfl, h⟩
    rw [entry]
    cases count with
    | none => cases kind <;> simp [entryFaults, PartitionKind.takesCount]
    | some count => cases kind <;> simp [entryFaults, PartitionKind.takesCount, isScalar_iff]
  | _ =>
    refine ⟨fun h => ?_, fun h => ?_⟩
    · obtain ⟨kind, operand, count, e, -⟩ := h
      cases e
    · cases h

theorem scalar_reports (e : Expression) : Reports e.scalar e.scalarFaults := by
  induction e using Expression.scalar.induct with
  | case1 op left right ihl ihr =>
    rw [scalar, scalarFaults]
    exact ihl.bind fun a _ => ihr.bind_ok
  | case2 | case3 | case4 | case5 => exact ⟨_, rfl⟩
  | case6 kind operand count => rfl

theorem scalar_outline (e : Expression) : e.outline.scalar = e.scalar := by
  induction e using Expression.scalar.induct with
  | case1 op left right ihl ihr => rw [outline, scalar, scalar, ihl, ihr]
  | case2 | case3 | case4 | case5 | case6 => rfl

end Expression

namespace Restriction

theorem ofExpression_reports (e : Expression) : Reports (ofExpression e) e.entryFaults := by
  cases e with
  | partition kind operand count =>
    cases count with
    | none =>
      cases kind with
      | take | skip => rfl
      | _ => exact ⟨_, rfl⟩
    | some count =>
      cases kind with
      | take | skip => exact count.scalar_reports.map _
      | _ => exact ⟨_, rfl⟩
  | _ => rfl

theorem ofExpression_outline (e : Expression) : ofExpression e.entryOutline = ofExpression e := by
  cases e with
  | partition kind operand count =>
    cases kind with
    | take | skip =>
      cases count with
      | none => rfl
      | some count =>
        have same := count.scalar_outline
        simp [Expression.entryOutline, PartitionKind.takesCount, ofExpression, same]
    | _ => rfl
  | _ => rfl

end Restriction

theorem inOrder_map_of_eq {α β : Type} {f : α → Except PlanError β} {g : α → α}
    (h : ∀ a, f (g a) = f a) (as : List α) : inOrder f (as.map g) = inOrder f as := by
  induction as with
  | nil => rfl
  | cons a as ih => rw [List.map_cons, inOrder, inOrder, h, ih]

namespace Level

/-- Scalars in the lists of the `SELECT` and operators in the partition list. -/
structure WellPlaced (l : Level) : Prop where
  filters : ∀ e ∈ l.filters, e.IsScalar
  sorts : ∀ e ∈ l.sorts, e.IsScalar
  projections : ∀ e ∈ l.projections, e.IsScalar
  partitions : ∀ e ∈ l.partitions, e.IsEntry

/-- What is wrong with a level, in the order of its lists. -/
def faults (l : Level) : List PlanError :=
  l.filters.flatMap Expression.scalarFaults ++ (l.sorts.flatMap Expression.scalarFaults ++
    l.projections.flatMap Expression.scalarFaults) ++ l.partitions.flatMap Expression.entryFaults

def outline (l : Level) : Level :=
  { l with
    filters := l.filters.map Expression.outline
    sorts := l.sorts.map Expression.outline
    projections := l.projections.map Expression.outline
    partitions := l.partitions.map Expression.entryOutline }

theorem wellPlaced_iff {l : Level} : l.WellPlaced ↔ l.faults = [] := by
  unfold faults
  simp only [List.append_eq_nil_iff, List.flatMap_eq_nil_iff, ← Expression.isScalar_iff,
    ← Expression.isEntry_iff]
  constructor
  · rintro ⟨filters, sorts, projections, partitions⟩
    exact ⟨⟨filters, sorts, projections⟩, partitions⟩
  · rintro ⟨⟨filters, sorts, projections⟩, partitions⟩
    exact ⟨filters, sorts, projections, partitions⟩

/-- A level's statement from what its lists become. -/
theorem restricted_reports (l : Level) (f : Clauses → Statement) :
    Reports (l.clauses >>= fun c => l.restricted (f c)) l.faults := by
  have scalars := reports_inOrder Expression.scalar_reports
  have clauses : Reports l.clauses _ :=
    (scalars l.filters).bind fun _ _ => (scalars l.sorts).bind fun _ _ =>
      (scalars l.projections).bind_ok
  exact clauses.bind fun c _ =>
    (reports_inOrder Restriction.ofExpression_reports l.partitions).bind_ok

theorem clauses_outline (l : Level) : l.outline.clauses = l.clauses := by
  have scalars := inOrder_map_of_eq Expression.scalar_outline
  simp only [clauses, outline, scalars]

theorem restricted_outline (l : Level) (s : Statement) :
    l.outline.restricted s = l.restricted s := by
  have entries := inOrder_map_of_eq Restriction.ofExpression_outline
  simp only [restricted, outline, entries]

end Level

namespace Plan

/-- The levels of a plan, the innermost first. -/
def levels : Plan → List Level
  | base l => [l]
  | nested l p => p.levels ++ [l]

def WellPlaced (p : Plan) : Prop := ∀ l ∈ p.levels, l.WellPlaced

/-- What is wrong with a plan: an inner plan comes before the lists of the level over it. -/
def faults (p : Plan) : List PlanError := p.levels.flatMap Level.faults

def outline : Plan → Plan
  | base l => base l.outline
  | nested l p => nested l.outline p.outline

theorem wellPlaced_iff {p : Plan} : p.WellPlaced ↔ p.faults = [] := by
  rw [faults, List.flatMap_eq_nil_iff]
  simp only [← Level.wellPlaced_iff]
  exact Iff.rfl

theorem statement_reports (p : Plan) : Reports p.statement p.faults := by
  induction p with
  | base l =>
    have all : (base l).faults = l.faults := by simp [faults, levels]
    rw [all]
    exact l.restricted_reports _
  | nested l p ih =>
    have all : (nested l p).faults = p.faults ++ l.faults := by simp [faults, levels]
    rw [all]
    exact ih.bind fun s _ => l.restricted_reports _

theorem statement_outline (p : Plan) : p.outline.statement = p.statement := by
  induction p with
  | base l =>
    rw [outline, statement, statement, Level.clauses_outline]
    simp only [Level.restricted_outline]
    rfl
  | nested l p ih =>
    rw [outline, statement, statement, ih, Level.clauses_outline]
    simp only [Level.restricted_outline]
    rfl

/-- A plan compiles just when only scalars and partition operators with their counts stand where
they may. Otherwise the error is the first fault, an inner plan's before an outer one's. What stands
inside a misplaced operator, and an operand or a count that an operator does not take, plays no
part. -/
theorem sql_first_fault (p : Plan) :
    ((∃ s, p.sql = .ok s) ↔ p.WellPlaced) ∧
    (∀ fault, p.sql = .error fault ↔ p.faults.head? = some fault) ∧
    ∀ q : Plan, q.outline = p.outline → q.sql = p.sql := by
  have reports : Reports p.sql p.faults := p.statement_reports.map _
  refine ⟨?_, ?_, ?_⟩
  · rw [reports.ok_iff, wellPlaced_iff]
  · intro fault
    exact reports.error_iff
  · intro q same
    have statements : q.statement = p.statement := by
      rw [← q.statement_outline, same, p.statement_outline]
    rw [sql, sql, statements]

end Plan

end PlanSql
