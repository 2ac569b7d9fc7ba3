import PlanSql.Fault
import PlanSql.Plan

namespace PlanSql

/-- An expression that can be written: one without partition operators. -/
inductive Scalar
  | operation (op : InfixOperator) (left right : Scalar)
  | constant (value : Value) (type : ValueType)
  | parameter (name : String)
  | column (c : ColumnRef)
  | order (c : ColumnRef) (direction : SortDirection)

/-- How a parameter is written into a statement. -/
abbrev ParameterText := String → List Char

/-- A parameter by its name after `@`. -/
def namedParameter : ParameterText := fun name => '@' :: name.toList

/-- The text of a scalar; operations stand in parentheses. -/
def Scalar.text (param : ParameterText) : Scalar → List Char
  | operation op left right =>
    '(' :: (left.text param ++ ' ' :: (op.symbol ++ ' ' :: (right.text param ++ [')'])))
  | constant v t => v.literal t
  | parameter name => param name
  | column c => c.text
  | order c d => c.text ++ ' ' :: d.keyword

/-- The scalar of an expression; the first partition operator in it is an error. -/
def Expression.scalar : Expression → Except PlanError Scalar
  | operation op left right => do
    let left ← left.scalar
    let right ← right.scalar
    return .operation op left right
  | constant v t => .ok (.constant v t)
  | parameter name => .ok (.parameter name)
  | column c => .ok (.column c)
  | order c d => .ok (.order c d)
  | partition kind _ _ => .error (.unsupportedExpression kind)

/-- The name of a rank column. -/
def rankName (index : Nat) : List Char := "row_id".toList ++ decimalDigits index

/-- Whether a name is that of a rank column. -/
def isRankColumn (name : String) : Bool :=
  match dropHead? "row_id".toList name.toList with
  | some ds => !ds.isEmpty && ds.all Char.isDigit
  | none => false

theorem isRankColumn_iff {name : String} : isRankColumn name = true ↔
    ∃ ds, ds ≠ [] ∧ (∀ c ∈ ds, c.isDigit = true) ∧ name.toList = "row_id".toList ++ ds := by
  unfold isRankColumn
  split
  next ds start =>
    have text := dropHead?_eq_some_iff.mp start
    have digits : (!ds.isEmpty && ds.all Char.isDigit) = true ↔
        ds ≠ [] ∧ ∀ c ∈ ds, c.isDigit = true := by simp
    rw [digits]
    constructor
    · rintro ⟨nonempty, all⟩
      exact ⟨ds, nonempty, all, text⟩
    · rintro ⟨ds', nonempty, all, text'⟩
      obtain rfl : ds = ds' := List.append_cancel_left (text.symm.trans text')
      exact ⟨nonempty, all⟩
  next absent =>
    refine ⟨fun h => (by cases h), ?_⟩
    rintro ⟨ds, -, -, text⟩
    rw [dropHead?_eq_some_iff.mpr text] at absent
    cases absent

/-- What a partition operator does to the rows of the statement before it. -/
inductive Restriction
  /-- The first row by `Id`. -/
  | first
  /-- The row of the highest rank. -/
  | last
  /-- All rows. -/
  | all
  /-- At most so many rows. -/
  | limit (count : Scalar)
  /-- The rows whose rank is greater. -/
  | after (count : Scalar)

/-- The order of a level without sort keys. -/
def idOrder : List Char := "ORDER BY \"Id\"".toList

namespace Restriction

/-- The statement around a prior one. -/
def around (param : ParameterText) (index : Nat) (prior : List Char) (r : Restriction) :
    List Char :=
  "SELECT * FROM (".toList ++ (prior ++ (") AS P".toList ++ (decimalDigits index ++
    match r with
    | first => ' ' :: (idOrder ++ " LIMIT 1".toList)
    | last => " ORDER BY ".toList ++ (rankName index ++ " DESC LIMIT 1".toList)
    | all => []
    | limit count => " LIMIT ".toList ++ count.text param
    | after count => " WHERE ".toList ++ (rankName index ++ (" > ".toList ++ count.text param)))))

/-- The restriction of a partition list's entry. -/
def ofExpression : Expression → Except PlanError Restriction
  | .partition kind _ count =>
    let counted (f : Scalar → Restriction) : Except PlanError Restriction :=
      match count with
      | none => .error (.missingArgument kind)
      | some e => e.scalar.map f
    match kind with
    | .first | .firstOrDefault => .ok first
    | .last | .lastOrDefault => .ok last
    | .single | .singleOrDefault => .ok all
    | .take => counted limit
    | .skip => counted after
  | e => .error (.unimplementedOperator e.kind)

end Restriction

/-- The lists of a `SELECT`; without columns all are selected. -/
structure Clauses where
  filters : List Scalar
  sorts : List Scalar
  columns : List Scalar

namespace Clauses

def listText (param : ParameterText) (es : List Scalar) : List Char :=
  joined ", ".toList (es.map (Scalar.text param))

/-- The order of the rows, if there is a sort key. -/
def orderText (param : ParameterText) (c : Clauses) : List Char :=
  "ORDER BY ".toList ++ listText param c.sorts

def columnsText (param : ParameterText) (c : Clauses) : List Char :=
  if c.columns.isEmpty then ['*'] else listText param c.columns

/-- The filters, each in parentheses. -/
def filterText (param : ParameterText) (c : Clauses) : List Char :=
  "WHERE ".toList ++
    joined " AND ".toList (c.filters.map fun e => '(' :: (e.text param ++ [')']))

/-- A `SELECT` from what `source` writes. -/
def selectText (param : ParameterText) (index : Nat) (c : Clauses) (source : List Char) :
    List Char :=
  "SELECT row_number() OVER (".toList ++
    ((if c.sorts.isEmpty then idOrder else c.orderText param) ++ (") AS ".toList ++
    (rankName index ++ (", ".toList ++ (c.columnsText param ++ (" FROM ".toList ++ (source ++
    ((if c.filters.isEmpty then [] else ' ' :: c.filterText param) ++
      (if c.sorts.isEmpty then [] else ' ' :: c.orderText param)))))))))

end Clauses

inductive Statement
  | select (index : Nat) (tables : List TableRef) (clauses : Clauses)
  | selectFrom (index : Nat) (inner : Statement) (clauses : Clauses)
  | restrict (index : Nat) (rule : Restriction) (inner : Statement)

/-- The SQL text. -/
def Statement.text (param : ParameterText) : Statement → List Char
  | select index tables clauses =>
    clauses.selectText param index (joined ", ".toList (tables.map TableRef.text))
  | selectFrom index inner clauses =>
    clauses.selectText param index
      ('(' :: (inner.text param ++ (") AS F".toList ++ decimalDigits index)))
  | restrict index rule inner => rule.around param index (inner.text param)

/-- The first error of a list, or all of its results. -/
def inOrder {α β : Type} (f : α → Except PlanError β) : List α → Except PlanError (List β)
  | [] => .ok []
  | a :: rest => do
    let b ← f a
    let bs ← inOrder f rest
    return b :: bs

namespace Level

def clauses (l : Level) : Except PlanError Clauses := do
  let filters ← inOrder Expression.scalar l.filters
  let sorts ← inOrder Expression.scalar l.sorts
  let columns ← inOrder Expression.scalar l.projections
  return ⟨filters, sorts, columns⟩

/-- The statement restricted by the level's partition operators, one after the other. -/
def restricted (l : Level) (s : Statement) : Except PlanError Statement := do
  let rules ← inOrder Restriction.ofExpression l.partitions
  return rules.foldl (fun s rule => .restrict l.index rule s) s

end Level

namespace Plan

/-- The statement of a plan: that of the inner plan comes first, then the level's lists. -/
def statement : Plan → Except PlanError Statement
  | base l => do
    let c ← l.clauses
    l.restricted (.select l.index l.tables c)
  | nested l p => do
    let s ← p.statement
    let c ← l.clauses
    l.restricted (.selectFrom l.index s c)

/-- The SQL text of a plan with its parameters by name. -/
def sql (p : Plan) : Except PlanError String :=
  p.statement.map fun s => String.ofList (s.text namedParameter)

end Plan

/-- Wraps a given statement in the restrictions of a partition list. -/
def restrictText (sql : String) (partitions : List Expression) (index : Nat) :
    Except PlanError String := do
  let rules ← inOrder Restriction.ofExpression partitions
  return String.ofList (rules.foldl (Restriction.around namedParameter index) sql.toList)

end PlanSql
