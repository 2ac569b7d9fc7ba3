import PlanSql.Record

namespace PlanSql

structure Column where
  name : String
  type : ValueType
  deriving DecidableEq

/-- A forward-only cursor over the rows of one execution; moving it may use the backend's state. -/
class RowSource (σ κ : Type) where
  /-- Moves to the next row, or tells that there is none. -/
  advance : κ → StateM σ (Except PlanError Bool × κ)
  /-- The columns of the current row. -/
  columns : κ → List Column
  /-- The value of a column in the current row. -/
  value : κ → (index : Nat) → Except PlanError Value

/-- A cursor that comes to an end: `pending` bounds the rows that are still to come. -/
class FiniteRows (σ κ : Type) [RowSource σ κ] where
  pending : κ → σ → Nat
  pending_lt : ∀ {c c' : κ} {s s' : σ},
    RowSource.advance c s = ((.ok true, c'), s') → pending c' s' < pending c s

variable {σ κ : Type}

/-- The current row, a field for each column in order. -/
def readRecord (σ : Type) [RowSource σ κ] (c : κ) : Except PlanError Record := do
  let fields ← inOrder
    (fun (column, i) =>
      (RowSource.value σ c i).map fun v => (⟨column.name, column.type, v⟩ : Field))
    (RowSource.columns σ c).zipIdx
  return ⟨fields⟩

/-- A sequence of records: its cursor while it is held, and the number of records read. -/
structure Records (κ : Type) where
  cursor : Option κ
  read : Nat

namespace Records

def ofCursor (c : κ) : Records κ := ⟨some c, 0⟩

def close (r : Records κ) : Records κ := ⟨none, r.read⟩

def isOpen (r : Records κ) : Bool := r.cursor.isSome

/-- What is told of a sequence; its cursor is not shown. -/
def summary (r : Records κ) : List Char :=
  "Records \x7b open: ".toList ++ (if r.isOpen then "true" else "false").toList ++
    ", read: ".toList ++ decimalDigits r.read ++ " \x7d".toList

/-- The next record or error, if there is one, and the sequence after it. -/
def next [RowSource σ κ] (r : Records κ) :
    StateM σ (Option (Except PlanError Record) × Records κ) := do
  match r.cursor with
  | none => return (none, r)
  | some c =>
    match ← RowSource.advance c with
    | (.ok false, _) => return (none, r.close)
    | (.error e, _) => return (some (.error e), r.close)
    | (.ok true, c) =>
      match readRecord σ c with
      | .ok record => return (some (.ok record), ⟨some c, r.read + 1⟩)
      | .error e => return (some (.error e), r.close)

/-- At most `n` records, up to the first error. -/
def collect [RowSource σ κ] : (n : Nat) → Records κ → StateM σ (Except PlanError (List Record))
  | 0, _ => return .ok []
  | n + 1, r => do
    match ← r.next with
    | (none, _) => return .ok []
    | (some (.error e), _) => return .error e
    | (some (.ok record), r) => return (← collect n r).map (record :: ·)

/-- A bound on the records that are still to come. -/
def pending [RowSource σ κ] [FiniteRows σ κ] (r : Records κ) (s : σ) : Nat :=
  match r.cursor with
  | none => 0
  | some c => FiniteRows.pending c s

/-- All remaining records, or the first error. -/
def toList [RowSource σ κ] [FiniteRows σ κ] (r : Records κ) :
    StateM σ (Except PlanError (List Record)) := do
  let s ← get
  r.collect (r.pending s + 1)

/-- The first remaining record, if there is one, and the sequence without its cursor. -/
def first [RowSource σ κ] (r : Records κ) :
    StateM σ (Except PlanError (Option Record) × Records κ) := do
  match ← r.next with
  | (none, r) => return (.ok none, r.close)
  | (some (.error e), r) => return (.error e, r.close)
  | (some (.ok record), r) => return (.ok (some record), r.close)

end Records

/-- Rows that are at hand. -/
structure ListedRows where
  columns : List Column
  rows : List (List Value)
  current : Option (List Value) := none

namespace ListedRows

def advance (c : ListedRows) : Bool × ListedRows :=
  match c.rows with
  | [] => (false, ⟨c.columns, [], none⟩)
  | row :: rest => (true, ⟨c.columns, rest, some row⟩)

/-- A row that is too short reads as null. -/
def value (c : ListedRows) (index : Nat) : Value := (c.current.bind (·[index]?)).getD .null

instance : RowSource σ ListedRows where
  advance c := return (.ok c.advance.1, c.advance.2)
  columns := columns
  value c i := .ok (c.value i)

instance : FiniteRows σ ListedRows where
  pending c _ := c.rows.length
  pending_lt := by
    intro c c' s s' h
    obtain ⟨cs, rows, current⟩ := c
    cases rows with
    | nil => exact absurd (congrArg (·.1.1) h) (by change Except.ok false ≠ _; simp)
    | cons row rest =>
      have h : ListedRows.mk cs rest (some row) = c' := congrArg (·.1.2) h
      simp [← h]

end ListedRows

end PlanSql
