import PlanSql.Mutation
import PlanSql.Readable
import PlanSql.Rows

namespace PlanSql

/-- An action on a backend of state `σ`. -/
abbrev Action (σ : Type) := ExceptT PlanError (StateM σ)

/-- A backend of state `σ`. Rows, a count of affected rows and a single value are three ways to
execute a command. -/
class Executor (σ : Type) (κ : outParam Type) extends RowSource σ κ where
  query : Command → Action σ κ
  nonQuery : Command → Action σ Nat
  /-- The first column of the first row, or null. -/
  scalar : Command → Action σ Value

namespace Database

/-- What is told of a database; its backend is not shown. -/
def summary : String := "Database \x7b .. \x7d"

variable {σ κ : Type} [Executor σ κ]

/-- Runs a text; the rows are read from the sequence that it gives. -/
def readText (c : Command) : Action σ (Records κ) := do
  let cursor ← Executor.query c
  return .ofCursor cursor

/-- Compiles and runs a plan. -/
def read (p : Plan) (ps : List Parameter) : Action σ (Records κ) := do
  let c ← p.command ps
  readText c

/-- Runs a text and reads all of its records. -/
def retrieveText [FiniteRows σ κ] (c : Command) : Action σ (List Record) := do
  let r ← readText c
  ExceptT.mk r.toList

/-- Compiles and runs a plan and reads all of its records. -/
def retrieve [FiniteRows σ κ] (p : Plan) (ps : List Parameter) : Action σ (List Record) := do
  let r ← read p ps
  ExceptT.mk r.toList

/-- Runs a text and counts the affected rows. -/
def nonQuery (c : Command) : Action σ Nat := Executor.nonQuery c

/-- Runs a text and reads its first value as `α`. -/
def scalar (α : Type) [Readable α] (c : Command) : Action σ α := do
  let v ← Executor.scalar c
  Readable.convert α "<scalar>" v.type v

/-- Runs a text and reads its first record. -/
def returning (c : Command) : Action σ (Option Record) := do
  let r ← readText c
  ExceptT.mk (Prod.fst <$> r.first)

def create (m : Mutation) : Action σ (Option Record) := returning m.insert

def update (m : Mutation) : Action σ (Option Record) := do
  let c ← m.update
  returning c

def delete (m : Mutation) : Action σ (Option Record) := do
  let c ← m.delete
  returning c

def createRecord (t : TableRef) (r : Record) : Action σ (Option Record) := create (.ofRecord t r)

def updateRecord (t : TableRef) (r : Record) : Action σ (Option Record) := update (.ofRecord t r)

def deleteRecord (t : TableRef) (r : Record) : Action σ (Option Record) := delete (.ofRecord t r)

end Database

end PlanSql
