import PlanSql.Expression

namespace PlanSql

/-- One level of a plan. Its index tells its aliases and rank column from those of other levels. -/
structure Level where
  tables : List TableRef
  filters : List Expression := []
  sorts : List Expression := []
  projections : List Expression := []
  partitions : List Expression := []
  index : Nat := 0

inductive Plan
  | base (level : Level)
  /-- A level that reads the rows of an inner plan. -/
  | nested (level : Level) (inner : Plan)

namespace Plan

def level : Plan → Level
  | base l => l
  | nested l _ => l

def inner? : Plan → Option Plan
  | base _ => none
  | nested _ p => some p

def update (f : Level → Level) : Plan → Plan
  | base l => base (f l)
  | nested l p => nested (f l) p

def withIndex (tables : List TableRef) (index : Nat) : Plan :=
  base ⟨tables, [], [], [], [], index⟩

def ofTable (t : TableRef) : Plan := withIndex [t] 0

/-- A plan over the rows of `p`, with the tables of `p` and the next index. -/
def wrapped (p : Plan) : Plan := nested ⟨p.level.tables, [], [], [], [], p.level.index + 1⟩ p

def filter (e : Expression) : Plan → Plan := update fun l => { l with filters := l.filters ++ [e] }

def orderBy (c : ColumnRef) (d : SortDirection) : Plan → Plan :=
  update fun l => { l with sorts := l.sorts ++ [.order c d] }

def project (e : Expression) : Plan → Plan :=
  update fun l => { l with projections := l.projections ++ [e] }

def partition (e : Expression) : Plan → Plan :=
  update fun l => { l with partitions := l.partitions ++ [e] }

/-- The stored form. -/
def document : Plan → Document
  | base l => levelDocument l .null
  | nested l p => levelDocument l p.document
where
  levelDocument (l : Level) (inner : Document) : Document :=
    .record [("types", .array (l.tables.map TableRef.document)),
      ("filters", .array (l.filters.map Expression.document)),
      ("sorts", .array (l.sorts.map Expression.document)),
      ("projections", .array (l.projections.map Expression.document)),
      ("sub_plan", inner),
      ("partitions", .array (l.partitions.map Expression.document)),
      ("query_index", .ofInt l.index)]

/-- Reads a list, or no items where it is left out. -/
def list? {α : Type} (read : (depth : Nat) → Document → Option α) :
    (depth : Nat) → Option Document → Option (List α)
  | _, none => some []
  | depth + 1, some (.array ds) => ds.mapM (read depth)
  | _, _ => none

/-- Reads a plan; `depth` counts the arrays and objects that may still be entered. -/
def decode? : (depth : Nat) → Document → Option Plan
  | 0, _ => none
  | depth + 1, d => do
    let names := ["types", "filters", "sorts", "projections", "sub_plan", "partitions",
      "query_index"]
    match ← d.record? names 1 with
    | [some types, filters, sorts, projections, inner, partitions, index] =>
      let tables ← list? TableRef.decode? depth (some types)
      let filters ← list? Expression.decode? depth filters
      let sorts ← list? Expression.decode? depth sorts
      let projections ← list? Expression.decode? depth projections
      let inner ← (inner.getD .null).optional? (decode? depth)
      let partitions ← list? Expression.decode? depth partitions
      let index ← match index with
        | none => some 0
        | some d => d.int? 0 (2 ^ 32 - 1)
      let level : Level := ⟨tables, filters, sorts, projections, partitions, index.toNat⟩
      return match inner with
        | none => base level
        | some p => nested level p
    | _ => none

/-- Reads the JSON text of a plan. -/
def read? (s : String) : Option Plan := (Document.read? s).bind (decode? Document.depthLimit)

end Plan

end PlanSql
