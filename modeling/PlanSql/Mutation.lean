import PlanSql.Record

namespace PlanSql

/-- The key that the server assigns. -/
def identityColumn : String := "Id"

/-- The key that finds the row of an update or a deletion. -/
def correlationColumn : String := "UId"

/-- A table and the values of its columns. -/
structure Mutation where
  table : TableRef
  values : List (String × Value)

namespace Mutation

/-- The columns of a record except rank columns. -/
def ofRecord (table : TableRef) (r : Record) : Mutation :=
  ⟨table, (r.fields.filter fun f => !isRankColumn f.name).map fun f => (f.name, f.value)⟩

/-- The columns that have none of the given names, whatever the case of their letters. -/
def columnsExcept (m : Mutation) (names : List String) : List (String × Value) :=
  m.values.filter fun (column, _) => !names.any fun n => sameName n column

/-- The key column as the mutation spells it, and its value. -/
def key (m : Mutation) : Except PlanError (String × Value) :=
  match m.values.find? fun (column, _) => sameName column correlationColumn with
  | some k => .ok k
  | none => .error (.fieldNotFound correlationColumn)

/-- The name of the parameter in place `i`. -/
def positionName (i : Nat) : String := String.ofList ('P' :: decimalDigits i)

/-- The columns' values by position. -/
def parameters (columns : List (String × Value)) : List Parameter :=
  columns.mapIdx fun i (_, v) => ⟨positionName i, v⟩

def keyParameter (v : Value) : Parameter := ⟨correlationColumn, v⟩

def insertText (table : TableRef) (columns : List (String × Value)) : List Char :=
  "INSERT INTO ".toList ++ (table.text ++
    (if columns.isEmpty then " DEFAULT VALUES".toList
     else " (".toList ++ (joined [','] (columns.map fun c => quotedName c.1.toList) ++
      (") VALUES(".toList ++
      (joined [','] ((parameters columns).map fun p => namedParameter p.name) ++ [')']))))
    ++ " RETURNING *".toList)

/-- Inserts the row without the key that the server assigns. -/
def insert (m : Mutation) : Command :=
  let columns := m.columnsExcept [identityColumn]
  ⟨String.ofList (insertText m.table columns), parameters columns⟩

/-- The columns of a `SET` list, each with its parameter. -/
def assignments (columns : List (String × Value)) : List (List Char) :=
  columns.mapIdx fun i c => quotedName c.1.toList ++ '=' :: namedParameter (positionName i)

def updateText (table : TableRef) (columns : List (String × Value)) (key : String) : List Char :=
  "UPDATE ".toList ++ (table.text ++ (" SET ".toList ++ (joined [','] (assignments columns) ++
    (" WHERE ".toList ++ (quotedName key.toList ++ (" = ".toList ++
      (namedParameter correlationColumn ++ " RETURNING *".toList)))))))

/-- Sets all columns but the keys. -/
def update (m : Mutation) : Except PlanError Command := do
  let (key, v) ← m.key
  let columns := m.columnsExcept [identityColumn, correlationColumn]
  if columns.isEmpty then .error (.emptyUpdate (String.ofList m.table.text))
  else
    return ⟨String.ofList (updateText m.table columns key),
      parameters columns ++ [keyParameter v]⟩

def deleteText (table : TableRef) (key : String) : List Char :=
  "DELETE FROM ".toList ++ (table.text ++ (" WHERE ".toList ++ (quotedName key.toList ++
    ('=' :: (namedParameter correlationColumn ++ " RETURNING *".toList)))))

def delete (m : Mutation) : Except PlanError Command := do
  let (key, v) ← m.key
  return ⟨String.ofList (deleteText m.table key), [keyParameter v]⟩

end Mutation

end PlanSql
