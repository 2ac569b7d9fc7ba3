import PlanSql.Value

namespace PlanSql

def quotedName (name : List Char) : List Char := '"' :: (name ++ ['"'])

/-- A table: its namespace and its name with a point between them are one quoted name. -/
structure TableRef where
  space : String
  name : String
  deriving DecidableEq

def TableRef.text (t : TableRef) : List Char :=
  if t.space.isEmpty then quotedName t.name.toList
  else quotedName (t.space.toList ++ '.' :: t.name.toList)

/-- A column of a table. -/
structure ColumnRef where
  table : TableRef
  name : String
  deriving DecidableEq

def ColumnRef.text (c : ColumnRef) : List Char := c.table.text ++ '.' :: quotedName c.name.toList

/-- The column of that name. -/
def TableRef.column (t : TableRef) (name : String) : ColumnRef := ⟨t, name⟩

/-- The server's word for a float that is no number or infinite. -/
def specialFloat? {l : BinaryLayout} (x : Binary l) : Option (List Char) :=
  if x.isNaN then some "NaN".toList
  else if x.isInfinite then some (if x.negative then "-Infinity".toList else "Infinity".toList)
  else none

def Value.specialFloat? : Value → Option (List Char)
  | .real x => PlanSql.specialFloat? x
  | .double x => PlanSql.specialFloat? x
  | _ => none

def singleQuoted (s : List Char) : List Char := '\'' :: (s ++ ['\''])

/-- A constant by its declared type: numbers bare, and all else but a null in quotes. -/
def Value.literal (v : Value) (declared : ValueType) : List Char :=
  if v.isNull then "NULL".toList
  else match v.specialFloat? with
    | some word => singleQuoted word
    | none => if declared.isNumeric then v.plain else singleQuoted v.plain

namespace TableRef

def document (t : TableRef) : Document :=
  .record [("namespace", .ofString t.space), ("name", .ofString t.name)]

def decode? : (depth : Nat) → Document → Option TableRef
  | 0, _ => none
  | _ + 1, d => do
    match ← d.record? ["namespace", "name"] 2 with
    | [some space, some name] => return ⟨← space.text?, ← name.text?⟩
    | _ => none

end TableRef

namespace ColumnRef

def document (c : ColumnRef) : Document :=
  .record [("namespace", .ofString c.table.space), ("object_name", .ofString c.table.name),
    ("member_name", .ofString c.name)]

def decode? : (depth : Nat) → Document → Option ColumnRef
  | 0, _ => none
  | _ + 1, d => do
    match ← d.record? ["namespace", "object_name", "member_name"] 3 with
    | [some space, some table, some name] =>
      return ⟨⟨← space.text?, ← table.text?⟩, ← name.text?⟩
    | _ => none

end ColumnRef

end PlanSql
