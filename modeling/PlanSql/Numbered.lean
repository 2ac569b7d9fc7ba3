import PlanSql.Command
import PlanSql.Piece

namespace PlanSql

structure Numbered where
  sql : List Char
  /-- The values of `$1`, `$2` and so on. -/
  values : List Value

namespace Numbered

/-- The names used so far without regard to case, and the value of each. -/
abbrev Bound := List (String × Value)

/-- The position of a name, counted from one. -/
def position? (bound : Bound) (key : String) : Option Nat :=
  (bound.findIdx? fun b => b.1 == key).map (· + 1)

def positionText (k : Nat) : List Char := '$' :: decimalDigits k

/-- The text of a placeholder, and the names used after it. -/
def placeholder (ps : List Parameter) (bound : Bound) (name : String) :
    Except PlanError (List Char × Bound) :=
  match findParameter? ps name with
  | none => .error (.missingParameter name)
  | some p =>
    if p.value.isNull then .ok ("NULL".toList, bound)
    else
      match position? bound (foldCase name) with
      | some k => .ok (positionText k, bound)
      | none => .ok (positionText (bound.length + 1), bound ++ [(foldCase name, p.value)])

/-- The text of a piece, and the names used after it. -/
def piece (ps : List Parameter) (bound : Bound) : Piece → Except PlanError (List Char × Bound)
  | .placeholder name => placeholder ps bound (String.ofList name)
  | p => .ok (p.text, bound)

/-- The texts of the pieces in order, and the names used in all. -/
def texts (ps : List Parameter) (bound : Bound) :
    List Piece → Except PlanError (List (List Char) × Bound)
  | [] => .ok ([], bound)
  | p :: rest => do
    let (t, bound) ← piece ps bound p
    let (ts, bound) ← texts ps bound rest
    return (t :: ts, bound)

end Numbered

/-- The command with its placeholders numbered. -/
def Command.numbered (c : Command) : Except PlanError Numbered :=
  (Numbered.texts c.parameters [] (pieces c.text.toList)).map fun (ts, bound) =>
    ⟨ts.flatten, bound.map (·.2)⟩

end PlanSql
