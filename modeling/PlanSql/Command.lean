import PlanSql.Statement

namespace PlanSql

/-- The value of a `@name` placeholder. -/
structure Parameter where
  name : String
  value : Value

structure Command where
  text : String
  parameters : List Parameter

/-- The first parameter of that name, whatever the case of its letters. -/
def findParameter? (ps : List Parameter) (name : String) : Option Parameter :=
  ps.find? fun p => sameName p.name name

def Command.parameter? (c : Command) (name : String) : Option Parameter :=
  findParameter? c.parameters name

/-- The command of a plan with the caller's parameters. -/
def Plan.command (p : Plan) (ps : List Parameter) : Except PlanError Command :=
  p.sql.map fun text => ⟨text, ps⟩

namespace Parameter

def document (p : Parameter) : Document :=
  .record [("name", .ofString p.name), ("value", p.value.document)]

def decode? : (depth : Nat) → Document → Option Parameter
  | 0, _ => none
  | depth + 1, d => do
    match ← d.record? ["name", "value"] 2 with
    | [some name, some value] => return ⟨← name.text?, ← Value.decode? false depth value⟩
    | _ => none

end Parameter

namespace Command

def document (c : Command) : Document :=
  .record [("text", .ofString c.text), ("parameters", .array (c.parameters.map Parameter.document))]

def decode? : (depth : Nat) → Document → Option Command
  | 0, _ => none
  | depth + 1, d => do
    match ← d.record? ["text", "parameters"] 1 with
    | [some text, ps] => return ⟨← text.text?, ← Plan.list? Parameter.decode? depth ps⟩
    | _ => none

/-- Reads the JSON text of a command. -/
def read? (s : String) : Option Command := (Document.read? s).bind (decode? Document.depthLimit)

end Command

end PlanSql
