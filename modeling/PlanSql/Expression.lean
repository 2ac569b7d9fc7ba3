import PlanSql.Operator
import PlanSql.Quoting

namespace PlanSql

inductive Expression
  | operation (op : InfixOperator) (left right : Expression)
  | constant (value : Value) (type : ValueType)
  /-- A parameter that the caller supplies by name. -/
  | parameter (name : String)
  | column (c : ColumnRef)
  /-- A column as a sort key. -/
  | order (c : ColumnRef) (direction : SortDirection)
  /-- A partition operator; `Take` and `Skip` carry a count. -/
  | partition (kind : PartitionKind) (operand count : Option Expression)
  deriving Inhabited

namespace Expression

def kind : Expression → NodeKind
  | operation .. => .operation
  | constant .. => .constant
  | parameter _ => .parameter
  | column _ => .column
  | order .. => .order
  | partition .. => .partition

/-- A constant of its value's own type. -/
def ofValue (v : Value) : Expression := constant v v.type

def take (count : Expression) : Expression := partition .take none (some count)

def skip (count : Expression) : Expression := partition .skip none (some count)

def tagged (k : NodeKind) (fields : List (String × Document)) : Document :=
  .record [(k.name, .record fields)]

mutual

/-- The stored form: the kind of node and its contents. -/
def document : Expression → Document
  | operation op left right =>
    tagged .operation [("operator", .ofString op.name), ("left", document left),
      ("right", document right)]
  | constant v t => tagged .constant [("value", v.document), ("value_type", t.document)]
  | parameter name => tagged .parameter [("name", .ofString name)]
  | column c => .record [(NodeKind.column.name, c.document)]
  | order c d =>
    tagged .order [("member", c.document), ("direction", .ofString d.name)]
  | partition k operand count =>
    tagged .partition [("kind", .ofString k.name), ("operand", optionDocument operand),
      ("argument", optionDocument count)]

def optionDocument : Option Expression → Document
  | none => .null
  | some e => document e

end

/-- Reads a node; `depth` counts the arrays and objects that may still be entered. -/
def decode? (depth : Nat) (d : Document) : Option Expression :=
  match depth with
  | depth + 2 => do
    let (name, body) ← match d.variant? with
      | some (name, some body) => some (name, body)
      | _ => none
    if name = NodeKind.operation.name then
      match ← body.record? ["operator", "left", "right"] 3 with
      | [some op, some left, some right] =>
        return .operation (← (op.bareVariant? depth).bind InfixOperator.ofName?)
          (← decode? depth left) (← decode? depth right)
      | _ => none
    else if name = NodeKind.constant.name then
      match ← body.record? ["value", "value_type"] 2 with
      | [some v, some t] =>
        return .constant (← Value.decode? false depth v) (← ValueType.decode? depth t)
      | _ => none
    else if name = NodeKind.parameter.name then
      match ← body.record? ["name"] 1 with
      | [some name] => return .parameter (← name.text?)
      | _ => none
    else if name = NodeKind.column.name then
      (ColumnRef.decode? (depth + 1) body).map .column
    else if name = NodeKind.order.name then
      match ← body.record? ["member", "direction"] 2 with
      | [some c, some dir] =>
        return .order (← ColumnRef.decode? depth c)
          (← (dir.bareVariant? depth).bind SortDirection.ofName?)
      | _ => none
    else if name = NodeKind.partition.name then
      match ← body.record? ["kind", "operand", "argument"] 3 with
      | [some kind, operand, count] =>
        let child (d : Option Document) : Option (Option Expression) :=
          (d.getD .null).optional? (decode? depth)
        return .partition (← (kind.bareVariant? depth).bind PartitionKind.ofName?) (← child operand)
          (← child count)
      | _ => none
    else none
  | _ => none

end Expression

end PlanSql
