import PlanSql.Readable
import PlanSql.WireValue

namespace PlanSql

inductive Bound
  | scalar (v : Value)
  /-- Every item is null or of the element type. -/
  | typedArray (element : ValueType) (items : List Value)
  | text (s : List Char)

/-- A value as `α` and back; a null stays null. -/
def convertAs (α : Type) [Readable α] (v : Value) : Option Value :=
  (Readable.ofValue? v : Option (Option α)).map Readable.toValue

/-- A value as one of an element type that arrays are sent of. -/
def ValueType.convert? : ValueType → Value → Option Value
  | bool => convertAs Bool
  | smallInt => convertAs Int16
  | int => convertAs Int32
  | bigInt => convertAs Int64
  | real => convertAs Single
  | double => convertAs Double
  | numeric => convertAs Decimal
  | text => convertAs String
  | uuid => convertAs Uuid
  | timestamp => convertAs Timestamp
  | timestampTz => convertAs Instant
  | date => convertAs Date
  | time => convertAs Clock
  | _ => fun _ => none

/-- The type of the first element that is not null. -/
def elementType? (items : List Value) : Option ValueType :=
  (items.find? fun v => !v.isNull).map Value.type

def boundArray (items : List Value) : Bound :=
  match elementType? items with
  | none => .text (Value.array items).plain
  | some t =>
    match items.mapM t.convert? with
    | some converted => .typedArray t converted
    | none => .text (Value.array items).plain

def Value.bound : Value → Bound
  | array items => boundArray items
  | v => .scalar v

namespace Bound

/-- The number of the parameter's type. -/
def oid : Bound → Nat
  | scalar v => v.type.oid
  | typedArray t _ => t.arrayOid?.getD 25
  | text _ => 25

/-- An item with its length in front; a null has the length -1. -/
def itemBytes (v : Value) : List UInt8 :=
  match v.wireBytes? with
  | none => integerBytes 4 (-1)
  | some bs => naturalBytes 4 bs.length ++ bs

/-- The dimensions, a flag, the element type, the length, the lowest index and the items. -/
def arrayBytes (t : ValueType) (items : List Value) : List UInt8 :=
  naturalBytes 4 1 ++ naturalBytes 4 0 ++ naturalBytes 4 t.oid ++ naturalBytes 4 items.length ++
    naturalBytes 4 1 ++ items.flatMap itemBytes

/-- The parameter's bytes; a null has none. -/
def bytes? : Bound → Option (List UInt8)
  | scalar v => v.wireBytes?
  | typedArray t items => some (arrayBytes t items)
  | text s => some (utf8Bytes (String.ofList s))

end Bound

end PlanSql
