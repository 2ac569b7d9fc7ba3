import PlanSql.Record

namespace PlanSql

class Readable (α : Type) where
  typeName : String
  /-- The name as an element of a list type. -/
  elementName : String := typeName
  ofValue? : Value → Option α
  toValue : α → Value

namespace Readable

instance : Readable Value where
  typeName := "Value"
  ofValue? := some
  toValue v := v

/-- A null is absent, and all else is read as `α`. -/
instance {α : Type} [Readable α] : Readable (Option α) where
  typeName := typeName α
  elementName := "Option<" ++ typeName α ++ ">"
  ofValue?
    | .null => some none
    | v => (ofValue? v).map some
  toValue
    | none => .null
    | some a => toValue a

/-- An array is read element by element. -/
instance {α : Type} [Readable α] : Readable (List α) where
  typeName := "Vec<" ++ elementName α ++ ">"
  ofValue?
    | .array items => items.mapM ofValue?
    | _ => none
  toValue as := .array (as.map toValue)

instance : Readable Bool where
  typeName := "bool"
  ofValue?
    | .bool b => some b
    | _ => none
  toValue := .bool

/-- The number of an integer value of any width. -/
def integer? : Value → Option Int
  | .smallInt n => some n.toInt
  | .int n => some n.toInt
  | .bigInt n => some n.toInt
  | _ => none

/-- An integer value that fits the width. -/
def fitting? (bits : Nat) (v : Value) : Option Int := (integer? v).filter (fitsSigned bits)

instance : Readable Int16 where
  typeName := "i16"
  ofValue? v := (fitting? 16 v).map Int16.ofInt
  toValue := .smallInt

instance : Readable Int32 where
  typeName := "i32"
  ofValue? v := (fitting? 32 v).map Int32.ofInt
  toValue := .int

instance : Readable Int64 where
  typeName := "i64"
  ofValue? v := (fitting? 64 v).map Int64.ofInt
  toValue := .bigInt

instance : Readable Single where
  typeName := "f32"
  ofValue?
    | .real x => some x
    | .smallInt n => some (.ofInt n.toInt)
    | _ => none
  toValue := .real

instance : Readable Double where
  typeName := "f64"
  ofValue?
    | .real x => some x.convert
    | .double x => some x
    | .smallInt n => some (.ofInt n.toInt)
    | .int n => some (.ofInt n.toInt)
    | _ => none
  toValue := .double

instance : Readable Decimal where
  typeName := "Decimal"
  ofValue?
    | .numeric x => some x
    | v => (integer? v).bind Decimal.ofInt?
  toValue := .numeric

instance : Readable String where
  typeName := "String"
  ofValue?
    | .text s => some s
    | _ => none
  toValue := .text

/-- An identifier may also be given by its text. -/
instance : Readable Uuid where
  typeName := "Uuid"
  ofValue?
    | .uuid u => some u
    | .text s => Uuid.read? s.toList
    | _ => none
  toValue := .uuid

instance : Readable Timestamp where
  typeName := "NaiveDateTime"
  ofValue?
    | .timestamp t => some t
    | _ => none
  toValue := .timestamp

/-- A timestamp without a zone counts as one of zone zero. -/
instance : Readable Instant where
  typeName := "DateTime<Utc>"
  ofValue?
    | .timestampTz t => some t
    | .timestamp t => some ⟨t⟩
    | _ => none
  toValue := .timestampTz

instance : Readable Date where
  typeName := "NaiveDate"
  ofValue?
    | .date d => some d
    | _ => none
  toValue := .date

instance : Readable Clock where
  typeName := "NaiveTime"
  ofValue?
    | .time t => some t
    | _ => none
  toValue := .time

instance : Readable Interval where
  typeName := "Interval"
  ofValue?
    | .interval i => some i
    | _ => none
  toValue := .interval

instance : Readable (List UInt8) where
  typeName := "Vec<u8>"
  ofValue?
    | .bytes bs => some bs
    | _ => none
  toValue := .bytes

instance : Readable Json where
  typeName := "serde_json::Value"
  ofValue?
    | .json j => some j
    | _ => none
  toValue := .json

/-- The value of a field as `α`; an error names the field and its type. -/
def convert (α : Type) [Readable α] (field : String) (type : ValueType) (v : Value) :
    Except PlanError α :=
  match ofValue? v with
  | some a => .ok a
  | none => .error (.typeMismatch field (typeName α) (if v.isNull then none else some type))

end Readable

/-- The field that a name finds, as `α`. -/
def Record.get (α : Type) [Readable α] (r : Record) (name : String) : Except PlanError α :=
  match r.field? name with
  | none => .error (.fieldNotFound name)
  | some f => Readable.convert α f.name f.type f.value

end PlanSql
