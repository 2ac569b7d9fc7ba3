import PlanSql.Address
import PlanSql.Fault
import PlanSql.WireValue

namespace PlanSql

/-- Takes an item with its length in front; a negative length is a null. -/
def takeItem? (bs : List UInt8) : Option (Option (List UInt8) × List UInt8) :=
  (takeInteger? 4 bs).bind fun (n, bs) =>
    if n < 0 then some (none, bs)
    else (takeBytes? n.toNat bs).map fun (item, rest) => (some item, rest)

/-- Reads `count` items; bytes after them are left out. -/
def arrayItems? (read : List UInt8 → Option Value) :
    (count : Nat) → List UInt8 → Option (List Value)
  | 0, _ => some []
  | count + 1, bs => do
    let (item, bs) ← takeItem? bs
    let v ← match item with
      | none => some .null
      | some bs => read bs
    return v :: (← arrayItems? read count bs)

/-- Whether the items of an array have a byte in front: the number in it names their type, and where
it is not known the type of the array does. -/
def itemsTagged (arrayName : String) (element : Nat) : Bool :=
  match typeNames.lookup element with
  | some name => name == "JSONB"
  | none => arrayName == "JSONB[]"

/-- Reads an array of at most one dimension that counts from one. -/
def arrayOfBytes? (arrayName : String) (t : ValueType) (bs : List UInt8) : Option Value := do
  let (dimensions, bs) ← takeInteger? 4 bs
  if dimensions = 0 then return .array []
  if dimensions ≠ 1 then none
  let (_, bs) ← takeBytes? 4 bs
  let (element, bs) ← takeBytes? 4 bs
  let (count, bs) ← takeInteger? 4 bs
  let (lowest, bs) ← takeInteger? 4 bs
  if lowest ≠ 1 then none
  let read (bs : List UInt8) : Option Value :=
    Value.ofWire? (itemsTagged arrayName (naturalOf element)) bs t
  return .array (← arrayItems? read count.toNat bs)

/-- The types that arrays are read of. -/
def readsArrayOf : ValueType → Bool
  | .interval | .array | .unknown => false
  | _ => true

/-- The element type of an array type that is read. -/
def arrayElement? (typeName : String) : Option ValueType :=
  ((ValueType.elementName? typeName).bind ValueType.ofColumnType?).filter readsArrayOf

/-- Text without control characters other than white space. -/
def isPlainText (s : String) : Bool :=
  s.toList.all fun c => !isControlChar c || isBlankChar c

/-- The value of a column whose type has no values of its own. -/
def untypedValue (column typeName : String) (bs : List UInt8) : Except PlanError Value :=
  if typeName = "INET" || typeName = "CIDR" then
    match Address.decode? bs with
    | some (a, bits) => .ok (.text (String.ofList (a.netText (typeName == "CIDR") bits)))
    | none => .error (.unsupportedColumnType column typeName)
  else match (readUtf8? bs).filter isPlainText with
    | some s => .ok (.text s)
    | none => .ok (.bytes bs)

def decoded (v : Option Value) : Except PlanError Value :=
  match v with
  | some v => .ok v
  | none => .error (.backend .undecodable)

/-- The value of a column that is not null. -/
def typedValue (column typeName : String) (bs : List UInt8) : Except PlanError Value :=
  match ValueType.ofColumnType? typeName with
  | some .array =>
    match arrayElement? typeName with
    | some t => decoded (arrayOfBytes? typeName t bs)
    | none => untypedValue column typeName bs
  | some .unknown => untypedValue column typeName bs
  | some t => decoded (Value.ofWire? (typeName == "JSONB") bs t)
  | none => untypedValue column typeName bs

/-- The value of a column; without bytes it is null. -/
def columnValue (column typeName : String) : Option (List UInt8) → Except PlanError Value
  | none => .ok .null
  | some bs => typedValue column typeName bs

/-- The declared type of a column. -/
def columnType (typeName : String) : ValueType :=
  (ValueType.ofColumnType? typeName).getD .unknown

end PlanSql
