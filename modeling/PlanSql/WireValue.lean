import PlanSql.Bytes
import PlanSql.ColumnType
import PlanSql.Value

namespace PlanSql

namespace Decimal

/-- The digits of a number in base 10000, the most significant first. -/
def groupsOf : (fuel n : Nat) → List Nat
  | 0, _ => []
  | fuel + 1, n => if n = 0 then [] else groupsOf fuel (n / 10000) ++ [n % 10000]

/-- The digits in base 10000 without zeros at the end, and the power of the first one. -/
def groups (x : Decimal) : List Nat × Int :=
  let places := (x.scale + 3) / 4
  let gs := groupsOf 16 (x.mantissa * 10 ^ (4 * places - x.scale))
  ((gs.reverse.dropWhile (· == 0)).reverse, (gs.length : Int) - places - 1)

/-- The count of digits, the power of the first, the sign, the scale and the digits. -/
def bytes (x : Decimal) : List UInt8 :=
  if x.mantissa = 0 then naturalBytes 8 0
  else
    let (gs, weight) := x.groups
    naturalBytes 2 gs.length ++ integerBytes 2 weight ++
      naturalBytes 2 (if x.negative then 0x4000 else 0) ++ naturalBytes 2 x.scale ++
      gs.flatMap (naturalBytes 2)

/-- The number `digit * 10000 ^ power`. -/
def ofGroup? (digit power : Int) : Option Decimal :=
  if digit = 0 then ofInt? 0
  else if 0 ≤ power then
    if power < 8 then ofInt? (digit * 10000 ^ power.toNat) else none
  else ofParts? (digit < 0) digit.natAbs (4 * power.natAbs)

/-- The sum of digits by falling powers. -/
def sumGroups (sum : Decimal) (power : Int) : List Int → Option Decimal
  | [] => some sum
  | d :: rest =>
    if power.natAbs < 8 then
      (ofGroup? d power).bind fun part =>
        (sum.add? part).bind fun sum => sumGroups sum (power - 1) rest
    else none

/-- Takes `count` digits. -/
def takeGroups? : (count : Nat) → List UInt8 → Option (List Int)
  | 0, _ => some []
  | count + 1, bs => do
    let (d, bs) ← takeInteger? 2 bs
    return d :: (← takeGroups? count bs)

/-- Reads the digits, the sign and the scale; without digits the number is zero. -/
def ofBytes? (bs : List UInt8) : Option Decimal := do
  let (count, bs) ← takeBytes? 2 bs
  let (weight, bs) ← takeInteger? 2 bs
  let (sign, bs) ← takeBytes? 2 bs
  let (scale, bs) ← takeInteger? 2 bs
  let ds ← takeGroups? (naturalOf count) bs
  let negative ← match naturalOf sign with
    | 0 => some false
    | 0x4000 => some true
    | _ => none
  if ds.isEmpty then return zero
  let x ← sumGroups zero weight ds
  return { x with negative := negative }.withScale (scale % 2 ^ 32).toNat

end Decimal

namespace Interval

/-- Microseconds, days and months. -/
def bytes (i : Interval) : List UInt8 :=
  integerBytes 8 i.microseconds.toInt ++ integerBytes 4 i.days.toInt ++
    integerBytes 4 i.months.toInt

def ofBytes? (bs : List UInt8) : Option Interval := do
  let (micros, bs) ← takeInteger? 8 bs
  let (days, bs) ← takeInteger? 4 bs
  let months ← firstInteger? 4 bs
  return ⟨Int32.ofInt months, Int32.ofInt days, Int64.ofInt micros⟩

end Interval

namespace Uuid

def bytes (u : Uuid) : List UInt8 := naturalBytes 16 u.bits.toNat

def ofBytes? (bs : List UInt8) : Option Uuid :=
  if bs.length = 16 then some ⟨BitVec.ofNat 128 (naturalOf bs)⟩ else none

end Uuid

namespace Value

/-- The bytes of a value that is neither null nor an array. -/
def wireBytes? : Value → Option (List UInt8)
  | bool b => some [if b then 1 else 0]
  | smallInt n => some (integerBytes 2 n.toInt)
  | int n => some (integerBytes 4 n.toInt)
  | bigInt n => some (integerBytes 8 n.toInt)
  | real x => some (naturalBytes 4 x.bits)
  | double x => some (naturalBytes 8 x.bits)
  | numeric x => some x.bytes
  | text s => some (utf8Bytes s)
  | uuid u => some u.bytes
  | timestamp t => some (integerBytes 8 t.microseconds)
  | timestampTz t => some (integerBytes 8 t.utc.microseconds)
  | date d => some (integerBytes 4 d.dayNumber)
  | time t => some (integerBytes 8 (t.nanoseconds / 1000))
  | interval i => some i.bytes
  | bytes bs => some bs
  | json j => some (1 :: utf8Bytes (String.ofList j.text))
  | null => none
  | array _ => none

/-- The JSON value of a text. -/
def jsonOfBytes? (bs : List UInt8) : Option Json :=
  (readUtf8? bs).bind fun s => (Document.read? s).bind (Document.json? Document.depthLimit)

/-- The value of a type that the bytes denote; `tagged` JSON has a byte in front. A type of a fixed
width other than that of a UUID leaves bytes after it out. -/
def ofWire? (tagged : Bool) (bs : List UInt8) : ValueType → Option Value
  | .bool => bs.head?.map fun b => bool (b != 0)
  | .smallInt => (firstInteger? 2 bs).map fun n => smallInt (Int16.ofInt n)
  | .int => (firstInteger? 4 bs).map fun n => int (Int32.ofInt n)
  | .bigInt => (firstInteger? 8 bs).map fun n => bigInt (Int64.ofInt n)
  | .real => (takeBytes? 4 bs).map fun (front, _) => real (.ofBits (naturalOf front))
  | .double => (takeBytes? 8 bs).map fun (front, _) => double (.ofBits (naturalOf front))
  | .numeric => (Decimal.ofBytes? bs).map numeric
  | .text => (readUtf8? bs).map text
  | .uuid => (Uuid.ofBytes? bs).map uuid
  | .timestamp => (firstInteger? 8 bs).bind fun n => (Timestamp.ofMicroseconds? n).map timestamp
  | .timestampTz =>
    (firstInteger? 8 bs).bind fun n => (Timestamp.ofMicroseconds? n).map fun t => timestampTz ⟨t⟩
  | .date => (firstInteger? 4 bs).bind fun n => (Date.ofDayNumber? n).map date
  | .time => (firstInteger? 8 bs).map fun n => time (Clock.ofMicroseconds n)
  | .interval => (Interval.ofBytes? bs).map interval
  | .bytes => some (bytes bs)
  | .json => (jsonOfBytes? (if tagged then bs.drop 1 else bs)).map json
  | .array => none
  | .unknown => none

end Value

end PlanSql
