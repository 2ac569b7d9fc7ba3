import PlanSql.Calendar
import PlanSql.Decimal
import PlanSql.Interval
import PlanSql.Uuid
import PlanSql.ValueType

namespace PlanSql

inductive Value
  | null
  | bool (b : Bool)
  | smallInt (n : Int16)
  | int (n : Int32)
  | bigInt (n : Int64)
  | real (x : Single)
  | double (x : Double)
  | numeric (x : Decimal)
  | text (s : String)
  | uuid (u : Uuid)
  | timestamp (t : Timestamp)
  | timestampTz (t : Instant)
  | date (d : Date)
  | time (t : Clock)
  | interval (i : Interval)
  | bytes (bs : List UInt8)
  | json (j : Json)
  /-- Elements may be null. -/
  | array (items : List Value)
  deriving Inhabited

namespace Value

def type : Value → ValueType
  | null => .unknown
  | bool _ => .bool
  | smallInt _ => .smallInt
  | int _ => .int
  | bigInt _ => .bigInt
  | real _ => .real
  | double _ => .double
  | numeric _ => .numeric
  | text _ => .text
  | uuid _ => .uuid
  | timestamp _ => .timestamp
  | timestampTz _ => .timestampTz
  | date _ => .date
  | time _ => .time
  | interval _ => .interval
  | bytes _ => .bytes
  | json _ => .json
  | array _ => .array

def isNull : Value → Bool
  | null => true
  | _ => false

/-- Whether an array element of this kind is written without quotes. -/
def isBare : Value → Bool
  | null | bool _ | array _ => true
  | v => v.type.isNumeric

/-- An array element in double quotes; quotes and backslashes inside follow a backslash. -/
def quotedElement (s : List Char) : List Char :=
  '"' :: (s.flatMap (fun c => if c = '"' || c = '\\' then ['\\', c] else [c]) ++ ['"'])

def bytesText (bs : List UInt8) : List Char :=
  '\\' :: 'x' :: bs.flatMap fun b => hexDigits 2 b.toNat

mutual

/-- The text without any SQL quoting. -/
def plain : Value → List Char
  | null => "NULL".toList
  | bool b => (if b then "true" else "false").toList
  | smallInt n => integerText n.toInt
  | int n => integerText n.toInt
  | bigInt n => integerText n.toInt
  | real x => FloatStyle.plain.write x
  | double x => FloatStyle.plain.write x
  | numeric x => x.text
  | text s => s.toList
  | uuid u => u.text
  | timestamp t => t.text ' '
  | timestampTz t => t.shownText
  | date d => d.text
  | time t => t.text
  | interval i => i.text
  | bytes bs => bytesText bs
  | json j => j.text
  | array items => '\x7b' :: (plainItems items ++ ['\x7d'])

/-- The elements of an array with commas between them. -/
def plainItems : List Value → List Char
  | [] => []
  | [v] => if v.isBare then plain v else quotedElement (plain v)
  | v :: w :: rest =>
    (if v.isBare then plain v else quotedElement (plain v)) ++ ',' :: plainItems (w :: rest)

end

/-- The plain text as a string. -/
def display (v : Value) : String := String.ofList v.plain

def ofFloat (x : Double) : Json := if x.isFinite then .number (.float x) else .null

mutual

/-- Numbers and booleans as themselves, and all else as its text. -/
def toJson : Value → Json
  | null => .null
  | bool b => .bool b
  | smallInt n => .number (.integer n.toInt)
  | int n => .number (.integer n.toInt)
  | bigInt n => .number (.integer n.toInt)
  | real x => ofFloat x.convert
  | double x => ofFloat x
  | json j => j
  | array items => .array (toJsons items)
  | v => .string v.display

def toJsons : List Value → List Json
  | [] => []
  | v :: rest => toJson v :: toJsons rest

end

def tagged (t : ValueType) (body : Document) : Document := .record [(t.name, body)]

def binaryDocument (style : FloatStyle) {l : BinaryLayout} (x : Binary l) : Document :=
  if x.isFinite then .number (style.write x) else .null

def intervalDocument (i : Interval) : Document :=
  .record [("months", .ofInt i.months.toInt), ("days", .ofInt i.days.toInt),
    ("microseconds", .ofInt i.microseconds.toInt)]

mutual

/-- The stored form: the type's name and the contents. -/
def document : Value → Document
  | null => .ofString "Null"
  | bool b => tagged .bool (.bool b)
  | smallInt n => tagged .smallInt (.ofInt n.toInt)
  | int n => tagged .int (.ofInt n.toInt)
  | bigInt n => tagged .bigInt (.ofInt n.toInt)
  | real x => tagged .real (binaryDocument .jsonSingle x)
  | double x => tagged .double (binaryDocument .json x)
  | numeric x => tagged .numeric (.ofString (String.ofList x.text))
  | text s => tagged .text (.ofString s)
  | uuid u => tagged .uuid (.ofString (String.ofList u.text))
  | timestamp t => tagged .timestamp (.ofString (String.ofList (t.text 'T')))
  | timestampTz t => tagged .timestampTz (.ofString (String.ofList t.text))
  | date d => tagged .date (.ofString (String.ofList d.text))
  | time t => tagged .time (.ofString (String.ofList t.text))
  | interval i => tagged .interval (intervalDocument i)
  | bytes bs => tagged .bytes (.array (bs.map fun b => .ofInt b.toNat))
  | json j => tagged .json j.document
  | array items => tagged .array (.array (documents items))

def documents : List Value → List Document
  | [] => []
  | v :: rest => document v :: documents rest

end

/-- Reads a float; where texts are allowed, also from a text. -/
def binary? {l : BinaryLayout} (texts : Bool) (d : Document) : Option (Binary l) :=
  match d with
  | .string _ => if texts then d.text?.bind fun s => Binary.read? s.toList else none
  | d => d.binary?

def interval? : (depth : Nat) → Document → Option Interval
  | 0, _ => none
  | _ + 1, d => do
    match ← d.record? ["months", "days", "microseconds"] 3 with
    | [some months, some days, some micros] =>
      return ⟨Int32.ofInt (← months.int? (-2 ^ 31) (2 ^ 31 - 1)),
        Int32.ofInt (← days.int? (-2 ^ 31) (2 ^ 31 - 1)),
        Int64.ofInt (← micros.int? (-2 ^ 63) (2 ^ 63 - 1))⟩
    | _ => none

def bytes? : (depth : Nat) → Document → Option (List UInt8)
  | 0, _ => none
  | _ + 1, d => d.items.bind fun ds => ds.mapM fun d => (d.int? 0 255).map fun n => n.toNat.toUInt8

def decimal? (d : Document) : Option Decimal :=
  match d.number? with
  | some n => Decimal.ofJson? n
  | none => d.text?.bind fun s => Decimal.read? s.toList

/-- Reads the contents of a value that is no array. -/
def scalar? (floatTexts : Bool) (depth : Nat) (d : Document) : ValueType → Option Value
  | .bool => d.bool?.map bool
  | .smallInt => (d.int? (-2 ^ 15) (2 ^ 15 - 1)).map fun n => smallInt (Int16.ofInt n)
  | .int => (d.int? (-2 ^ 31) (2 ^ 31 - 1)).map fun n => int (Int32.ofInt n)
  | .bigInt => (d.int? (-2 ^ 63) (2 ^ 63 - 1)).map fun n => bigInt (Int64.ofInt n)
  | .real => (binary? floatTexts d).map real
  | .double => (binary? floatTexts d).map double
  | .numeric => (decimal? d).map numeric
  | .text => d.text?.map text
  | .uuid => d.text?.bind fun s => (Uuid.read? s.toList).map uuid
  | .timestamp => d.text?.bind fun s => (Timestamp.read? s.toList).map timestamp
  | .timestampTz => d.text?.bind fun s => (Instant.read? s.toList).map timestampTz
  | .date => d.text?.bind fun s => (Date.read? s.toList).map date
  | .time => d.text?.bind fun s => (Clock.read? s.toList).map time
  | .interval => (interval? depth d).map interval
  | .bytes => (bytes? depth d).map bytes
  | .json => (d.json? depth).map json
  | .array => none
  | .unknown => none

/-- Reads a value; `depth` counts the arrays and objects that may still be entered. -/
def decode? (floatTexts : Bool) (depth : Nat) (d : Document) : Option Value :=
  match d.variant? with
  | none => none
  | some (name, none) => if name = "Null" then some null else none
  | some (name, some body) =>
    match depth with
    | 0 => none
    | depth + 1 =>
      if name = "Null" then match body with
        | .null => some null
        | _ => none
      else if name = "Array" then
        match depth, body with
        | depth + 1, .array ds => (ds.mapM (decode? floatTexts depth)).map array
        | _, _ => none
      else (ValueType.ofName? name).bind (scalar? floatTexts depth body)

end Value

end PlanSql
