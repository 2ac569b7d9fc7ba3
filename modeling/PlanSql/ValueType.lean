import PlanSql.Json

namespace PlanSql

inductive ValueType
  | bool
  | smallInt
  | int
  | bigInt
  | real
  | double
  | numeric
  | text
  | uuid
  | timestamp
  | timestampTz
  | date
  | time
  | interval
  | bytes
  | json
  | array
  /-- No declared type, as that of a bare null. -/
  | unknown
  deriving DecidableEq

namespace ValueType

def all : List ValueType :=
  [bool, smallInt, int, bigInt, real, double, numeric, text, uuid, timestamp, timestampTz, date,
    time, interval, bytes, json, array, unknown]

/-- The name in stored texts. -/
def name : ValueType → String
  | bool => "Bool"
  | smallInt => "SmallInt"
  | int => "Int"
  | bigInt => "BigInt"
  | real => "Real"
  | double => "Double"
  | numeric => "Numeric"
  | text => "Text"
  | uuid => "Uuid"
  | timestamp => "Timestamp"
  | timestampTz => "TimestampTz"
  | date => "Date"
  | time => "Time"
  | interval => "Interval"
  | bytes => "Bytes"
  | json => "Json"
  | array => "Array"
  | unknown => "Unknown"

def ofName? (s : String) : Option ValueType := all.find? fun t => t.name == s

theorem ofName?_name (t : ValueType) : ofName? t.name = some t := by
  cases t <;> decide +kernel

/-- The name in SQL and in messages. -/
def sqlName : ValueType → String
  | bool => "bool"
  | smallInt => "smallint"
  | int => "integer"
  | bigInt => "bigint"
  | real => "real"
  | double => "double precision"
  | numeric => "numeric"
  | text => "text"
  | uuid => "uuid"
  | timestamp => "timestamp"
  | timestampTz => "timestamptz"
  | date => "date"
  | time => "time"
  | interval => "interval"
  | bytes => "bytea"
  | json => "json"
  | array => "array"
  | unknown => "unknown"

/-- The types whose values are written bare in SQL. -/
def isNumeric : ValueType → Bool
  | smallInt | int | bigInt | real | double | numeric => true
  | _ => false

/-- The column types that are not arrays. -/
def columnTypes : List (String × ValueType) :=
  [("BOOL", bool), ("INT2", smallInt), ("INT4", int), ("INT8", bigInt), ("FLOAT4", real),
    ("FLOAT8", double), ("NUMERIC", numeric), ("TEXT", text), ("VARCHAR", text),
    ("BPCHAR", text), ("CHAR", text), ("NAME", text), ("UUID", uuid), ("TIMESTAMP", timestamp),
    ("TIMESTAMPTZ", timestampTz), ("DATE", date), ("TIME", time), ("INTERVAL", interval),
    ("BYTEA", bytes), ("JSON", json), ("JSONB", json)]

/-- The name of an array's element type. -/
def elementName? (s : String) : Option String :=
  (dropHead? [']', '['] s.toList.reverse).map fun r => String.ofList r.reverse

/-- The type of a column by the server's name for it. -/
def ofColumnType? (s : String) : Option ValueType :=
  match columnTypes.lookup s with
  | some t => some t
  | none => if (elementName? s).isSome then some array else none

def document (t : ValueType) : Document := .ofString t.name

def decode? (depth : Nat) (d : Document) : Option ValueType := (d.bareVariant? depth).bind ofName?

end ValueType

end PlanSql
