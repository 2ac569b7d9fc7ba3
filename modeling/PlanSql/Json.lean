import PlanSql.Document

namespace PlanSql

inductive Json
  | null
  | bool (b : Bool)
  | number (n : JsonNumber)
  | string (s : String)
  | array (items : List Json)
  | object (fields : List (String × Json))
  deriving Inhabited

namespace Json

/-- Puts a field into its place; an older one of the same name is replaced. -/
def insert (name : String) (j : Json) : List (String × Json) → List (String × Json)
  | [] => [(name, j)]
  | (n, i) :: rest =>
    if name = n then (name, j) :: rest
    else if name < n then (name, j) :: (n, i) :: rest
    else (n, i) :: insert name j rest

/-- The object of the fields; of equal names the last one counts. -/
def ofFields (fields : List (String × Json)) : Json :=
  .object (fields.foldl (fun fs (name, j) => insert name j fs) [])

mutual

def document : Json → Document
  | null => .null
  | bool b => .bool b
  | number n => .ofNumber n
  | string s => .ofString s
  | array items => .array (documents items)
  | object fields => .object (fieldDocuments fields)

def documents : List Json → List Document
  | [] => []
  | j :: rest => document j :: documents rest

def fieldDocuments : List (String × Json) → List (List Char × Document)
  | [] => []
  | (name, j) :: rest => (Document.escape name.toList, document j) :: fieldDocuments rest

end

/-- The compact text. -/
def text (j : Json) : List Char := j.document.compact

end Json

namespace Document

/-- The text of a string. -/
def text? : Document → Option String
  | string body => (unescape? body).map String.ofList
  | _ => none

def number? : Document → Option JsonNumber
  | number digits => (Numeral.json? digits).bind JsonNumber.ofNumeral?
  | _ => none

/-- A whole number from `least` to `greatest`. -/
def int? (least greatest : Int) (d : Document) : Option Int :=
  match d.number? with
  | some (.integer n) => if least ≤ n && n ≤ greatest then some n else none
  | _ => none

/-- The nearest binary number; a single one is rounded from the double. -/
def binary? {l : BinaryLayout} (d : Document) : Option (Binary l) :=
  d.number?.map fun n => match n with
    | .integer n => .ofInt n
    | .float x => x.convert

def bool? : Document → Option Bool
  | bool b => some b
  | _ => none

def items : Document → Option (List Document)
  | array ds => some ds
  | _ => none

/-- `null` is absent; anything else is read. -/
def optional? {α : Type} (read : Document → Option α) : Document → Option (Option α)
  | null => some none
  | d => (read d).map some

/-- The JSON value; `depth` counts the arrays and objects that may still be entered. -/
def json? : (depth : Nat) → Document → Option Json
  | _, null => some .null
  | _, bool b => some (.bool b)
  | _, number digits => (number digits).number?.map .number
  | _, string body => (string body).text?.map .string
  | 0, array _ => none
  | depth + 1, array ds => (ds.mapM (json? depth)).map .array
  | 0, object _ => none
  | depth + 1, object fs =>
    (fs.mapM fun (name, d) => do return (String.ofList (← unescape? name), ← json? depth d)).map
      Json.ofFields

/-- The name of a variant and its contents: a variant without contents may be its bare name. -/
def variant? : Document → Option (String × Option Document)
  | string body => (unescape? body).map fun s => (String.ofList s, none)
  | object [(name, d)] => (unescape? name).map fun s => (String.ofList s, some d)
  | _ => none

/-- The name of a variant that has no contents. -/
def bareVariant? (depth : Nat) (d : Document) : Option String :=
  match d.variant? with
  | some (name, none) => some name
  | some (name, some null) => if depth = 0 then none else some name
  | _ => none

/-- The fields of a record by name. An object may hold others, which are left out, but no name of
the record twice. An array holds the fields in order, at least the first `least` of them. -/
def record? (names : List String) (least : Nat) : Document → Option (List (Option Document))
  | array ds =>
    if least ≤ ds.length && ds.length ≤ names.length then
      some (names.mapIdx fun i _ => ds[i]?)
    else none
  | object fs => do
    let fs ← fs.mapM fun (name, d) => (unescape? name).map fun s => (String.ofList s, d)
    names.mapM fun name =>
      match fs.filter (·.1 = name) with
      | [] => some none
      | [(_, d)] => some (some d)
      | _ => none
  | _ => none

/-- The greatest number of nested arrays and objects. -/
def depthLimit : Nat := 127

end Document

end PlanSql
