import PlanSql.Command

namespace PlanSql

structure Field where
  name : String
  type : ValueType
  value : Value

/-- An ordered set of fields. -/
structure Record where
  fields : List Field

namespace Record

/-- The fields take the types of their values. -/
def ofValues (vs : List (String × Value)) : Record := ⟨vs.map fun (n, v) => ⟨n, v.type, v⟩⟩

def names (r : Record) : List String := r.fields.map Field.name

/-- The place of the field that a name finds. -/
def position? (r : Record) (name : String) : Option Nat :=
  (r.fields.findIdx? fun f => f.name == name) <|>
    (r.fields.findIdx? fun f => sameName f.name name)

def field? (r : Record) (name : String) : Option Field :=
  (r.position? name).bind fun i => r.fields[i]?

def contains (r : Record) (name : String) : Bool := (r.position? name).isSome

def value (r : Record) (name : String) : Except PlanError Value :=
  match r.field? name with
  | some f => .ok f.value
  | none => .error (.fieldNotFound name)

/-- The field with another value; a null keeps the type. -/
def withValue (f : Field) (v : Value) : Field :=
  ⟨f.name, if v.isNull then f.type else v.type, v⟩

/-- Replaces the value of the field that the name finds, or adds a field at the end. -/
def set (r : Record) (name : String) (v : Value) : Record :=
  match r.position? name with
  | some i => ⟨r.fields.modify i fun f => withValue f v⟩
  | none => ⟨r.fields ++ [⟨name, v.type, v⟩]⟩

/-- An object of the fields' plain values. -/
def toJson (r : Record) : Json := .ofFields (r.fields.map fun f => (f.name, f.value.toJson))

end Record

namespace Field

def document (f : Field) : Document :=
  .record [("name", .ofString f.name), ("value_type", f.type.document),
    ("value", f.value.document)]

def decode? : (depth : Nat) → Document → Option Field
  | 0, _ => none
  | depth + 1, d => do
    match ← d.record? ["name", "value_type", "value"] 3 with
    | [some name, some type, some value] =>
      return ⟨← name.text?, ← ValueType.decode? depth type, ← Value.decode? false depth value⟩
    | _ => none

end Field

namespace Record

def document (r : Record) : Document := .record [("fields", .array (r.fields.map Field.document))]

def decode? : (depth : Nat) → Document → Option Record
  | 0, _ => none
  | depth + 1, d => do
    match ← d.record? ["fields"] 1 with
    | [some fields] => return ⟨← Plan.list? Field.decode? depth (some fields)⟩
    | _ => none

/-- Reads the JSON text of a record. -/
def read? (s : String) : Option Record := (Document.read? s).bind (decode? Document.depthLimit)

end Record

end PlanSql
