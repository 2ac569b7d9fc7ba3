import PlanSql.Command

namespace PlanSql

namespace Value

/-- The number that a text denotes: whole in the narrower of two widths that holds it, or else
binary. -/
def numberOfWord? (s : List Char) : Option Value :=
  let whole (bits : Nat) : Option Int := (readInteger? s).filter (fitsSigned bits)
  match whole 32 with
  | some n => some (.int (Int32.ofInt n))
  | none => match whole 64 with
    | some n => some (.bigInt (Int64.ofInt n))
    | none => (Binary.read? s).map .double

/-- The value of a typed word: a number, a boolean, null, a UUID, or else text. -/
def ofWord (word : String) : Value :=
  match numberOfWord? word.toList with
  | some v => v
  | none =>
    if word = "true" then .bool true
    else if word = "false" then .bool false
    else if sameName word "null" then .null
    else match Uuid.read? word.toList with
      | some u => .uuid u
      | none => .text word

end Value

namespace Parameter

/-- Reads a parameter at its first equals sign. White space around the name and then leading `@`
signs are left out. -/
def ofAssignment? (s : String) : Option Parameter :=
  let (name, rest) := splitWhile (· != '=') s.toList
  match rest with
  | [] => none
  | _ :: word =>
    some ⟨String.ofList ((trimBlank name).dropWhile (· == '@')), .ofWord (String.ofList word)⟩

end Parameter

end PlanSql
