import PlanSql.Proofs.ArrayConversion
import PlanSql.Proofs.FieldLookup
import PlanSql.Proofs.FloatConversion

namespace PlanSql

/-- The number of an integer value of any width. -/
inductive Value.IsInteger : Value → Int → Prop
  | smallInt (n : Int16) : IsInteger (.smallInt n) n.toInt
  | int (n : Int32) : IsInteger (.int n) n.toInt
  | bigInt (n : Int64) : IsInteger (.bigInt n) n.toInt

def Decimal.number (x : Decimal) : ℚ :=
  (if x.negative then -1 else 1) * (x.mantissa / 10 ^ x.scale)

/-- What a value of a type of numbers denotes. -/
def Value.quantity? : Value → Option Quantity
  | .smallInt n => some (.number n.toInt)
  | .int n => some (.number n.toInt)
  | .bigInt n => some (.number n.toInt)
  | .real x => some x.quantity
  | .double x => some x.quantity
  | .numeric x => some (.number x.number)
  | _ => none

theorem Value.IsInteger.unique {v : Value} {m n : Int} (hm : v.IsInteger m)
    (hn : v.IsInteger n) : m = n := by
  cases hm <;> cases hn <;> rfl

namespace Readable

/-- The types of integers, their bits and the numbers of their members. -/
inductive OfIntegers : (α : Type) → [Readable α] → Nat → (α → Int) → Prop
  | i16 : OfIntegers Int16 16 Int16.toInt
  | i32 : OfIntegers Int32 32 Int32.toInt
  | i64 : OfIntegers Int64 64 Int64.toInt

/-- The types of numbers. -/
inductive OfNumbers : (α : Type) → [Readable α] → Prop
  | ofIntegers {α : Type} [Readable α] {bits : Nat} {number : α → Int} :
    OfIntegers α bits number → OfNumbers α
  | single : OfNumbers Single
  | double : OfNumbers Double
  | decimal : OfNumbers Decimal

/-- The types that take no null: all but those of values themselves and of optional ones. -/
inductive TakesNoNull : (α : Type) → [Readable α] → Prop
  | ofNumbers {α : Type} [Readable α] : OfNumbers α → TakesNoNull α
  | bool : TakesNoNull Bool
  | string : TakesNoNull String
  | uuid : TakesNoNull Uuid
  | timestamp : TakesNoNull Timestamp
  | instant : TakesNoNull Instant
  | date : TakesNoNull Date
  | clock : TakesNoNull Clock
  | interval : TakesNoNull Interval
  | bytes : TakesNoNull (List UInt8)
  | json : TakesNoNull Json
  | list {α : Type} [Readable α] : TakesNoNull (List α)

/-- A type of integers takes the values whose number is in its range, with that number. -/
structure KeepsIntegers (α : Type) [Readable α] (bits : Nat) (number : α → Int) : Prop where
  ofValue?_eq_some_iff (v : Value) (a : α) : ofValue? v = some a ↔ v.IsInteger (number a)
  exists_iff (v : Value) : (∃ a : α, ofValue? v = some a) ↔
    ∃ n, v.IsInteger n ∧ -2 ^ (bits - 1) ≤ n ∧ n < 2 ^ (bits - 1)
  toValue_isInteger (a : α) : (toValue a).IsInteger (number a)

section Integers

variable {α β : Type} [Readable α] [Readable β] {bits wider : Nat} {number : α → Int}
  {numberβ : β → Int} {v : Value} {a : α} {n : Int}

theorem integer?_eq_some_iff : integer? v = some n ↔ v.IsInteger n := by
  constructor
  · intro h
    cases v <;> cases h <;> constructor
  · rintro (_ | _ | _) <;> rfl

/-- A type whose members are the numbers of a range. -/
theorem keepsIntegers_of_range
    (reads : ∀ v (a : α), ofValue? v = some a ↔ integer? v = some (number a))
    (range : ∀ n, (∃ a, number a = n) ↔ -2 ^ (bits - 1) ≤ n ∧ n < 2 ^ (bits - 1))
    (back : ∀ a : α, (toValue a).IsInteger (number a)) : KeepsIntegers α bits number where
  ofValue?_eq_some_iff v a := by rw [reads, integer?_eq_some_iff]
  exists_iff v := by
    constructor
    · rintro ⟨a, read⟩
      exact ⟨number a, integer?_eq_some_iff.mp ((reads v a).mp read), (range _).mp ⟨a, rfl⟩⟩
    · rintro ⟨n, integer, inside⟩
      obtain ⟨a, rfl⟩ := (range n).mpr inside
      exact ⟨a, (reads v a).mpr (integer?_eq_some_iff.mpr integer)⟩
  toValue_isInteger := back

theorem OfIntegers.keepsIntegers (h : OfIntegers α bits number) : KeepsIntegers α bits number := by
  cases h with
  | i16 =>
    refine keepsIntegers_of_range (fun _ _ => smallInt_eq_some_iff) (fun n => ⟨?_, ?_⟩) .smallInt
    · rintro ⟨a, rfl⟩
      exact ⟨a.le_toInt, a.toInt_lt⟩
    · rintro ⟨low, high⟩
      exact ⟨Int16.ofInt n, Int16.toInt_ofInt_of_le low high⟩
  | i32 =>
    refine keepsIntegers_of_range (fun _ _ => int_eq_some_iff) (fun n => ⟨?_, ?_⟩) .int
    · rintro ⟨a, rfl⟩
      exact ⟨a.le_toInt, a.toInt_lt⟩
    · rintro ⟨low, high⟩
      exact ⟨Int32.ofInt n, Int32.toInt_ofInt_of_le low high⟩
  | i64 =>
    refine keepsIntegers_of_range (fun _ _ => bigInt_eq_some_iff) (fun n => ⟨?_, ?_⟩) .bigInt
    · rintro ⟨a, rfl⟩
      exact ⟨a.le_toInt, a.toInt_lt⟩
    · rintro ⟨low, high⟩
      exact ⟨Int64.ofInt n, Int64.toInt_ofInt_of_le low high⟩

/-- What a narrow type takes is taken with the same number by every wider one. -/
theorem OfIntegers.widen (h : OfIntegers α bits number) (hβ : OfIntegers β wider numberβ)
    (le : bits ≤ wider) (read : ofValue? v = some a) :
    ∃ b : β, ofValue? v = some b ∧ numberβ b = number a := by
  have integer := (h.keepsIntegers.ofValue?_eq_some_iff v a).mp read
  obtain ⟨n, own, low, high⟩ := (h.keepsIntegers.exists_iff v).mp ⟨a, read⟩
  have grow : (2 : Int) ^ (bits - 1) ≤ 2 ^ (wider - 1) :=
    pow_le_pow_right₀ (by decide) (Nat.sub_le_sub_right le 1)
  obtain ⟨b, found⟩ := (hβ.keepsIntegers.exists_iff v).mpr ⟨n, own, by omega, by omega⟩
  exact ⟨b, found, ((hβ.keepsIntegers.ofValue?_eq_some_iff v b).mp found).unique integer⟩

theorem OfIntegers.decimal (h : OfIntegers α bits number) (read : ofValue? v = some a) :
    ∃ x : Decimal, ofValue? v = some x ∧ x.IsWhole (number a) := by
  have integer := (h.keepsIntegers.ofValue?_eq_some_iff v a).mp read
  rw [← integer?_eq_some_iff] at integer
  have whole : Decimal.IsWhole ⟨decide (number a < 0), (number a).natAbs, 0,
    natAbs_lt_of_integer integer, Decimal.pow_excess_dvd (Nat.zero_le _) _⟩ (number a) :=
      ⟨rfl, rfl, rfl⟩
  exact ⟨_, decimal_eq_some_iff.mpr (.inr ⟨_, integer, whole⟩), whole⟩

end Integers

section Numbers

variable {α : Type} [Readable α] {v : Value} {a : α}

theorem quantity?_of_isInteger {n : Int} (h : v.IsInteger n) :
    v.quantity? = some (.number n) := by
  cases h <;> rfl

theorem number_of_isWhole {x : Decimal} {n : Int} (h : x.IsWhole n) : x.number = n := by
  obtain ⟨negative, mantissa, scale⟩ := h
  have value := sign_mul_natAbs n
  rw [Decimal.number, negative, mantissa, scale]
  simpa using value

/-- A number is what it was before, as an integer of another width, a float or a decimal. -/
theorem OfNumbers.quantity?_toValue (h : OfNumbers α) (read : ofValue? v = some a) :
    (toValue a).quantity? = v.quantity? ∧ ∃ q, v.quantity? = some q := by
  cases h with
  | ofIntegers integers =>
    have keeps := integers.keepsIntegers
    have before := quantity?_of_isInteger ((keeps.ofValue?_eq_some_iff v a).mp read)
    have after := quantity?_of_isInteger (keeps.toValue_isInteger a)
    exact ⟨after.trans before.symm, _, before⟩
  | single =>
    cases v with
    | real x =>
      cases read
      exact ⟨rfl, _, rfl⟩
    | smallInt n =>
      cases read
      have low := n.le_toInt
      have high := n.toInt_lt
      exact ⟨congrArg some (Binary.single_quantity_ofInt (by omega)), _, rfl⟩
    | _ => cases read
  | double =>
    cases v with
    | real x =>
      cases read
      exact ⟨congrArg some (Binary.single_quantity_convert x), _, rfl⟩
    | double x =>
      cases read
      exact ⟨rfl, _, rfl⟩
    | smallInt n =>
      cases read
      have low := n.le_toInt
      have high := n.toInt_lt
      exact ⟨congrArg some (Binary.double_quantity_ofInt (by omega)), _, rfl⟩
    | int n =>
      cases read
      have low := n.le_toInt
      have high := n.toInt_lt
      exact ⟨congrArg some (Binary.double_quantity_ofInt (by omega)), _, rfl⟩
    | _ => cases read
  | decimal =>
    rcases decimal_eq_some_iff.mp read with rfl | ⟨n, integer, whole⟩
    · exact ⟨rfl, _, rfl⟩
    · have before := quantity?_of_isInteger (integer?_eq_some_iff.mp integer)
      exact ⟨by rw [before, ← number_of_isWhole whole]; rfl, _, before⟩

end Numbers

section Lists

variable {α : Type} [Readable α] {v : Value} {items : List Value}

theorem option_of_ne_null (h : v ≠ .null) :
    (ofValue? v : Option (Option α)) = (ofValue? v : Option α).map some := by
  cases v with
  | null => exact absurd rfl h
  | _ => rfl

theorem option_eq_some_none_iff : (ofValue? v : Option (Option α)) = some none ↔ v = .null := by
  refine ⟨fun h => ?_, by rintro rfl; rfl⟩
  by_contra other
  rw [option_of_ne_null other, Option.map_eq_some_iff] at h
  obtain ⟨_, -, absent⟩ := h
  cases absent

theorem exists_option_iff :
    (∃ a : Option α, ofValue? v = some a) ↔ v = .null ∨ ∃ a : α, ofValue? v = some a := by
  by_cases null : v = .null
  · rw [null]
    exact ⟨fun _ => .inl rfl, fun _ => ⟨none, rfl⟩⟩
  · rw [option_of_ne_null null]
    simp [null]

theorem list_eq_some_iff {as : List α} : ofValue? v = some as ↔
    ∃ items, v = .array items ∧ List.Forall₂ (fun item a => ofValue? item = some a) items as := by
  constructor
  · intro h
    cases v with
    | array items => exact ⟨items, rfl, mapM_eq_some_iff.mp h⟩
    | _ => cases h
  · rintro ⟨items, rfl, each⟩
    exact mapM_eq_some_iff.mpr each

theorem exists_list_iff : (∃ as : List α, ofValue? v = some as) ↔
    ∃ items, v = .array items ∧ ∀ item ∈ items, ∃ a : α, ofValue? item = some a := by
  constructor
  · rintro ⟨as, read⟩
    obtain ⟨items, rfl, each⟩ := list_eq_some_iff.mp read
    exact ⟨items, rfl, exists_mapM_iff.mp ⟨as, mapM_eq_some_iff.mpr each⟩⟩
  · rintro ⟨items, rfl, each⟩
    exact exists_mapM_iff.mpr each

theorem TakesNoNull.ofValue?_null (h : TakesNoNull α) : (ofValue? .null : Option α) = none := by
  cases h with
  | ofNumbers numbers =>
    cases numbers with
    | ofIntegers integers => cases integers <;> rfl
    | _ => rfl
  | _ => rfl

theorem TakesNoNull.list_eq_none (h : TakesNoNull α) (null : .null ∈ items) :
    (ofValue? (.array items) : Option (List α)) = none := by
  rw [Option.eq_none_iff_forall_ne_some]
  intro as read
  obtain ⟨_, ⟨⟩, each⟩ := exists_list_iff.mp ⟨as, read⟩
  obtain ⟨a, found⟩ := each .null null
  rw [h.ofValue?_null] at found
  cases found

theorem exists_optionals_iff : (∃ as : List (Option α), ofValue? (.array items) = some as) ↔
    ∀ item ∈ items, item = .null ∨ ∃ a : α, ofValue? item = some a := by
  simp only [exists_list_iff, exists_option_iff, Value.array.injEq, exists_eq_left']

/-- Nulls stay where they are. -/
theorem optionals_getElem?_iff {as : List (Option α)} (h : ofValue? (.array items) = some as)
    (i : Nat) : as[i]? = some none ↔ items[i]? = some .null := by
  obtain ⟨_, ⟨⟩, each⟩ := list_eq_some_iff.mp h
  have length := each.length_eq
  by_cases inside : i < items.length
  · have inside' : i < as.length := by omega
    have read := each.get inside inside'
    simp only [List.get_eq_getElem] at read
    rw [List.getElem?_eq_getElem inside, List.getElem?_eq_getElem inside', Option.some_inj,
      Option.some_inj, ← option_eq_some_none_iff (α := α), read, Option.some_inj]
  · rw [List.getElem?_eq_none (by omega), List.getElem?_eq_none (by omega)]
    exact ⟨nofun, nofun⟩

end Lists

end Readable

namespace Record

open Readable

/-- What reading a field by its name gives: no field of the name, the field that the name finds with
a value of another type, or its value. -/
inductive Gets (α : Type) [Readable α] (r : Record) (name : String) : Except PlanError α → Prop
  | absent : (∀ f ∈ r.fields, f.name ≠ name ∧ sameName f.name name = false) →
    Gets α r name (.error (.fieldNotFound name))
  | mismatch {i : Nat} {f : Field} : Finds r.names name i → r.fields[i]? = some f →
    (ofValue? f.value : Option α) = none → Gets α r name
      (.error (.typeMismatch f.name (Readable.typeName α)
        (if f.value.isNull then none else some f.type)))
  | value {i : Nat} {f : Field} {a : α} : Finds r.names name i → r.fields[i]? = some f →
    ofValue? f.value = some a → Gets α r name (.ok a)

section Get

variable {α : Type} [Readable α] {r : Record} {name : String} {result : Except PlanError α}

theorem position?_eq_none_iff : r.position? name = none ↔
    ∀ f ∈ r.fields, f.name ≠ name ∧ sameName f.name name = false := by
  rw [position?_eq, Option.or_eq_none_iff, List.findIdx?_eq_none_iff, List.findIdx?_eq_none_iff]
  simp only [names, List.forall_mem_map, beq_eq_false_iff_ne]
  exact forall₂_and.symm

theorem get_of_absent (h : r.position? name = none) :
    r.get α name = .error (.fieldNotFound name) := by
  rw [get, field?, h]
  rfl

theorem get_of_found {i : Nat} {f : Field} (h : r.position? name = some i)
    (hi : r.fields[i]? = some f) :
    r.get α name = convert α f.name f.type f.value := by
  rw [get, field?, h, Option.bind_some, hi]

theorem gets_get : Gets α r name (r.get α name) := by
  cases h : r.position? name with
  | none =>
    rw [get_of_absent h]
    exact .absent (position?_eq_none_iff.mp h)
  | some i =>
    have hi := List.getElem?_eq_getElem (position?_lt h)
    have finds := position?_eq_some_iff.mp h
    rw [get_of_found h hi, convert]
    split
    next read => exact .value finds hi read
    next unread => exact .mismatch finds hi unread

theorem get_eq_iff : r.get α name = result ↔ Gets α r name result := by
  constructor
  · rintro rfl
    exact gets_get
  · intro h
    cases h with
    | absent absent => exact get_of_absent (position?_eq_none_iff.mpr absent)
    | mismatch finds hi unread =>
      rw [get_of_found (position?_eq_some_iff.mpr finds) hi, convert, unread]
    | value finds hi read =>
      rw [get_of_found (position?_eq_some_iff.mpr finds) hi, convert, read]

end Get

end Record

namespace Readable

/-- Typed access changes no number and fails just where it has to. -/
theorem typed_access_exact {α : Type} [Readable α] (v : Value) (items : List Value) (r : Record)
    (name : String) :
    (∀ {β : Type} [Readable β] {bits : Nat} {number : β → Int}, OfIntegers β bits number →
      KeepsIntegers β bits number ∧
      ∀ b : β, ofValue? v = some b →
        (∀ {γ : Type} [Readable γ] {wider : Nat} {numberγ : γ → Int},
          OfIntegers γ wider numberγ → bits ≤ wider →
            ∃ c : γ, ofValue? v = some c ∧ numberγ c = number b) ∧
        ∃ x : Decimal, ofValue? v = some x ∧ x.IsWhole (number b)) ∧
    (OfNumbers α → ∀ a : α, ofValue? v = some a →
      (toValue a).quantity? = v.quantity? ∧ ∃ q, v.quantity? = some q) ∧
    (((ofValue? v : Option (Option α)) = some none ↔ v = .null) ∧
      (v ≠ .null → (ofValue? v : Option (Option α)) = (ofValue? v : Option α).map some)) ∧
    ((∀ as : List α, ofValue? v = some as ↔ ∃ items, v = .array items ∧
        List.Forall₂ (fun item a => ofValue? item = some a) items as) ∧
      ((∃ as : List α, ofValue? v = some as) ↔ ∃ items, v = .array items ∧
        ∀ item ∈ items, ∃ a : α, ofValue? item = some a) ∧
      (TakesNoNull α → Value.null ∈ items → (ofValue? (.array items) : Option (List α)) = none) ∧
      ((∃ as : List (Option α), ofValue? (.array items) = some as) ↔
        ∀ item ∈ items, item = .null ∨ ∃ a : α, ofValue? item = some a) ∧
      ∀ as : List (Option α), ofValue? (.array items) = some as →
        ∀ i : Nat, as[i]? = some none ↔ items[i]? = some Value.null) ∧
    ∀ result, r.get α name = result ↔ Record.Gets α r name result := by
  refine ⟨fun h => ⟨h.keepsIntegers, fun b read => ⟨fun hγ le => h.widen hγ le read,
    h.decimal read⟩⟩, fun h a => h.quantity?_toValue,
    ⟨option_eq_some_none_iff, option_of_ne_null⟩, ⟨fun as => list_eq_some_iff, exists_list_iff,
    TakesNoNull.list_eq_none, exists_optionals_iff, fun as => optionals_getElem?_iff⟩,
    fun result => Record.get_eq_iff⟩

/-- A record with an identifier that is narrower than its type, a name and no boss. -/
def employee : Record :=
  .ofValues [("Id", .bigInt 40000), ("Name", .text "Ada"), ("Boss", .null)]

theorem typed_access_exact_employee :
    (∃ b : Int32, ofValue? (.bigInt 40000) = some b) ∧
    (¬∃ b : Int16, ofValue? (.bigInt 40000) = some b) ∧
    (∃ x : Decimal, ofValue? (.bigInt 40000) = some x ∧ x.IsWhole 40000) ∧
    (toValue (40000 : Int32)).quantity? = some (.number 40000) ∧
    (ofValue? (.array [.null, .smallInt 3]) : Option (List Int32)) = none ∧
    employee.get Int32 "ID" = .ok 40000 ∧
    employee.get Int32 "Name" = .error (.typeMismatch "Name" "i32" (some .text)) ∧
    employee.get Int32 "boss" = .error (.typeMismatch "Boss" "i32" none) ∧
    employee.get Int32 "Manager" = .error (.fieldNotFound "Manager") := by
  have access := fun name => typed_access_exact (α := Int32) (.bigInt 40000) [.null, .smallInt 3]
    employee name
  obtain ⟨integers, numbers, -, ⟨-, -, nulls, -⟩, -⟩ := access "ID"
  have found := fun name => (access name).2.2.2.2
  have read : (ofValue? (.bigInt 40000) : Option Int32) = some 40000 := by decide
  have id : Record.Finds employee.names "ID" 0 :=
    Record.position?_eq_some_iff.mp (by decide +kernel)
  have own : Record.Finds employee.names "Name" 1 :=
    Record.position?_eq_some_iff.mp (by decide +kernel)
  have boss : Record.Finds employee.names "boss" 2 :=
    Record.position?_eq_some_iff.mp (by decide +kernel)
  obtain ⟨-, others⟩ := integers .i32
  obtain ⟨wider, decimal⟩ := others 40000 read
  refine ⟨⟨40000, read⟩, ?_, decimal, ?_, nulls (.ofNumbers (.ofIntegers .i32)) (by simp), ?_, ?_,
    ?_, ?_⟩
  · rw [(integers .i16).1.exists_iff]
    rintro ⟨n, ⟨⟩, low, high⟩
    revert high
    decide
  · exact (numbers (.ofIntegers .i32) 40000 read).1
  · exact (found _ _).mpr (.value id rfl read)
  · exact (found _ _).mpr (.mismatch own rfl rfl)
  · exact (found _ _).mpr (.mismatch boss rfl rfl)
  · exact (found _ _).mpr (.absent (by decide +kernel))

end Readable

end PlanSql
