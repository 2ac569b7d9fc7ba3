import Mathlib
import PlanSql.Binding
import PlanSql.ColumnValue
import PlanSql.Proofs.StoredValue

namespace PlanSql

/-- Every item is null or of the type. -/
def ItemsOf (t : ValueType) (items : List Value) : Prop :=
  ∀ v ∈ items, v.isNull = true ∨ v.type = t

theorem Value.type_of_ofWire? {tagged : Bool} {bs : List UInt8} {t : ValueType} {v : Value}
    (h : Value.ofWire? tagged bs t = some v) : v.type = t := by
  cases t with
  | bool | smallInt | int | bigInt | real | double | numeric | text | uuid | time | interval
  | json =>
    obtain ⟨_, -, rfl⟩ := Option.map_eq_some_iff.mp h
    rfl
  | timestamp | timestampTz | date =>
    obtain ⟨_, -, h⟩ := Option.bind_eq_some_iff.mp h
    obtain ⟨_, -, rfl⟩ := Option.map_eq_some_iff.mp h
    rfl
  | bytes =>
    cases h
    rfl
  | array | unknown => cases h

theorem arrayItems?_itemsOf {read : List UInt8 → Option Value} {t : ValueType}
    (typed : ∀ bs v, read bs = some v → v.type = t) {count : Nat} {bs : List UInt8}
    {items : List Value} (h : arrayItems? read count bs = some items) : ItemsOf t items := by
  induction count generalizing bs items with
  | zero =>
    cases h
    exact List.forall_mem_nil _
  | succ count ih =>
    obtain ⟨⟨item, rest⟩, -, h⟩ := Option.bind_eq_some_iff.mp h
    cases item with
    | none =>
      obtain ⟨v, hv, h⟩ := Option.bind_eq_some_iff.mp h
      obtain ⟨more, hm, h⟩ := Option.bind_eq_some_iff.mp h
      cases hv
      cases h
      exact List.forall_mem_cons.mpr ⟨.inl rfl, ih hm⟩
    | some bytes =>
      obtain ⟨v, hv, h⟩ := Option.bind_eq_some_iff.mp h
      obtain ⟨more, hm, h⟩ := Option.bind_eq_some_iff.mp h
      cases h
      exact List.forall_mem_cons.mpr ⟨.inr (typed bytes v hv), ih hm⟩

theorem arrayOfBytes?_itemsOf {arrayName : String} {t : ValueType} {bs : List UInt8} {v : Value}
    (h : arrayOfBytes? arrayName t bs = some v) : ∃ items, v = .array items ∧ ItemsOf t items := by
  obtain ⟨⟨dimensions, bs₁⟩, -, h⟩ := Option.bind_eq_some_iff.mp h
  dsimp only at h
  split at h
  next =>
    cases h
    exact ⟨[], rfl, List.forall_mem_nil _⟩
  next =>
    split at h
    next => cases h
    next =>
      obtain ⟨⟨_, bs₂⟩, -, h⟩ := Option.bind_eq_some_iff.mp h
      obtain ⟨⟨element, bs₃⟩, -, h⟩ := Option.bind_eq_some_iff.mp h
      obtain ⟨⟨count, bs₄⟩, -, h⟩ := Option.bind_eq_some_iff.mp h
      obtain ⟨⟨lowest, bs₅⟩, -, h⟩ := Option.bind_eq_some_iff.mp h
      dsimp only at h
      split at h
      next => cases h
      next =>
        obtain ⟨items, hi, h⟩ := Option.bind_eq_some_iff.mp h
        cases h
        exact ⟨items, rfl, arrayItems?_itemsOf (fun _ _ => Value.type_of_ofWire?) hi⟩

/-- The name of an array type is none of those that stand for themselves. -/
theorem ofColumnType?_of_elementName {typeName element : String}
    (name : ValueType.elementName? typeName = some element) :
    ValueType.ofColumnType? typeName = some .array := by
  have brackets : ∀ entry ∈ ValueType.columnTypes, ValueType.elementName? entry.1 = none := by
    decide +kernel
  have absent : ValueType.columnTypes.lookup typeName = none := by
    rw [List.lookup_eq_none_iff]
    intro entry he
    rw [bne_iff_ne]
    rintro rfl
    rw [brackets entry he] at name
    cases name
  rw [ValueType.ofColumnType?, absent, name]
  rfl

theorem ofColumnType?_of_element {typeName : String} {t : ValueType}
    (h : arrayElement? typeName = some t) : ValueType.ofColumnType? typeName = some .array := by
  obtain ⟨h, -⟩ := Option.filter_eq_some_iff.mp h
  obtain ⟨element, name, -⟩ := Option.bind_eq_some_iff.mp h
  exact ofColumnType?_of_elementName name

theorem columnValue_of_element {typeName : String} {t : ValueType}
    (element : arrayElement? typeName = some t) (column : String) (bs : List UInt8) :
    columnValue column typeName (some bs) = decoded (arrayOfBytes? typeName t bs) := by
  rw [columnValue, typedValue, ofColumnType?_of_element element]
  dsimp only
  rw [element]

theorem columnValue_itemsOf {typeName : String} {t : ValueType}
    (element : arrayElement? typeName = some t) {column : String} {bs : List UInt8} {v : Value}
    (h : columnValue column typeName (some bs) = .ok v) :
    ∃ items, v = .array items ∧ ItemsOf t items := by
  rw [columnValue_of_element element] at h
  cases read : arrayOfBytes? typeName t bs with
  | none =>
    rw [read] at h
    cases h
  | some w =>
    rw [read] at h
    cases h
    exact arrayOfBytes?_itemsOf read

theorem convertAs_toValue {α : Type} [Readable α] {a : α}
    (shown : (Readable.toValue a).isNull = false)
    (h : Readable.ofValue? (Readable.toValue a) = some a) :
    convertAs α (Readable.toValue a) = some (Readable.toValue a) := by
  have present : (Readable.ofValue? (Readable.toValue a) : Option (Option α)) = some (some a) := by
    cases v : Readable.toValue a with
    | null =>
      rw [v] at shown
      cases shown
    | _ =>
      rw [v] at h
      change (Readable.ofValue? _).map some = _
      rw [h]
      rfl
  rw [convertAs, present]
  rfl

theorem fitting?_of_fits {bits : Nat} {v : Value} {n : Int} (number : Readable.integer? v = some n)
    (fits : fitsSigned bits n = true) : Readable.fitting? bits v = some n := by
  rw [Readable.fitting?, number, Option.filter_some, if_pos fits]

section Integers

variable {v : Value}

/-- An integer of a width that every number of the width fits, and no other one. -/
theorem fitting?_map_eq_some_iff {α : Type} {bits : Nat} {ofInt : Int → α} {toInt : α → Int}
    (fits : ∀ m, fitsSigned bits (toInt m) = true) (back : ∀ m, ofInt (toInt m) = m)
    (same : ∀ n, fitsSigned bits n = true → toInt (ofInt n) = n) {m : α} :
    (Readable.fitting? bits v).map ofInt = some m ↔ Readable.integer? v = some (toInt m) := by
  rw [Option.map_eq_some_iff]
  constructor
  · rintro ⟨n, fitting, rfl⟩
    obtain ⟨number, inside⟩ := Option.filter_eq_some_iff.mp fitting
    rw [number, same n inside]
  · intro number
    exact ⟨toInt m, fitting?_of_fits number (fits m), back m⟩

theorem smallInt_eq_some_iff {m : Int16} :
    (Readable.ofValue? v : Option Int16) = some m ↔ Readable.integer? v = some m.toInt :=
  fitting?_map_eq_some_iff
    (fun m => Bool.and_eq_true_iff.mpr ⟨decide_eq_true m.le_toInt, decide_eq_true m.toInt_lt⟩)
    (fun m => m.ofInt_toInt)
    (fun n h => by
      have range : -2 ^ 15 ≤ n ∧ n < 2 ^ 15 := by simpa [fitsSigned] using h
      exact Int16.toInt_ofInt_of_le range.1 range.2)

theorem int_eq_some_iff {m : Int32} :
    (Readable.ofValue? v : Option Int32) = some m ↔ Readable.integer? v = some m.toInt :=
  fitting?_map_eq_some_iff
    (fun m => Bool.and_eq_true_iff.mpr ⟨decide_eq_true m.le_toInt, decide_eq_true m.toInt_lt⟩)
    (fun m => m.ofInt_toInt)
    (fun n h => by
      have range : -2 ^ 31 ≤ n ∧ n < 2 ^ 31 := by simpa [fitsSigned] using h
      exact Int32.toInt_ofInt_of_le range.1 range.2)

theorem bigInt_eq_some_iff {m : Int64} :
    (Readable.ofValue? v : Option Int64) = some m ↔ Readable.integer? v = some m.toInt :=
  fitting?_map_eq_some_iff
    (fun m => Bool.and_eq_true_iff.mpr ⟨decide_eq_true m.le_toInt, decide_eq_true m.toInt_lt⟩)
    (fun m => m.ofInt_toInt)
    (fun n h => by
      have range : -2 ^ 63 ≤ n ∧ n < 2 ^ 63 := by simpa [fitsSigned] using h
      exact Int64.toInt_ofInt_of_le range.1 range.2)

end Integers

/-- A value of a type that arrays are sent of is kept as one of that type. -/
theorem convert?_of_type {t : ValueType} (sent : t.arrayOid?.isSome) {v : Value}
    (h : v.isNull = true ∨ v.type = t) : t.convert? v = some v := by
  rcases h with null | rfl
  · cases v with
    | null => cases t <;> first | rfl | cases sent
    | _ => cases null
  · cases v with
    | bool | real | double | numeric | text | uuid | timestamp | timestampTz | date | time =>
      exact convertAs_toValue rfl rfl
    | smallInt => exact convertAs_toValue rfl (smallInt_eq_some_iff.mpr rfl)
    | int => exact convertAs_toValue rfl (int_eq_some_iff.mpr rfl)
    | bigInt => exact convertAs_toValue rfl (bigInt_eq_some_iff.mpr rfl)
    | null | interval | bytes | json | array => cases sent

section Items

variable {t : ValueType} {items sent : List Value}

/-- All items are converted to the type of the first one that is not null. -/
theorem bound_of_converted (first : elementType? items = some t)
    (converted : items.mapM t.convert? = some sent) :
    (Value.array items).bound = .typedArray t sent := by
  rw [Value.bound, boundArray, first]
  dsimp only
  rw [converted]

/-- No type shows, or some item does not convert to it. -/
theorem bound_of_unconverted
    (failed : ∀ t, elementType? items = some t → items.mapM t.convert? = none) :
    (Value.array items).bound = .text (Value.array items).plain := by
  rw [Value.bound, boundArray]
  cases first : elementType? items with
  | none => rfl
  | some t =>
    dsimp only
    rw [failed t first]

theorem elementType?_of_null (h : ∀ v ∈ items, v.isNull = true) : elementType? items = none := by
  have unfound : items.find? (fun v => !v.isNull) = none :=
    List.find?_eq_none.mpr fun v hv => by simp [h v hv]
  rw [elementType?, unfound]
  rfl

theorem elementType?_of_some (typed : ItemsOf t items) (h : ∃ v ∈ items, v.isNull = false) :
    elementType? items = some t := by
  obtain ⟨w, hw, shown⟩ := h
  obtain ⟨v, found⟩ := Option.isSome_iff_exists.mp
    (List.find?_isSome (p := fun v => !v.isNull).mpr ⟨w, hw, by simp [shown]⟩)
  have notNull : v.isNull = false := by simpa using List.find?_some found
  have type : v.type = t :=
    (typed v (List.mem_of_find?_eq_some found)).resolve_left (by simp [notNull])
  rw [elementType?, found, Option.map_some, type]

theorem bound_of_null (h : ∀ v ∈ items, v.isNull = true) :
    (Value.array items).bound = .text (Value.array items).plain :=
  bound_of_unconverted fun t first => by simp [elementType?_of_null h] at first

theorem bound_of_sent (typed : ItemsOf t items) (shown : ∃ v ∈ items, v.isNull = false)
    (sent : t.arrayOid?.isSome) : (Value.array items).bound = .typedArray t items :=
  bound_of_converted (elementType?_of_some typed shown)
    (mapM_of_forall₂ (List.forall₂_same.mpr fun v hv => convert?_of_type sent (typed v hv)))

theorem bound_of_unsent (typed : ItemsOf t items) (unsent : t.convert? = fun _ => none)
    (shown : ∃ v ∈ items, v.isNull = false) :
    (Value.array items).bound = .text (Value.array items).plain := by
  refine bound_of_unconverted fun u first => ?_
  obtain rfl : t = u := Option.some.inj ((elementType?_of_some typed shown).symm.trans first)
  cases items with
  | nil => simp at shown
  | cons v rest =>
    rw [List.mapM_cons, unsent]
    rfl

end Items

/-- A column type for the arrays of each type that is read. -/
def arrayColumnType : ValueType → String
  | .bool => "BOOL[]"
  | .smallInt => "INT2[]"
  | .int => "INT4[]"
  | .bigInt => "INT8[]"
  | .real => "FLOAT4[]"
  | .double => "FLOAT8[]"
  | .numeric => "NUMERIC[]"
  | .text => "TEXT[]"
  | .uuid => "UUID[]"
  | .timestamp => "TIMESTAMP[]"
  | .timestampTz => "TIMESTAMPTZ[]"
  | .date => "DATE[]"
  | .time => "TIME[]"
  | .bytes => "BYTEA[]"
  | .json => "JSONB[]"
  | .interval | .array | .unknown => ""

theorem arrayElement?_arrayColumnType {t : ValueType} (readable : readsArrayOf t = true) :
    arrayElement? (arrayColumnType t) = some t := by
  cases t with
  | interval | array | unknown => cases readable
  | _ => decide +kernel

/-- What becomes of an array that a column gives when it is sent back: it stays an array of its
element type just when an item that is not null shows that type, and the type is one that arrays are
sent of. Bytes and JSON are not, though arrays of them are read. -/
theorem read_array_sent_iff {t : ValueType} (readable : readsArrayOf t = true) :
    arrayElement? (arrayColumnType t) = some t ∧
    (∀ typeName column bs v, arrayElement? typeName = some t →
      columnValue column typeName (some bs) = .ok v → ∃ items, v = .array items ∧ ItemsOf t items) ∧
    ∀ items, ItemsOf t items →
      ((Value.array items).bound = .typedArray t items ∧
          t.arrayOid? = some (Value.array items).bound.oid ↔
        (∃ v ∈ items, v.isNull = false) ∧ t ≠ .bytes ∧ t ≠ .json) ∧
      ((Value.array items).bound = .text (Value.array items).plain ↔
        (∀ v ∈ items, v.isNull = true) ∨ t = .bytes ∨ t = .json) := by
  refine ⟨arrayElement?_arrayColumnType readable,
    fun _ _ _ _ element h => columnValue_itemsOf element h, fun items typed => ?_⟩
  by_cases shown : ∃ v ∈ items, v.isNull = false
  · have notAllNull : ¬∀ v ∈ items, v.isNull = true := by
      obtain ⟨v, hv, notNull⟩ := shown
      exact fun null => by simp [null v hv] at notNull
    cases t with
    | interval | array | unknown => cases readable
    | bytes | json =>
      have text := bound_of_unsent typed rfl shown
      simp [text]
    | _ =>
      have sent := bound_of_sent typed shown rfl
      simp [sent, shown, notAllNull, Bound.oid, ValueType.arrayOid?]
  · have null : ∀ v ∈ items, v.isNull = true := by simpa using shown
    have text := bound_of_null null
    refine ⟨⟨fun h => ?_, fun h => absurd h.1 shown⟩, fun _ => .inl null, fun _ => text⟩
    have typed := h.1
    rw [text] at typed
    cases typed

/-- A payload of the column type `INT4[]` with the items 1, null and 3. -/
def gradesPayload : List UInt8 :=
  [0, 0, 0, 1, 0, 0, 0, 1, 0, 0, 0, 23, 0, 0, 0, 3, 0, 0, 0, 1, 0, 0, 0, 4, 0, 0, 0, 1,
    255, 255, 255, 255, 0, 0, 0, 4, 0, 0, 0, 3]

def grades : List Value := [.int 1, .null, .int 3]

theorem read_array_sent_grades : readsArrayOf .int = true ∧ arrayElement? "INT4[]" = some .int ∧
    columnValue "grades" "INT4[]" (some gradesPayload) = .ok (.array grades) ∧
    ItemsOf .int grades ∧ (Value.array grades).bound = .typedArray .int grades ∧
    (Value.array grades).bound.oid = 1007 := by
  have readable : readsArrayOf .int = true := rfl
  obtain ⟨element, read, sent⟩ := read_array_sent_iff readable
  have element : arrayElement? "INT4[]" = some .int := element
  have value : columnValue "grades" "INT4[]" (some gradesPayload) = .ok (.array grades) := by
    rw [columnValue_of_element element]
    cbv
  obtain ⟨items, same, typed⟩ := read _ _ _ _ element value
  cases same
  have typedArray := (sent grades typed).1.mpr
    ⟨⟨.int 1, by simp [grades], rfl⟩, by decide, by decide⟩
  exact ⟨readable, element, value, typed, typedArray.1, (Option.some.inj typedArray.2).symm⟩

/-- A payload of the column type `BYTEA[]` with the one item `01`. -/
def oneByteArray : List UInt8 :=
  [0, 0, 0, 1, 0, 0, 0, 0, 0, 0, 0, 17, 0, 0, 0, 1, 0, 0, 0, 1, 0, 0, 0, 1, 1]

/-- The array is read as one of bytes, and it is sent as its text. -/
theorem oneByteArray_sent_as_text : arrayElement? "BYTEA[]" = some .bytes ∧
    columnValue "data" "BYTEA[]" (some oneByteArray) = .ok (.array [.bytes [1]]) ∧
    (Value.array [.bytes [1]]).bound = .text "\x7b\"\\\\x01\"\x7d".toList ∧
    (Value.array [.bytes [1]]).bound ≠ .typedArray .bytes [.bytes [1]] := by
  have element : arrayElement? "BYTEA[]" = some .bytes :=
    arrayElement?_arrayColumnType (t := .bytes) rfl
  refine ⟨element, ?_, rfl, nofun⟩
  rw [columnValue_of_element element]
  cbv

end PlanSql
