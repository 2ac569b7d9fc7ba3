import PlanSql.Proofs.ArrayBinding
import PlanSql.Proofs.RecordSequence
import PlanSql.Session

namespace PlanSql

/-- The declared type is the value's own, or it is unknown and the value is text or bytes. -/
def Agrees (declared : ValueType) (v : Value) : Prop :=
  declared = v.type ∨ declared = .unknown ∧ (v.type = .text ∨ v.type = .bytes)

/-- The name of an array type whose items are not read: intervals, arrays, and items without a type
of their own. -/
def ItemsUnread (typeName : String) : Prop :=
  ∃ element, typeName = element ++ "[]" ∧
    ∀ t, ValueType.ofColumnType? element = some t → readsArrayOf t = false

section Column

variable {column typeName : String} {bs : List UInt8} {v : Value}

theorem elementName?_eq_some_iff {element : String} :
    ValueType.elementName? typeName = some element ↔ typeName = element ++ "[]" := by
  rw [ValueType.elementName?, Option.map_eq_some_iff]
  constructor
  · rintro ⟨front, split, rfl⟩
    have letters := congrArg List.reverse (dropHead?_eq_some_iff.mp split)
    rw [List.reverse_reverse, List.reverse_append] at letters
    rw [← String.toList_inj, letters, String.toList_append, String.toList_ofList]
    rfl
  · rintro rfl
    refine ⟨element.toList.reverse, dropHead?_eq_some_iff.mpr ?_, by simp⟩
    rw [String.toList_append, List.reverse_append]
    rfl

theorem elementName?_of_array (h : ValueType.ofColumnType? typeName = some .array) :
    ∃ element, ValueType.elementName? typeName = some element := by
  have scalars : ∀ entry ∈ ValueType.columnTypes, entry.2 ≠ .array := by decide
  rw [ValueType.ofColumnType?] at h
  split at h
  next t own =>
    cases h
    obtain ⟨front, rest, entries, -⟩ := List.lookup_eq_some_iff.mp own
    exact absurd rfl (scalars (typeName, .array) (by simp [entries]))
  next =>
    split at h
    next named => exact Option.isSome_iff_exists.mp named
    next => cases h

theorem itemsUnread_iff :
    ItemsUnread typeName ↔ ValueType.ofColumnType? typeName = some .array ∧
      arrayElement? typeName = none := by
  rw [arrayElement?, Option.filter_eq_none_iff]
  constructor
  · rintro ⟨element, named, unread⟩
    rw [← elementName?_eq_some_iff] at named
    rw [named, Option.bind_some]
    exact ⟨ofColumnType?_of_elementName named, fun t ht => by simp [unread t ht]⟩
  · rintro ⟨array, unread⟩
    obtain ⟨element, named⟩ := elementName?_of_array array
    rw [named, Option.bind_some] at unread
    exact ⟨element, elementName?_eq_some_iff.mp named, fun t ht => by simpa using unread t ht⟩

theorem untypedValue_type (h : untypedValue column typeName bs = .ok v) :
    v.type = .text ∨ v.type = .bytes := by
  rw [untypedValue] at h
  split at h
  next =>
    split at h
    next => cases h; exact .inl rfl
    next => cases h
  next =>
    split at h
    next => cases h; exact .inl rfl
    next => cases h; exact .inr rfl

theorem decoded_eq_ok_iff {found : Option Value} : decoded found = .ok v ↔ found = some v := by
  cases found <;> simp [decoded]

/-- An array whose items are not read gives text or bytes. -/
theorem typedValue_of_itemsUnread (unread : ItemsUnread typeName)
    (h : typedValue column typeName bs = .ok v) :
    columnType typeName = .array ∧ (v.type = .text ∨ v.type = .bytes) := by
  obtain ⟨array, element⟩ := itemsUnread_iff.mp unread
  rw [typedValue, array] at h
  dsimp only at h
  rw [element] at h
  exact ⟨by rw [columnType, array]; rfl, untypedValue_type h⟩

theorem typedValue_agrees (read : ¬ItemsUnread typeName)
    (h : typedValue column typeName bs = .ok v) : Agrees (columnType typeName) v := by
  cases own : ValueType.ofColumnType? typeName with
  | none =>
    rw [typedValue, own] at h
    exact .inr ⟨by rw [columnType, own]; rfl, untypedValue_type h⟩
  | some t =>
    have declared : columnType typeName = t := by rw [columnType, own]; rfl
    rw [declared]
    cases t with
    | array =>
      cases element : arrayElement? typeName with
      | none => exact absurd (itemsUnread_iff.mpr ⟨own, element⟩) read
      | some t =>
        have value : columnValue column typeName (some bs) = .ok v := h
        obtain ⟨items, rfl, -⟩ := columnValue_itemsOf element value
        exact .inl rfl
    | unknown =>
      rw [typedValue, own] at h
      exact .inr ⟨rfl, untypedValue_type h⟩
    | _ =>
      rw [typedValue, own] at h
      exact .inl (Value.type_of_ofWire? (decoded_eq_ok_iff.mp h)).symm

/-- A value that is read agrees with its declared type just when the column is no array whose items
are not read. -/
theorem columnValue_agrees_iff {cell : Option (List UInt8)}
    (h : columnValue column typeName cell = .ok v) (present : v.isNull = false) :
    Agrees (columnType typeName) v ↔ ¬ItemsUnread typeName := by
  cases cell with
  | none =>
    cases h
    cases present
  | some bs =>
    refine ⟨fun agrees unread => ?_, fun read => typedValue_agrees read h⟩
    obtain ⟨array, other⟩ := typedValue_of_itemsUnread unread h
    rw [Agrees, array] at agrees
    rcases agrees with own | ⟨unknown, -⟩
    · rcases other with type | type <;> rw [type] at own <;> cases own
    · cases unknown

end Column

/-- Each column of a row gives a field of its name, with a type and a value by its own type. -/
theorem field_of_session {ℓ : Type} [Server ℓ] {columns : List (String × Nat)}
    {current : List (Option (List UInt8))} {rest : List (List (Option (List UInt8)))}
    {failure : Option String} {r : Record}
    (h : readRecord (Session ℓ) (SessionRows.received columns current rest failure) = .ok r)
    {i oid : Nat} {column : String} (hc : columns[i]? = some (column, oid)) :
    ∃ f, r.fields[i]? = some f ∧ f.name = column ∧ f.type = columnType (typeName oid) ∧
      columnValue column (typeName oid) current[i]?.join = .ok f.value := by
  have row := readRecord_eq_ok_iff.mp h
  have inside : i < r.fields.length := by
    have length := row.length_eq
    have place := (List.getElem?_eq_some_iff.mp hc).1
    have columns : (RowSource.columns (Session ℓ) (SessionRows.received columns current rest
      failure)).length = columns.length := List.length_map _
    omega
  have hf : r.fields[i]? = some r.fields[i] := List.getElem?_eq_getElem inside
  have header : (RowSource.columns (Session ℓ) (SessionRows.received columns current rest
      failure))[i]? = some ⟨column, columnType (typeName oid)⟩ := by
    change (columns.map _)[i]? = _
    rw [List.getElem?_map, hc]
    rfl
  obtain ⟨name, type, value⟩ := row.field i _ _ hf header
  have cell : Session.cell columns current i = .ok r.fields[i].value := value
  rw [Session.cell, hc] at cell
  exact ⟨_, hf, name, type, cell⟩

/-- A declared type agrees with every value that is read under it, unless it is that of an array
whose items are not read; such a column is declared as an array and gives text or bytes. -/
theorem declared_type_agrees_iff (column t : String) :
    (∀ cell v, columnValue column t cell = .ok v → v.isNull = false →
      (Agrees (columnType t) v ↔ ¬ItemsUnread t) ∧
      (ItemsUnread t → columnType t = .array ∧ (v.type = .text ∨ v.type = .bytes))) ∧
    ∀ (ℓ : Type) [Server ℓ] columns current rest failure (r : Record),
      readRecord (Session ℓ) (SessionRows.received columns current rest failure) = .ok r →
        ∀ (i oid : Nat), columns[i]? = some (column, oid) → typeName oid = t →
          ∃ f : Field, r.fields[i]? = some f ∧ f.name = column ∧ f.type = columnType t ∧
            (f.value.isNull = false → (Agrees f.type f.value ↔ ¬ItemsUnread t)) := by
  refine ⟨fun cell v h present => ⟨columnValue_agrees_iff h present, fun unread => ?_⟩,
    fun ℓ _ columns current rest failure r h i oid hc named => ?_⟩
  · cases cell with
    | none =>
      cases h
      cases present
    | some bs => exact typedValue_of_itemsUnread unread h
  · obtain ⟨f, field, name, declared, value⟩ := field_of_session h hc
    rw [named] at declared value
    refine ⟨f, field, name, declared, fun present => ?_⟩
    rw [declared]
    exact columnValue_agrees_iff value present

theorem declared_type_agrees_iff_grades :
    columnValue "grades" "INT4[]" (some gradesPayload) = .ok (.array grades) ∧
      ¬ItemsUnread "INT4[]" ∧ Agrees (columnType "INT4[]") (.array grades) := by
  have element : arrayElement? "INT4[]" = some .int :=
    arrayElement?_arrayColumnType (t := .int) rfl
  have value : columnValue "grades" "INT4[]" (some gradesPayload) = .ok (.array grades) := by
    rw [columnValue_of_element element]
    cbv
  have read : ¬ItemsUnread "INT4[]" := by
    rw [itemsUnread_iff, element]
    simp
  exact ⟨value, read, ((declared_type_agrees_iff _ _).1 _ _ value rfl).1.mpr read⟩

/-- A payload of the column type `INTERVAL[]` with the one item of a day. -/
def oneDaySpans : List UInt8 :=
  [0, 0, 0, 1, 0, 0, 0, 0, 0, 0, 4, 162, 0, 0, 0, 1, 0, 0, 0, 1, 0, 0, 0, 16,
    0, 0, 0, 0, 0, 0, 0, 0, 0, 0, 0, 1, 0, 0, 0, 0]

/-- The column is declared as an array, and its value is no array. -/
theorem intervals_declared_array : columnType "INTERVAL[]" = .array ∧
    columnValue "spans" "INTERVAL[]" (some oneDaySpans) = .ok (.bytes oneDaySpans) ∧
    ¬Agrees (columnType "INTERVAL[]") (.bytes oneDaySpans) := by
  have array : columnType "INTERVAL[]" = .array := by decide +kernel
  refine ⟨array, by cbv, fun agrees => ?_⟩
  rw [array] at agrees
  rcases agrees with own | ⟨unknown, -⟩
  · cases own
  · cases unknown

end PlanSql
