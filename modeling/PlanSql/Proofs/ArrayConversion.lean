import PlanSql.Proofs.ArrayBinding

namespace PlanSql

/-- The types of the elements of array parameters. -/
def arrayTypes : List ValueType :=
  [.bool, .smallInt, .int, .bigInt, .real, .double, .numeric, .text, .uuid, .timestamp,
    .timestampTz, .date, .time]

/-- A whole number without places after the point. -/
def Decimal.IsWhole (x : Decimal) (n : Int) : Prop :=
  x.negative = decide (n < 0) ∧ x.mantissa = n.natAbs ∧ x.scale = 0

/-- Which values become which elements of a type: integers of any width that fit, floats and
decimals also from integers and narrower floats that they hold exactly, identifiers also from their
text and points in time also without a zone. -/
inductive Converts : ValueType → Value → Value → Prop
  | bool (b : Bool) : Converts .bool (.bool b) (.bool b)
  | smallInt {v : Value} (m : Int16) : Readable.integer? v = some m.toInt →
    Converts .smallInt v (.smallInt m)
  | int {v : Value} (m : Int32) : Readable.integer? v = some m.toInt → Converts .int v (.int m)
  | bigInt {v : Value} (m : Int64) : Readable.integer? v = some m.toInt →
    Converts .bigInt v (.bigInt m)
  | real (x : Single) : Converts .real (.real x) (.real x)
  | realOfSmallInt (n : Int16) : Converts .real (.smallInt n) (.real (.ofInt n.toInt))
  | double (x : Double) : Converts .double (.double x) (.double x)
  | doubleOfReal (x : Single) : Converts .double (.real x) (.double x.convert)
  | doubleOfSmallInt (n : Int16) : Converts .double (.smallInt n) (.double (.ofInt n.toInt))
  | doubleOfInt (n : Int32) : Converts .double (.int n) (.double (.ofInt n.toInt))
  | numeric (x : Decimal) : Converts .numeric (.numeric x) (.numeric x)
  | numericOfInteger {v : Value} {n : Int} {x : Decimal} : Readable.integer? v = some n →
    x.IsWhole n → Converts .numeric v (.numeric x)
  | text (s : String) : Converts .text (.text s) (.text s)
  | uuid (u : Uuid) : Converts .uuid (.uuid u) (.uuid u)
  | uuidOfText {s : String} {u : Uuid} : Uuid.read? s.toList = some u →
    Converts .uuid (.text s) (.uuid u)
  | timestamp (t : Timestamp) : Converts .timestamp (.timestamp t) (.timestamp t)
  | timestampTz (t : Instant) : Converts .timestampTz (.timestampTz t) (.timestampTz t)
  | timestampTzOfTimestamp (t : Timestamp) :
    Converts .timestampTz (.timestamp t) (.timestampTz ⟨t⟩)
  | date (d : Date) : Converts .date (.date d) (.date d)
  | time (t : Clock) : Converts .time (.time t) (.time t)

section Conversion

variable {v w : Value} {t : ValueType} {n : Int}

theorem convertAs_eq_some_iff {α : Type} [Readable α] (notNull : v.isNull = false) :
    convertAs α v = some w ↔
      ∃ a : α, Readable.ofValue? v = some a ∧ Readable.toValue a = w := by
  have present : (Readable.ofValue? v : Option (Option α)) =
      (Readable.ofValue? v : Option α).map some := by
    cases v with
    | null => cases notNull
    | _ => rfl
  rw [convertAs, present, Option.map_map, Option.map_eq_some_iff]
  rfl

theorem natAbs_lt_of_integer (h : Readable.integer? v = some n) : n.natAbs < 2 ^ 96 := by
  cases v with
  | smallInt m =>
    cases h
    have least := m.le_toInt
    have greatest := m.toInt_lt
    omega
  | int m =>
    cases h
    have least := m.le_toInt
    have greatest := m.toInt_lt
    omega
  | bigInt m =>
    cases h
    have least := m.le_toInt
    have greatest := m.toInt_lt
    omega
  | _ => cases h

theorem ofInt?_eq_some_iff {x : Decimal} (bound : n.natAbs < 2 ^ 96) :
    Decimal.ofInt? n = some x ↔ x.IsWhole n := by
  rw [Decimal.ofInt?, Decimal.ofParts?_eq bound (Nat.zero_le _), Option.some_inj]
  constructor
  · rintro rfl
    exact ⟨rfl, rfl, rfl⟩
  · rintro ⟨negative, mantissa, scale⟩
    cases x
    simp_all

theorem decimal_eq_some_iff {x : Decimal} :
    (Readable.ofValue? v : Option Decimal) = some x ↔
      v = .numeric x ∨ ∃ n, Readable.integer? v = some n ∧ x.IsWhole n := by
  have whole (h : (Readable.ofValue? v : Option Decimal) =
      (Readable.integer? v).bind Decimal.ofInt?) (other : v ≠ .numeric x) :
      (Readable.ofValue? v : Option Decimal) = some x ↔
        v = .numeric x ∨ ∃ n, Readable.integer? v = some n ∧ x.IsWhole n := by
    rw [h, Option.bind_eq_some_iff, or_iff_right other]
    constructor
    · rintro ⟨n, number, found⟩
      exact ⟨n, number, (ofInt?_eq_some_iff (natAbs_lt_of_integer number)).mp found⟩
    · rintro ⟨n, number, found⟩
      exact ⟨n, number, (ofInt?_eq_some_iff (natAbs_lt_of_integer number)).mpr found⟩
  cases v with
  | numeric y =>
    have read : (Readable.ofValue? (.numeric y) : Option Decimal) = some y := rfl
    have unread : Readable.integer? (.numeric y) = none := rfl
    simp [read, unread]
  | _ => exact whole rfl nofun

/-- The conversions to the types of arrays, value by value. -/
theorem convert?_eq_some_iff (notNull : v.isNull = false) :
    t.convert? v = some w ↔ Converts t v w := by
  constructor
  · intro h
    cases t with
    | interval | bytes | json | array | unknown => cases h
    | smallInt =>
      obtain ⟨m, read, rfl⟩ := (convertAs_eq_some_iff notNull).mp h
      exact .smallInt m (smallInt_eq_some_iff.mp read)
    | int =>
      obtain ⟨m, read, rfl⟩ := (convertAs_eq_some_iff notNull).mp h
      exact .int m (int_eq_some_iff.mp read)
    | bigInt =>
      obtain ⟨m, read, rfl⟩ := (convertAs_eq_some_iff notNull).mp h
      exact .bigInt m (bigInt_eq_some_iff.mp read)
    | numeric =>
      obtain ⟨x, read, rfl⟩ := (convertAs_eq_some_iff notNull).mp h
      rcases decimal_eq_some_iff.mp read with rfl | ⟨n, number, whole⟩
      · exact .numeric x
      · exact .numericOfInteger number whole
    | uuid =>
      obtain ⟨u, read, rfl⟩ := (convertAs_eq_some_iff notNull).mp h
      cases v with
      | uuid =>
        cases read
        exact .uuid u
      | text s => exact .uuidOfText read
      | _ => cases read
    | _ =>
      -- The other types take a value by its constructor alone.
      obtain ⟨a, read, rfl⟩ := (convertAs_eq_some_iff notNull).mp h
      cases v <;> cases read <;> constructor
  · intro h
    cases h with
    | smallInt m number =>
      exact (convertAs_eq_some_iff notNull).mpr ⟨m, smallInt_eq_some_iff.mpr number, rfl⟩
    | int m number => exact (convertAs_eq_some_iff notNull).mpr ⟨m, int_eq_some_iff.mpr number, rfl⟩
    | bigInt m number =>
      exact (convertAs_eq_some_iff notNull).mpr ⟨m, bigInt_eq_some_iff.mpr number, rfl⟩
    | @numericOfInteger v n x number whole =>
      exact (convertAs_eq_some_iff notNull).mpr
        ⟨x, decimal_eq_some_iff.mpr (.inr ⟨n, number, whole⟩), rfl⟩
    | @uuidOfText s u read => exact (convertAs_eq_some_iff notNull).mpr ⟨u, read, rfl⟩
    | _ => rfl

/-- The number of an integer, or of a decimal without places after the point. -/
def Value.wholeNumber? : Value → Option Int
  | .numeric x =>
    if x.scale = 0 then some (if x.negative then -(x.mantissa : Int) else x.mantissa) else none
  | v => Readable.integer? v

theorem Decimal.IsWhole.wholeNumber {x : Decimal} (h : x.IsWhole n) :
    (Value.numeric x).wholeNumber? = some n := by
  obtain ⟨negative, mantissa, scale⟩ := h
  rw [Value.wholeNumber?, if_pos scale, negative, mantissa, Option.some_inj]
  by_cases below : n < 0
  · rw [if_pos (decide_eq_true below)]
    omega
  · rw [if_neg (by simpa using below)]
    omega

/-- An integer keeps its number in every type of integers and decimals. -/
theorem Converts.wholeNumber (h : Converts t v w) (number : Readable.integer? v = some n)
    (whole : t ≠ .real ∧ t ≠ .double) : w.wholeNumber? = some n := by
  cases h with
  | smallInt m read | int m read | bigInt m read => exact read.symm.trans number
  | numericOfInteger read isWhole =>
    rw [read] at number
    cases number
    exact isWhole.wholeNumber
  | realOfSmallInt => exact absurd rfl whole.1
  | doubleOfSmallInt | doubleOfInt => exact absurd rfl whole.2
  | _ => cases number

theorem Converts.exists_bytes (h : Converts t v w) : ∃ bs, w.wireBytes? = some bs := by
  cases h <;> exact ⟨_, rfl⟩

end Conversion

/-- An array that can be sent as one of a type: after nulls an element of the type shows, and every
later one that is not null converts to it. -/
inductive Convertible (t : ValueType) : List Value → Prop
  | shown {before after : List Value} {v : Value} : t ∈ arrayTypes →
    (∀ u ∈ before, u.isNull = true) → v.isNull = false → v.type = t →
      (∀ u ∈ after, u.isNull = false → ∃ w, Converts t u w) → Convertible t (before ++ v :: after)

/-- What is sent for an element of an array of a type: nothing but nulls for nulls. -/
structure SentAs (t : ValueType) (v w : Value) : Prop where
  isNull_eq : w.isNull = v.isNull
  bytes_eq_none_iff : w.wireBytes? = none ↔ v.isNull = true
  converts : v.isNull = false → Converts t v w
  number : ∀ n, Readable.integer? v = some n → t ≠ .real → t ≠ .double → w.wholeNumber? = some n

section Array

variable {items : List Value} {t : ValueType} {v w : Value}

theorem elementType?_eq_some_iff : elementType? items = some t ↔
    ∃ before v after, items = before ++ v :: after ∧ (∀ u ∈ before, u.isNull = true) ∧
      v.isNull = false ∧ v.type = t := by
  rw [elementType?, Option.map_eq_some_iff]
  constructor
  · rintro ⟨v, found, type⟩
    obtain ⟨notNull, before, after, split, null⟩ := List.find?_eq_some_iff_append.mp found
    exact ⟨before, v, after, split, by simpa using null, by simpa using notNull, type⟩
  · rintro ⟨before, v, after, split, null, notNull, type⟩
    have found := List.find?_eq_some_iff_append (p := fun v => !v.isNull) (b := v) |>.mpr
      ⟨by simp [notNull], before, after, split, by simpa using null⟩
    exact ⟨v, found, type⟩

theorem mapM_eq_some_iff {α β : Type} {f : α → Option β} {xs : List α} {ys : List β} :
    xs.mapM f = some ys ↔ List.Forall₂ (fun x y => f x = some y) xs ys := by
  refine ⟨fun h => ?_, mapM_of_forall₂⟩
  induction xs generalizing ys with
  | nil =>
    cases h
    exact .nil
  | cons x xs ih =>
    rw [List.mapM_cons] at h
    obtain ⟨y, first, h⟩ := Option.bind_eq_some_iff.mp h
    obtain ⟨rest, later, h⟩ := Option.bind_eq_some_iff.mp h
    cases h
    exact .cons first (ih later)

theorem exists_mapM_iff {α β : Type} {f : α → Option β} {xs : List α} :
    (∃ ys, xs.mapM f = some ys) ↔ ∀ x ∈ xs, ∃ y, f x = some y := by
  constructor
  · rintro ⟨ys, h⟩ x hx
    obtain ⟨i, inside, rfl⟩ := List.getElem_of_mem hx
    have entries := mapM_eq_some_iff.mp h
    have length := entries.length_eq
    exact ⟨ys[i], entries.get inside (by omega)⟩
  · intro h
    have read : ∀ x ∈ xs, ∃ y, f (id x) = some y ∧ True :=
      fun x hx => (h x hx).imp fun _ found => ⟨found, trivial⟩
    obtain ⟨ys, found, -⟩ := exists_mapM read
    exact ⟨ys, by rwa [List.map_id] at found⟩

theorem isSome_arrayOid (h : t ∈ arrayTypes) : t.arrayOid?.isSome := by
  revert t
  decide

theorem Converts.type_mem (h : Converts t v w) : t ∈ arrayTypes := by
  cases h <;> decide

theorem sentAs_of_convert (type : t ∈ arrayTypes) (h : t.convert? v = some w) :
    SentAs t v w := by
  cases null : v.isNull with
  | true =>
    have kept := convert?_of_type (isSome_arrayOid type) (.inl null)
    rw [h] at kept
    cases kept
    cases v with
    | null => exact ⟨rfl, ⟨fun _ => rfl, fun _ => rfl⟩, nofun, nofun⟩
    | _ => cases null
  | false =>
    have converts := (convert?_eq_some_iff null).mp h
    obtain ⟨bs, bytes⟩ := converts.exists_bytes
    refine ⟨?_, by simp [bytes, null], fun _ => converts,
      fun n number real double => converts.wholeNumber number ⟨real, double⟩⟩
    rw [null]
    cases w with
    | null => cases bytes
    | _ => rfl

theorem convertible_iff : Convertible t items ↔
    elementType? items = some t ∧ ∃ sent, items.mapM t.convert? = some sent := by
  rw [elementType?_eq_some_iff, exists_mapM_iff]
  constructor
  · rintro ⟨type, null, notNull, own, later⟩
    refine ⟨⟨_, _, _, rfl, null, notNull, own⟩, fun u hu => ?_⟩
    have kept (h : u.isNull = true ∨ u.type = t) : ∃ w, t.convert? u = some w :=
      ⟨u, convert?_of_type (isSome_arrayOid type) h⟩
    rcases List.mem_append.mp hu with hu | hu
    · exact kept (.inl (null u hu))
    rcases List.mem_cons.mp hu with rfl | hu
    · exact kept (.inr own)
    cases absent : u.isNull with
    | true => exact kept (.inl absent)
    | false =>
      obtain ⟨w, converts⟩ := later u hu absent
      exact ⟨w, (convert?_eq_some_iff absent).mpr converts⟩
  · rintro ⟨⟨before, v, after, rfl, null, notNull, own⟩, each⟩
    have converts : ∀ u ∈ before ++ v :: after, u.isNull = false → ∃ w, Converts t u w :=
      fun u hu absent => (each u hu).imp fun w => (convert?_eq_some_iff absent).mp
    obtain ⟨w, shown⟩ := converts v (by simp) notNull
    exact .shown shown.type_mem null notNull own fun u hu => converts u (by simp [hu])

/-- An array is sent as one of the type of its first element that is not null if all others convert
to it, element by element, and as its text if they do not. -/
theorem array_sent_elementwise (items : List Value) :
    (∀ t v w, v.isNull = false → (ValueType.convert? t v = some w ↔ Converts t v w)) ∧
    (∀ t, Convertible t items → ∃ sent, (Value.array items).bound = .typedArray t sent ∧
      t.arrayOid? = some (Value.array items).bound.oid ∧ List.Forall₂ (SentAs t) items sent) ∧
    ((∀ t, ¬Convertible t items) →
      (Value.array items).bound = .text (Value.array items).plain ∧
        (Value.array items).bound.oid = ValueType.text.oid) := by
  refine ⟨fun t v w notNull => convert?_eq_some_iff notNull, fun t h => ?_, fun h => ?_⟩
  · obtain ⟨first, sent, converted⟩ := convertible_iff.mp h
    have type : t ∈ arrayTypes := by
      cases h
      assumption
    have bound := bound_of_converted first converted
    refine ⟨sent, bound, ?_, (mapM_eq_some_iff.mp converted).imp fun v w =>
      sentAs_of_convert type⟩
    obtain ⟨oid, known⟩ := Option.isSome_iff_exists.mp (isSome_arrayOid type)
    rw [bound, Bound.oid, known]
    rfl
  · have text : (Value.array items).bound = .text (Value.array items).plain := by
      refine bound_of_unconverted fun t first => ?_
      rw [Option.eq_none_iff_forall_ne_some]
      exact fun sent converted => h t (convertible_iff.mpr ⟨first, sent, converted⟩)
    exact ⟨text, by rw [text]; rfl⟩

end Array

/-- Integers of all widths behind a null; the first one that is not null is a narrow one. -/
def mixedIntegers : List Value := [.null, .int 7, .smallInt (-3), .null, .bigInt 2147483647]

/-- The last one is too wide for the type of the first. -/
def wideIntegers : List Value := [.int 7, .bigInt 2147483648]

theorem array_sent_elementwise_integers :
    Convertible .int mixedIntegers ∧
    (∃ sent, (Value.array mixedIntegers).bound = .typedArray .int sent ∧
      List.Forall₂ (SentAs .int) mixedIntegers sent) ∧
    (∀ t, ¬Convertible t wideIntegers) ∧
    (Value.array wideIntegers).bound = .text "\x7b7,2147483648\x7d".toList ∧
    (Value.bigInt 2147483648).isNull = false ∧
    ValueType.convert? .int (.bigInt 2147483648) = none := by
  obtain ⟨each, typed, -⟩ := array_sent_elementwise mixedIntegers
  obtain ⟨-, -, text⟩ := array_sent_elementwise wideIntegers
  have convertible : Convertible .int mixedIntegers := by
    have null : ∀ u ∈ [Value.null], u.isNull = true := by simp [Value.isNull]
    have later : ∀ u ∈ [Value.smallInt (-3), .null, .bigInt 2147483647], u.isNull = false →
        ∃ w, Converts .int u w := by
      intro u hu notNull
      simp only [List.mem_cons, List.not_mem_nil, or_false] at hu
      rcases hu with rfl | rfl | rfl
      · exact ⟨_, .int (-3) rfl⟩
      · cases notNull
      · exact ⟨_, .int 2147483647 rfl⟩
    have notNull : (Value.int 7).isNull = false := rfl
    exact .shown (by decide) null notNull rfl later
  have wide (w : Value) : ¬Converts .int (.bigInt 2147483648) w := by
    intro h
    cases h with
    | int m number =>
      have same : (2147483648 : Int) = m.toInt := Option.some.inj number
      have below := m.toInt_lt
      omega
  have mixed : ∀ t, ¬Convertible t wideIntegers := by
    intro t h
    obtain ⟨first, -⟩ := convertible_iff.mp h
    obtain rfl : ValueType.int = t := Option.some.inj first
    obtain ⟨w, converted⟩ := exists_mapM_iff.mp (convertible_iff.mp h).2 (.bigInt 2147483648)
      (by simp [wideIntegers])
    exact wide w ((convert?_eq_some_iff rfl).mp converted)
  obtain ⟨sent, bound, -, elements⟩ := typed .int convertible
  refine ⟨convertible, ⟨sent, bound, elements⟩, mixed, (text mixed).1, rfl, ?_⟩
  rw [Option.eq_none_iff_forall_ne_some]
  intro w converted
  exact wide w ((each .int _ w rfl).mp converted)

end PlanSql
