import PlanSql.Proofs.FieldHistory

namespace PlanSql

namespace Record

/-- The place of a name in a list: the first that is just the same, or else the first that is the
same up to case. -/
inductive Finds (names : List String) (name : String) : Nat → Prop
  | spelled {i : Nat} : names[i]? = some name → name ∉ names.take i → Finds names name i
  | respelled {i : Nat} {own : String} : name ∉ names → names[i]? = some own →
    sameName own name = true → (∀ earlier ∈ names.take i, sameName earlier name = false) →
      Finds names name i

/-- What setting `name` to `v` makes of a record. -/
structure IsSet (r : Record) (name : String) (v : Value) (after : Record) : Prop where
  value_eq : after.value name = .ok v
  length_eq_iff : after.fields.length = r.fields.length + 1 ↔ r.contains name = false
  added : r.contains name = false → after.fields = r.fields ++ [⟨name, v.type, v⟩]
  replaced : ∀ i f, r.position? name = some i → r.fields[i]? = some f →
    after.fields.length = r.fields.length ∧
      after.fields[i]? = some ⟨f.name, if v.isNull then f.type else v.type, v⟩ ∧
      ∀ j, j ≠ i → after.fields[j]? = r.fields[j]?
  found : ∀ other, r.contains other = true → after.position? other = r.position? other

/-- The value that was set last through a name of the field `i`. -/
def lastThrough? (r : Record) (sets : List (String × Value)) (i : Nat) : Option Value :=
  (sets.reverse.find? fun s => r.position? s.1 == some i).map Prod.snd

variable {r : Record} {name other : String} {v : Value} {i : Nat}

theorem position?_eq (r : Record) (name : String) :
    r.position? name = (r.names.findIdx? fun own => own == name).or
      (r.names.findIdx? fun own => sameName own name) := by
  rw [position?, names, List.findIdx?_map, List.findIdx?_map]
  exact Option.orElse_eq_or ..

theorem findIdx?_eq_some_iff_take {α : Type} {p : α → Bool} {as : List α} {i : Nat} :
    as.findIdx? p = some i ↔ (∃ a, as[i]? = some a ∧ p a = true) ∧
      ∀ a ∈ as.take i, p a = false := by
  rw [List.findIdx?_eq_some_iff_getElem]
  constructor
  · rintro ⟨inside, here, before⟩
    refine ⟨⟨as[i], List.getElem?_eq_getElem inside, here⟩, fun a ha => ?_⟩
    obtain ⟨j, hj, rfl⟩ := List.mem_take_iff_getElem.mp ha
    simpa using before j (by omega)
  · rintro ⟨⟨a, hi, here⟩, before⟩
    obtain ⟨inside, rfl⟩ := List.getElem?_eq_some_iff.mp hi
    refine ⟨inside, here, fun j hj => ?_⟩
    have earlier := before as[j] (List.mem_take_iff_getElem.mpr ⟨j, by omega, rfl⟩)
    simp [earlier]

theorem position?_eq_some_iff : r.position? name = some i ↔ Finds r.names name i := by
  rw [position?_eq, Option.or_eq_some_iff, findIdx?_eq_some_iff_take, findIdx?_eq_some_iff_take,
    List.findIdx?_eq_none_iff]
  constructor
  · rintro (⟨⟨own, hi, same⟩, before⟩ | ⟨absent, ⟨own, hi, same⟩, before⟩)
    · obtain rfl : own = name := by simpa using same
      exact .spelled hi fun earlier => by simpa using before own earlier
    · exact .respelled (fun known => by simpa using absent name known) hi same before
  · rintro (⟨hi, before⟩ | ⟨absent, hi, same, before⟩)
    · refine .inl ⟨⟨name, hi, by simp⟩, fun own earlier => ?_⟩
      rw [beq_eq_false_iff_ne]
      rintro rfl
      exact before earlier
    · refine .inr ⟨fun own known => ?_, ⟨_, hi, same⟩, before⟩
      rw [beq_eq_false_iff_ne]
      rintro rfl
      exact absent known

theorem position?_lt (h : r.position? name = some i) : i < r.fields.length := by
  have inside : ∃ own, r.names[i]? = some own := by
    cases position?_eq_some_iff.mp h with
    | spelled hi _ => exact ⟨_, hi⟩
    | respelled _ hi _ _ => exact ⟨_, hi⟩
  obtain ⟨own, hi⟩ := inside
  simpa [names] using (List.getElem?_eq_some_iff.mp hi).1

theorem value_of_position {f : Field} (h : r.position? name = some i)
    (hi : r.fields[i]? = some f) : r.value name = .ok f.value := by
  rw [value, field?, h, Option.bind_some, hi]

theorem contains_eq_true_iff : r.contains name = true ↔ ∃ i, r.position? name = some i :=
  Option.isSome_iff_exists

theorem contains_eq_false_iff : r.contains name = false ↔ r.position? name = none := by
  simp [contains]

theorem names_set_of_absent (h : r.position? name = none) (v : Value) :
    (r.set name v).names = r.names ++ [name] := by
  rw [set_of_absent h, names, List.map_append]
  rfl

theorem names_set_of_position (h : r.position? name = some i) (v : Value) :
    (r.set name v).names = r.names := by
  rw [set_of_position h]
  exact names_modify r i v

/-- A name finds what it found, or the new field where it found none. -/
theorem position?_set (r : Record) (name other : String) (v : Value) :
    (r.set name v).position? other = (r.position? other).or
      (if r.contains name = false ∧ sameName name other = true then some r.fields.length
        else none) := by
  cases h : r.position? name with
  | some i =>
    have present : r.contains name = true := contains_eq_true_iff.mpr ⟨i, h⟩
    rw [position?_eq, names_set_of_position h, ← position?_eq]
    simp [present]
  | none =>
    have absent : r.contains name = false := contains_eq_false_iff.mpr h
    have length : r.names.length = r.fields.length := by simp [names]
    rw [position?_eq, position?_eq, names_set_of_absent h, List.findIdx?_append,
      List.findIdx?_append, length]
    by_cases spelled : name = other
    · subst spelled
      rw [position?_eq, Option.or_eq_none_iff] at h
      simp [h.1, h.2, absent, sameName_refl]
    · cases r.names.findIdx? fun own => own == other with
      | some k => simp
      | none =>
        cases r.names.findIdx? fun own => sameName own other with
        | some k => simp [spelled]
        | none => by_cases same : sameName name other = true <;> simp [spelled, same, absent]

theorem position?_set_of_found (h : r.position? other = some i) (name : String) (v : Value) :
    (r.set name v).position? other = some i := by
  rw [position?_set, h, Option.some_or]

theorem position?_set_of_absent (h : r.position? name = none) (v : Value) :
    (r.set name v).position? name = some r.fields.length := by
  rw [position?_set, h, Option.none_or, if_pos ⟨contains_eq_false_iff.mpr h, sameName_refl _⟩]

theorem getElem?_set_of_position {f : Field} (h : r.position? name = some i)
    (hi : r.fields[i]? = some f) (v : Value) :
    (r.set name v).fields[i]? = some (withValue f v) := by
  rw [set_of_position h, List.getElem?_modify_eq, hi]
  rfl

theorem getElem?_set_of_ne {j : Nat} (h : r.position? name = some i) (ne : j ≠ i) (v : Value) :
    (r.set name v).fields[j]? = r.fields[j]? := by
  rw [set_of_position h, List.getElem?_modify_ne _ _ (Ne.symm ne)]

theorem set_value (r : Record) (name : String) (v : Value) :
    (r.set name v).value name = .ok v := by
  cases h : r.position? name with
  | some i =>
    have hi := getElem?_set_of_position h (List.getElem?_eq_getElem (position?_lt h)) v
    exact value_of_position (position?_set_of_found h name v) hi
  | none =>
    have hi : (r.set name v).fields[r.fields.length]? = some ⟨name, v.type, v⟩ := by
      rw [set_of_absent h]
      exact List.getElem?_concat_length
    exact value_of_position (position?_set_of_absent h v) hi

theorem isSet_set (r : Record) (name : String) (v : Value) : r.IsSet name v (r.set name v) where
  value_eq := set_value r name v
  length_eq_iff := by
    rw [contains_eq_false_iff]
    cases h : r.position? name with
    | some i => simp [set_of_position h]
    | none => simp [set_of_absent h]
  added absent := by rw [set_of_absent (contains_eq_false_iff.mp absent)]
  replaced i f h hi := by
    refine ⟨?_, getElem?_set_of_position h hi v, fun j ne => getElem?_set_of_ne h ne v⟩
    rw [set_of_position h, List.length_modify]
  found other present := by
    obtain ⟨i, h⟩ := contains_eq_true_iff.mp present
    rw [position?_set_of_found h, h]

theorem setAll_concat (r : Record) (sets : List (String × Value)) (s : String × Value) :
    r.setAll (sets ++ [s]) = (r.setAll sets).set s.1 s.2 := by
  rw [setAll, List.foldl_append]
  rfl

theorem setAll_append (r : Record) (sets later : List (String × Value)) :
    r.setAll (sets ++ later) = (r.setAll sets).setAll later := List.foldl_append

theorem position?_setAll_of_found (h : r.position? other = some i)
    (sets : List (String × Value)) : (r.setAll sets).position? other = some i := by
  induction sets generalizing r with
  | nil => exact h
  | cons s sets ih => exact ih (position?_set_of_found h s.1 s.2)

/-- A name that was set finds a field. -/
theorem exists_position?_setAll {sets : List (String × Value)} {s : String × Value}
    (h : s ∈ sets) : ∃ i, (r.setAll sets).position? s.1 = some i := by
  obtain ⟨before, later, rfl⟩ := List.append_of_mem h
  have own : ∃ i, ((r.setAll before).set s.1 s.2).position? s.1 = some i := by
    rw [position?_set]
    cases known : (r.setAll before).position? s.1 with
    | some i => exact ⟨i, rfl⟩
    | none => exact ⟨_, if_pos ⟨contains_eq_false_iff.mpr known, sameName_refl _⟩⟩
  obtain ⟨i, own⟩ := own
  refine ⟨i, ?_⟩
  rw [setAll_append]
  exact position?_setAll_of_found own later

theorem lastThrough?_concat (r : Record) (sets : List (String × Value)) (s : String × Value)
    (i : Nat) : r.lastThrough? (sets ++ [s]) i =
      if r.position? s.1 = some i then some s.2 else r.lastThrough? sets i := by
  rw [lastThrough?, List.reverse_concat, List.find?_cons]
  split
  next h => simp [show r.position? s.1 = some i by simpa using h]
  next h => simp [show r.position? s.1 ≠ some i by simpa using h, lastThrough?]

/-- Names that were set before find the same fields after a further call. -/
theorem lastThrough?_set (r : Record) (sets : List (String × Value)) (name : String) (v : Value)
    (i : Nat) :
    ((r.setAll sets).set name v).lastThrough? sets i = (r.setAll sets).lastThrough? sets i := by
  rw [lastThrough?, lastThrough?, List.find?_congr]
  intro s hs
  obtain ⟨k, known⟩ := exists_position?_setAll (r := r) (List.mem_reverse.mp hs)
  rw [position?_set_of_found known, known]

theorem value_eq_value {a b : String} (ha : r.position? a = some i) (hb : r.position? b = some i) :
    r.value a = r.value b := by
  have hi := List.getElem?_eq_getElem (position?_lt ha)
  rw [value_of_position ha hi, value_of_position hb hi]

/-- A call changes no value but that of the field which its name finds. -/
theorem value_set_of_ne (h : r.position? other = some i)
    (ne : (r.set name v).position? name ≠ some i) :
    (r.set name v).value other = r.value other := by
  have inside := position?_lt h
  have hi := List.getElem?_eq_getElem inside
  have kept : (r.set name v).fields[i]? = r.fields[i]? := by
    cases known : r.position? name with
    | none => rw [set_of_absent known, List.getElem?_append_left inside]
    | some k =>
      rw [position?_set_of_found known] at ne
      exact getElem?_set_of_ne known (fun same => ne (congrArg some same.symm)) v
  rw [value_of_position h hi, value_of_position (position?_set_of_found h name v) (kept.trans hi)]

/-- A name that finds a field only after a call finds the one that was added. -/
theorem position?_of_set (h : (r.set name v).position? other = some i)
    (ne : (r.set name v).position? name ≠ some i) : r.position? other = some i := by
  cases known : r.position? other with
  | some k => rw [← h, position?_set_of_found known]
  | none =>
    rw [position?_set, known, Option.none_or] at h
    split at h
    next new => exact absurd (position?_set_of_absent (contains_eq_false_iff.mp new.1) v ▸ h) ne
    next => cases h

/-- A field holds the last value that was set through any of its names, or the one it had. -/
theorem value_setAll (sets : List (String × Value))
    (h : (r.setAll sets).position? name = some i) :
    (r.setAll sets).value name =
      ((r.setAll sets).lastThrough? sets i).elim (r.value name) .ok := by
  induction sets using List.reverseRecOn generalizing name with
  | nil => rfl
  | append_singleton sets s ih =>
    rw [setAll_concat] at h ⊢
    rw [lastThrough?_concat, lastThrough?_set]
    by_cases through : ((r.setAll sets).set s.1 s.2).position? s.1 = some i
    · rw [if_pos through, value_eq_value h through, set_value]
      rfl
    · have before := position?_of_set h through
      rw [if_neg through, value_set_of_ne before through]
      exact ih before

/-- A call is an update of the one field that its name finds, by the exact name first, or adds a
field at the end; names keep their fields over any number of calls, and what a name reads is the
last value that was set through any name of its field. -/
theorem set_updates_found_field (r : Record) :
    (∀ name i, r.position? name = some i ↔ Finds r.names name i) ∧
    (∀ name v, r.IsSet name v (r.set name v)) ∧
    ∀ sets, (∀ s ∈ sets, (r.setAll sets).contains s.1 = true) ∧
      (∀ later name, (r.setAll sets).contains name = true →
        (r.setAll (sets ++ later)).position? name = (r.setAll sets).position? name) ∧
      ∀ name i, (r.setAll sets).position? name = some i → (r.setAll sets).value name =
        ((r.setAll sets).lastThrough? sets i).elim (r.value name) .ok := by
  refine ⟨fun _ _ => position?_eq_some_iff, isSet_set r, fun sets => ⟨fun s hs => ?_,
    fun later name present => ?_, fun name i => value_setAll sets⟩⟩
  · exact contains_eq_true_iff.mpr (exists_position?_setAll hs)
  · obtain ⟨i, known⟩ := contains_eq_true_iff.mp present
    rw [setAll_append, position?_setAll_of_found known, known]

/-- Three names that differ in case only. -/
def namesakes : Record :=
  .ofValues [("Name", .text "Ada"), ("name", .text "Bo"), ("NAME", .text "Cy")]

def namesakeSets : List (String × Value) := [("name", .int 1), ("Note", .null), ("nAmE", .int 2)]

theorem set_updates_found_field_namesakes :
    Finds namesakes.names "nAME" 0 ∧ namesakes.contains "Note" = false ∧
    (namesakes.set "Note" .null).fields = namesakes.fields ++ [⟨"Note", .unknown, .null⟩] ∧
    (namesakes.setAll namesakeSets).value "Name" = .ok (.int 2) ∧
    (namesakes.setAll namesakeSets).value "NAME" = namesakes.value "NAME" ∧
    (namesakes.setAll namesakeSets).value "NOTE" = .ok .null := by
  obtain ⟨finds, isSet, runs⟩ := set_updates_found_field namesakes
  have values := (runs namesakeSets).2.2
  have found : namesakes.position? "nAME" = some 0 := by decide +kernel
  have absent : namesakes.contains "Note" = false := by decide +kernel
  have first := values "Name" 0 (by decide +kernel)
  have third := values "NAME" 2 (by decide +kernel)
  have added := values "NOTE" 3 (by decide +kernel)
  have places : (namesakes.setAll namesakeSets).position? "nAmE" = some 0 ∧
      (namesakes.setAll namesakeSets).position? "name" = some 1 ∧
      (namesakes.setAll namesakeSets).position? "Note" = some 3 := by decide +kernel
  refine ⟨(finds _ _).mp found, absent, (isSet "Note" .null).added absent, ?_⟩
  generalize namesakes.setAll namesakeSets = after at first third added places ⊢
  obtain ⟨nAmE, name, note⟩ := places
  simpa [lastThrough?, namesakeSets, nAmE, name, note] using And.intro first (And.intro third added)

end Record

end PlanSql
