import Mathlib.Data.String.Basic
import PlanSql.Proofs.FieldLookup

namespace PlanSql

namespace Json

variable {name : String} {j : Json} {fields : List (String × Json)}

def field? : Json → String → Option Json
  | object fields, name => fields.lookup name
  | _, _ => none

theorem lookup_field (other own : String) (i : Json) (fields : List (String × Json)) :
    ((own, i) :: fields).lookup other = if other = own then some i else fields.lookup other := by
  rw [List.lookup_cons]
  by_cases same : other = own
  · rw [if_pos same, beq_iff_eq.mpr same]
  · rw [if_neg same, beq_eq_false_iff_ne.mpr same]

theorem lookup_insert (name other : String) (j : Json) (fields : List (String × Json)) :
    (insert name j fields).lookup other =
      if other = name then some j else fields.lookup other := by
  induction fields with
  | nil => exact lookup_field other name j []
  | cons f fields ih =>
    obtain ⟨own, i⟩ := f
    rw [insert]
    split
    next here =>
      subst here
      by_cases same : other = name <;> simp [lookup_field, same]
    next elsewhere =>
      split
      next => exact lookup_field other name j ((own, i) :: fields)
      next =>
        rw [lookup_field, lookup_field, ih]
        by_cases same : other = own
        · have ne : other ≠ name := fun e => elsewhere (e.symm.trans same)
          rw [if_pos same, if_neg ne, if_pos same]
        · rw [if_neg same, if_neg same]

theorem mem_names_insert {other : String} :
    other ∈ (insert name j fields).map Prod.fst ↔ other = name ∨ other ∈ fields.map Prod.fst := by
  induction fields with
  | nil => simp [insert]
  | cons f fields ih =>
    obtain ⟨own, i⟩ := f
    rw [insert]
    split
    next here => simp [here]
    next =>
      split
      next => simp
      next => simp only [List.map_cons, List.mem_cons, ih, or_left_comm]

theorem insert_sorted (h : (fields.map Prod.fst).Pairwise (· < ·)) :
    ((insert name j fields).map Prod.fst).Pairwise (· < ·) := by
  induction fields with
  | nil => simp [insert]
  | cons f fields ih =>
    obtain ⟨own, i⟩ := f
    obtain ⟨least, rest⟩ := List.pairwise_cons.mp h
    rw [insert]
    split
    next here =>
      subst here
      exact h
    next elsewhere =>
      split
      next less =>
        refine List.pairwise_cons.mpr ⟨fun other mem => ?_, h⟩
        rcases List.mem_cons.mp mem with rfl | mem
        · exact less
        · exact less.trans (least other mem)
      next above =>
        refine List.pairwise_cons.mpr ⟨fun other mem => ?_, ih rest⟩
        rcases mem_names_insert.mp mem with rfl | mem
        · exact lt_of_le_of_ne (not_lt.mp above) (Ne.symm elsewhere)
        · exact least other mem

/-- The fields in the order of their names, of equal names the last one. -/
theorem ofFields_concat (fields : List (String × Json)) (name : String) (j : Json) :
    ∃ entries, ofFields fields = .object entries ∧
      ofFields (fields ++ [(name, j)]) = .object (insert name j entries) :=
  ⟨_, rfl, by rw [ofFields, List.foldl_append]; rfl⟩

theorem exists_entries (fields : List (String × Json)) :
    ∃ entries, ofFields fields = .object entries ∧ (entries.map Prod.fst).Pairwise (· < ·) ∧
      ∀ name, name ∈ entries.map Prod.fst ↔ name ∈ fields.map Prod.fst := by
  induction fields using List.reverseRecOn with
  | nil => exact ⟨[], rfl, .nil, fun _ => Iff.rfl⟩
  | append_singleton fields f ih =>
    obtain ⟨entries, object, sorted, names⟩ := ih
    obtain ⟨_, same, object'⟩ := ofFields_concat fields f.1 f.2
    cases object.symm.trans same
    refine ⟨_, object', insert_sorted sorted, fun name => ?_⟩
    rw [mem_names_insert, names, List.map_append, List.mem_append, or_comm]
    simp

theorem field?_ofFields (fields : List (String × Json)) (name : String) :
    (ofFields fields).field? name =
      (fields.reverse.find? fun f => f.1 == name).map Prod.snd := by
  induction fields using List.reverseRecOn with
  | nil => rfl
  | append_singleton fields f ih =>
    obtain ⟨entries, object, object'⟩ := ofFields_concat fields f.1 f.2
    rw [object] at ih
    rw [object', field?, lookup_insert, List.reverse_concat, List.find?_cons]
    by_cases same : f.1 = name
    · simp [same]
    · rw [if_neg (Ne.symm same), beq_eq_false_iff_ne.mpr same]
      exact ih

end Json

namespace Record

variable {r : Record} {name : String} {f : Field}

/-- The first field of just that name. -/
def firstNamed? (r : Record) (name : String) : Option Field :=
  r.fields.find? fun f => f.name == name

/-- The last field of just that name. -/
def lastNamed? (r : Record) (name : String) : Option Field :=
  r.fields.reverse.find? fun f => f.name == name

/-- The entry of the object is the JSON form of the value that the name finds. -/
def EntryAgrees (r : Record) (name : String) : Prop :=
  ∃ v, r.value name = .ok v ∧ r.toJson.field? name = some v.toJson

theorem exists_firstNamed (h : name ∈ r.names) : ∃ f, r.firstNamed? name = some f := by
  obtain ⟨f, mem, rfl⟩ := List.mem_map.mp h
  exact Option.isSome_iff_exists.mp (List.find?_isSome.mpr ⟨f, mem, by simp⟩)

theorem exists_lastNamed (h : name ∈ r.names) : ∃ f, r.lastNamed? name = some f := by
  obtain ⟨f, mem, rfl⟩ := List.mem_map.mp h
  exact Option.isSome_iff_exists.mp (List.find?_isSome.mpr ⟨f, List.mem_reverse.mpr mem, by simp⟩)

theorem value_of_firstNamed (h : r.firstNamed? name = some f) : r.value name = .ok f.value := by
  obtain ⟨named, i, inside, hi, earlier⟩ := List.find?_eq_some_iff_getElem.mp h
  have named : f.name = name := beq_iff_eq.mp named
  have hi : r.fields[i]? = some f := hi ▸ List.getElem?_eq_getElem inside
  have spelled : r.names[i]? = some name := by rw [names, List.getElem?_map, hi, ← named]; rfl
  refine value_of_position (position?_eq_some_iff.mpr (.spelled spelled fun mem => ?_)) hi
  obtain ⟨j, hj, same⟩ := List.mem_take_iff_getElem.mp mem
  have ne := earlier j (by omega)
  simp [names] at same
  simp [same] at ne

theorem entry_of_lastNamed (h : r.lastNamed? name = some f) :
    r.toJson.field? name = some f.value.toJson := by
  have found : ((r.fields.map fun f => (f.name, f.value.toJson)).reverse.find?
      fun e => e.1 == name) = some (f.name, f.value.toJson) := by
    rw [← List.map_reverse, List.find?_map]
    exact congrArg (Option.map _) h
  rw [toJson, Json.field?_ofFields, found]
  rfl

theorem entryAgrees_iff {first last : Field} (hf : r.firstNamed? name = some first)
    (hl : r.lastNamed? name = some last) :
    r.EntryAgrees name ↔ first.value.toJson = last.value.toJson := by
  rw [EntryAgrees, value_of_firstNamed hf, entry_of_lastNamed hl]
  constructor
  · rintro ⟨v, value, entry⟩
    cases value
    exact (Option.some.inj entry).symm
  · exact fun same => ⟨_, rfl, congrArg some same.symm⟩

/-- A name that does not repeat has one field. -/
theorem eq_of_name (distinct : r.names.Nodup) {g : Field} (hf : f ∈ r.fields) (hg : g ∈ r.fields)
    (same : f.name = g.name) : f = g :=
  List.inj_on_of_nodup_map distinct hf hg same

/-- The object of a record has an entry for each name of a field and no other one. Lookup gives the
first field of a name and the object the last one, so they agree on the name just when these have
the same JSON form, as they do where no name repeats. -/
theorem toJson_agrees_iff (r : Record) :
    (∃ entries, r.toJson = .object entries ∧ (entries.map Prod.fst).Pairwise (· < ·) ∧
      ∀ name, name ∈ entries.map Prod.fst ↔ name ∈ r.names) ∧
    (∀ name ∈ r.names, ∃ first last,
      r.firstNamed? name = some first ∧ r.value name = .ok first.value ∧
      r.lastNamed? name = some last ∧ r.toJson.field? name = some last.value.toJson ∧
      (r.EntryAgrees name ↔ first.value.toJson = last.value.toJson)) ∧
    (r.names.Nodup → ∀ name ∈ r.names, r.EntryAgrees name) := by
  refine ⟨?_, fun name mem => ?_, fun distinct name mem => ?_⟩
  · obtain ⟨entries, object, sorted, names⟩ :=
      Json.exists_entries (r.fields.map fun f => (f.name, f.value.toJson))
    refine ⟨entries, object, sorted, fun name => ?_⟩
    rw [names, List.map_map]
    rfl
  all_goals
    obtain ⟨first, hf⟩ := exists_firstNamed mem
    obtain ⟨last, hl⟩ := exists_lastNamed mem
  · exact ⟨first, last, hf, value_of_firstNamed hf, hl, entry_of_lastNamed hl,
      entryAgrees_iff hf hl⟩
  · have first_name : first.name = name := by simpa using List.find?_some hf
    have last_name : last.name = name := by simpa using List.find?_some hl
    have one := eq_of_name distinct (List.mem_of_find?_eq_some hf)
      (List.mem_reverse.mp (List.mem_of_find?_eq_some hl)) (first_name.trans last_name.symm)
    rw [entryAgrees_iff hf hl, one]

/-- A row of two tables that both have an `Id`. -/
def joinedRow : Record := .ofValues [("Id", .int 1), ("FirstName", .text "Ada"), ("Id", .int 2)]

theorem toJson_agrees_iff_joined :
    "FirstName" ∈ joinedRow.names ∧ joinedRow.EntryAgrees "FirstName" ∧
    "Id" ∈ joinedRow.names ∧ joinedRow.toJson.field? "Id" = some (.number (.integer 2)) ∧
    namesakes.names.Nodup ∧ "NAME" ∈ namesakes.names ∧ namesakes.EntryAgrees "NAME" := by
  obtain ⟨-, named, -⟩ := toJson_agrees_iff joinedRow
  obtain ⟨-, -, distinct⟩ := toJson_agrees_iff namesakes
  have firstName : "FirstName" ∈ joinedRow.names := by decide
  have id : "Id" ∈ joinedRow.names := by decide
  have different : namesakes.names.Nodup := by decide
  have known : "NAME" ∈ namesakes.names := by decide
  obtain ⟨first, last, hf, -, hl, -, agrees⟩ := named "FirstName" firstName
  obtain ⟨-, last', -, -, hl', entry, -⟩ := named "Id" id
  cases hf
  cases hl
  cases hl'
  exact ⟨firstName, agrees.mpr rfl, id, entry, different, known, distinct different "NAME" known⟩

/-- The name finds the first `Id`, and the object holds the second one. -/
theorem joinedRow_entry_disagrees : "Id" ∈ joinedRow.names ∧
    joinedRow.value "Id" = .ok (.int 1) ∧
    joinedRow.toJson.field? "Id" = some (.number (.integer 2)) ∧ ¬joinedRow.EntryAgrees "Id" := by
  have value : joinedRow.value "Id" = .ok (.int 1) := rfl
  have last : joinedRow.lastNamed? "Id" = some ⟨"Id", .int, .int 2⟩ := rfl
  have entry : joinedRow.toJson.field? "Id" = some (.number (.integer 2)) :=
    entry_of_lastNamed last
  refine ⟨by decide, value, entry, ?_⟩
  rintro ⟨v, found, same⟩
  rw [value] at found
  cases found
  rw [entry] at same
  cases same

end Record

end PlanSql
