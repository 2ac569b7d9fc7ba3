import PlanSql.Proofs.MutationText

namespace PlanSql

/-- The names without those that an earlier one equals up to case. -/
def firstNames (names : List String) : List String := names.eraseDupsBy sameName

/-- The value that a name was given last, in any spelling. -/
def lastValue? (history : List (String × Value)) (name : String) : Option Value :=
  (history.reverse.find? fun e => sameName e.1 name).map Prod.snd

theorem firstNames_cons (name : String) (names : List String) : firstNames (name :: names) =
    name :: firstNames (names.filter fun other => !sameName other name) := by
  simp [firstNames, List.eraseDupsBy_cons]

theorem firstNames_concat (names : List String) (name : String) :
    firstNames (names ++ [name]) =
      if foldCase name ∈ names.map foldCase then firstNames names
      else firstNames names ++ [name] := by
  match names with
  | [] => rfl
  | head :: rest =>
    have ih := firstNames_concat (rest.filter fun other => !sameName other head) name
    rw [List.cons_append, firstNames_cons, firstNames_cons, List.filter_append]
    by_cases same : sameName name head = true
    · have known : foldCase name ∈ (head :: rest).map foldCase :=
        List.mem_cons.mpr (.inl (sameName_iff.mp same))
      rw [if_pos known]
      simp [same]
    · have apart : foldCase name ≠ foldCase head := fun e => same (sameName_iff.mpr e)
      have kept : foldCase name ∈ (rest.filter fun other => !sameName other head).map foldCase ↔
          foldCase name ∈ (head :: rest).map foldCase := by
        grind [sameName_iff]
      have last : [name].filter (fun other => !sameName other head) = [name] := by simp [same]
      rw [last, ih]
      by_cases known : foldCase name ∈ (head :: rest).map foldCase
      · rw [if_pos known, if_pos (kept.mpr known)]
      · rw [if_neg known, if_neg fun h => known (kept.mp h), List.cons_append]
termination_by names.length
decreasing_by exact Nat.lt_succ_of_le (List.length_filter_le _ _)

theorem firstNames_foldCase (names : List String) :
    (firstNames names).map foldCase = (names.map foldCase).eraseDups := by
  induction names using List.reverseRecOn with
  | nil => rfl
  | append_singleton names name ih =>
    rw [firstNames_concat, List.map_append, List.map_singleton, eraseDups_concat]
    split
    next => exact ih
    next => rw [List.map_append, ih, List.map_singleton]

theorem firstNames_of_nodup {names : List String} (h : (names.map foldCase).Nodup) :
    firstNames names = names := by
  induction names using List.reverseRecOn with
  | nil => rfl
  | append_singleton names name ih =>
    rw [List.map_append, List.map_singleton] at h
    obtain ⟨first, -, new⟩ := List.nodup_append.mp h
    have absent : foldCase name ∉ names.map foldCase := fun hn => new _ hn _ (by simp) rfl
    rw [firstNames_concat, if_neg absent, ih first]

theorem lastValue?_concat (history : List (String × Value)) (name other : String) (v : Value) :
    lastValue? (history ++ [(name, v)]) other =
      if sameName name other = true then some v else lastValue? history other := by
  rw [lastValue?, List.reverse_concat, List.find?_cons]
  split
  next h => simp [h]
  next h => simp [h, lastValue?]

theorem lastValue?_of_sameName {history : List (String × Value)} {a b : String}
    (same : sameName a b = true) : lastValue? history a = lastValue? history b := by
  have fold := sameName_iff.mp same
  simp [lastValue?, sameName, fold]

namespace Record

/-- The names differ in more than case. -/
def Distinct (r : Record) : Prop := (r.names.map foldCase).Nodup

/-- The names and values of the fields. -/
def entries (r : Record) : List (String × Value) := r.fields.map fun f => (f.name, f.value)

/-- The fields are set in turn. -/
def setAll (r : Record) (sets : List (String × Value)) : Record :=
  sets.foldl (fun r s => r.set s.1 s.2) r

/-- A field for each name of a history at its first appearance, with the last value of that name. -/
structure Holds (r : Record) (history : List (String × Value)) : Prop where
  names : r.names = firstNames (history.map Prod.fst)
  values : ∀ f ∈ r.fields, lastValue? history f.name = some f.value

variable {r : Record} {history sets : List (String × Value)} {name : String} {v : Value}

theorem Distinct.index_eq (h : r.Distinct) {i j : Nat} {f g : Field} (hf : r.fields[i]? = some f)
    (hg : r.fields[j]? = some g) (same : sameName f.name g.name = true) : i = j := by
  have inside : i < (r.names.map foldCase).length := by
    simpa [names] using (List.getElem?_eq_some_iff.mp hf).1
  refine (List.getElem?_inj inside h).mp ?_
  simp [names, hf, hg, sameName_iff.mp same]

/-- Where names differ in more than case, a name in any spelling finds the same field. -/
theorem position?_of_distinct (distinct : r.Distinct) (name : String) :
    r.position? name = r.fields.findIdx? fun f => sameName f.name name := by
  rw [position?]
  cases first : r.fields.findIdx? fun f => f.name == name with
  | none => rfl
  | some i =>
    obtain ⟨hi, found, -⟩ := List.findIdx?_eq_some_iff_getElem.mp first
    have spelled : r.fields[i].name = name := by simpa using found
    refine (List.findIdx?_eq_some_iff_getElem.mpr ⟨hi, ?_, fun j hj same => ?_⟩).symm
    · rw [spelled, sameName_refl]
    · have both : sameName r.fields[j].name r.fields[i].name = true := by rwa [spelled]
      have := distinct.index_eq (List.getElem?_eq_getElem _) (List.getElem?_eq_getElem hi) both
      omega

theorem set_of_absent (h : r.position? name = none) :
    r.set name v = ⟨r.fields ++ [⟨name, v.type, v⟩]⟩ := by
  rw [set, h]

theorem set_of_position {i : Nat} (h : r.position? name = some i) :
    r.set name v = ⟨r.fields.modify i fun f => withValue f v⟩ := by
  rw [set, h]

theorem names_modify (r : Record) (i : Nat) (v : Value) :
    (r.fields.modify i fun f => withValue f v).map Field.name = r.names := by
  refine List.ext_getElem? fun j => ?_
  rw [names, List.getElem?_map, List.getElem?_map, List.getElem?_modify]
  split
  next => cases r.fields[j]? <;> rfl
  next => cases r.fields[j]? <;> rfl

theorem names_prefix_set (r : Record) (name : String) (v : Value) :
    r.names <+: (r.set name v).names := by
  cases h : r.position? name with
  | none =>
    rw [set_of_absent h, names, names, List.map_append]
    exact List.prefix_append _ _
  | some i =>
    rw [set_of_position h]
    exact (names_modify r i v).symm ▸ List.prefix_rfl

theorem Holds.distinct (h : r.Holds history) : r.Distinct := by
  rw [Distinct, h.names, firstNames_foldCase]
  exact eraseDups_nodup _

theorem lastValue?_entries {fields : List Field} (h : (⟨fields⟩ : Record).Distinct) :
    ∀ f ∈ fields, lastValue? (entries ⟨fields⟩) f.name = some f.value := by
  induction fields using List.reverseRecOn with
  | nil => simp
  | append_singleton fields g ih =>
    have split : entries ⟨fields ++ [g]⟩ = entries ⟨fields⟩ ++ [(g.name, g.value)] := by
      simp [entries]
    have folds : ((fields ++ [g]).map (foldCase ∘ Field.name)).Nodup := by
      simpa [Distinct, names] using h
    rw [List.map_append] at folds
    obtain ⟨first, -, new⟩ := List.nodup_append.mp folds
    intro f hf
    rw [split, lastValue?_concat]
    rcases List.mem_append.mp hf with hf | hf
    · have other : ¬sameName g.name f.name = true := fun same =>
        new _ (List.mem_map_of_mem hf) _ (by simp) (sameName_iff.mp same).symm
      rw [if_neg other]
      exact ih (by simpa [Distinct, names] using first) f hf
    · obtain rfl := List.mem_singleton.mp hf
      rw [if_pos (sameName_refl _)]

theorem Distinct.holds (h : r.Distinct) : r.Holds r.entries where
  names := by
    have same : r.entries.map Prod.fst = r.names := by simp [entries, Record.names]
    rw [same, firstNames_of_nodup h]
  values := lastValue?_entries h

theorem Holds.known_iff (h : r.Holds history) :
    foldCase name ∈ (history.map Prod.fst).map foldCase ↔
      ∃ f ∈ r.fields, sameName f.name name = true := by
  rw [← List.mem_eraseDups, ← firstNames_foldCase, ← h.names]
  simp [Record.names, sameName_iff]

theorem Holds.append (h : r.Holds history)
    (absent : ∀ f ∈ r.fields, sameName f.name name = false) :
    (⟨r.fields ++ [⟨name, v.type, v⟩]⟩ : Record).Holds (history ++ [(name, v)]) := by
  refine ⟨?_, fun f hf => ?_⟩
  · have new : ¬∃ f ∈ r.fields, sameName f.name name = true := by simpa using absent
    rw [List.map_append, List.map_singleton, firstNames_concat, if_neg (mt h.known_iff.mp new),
      ← h.names]
    simp [Record.names]
  · rw [lastValue?_concat]
    rcases List.mem_append.mp hf with hf | hf
    · have other : ¬sameName name f.name = true := by simp [sameName_comm name, absent f hf]
      rw [if_neg other]
      exact h.values f hf
    · obtain rfl := List.mem_singleton.mp hf
      rw [if_pos (sameName_refl _)]

theorem Holds.modify (h : r.Holds history) {i : Nat} {g : Field} (hg : r.fields[i]? = some g)
    (same : sameName g.name name = true) :
    (⟨r.fields.modify i fun f => withValue f v⟩ : Record).Holds (history ++ [(name, v)]) := by
  refine ⟨?_, fun f hf => ?_⟩
  · have known := h.known_iff.mpr ⟨g, List.mem_of_getElem? hg, same⟩
    rw [List.map_append, List.map_singleton, firstNames_concat, if_pos known, ← h.names]
    exact names_modify r i v
  · obtain ⟨j, hj⟩ := List.mem_iff_getElem?.mp hf
    rw [List.getElem?_modify] at hj
    obtain ⟨old, hold, rfl⟩ := Option.map_eq_some_iff.mp hj
    rw [lastValue?_concat]
    by_cases here : i = j
    · subst here
      obtain rfl : g = old := Option.some.inj (hg.symm.trans hold)
      simp [withValue, sameName_comm name, same]
    · -- Another field has another name, since no two are equal up to case.
      have other : ¬sameName name old.name = true := fun own => here <|
        h.distinct.index_eq hg hold (by
          rw [sameName_iff] at same own ⊢
          exact same.trans own)
      simp only [here, if_false]
      rw [if_neg other]
      exact h.values old (List.mem_of_getElem? hold)

/-- A step adds the name if it is new, and the value that was set is the last one of its name. -/
theorem Holds.set (h : r.Holds history) (name : String) (v : Value) :
    (r.set name v).Holds (history ++ [(name, v)]) := by
  have found := position?_of_distinct h.distinct name
  cases position : r.position? name with
  | none =>
    rw [position, eq_comm, List.findIdx?_eq_none_iff] at found
    rw [set_of_absent position]
    exact h.append found
  | some i =>
    rw [position, eq_comm] at found
    obtain ⟨hi, same, -⟩ := List.findIdx?_eq_some_iff_getElem.mp found
    rw [set_of_position position]
    exact h.modify (List.getElem?_eq_getElem hi) same

/-- The fields after any number of steps are told by all that was set. -/
theorem Holds.setAll (h : r.Holds history) (sets : List (String × Value)) :
    (r.setAll sets).Holds (history ++ sets) := by
  induction sets generalizing r history with
  | nil => simpa [Record.setAll] using h
  | cons s sets ih =>
    have rest := ih (h.set s.1 s.2)
    rwa [List.append_assoc] at rest

theorem names_prefix_setAll (r : Record) (sets : List (String × Value)) :
    r.names <+: (r.setAll sets).names := by
  induction sets generalizing r with
  | nil => exact List.prefix_rfl
  | cons s sets ih => exact (names_prefix_set r s.1 s.2).trans (ih (r.set s.1 s.2))

end Record

/-- A column that an update sets: neither a key nor a rank column. -/
def Settable (name : String) : Prop :=
  sameName name "Id" = false ∧ sameName name "UId" = false ∧
    ¬∃ ds, ds ≠ [] ∧ (∀ c ∈ ds, c.isDigit = true) ∧ name.toList = "row_id".toList ++ ds

theorem settable_iff {name : String} : Settable name ↔
    sameName name "Id" = false ∧ sameName name "UId" = false ∧ isRankColumn name = false := by
  rw [Settable, ← isRankColumn_iff, Bool.not_eq_true]

instance : DecidablePred Settable := fun _ => decidable_of_iff _ settable_iff.symm

/-- A rank column begins with another letter than the key. -/
theorem not_key_of_isRankColumn {name : String} (h : isRankColumn name = true) :
    sameName name "UId" = false := by
  rw [← Bool.not_eq_true, sameName_iff]
  intro same
  obtain ⟨ds, -, -, text⟩ := isRankColumn_iff.mp h
  have letters := congrArg String.toList same
  rw [foldCase, foldCase, String.toList_ofList, String.toList_ofList, text] at letters
  exact absurd (List.cons.inj letters).1 (by decide)

/-- A command that sets columns of the given names and finds its row by a key, with the value of
each in the parameter of its place. -/
structure Command.SetsColumns (c : Command) (table : TableRef) (names : List String) (key : String)
    (value? : String → Option Value) : Prop where
  text : c.text.toList = Mutation.updateWith table names
    ((List.range names.length).map fun i => '@' :: 'P' :: decimalDigits i) key "@UId".toList
  count : c.parameters.length = names.length + 1
  values : ∀ i name, names[i]? = some name → ∃ v, value? name = some v ∧
    c.parameters[i]? = some (Parameter.mk (String.ofList ('P' :: decimalDigits i)) v)
  key : ∃ v, value? "UId" = some v ∧ c.parameters[names.length]? = some (Parameter.mk "UId" v)

namespace Mutation

theorem updateText_setsColumns (table : TableRef) {columns : List (String × Value)}
    {k : String × Value} {value? : String → Option Value}
    (each : ∀ c ∈ columns, value? c.1 = some c.2) (last : value? "UId" = some k.2) :
    (⟨String.ofList (updateText table columns k.1), parameters columns ++ [keyParameter k.2]⟩ :
      Command).SetsColumns table (columns.map Prod.fst) k.1 value? where
  text := by
    have places : (parameters columns).map (fun p => namedParameter p.name) =
        (List.range columns.length).map fun i => '@' :: 'P' :: decimalDigits i := by
      rw [parameters_eq, List.range_eq_range', ← List.zipIdx_map_snd, List.map_map, List.map_map]
      refine List.map_congr_left fun x _ => ?_
      simp [namedParameter, positionName]
    rw [String.toList_ofList, updateText_eq, places, List.length_map]
    rfl
  count := by simp [parameters]
  values := by
    intro i name hi
    rw [List.getElem?_map] at hi
    obtain ⟨c, hc, rfl⟩ := Option.map_eq_some_iff.mp hi
    have inside : i < (parameters columns).length := by
      simpa [parameters] using (List.getElem?_eq_some_iff.mp hc).1
    refine ⟨c.2, each c (List.mem_of_getElem? hc), ?_⟩
    rw [List.getElem?_append_left inside, parameters, List.getElem?_mapIdx, hc]
    rfl
  key := by
    refine ⟨k.2, last, ?_⟩
    have behind : (columns.map Prod.fst).length = (parameters columns).length := by
      simp [parameters]
    rw [behind, List.getElem?_append_right (Nat.le_refl _), Nat.sub_self]
    rfl

theorem ofRecord_values (table : TableRef) (r : Record) :
    (ofRecord table r).values = r.entries.filter fun e => !isRankColumn e.1 := by
  rw [Record.entries, List.filter_map]
  rfl

theorem ofRecord_updated (table : TableRef) (r : Record) :
    (ofRecord table r).updated = r.entries.filter fun e => Settable e.1 := by
  rw [updated, ofRecord_values, List.filter_filter]
  refine List.filter_congr fun e _ => ?_
  simp [settable_iff, isIdentity, isCorrelation, Bool.and_assoc]

/-- A rank column is no key, so that the key of a record is kept. -/
theorem ofRecord_find?_isCorrelation (table : TableRef) (r : Record) :
    (ofRecord table r).values.find? isCorrelation = r.entries.find? isCorrelation := by
  rw [ofRecord_values, List.find?_filter]
  congr 1
  funext e
  cases rank : isRankColumn e.1 with
  | false => simp
  | true => simp [isCorrelation, not_key_of_isRankColumn rank]

end Mutation

namespace Record

variable {r : Record}

theorem names_eq (r : Record) : r.names = r.entries.map Prod.fst := by simp [entries, names]

theorem Holds.entries {history : List (String × Value)} (h : r.Holds history) :
    ∀ e ∈ r.entries, lastValue? history e.1 = some e.2 := by
  intro e he
  obtain ⟨f, hf, rfl⟩ := List.mem_map.mp he
  exact h.values f hf

theorem entry_of_name {name : String} (h : name ∈ r.names) : ∃ v, (name, v) ∈ r.entries := by
  rw [names_eq] at h
  obtain ⟨e, he, rfl⟩ := List.mem_map.mp h
  exact ⟨e.2, he⟩

theorem Distinct.name_eq (h : r.Distinct) {a b : String} (ha : a ∈ r.names) (hb : b ∈ r.names)
    (same : sameName a b = true) : a = b :=
  List.inj_on_of_nodup_map h ha hb (sameName_iff.mp same)

/-- The key of a record keeps its spelling and has its last value. -/
theorem Holds.key {history : List (String × Value)} (h : r.Holds history) {key : String}
    (own : key ∈ r.names) (same : sameName key "UId" = true) :
    ∃ v, r.entries.find? Mutation.isCorrelation = some (key, v) ∧
      lastValue? history "UId" = some v := by
  obtain ⟨w, he⟩ := entry_of_name own
  have keyed : (r.entries.find? Mutation.isCorrelation).isSome :=
    List.find?_isSome.mpr ⟨(key, w), he, same⟩
  obtain ⟨⟨name, v⟩, found⟩ := Option.isSome_iff_exists.mp keyed
  have mem := List.mem_of_find?_eq_some found
  have correlation : sameName name "UId" = true := by
    have := List.find?_some found
    rwa [Mutation.isCorrelation] at this
  have named : name ∈ r.names := by
    rw [names_eq]
    exact List.mem_map.mpr ⟨_, mem, rfl⟩
  have spelled : sameName name key = true := by
    rw [sameName_iff] at correlation same ⊢
    exact correlation.trans same.symm
  have eq : name = key := h.distinct.name_eq named own spelled
  refine ⟨v, eq ▸ found, ?_⟩
  have last : lastValue? history name = some v := h.entries (name, v) mem
  rw [← last]
  exact (lastValue?_of_sameName correlation).symm

/-- The names of the columns that an update sets. -/
def settableNames (r : Record) : List String := r.names.filter fun name => Settable name

theorem ofRecord_updated_names (table : TableRef) (r : Record) :
    (Mutation.ofRecord table r).updated.map Prod.fst = r.settableNames := by
  rw [Mutation.ofRecord_updated, settableNames, names_eq, List.filter_map]
  rfl

/-- Reading, setting and writing back loses nothing that was set. The fields are those of the record
and, after them, the new names in their order; an update sets each of them that is neither a key nor
a rank column to its last value, and finds the row by the last value of the key. -/
theorem update_after_sets (distinct : r.Distinct) {key : String} (own : key ∈ r.names)
    (same : sameName key "UId" = true) (table : TableRef) (sets : List (String × Value)) :
    (r.setAll sets).names = firstNames (r.names ++ sets.map Prod.fst) ∧
    ((r.setAll sets).names.map foldCase).Nodup ∧
    ((∀ name ∈ (r.setAll sets).names, ¬Settable name) →
      (Mutation.ofRecord table (r.setAll sets)).update =
        .error (.emptyUpdate (String.ofList (Mutation.inQuotes table.identifier)))) ∧
    ((∃ name ∈ (r.setAll sets).names, Settable name) →
      ∃ c, (Mutation.ofRecord table (r.setAll sets)).update = .ok c ∧
        c.SetsColumns table (r.setAll sets).settableNames key
          (lastValue? (r.entries ++ sets))) := by
  have holds := distinct.holds.setAll sets
  obtain ⟨v, found, last⟩ := holds.key ((names_prefix_setAll r sets).subset own) same
  have columns := ofRecord_updated_names table (r.setAll sets)
  have update := Mutation.update_of_key
    ((Mutation.ofRecord_find?_isCorrelation table (r.setAll sets)).trans found)
  refine ⟨?_, holds.distinct, fun unsettable => ?_, fun ⟨name, hn, settable⟩ => ?_⟩
  · rw [holds.names, List.map_append, ← names_eq]
  · have nil : (Mutation.ofRecord table (r.setAll sets)).updated = [] := by
      rw [← List.map_eq_nil_iff, columns]
      exact List.filter_eq_nil_iff.mpr fun name hn => by simp [unsettable name hn]
    rw [update, nil]
    rfl
  · have mem : name ∈ (r.setAll sets).settableNames :=
      List.mem_filter.mpr ⟨hn, decide_eq_true settable⟩
    have cons : (Mutation.ofRecord table (r.setAll sets)).updated ≠ [] := by
      intro nil
      rw [nil] at columns
      rw [← columns] at mem
      cases mem
    refine ⟨_, update.trans (if_neg (by simpa using cons)), ?_⟩
    rw [← columns]
    refine Mutation.updateText_setsColumns table (fun c hc => ?_) last
    rw [Mutation.ofRecord_updated] at hc
    exact holds.entries c (List.mem_filter.mp hc).1

/-- An employee as a plan reads it. -/
def readEmployee : Record :=
  .ofValues [("row_id0", .bigInt 1), ("Id", .int 1), ("uid", .int 7), ("Name", .text "Ada"),
    ("Age", .int 40)]

/-- Two spellings of a field, a null that is set anew, and a new key. -/
def employeeSets : List (String × Value) :=
  [("NAME", .text "Bo"), ("Note", .null), ("UID", .int 8), ("name", .text "Cy"),
    ("note", .text "new")]

theorem update_after_sets_respelled : readEmployee.Distinct ∧ "uid" ∈ readEmployee.names ∧
    sameName "uid" "UId" = true ∧
    (readEmployee.setAll employeeSets).names = ["row_id0", "Id", "uid", "Name", "Age", "Note"] ∧
    (∃ name ∈ (readEmployee.setAll employeeSets).names, Settable name) ∧
    ∃ c : Command, c.text = "UPDATE \"Hr.Employee\" SET \"Name\"=@P0,\"Age\"=@P1,\"Note\"=@P2" ++
        " WHERE \"uid\" = @UId RETURNING *" ∧
      c.parameters = [⟨"P0", .text "Cy"⟩, ⟨"P1", .int 40⟩, ⟨"P2", .text "new"⟩, ⟨"UId", .int 8⟩] ∧
      (Mutation.ofRecord ⟨"Hr", "Employee"⟩ (readEmployee.setAll employeeSets)).update = .ok c ∧
      c.SetsColumns ⟨"Hr", "Employee"⟩ ["Name", "Age", "Note"] "uid"
        (lastValue? (readEmployee.entries ++ employeeSets)) := by
  have distinct : readEmployee.Distinct := by
    rw [Distinct]
    decide +kernel
  have own : "uid" ∈ readEmployee.names := by decide +kernel
  have key : sameName "uid" "UId" = true := by decide +kernel
  have names : (readEmployee.setAll employeeSets).names =
      ["row_id0", "Id", "uid", "Name", "Age", "Note"] := by decide +kernel
  have settable : ∃ name ∈ (readEmployee.setAll employeeSets).names, Settable name := by
    rw [names]
    exact ⟨"Age", by simp, by decide +kernel⟩
  obtain ⟨-, -, -, updated⟩ := update_after_sets distinct own key ⟨"Hr", "Employee"⟩ employeeSets
  obtain ⟨c, update, sets⟩ := updated settable
  have columns : (readEmployee.setAll employeeSets).settableNames = ["Name", "Age", "Note"] := by
    decide +kernel
  rw [columns] at sets
  obtain rfl := Except.ok.inj update
  exact ⟨distinct, own, key, names, settable, _, by rfl, by rfl, update, sets⟩

end Record

end PlanSql
