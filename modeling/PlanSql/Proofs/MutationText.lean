import PlanSql.Mutation
import PlanSql.Proofs.ConstantText

namespace PlanSql

section Distinct

variable {ps : List Parameter}

theorem findParameter?_of_nodup (distinct : (ps.map fun p => foldCase p.name).Nodup)
    {p : Parameter} (hp : p ∈ ps) : findParameter? ps p.name = some p := by
  induction ps with
  | nil => simp at hp
  | cons q ps ih =>
    obtain ⟨new, rest⟩ := List.nodup_cons.mp distinct
    rcases List.mem_cons.mp hp with rfl | hp
    · simp [findParameter?, sameName_refl]
    · have other : sameName q.name p.name = false := by
        rw [← Bool.not_eq_true, sameName_iff]
        exact fun e => new (List.mem_map.mpr ⟨p, hp, e.symm⟩)
      have found := ih rest hp
      rw [findParameter?] at found ⊢
      rw [List.find?_cons_of_neg (by simp [other]), found]

/-- Parameters of different names that are used in turn bind their values in turn. -/
theorem values_of_nodup (distinct : (ps.map fun p => foldCase p.name).Nodup) :
    Numbered.boundValues ps (ps.map Parameter.name) =
      (ps.map Parameter.value).filter fun v => !v.isNull := by
  have value (p : Parameter) (hp : p ∈ ps) : Numbered.valueOf? ps p.name = some p.value := by
    rw [Numbered.valueOf?, findParameter?_of_nodup distinct hp]
    rfl
  have bound : (ps.map Parameter.name).filter (Numbered.binds ps) =
      (ps.filter fun p => !p.value.isNull).map Parameter.name := by
    rw [List.filter_map]
    congr 1
    refine List.filter_congr fun p hp => ?_
    rw [Function.comp_apply, Numbered.binds, value p hp]
    rfl
  have keys : Numbered.firstUses ps (ps.map Parameter.name) =
      (ps.filter fun p => !p.value.isNull).map fun p => foldCase p.name := by
    rw [Numbered.firstUses, bound, List.map_map]
    exact eraseDups_of_nodup (distinct.sublist (List.filter_sublist.map _))
  rw [Numbered.boundValues, keys, List.filterMap_map, List.filter_map, ← List.filterMap_eq_map]
  refine List.filterMap_congr fun p hp => ?_
  have found := value p (List.mem_filter.mp hp).1
  rw [Numbered.valueOf?] at found
  simpa [Numbered.valueOf?, findParameter?_foldCase] using found

end Distinct

/-- A numbered command that writes each of some values and binds those that are not null, in their
order. -/
structure Numbered.Carries (n : Numbered) (values : List Value) (texts : List (List Char)) :
    Prop where
  refers : List.Forall₂ (Refers n.values) values texts
  bound : n.values = values.filter fun v => !v.isNull

/-- A text with parameters of different names, each once in their order. -/
theorem Spells.numbered_of_nodup {t : ParameterText → List Char} {ps : List Parameter}
    (h : Spells [] [] t (ps.map Parameter.name))
    (distinct : (ps.map fun p => foldCase p.name).Nodup) :
    ∃ n, ∃ write : ParameterText,
      (⟨String.ofList (t namedParameter), ps⟩ : Command).numbered = .ok n ∧ n.sql = t write ∧
      n.Carries (ps.map Parameter.value) (ps.map fun p => write p.name) := by
  have found (p : Parameter) (hp : p ∈ ps) := findParameter?_of_nodup distinct hp
  refine ⟨_, _, h.numbered_eq_ok_iff.mpr ⟨?_, rfl⟩, rfl, ?_, values_of_nodup distinct⟩
  · rintro name hn
    obtain ⟨p, hp, rfl⟩ := List.mem_map.mp hn
    exact ⟨p, found p hp⟩
  · rw [List.forall₂_map_left_iff, List.forall₂_map_right_iff, List.forall₂_same]
    exact fun p hp => refers_writer (List.mem_map.mpr ⟨p, hp, rfl⟩) (found p hp)

namespace Mutation

variable {before after : List Char}

theorem positionName_word (i : Nat) :
    positionName i ≠ "" ∧ ∀ c ∈ (positionName i).toList, isWordChar c = true := by
  unfold positionName
  rw [String.toList_ofList]
  refine ⟨fun e => by simpa using congrArg String.toList e, fun c hc => ?_⟩
  rcases List.mem_cons.mp hc with rfl | hc
  · rfl
  · simp [isWordChar, Char.isAlphanum, isDigit_of_mem_decimalDigits hc]

theorem toLower_of_isDigit {c : Char} (h : c.isDigit = true) : c.toLower = c := by
  refine Char.toLower_eq_of_not_isUpper fun upper => ?_
  have digit : c.val ≤ '9'.val := (by simpa [Char.isDigit] using h : _ ∧ _).2
  have letter : 'A'.val ≤ c.val := (by simpa [Char.isUpper] using upper : _ ∧ _).1
  exact absurd (UInt32.le_trans letter digit) (by decide)

theorem foldCase_positionName (i : Nat) :
    foldCase (positionName i) = String.ofList ('p' :: decimalDigits i) := by
  have digits : (decimalDigits i).map Char.toLower = decimalDigits i := by
    refine (List.map_congr_left fun c hc => ?_).trans (List.map_id _)
    exact toLower_of_isDigit (isDigit_of_mem_decimalDigits hc)
  rw [foldCase, positionName, String.toList_ofList, List.map_cons, digits]
  rfl

/-- The columns of a list with their places. -/
theorem parameters_eq (columns : List (String × Value)) :
    parameters columns = columns.zipIdx.map fun x => ⟨positionName x.2, x.1.2⟩ :=
  List.mapIdx_eq_zipIdx_map

theorem parameters_values (columns : List (String × Value)) :
    (parameters columns).map Parameter.value = columns.map Prod.snd := by
  rw [parameters_eq, List.map_map]
  change columns.zipIdx.map (Prod.snd ∘ Prod.fst) = _
  rw [← List.map_map, List.zipIdx_map_fst]

/-- No two parameters of a mutation share their name. -/
theorem parameters_distinct (columns : List (String × Value)) (v : Value) :
    ((parameters columns ++ [keyParameter v]).map fun p => foldCase p.name).Nodup := by
  have places : (parameters columns).map (fun p => foldCase p.name) =
      (List.range' 0 columns.length).map fun i => String.ofList ('p' :: decimalDigits i) := by
    rw [← List.zipIdx_map_snd, parameters_eq, List.map_map, List.map_map]
    exact List.map_congr_left fun x _ => foldCase_positionName x.2
  have injective : Function.Injective fun i => String.ofList ('p' :: decimalDigits i) := by
    intro i j e
    have digits : decimalDigits i = decimalDigits j := by simpa using congrArg String.toList e
    rw [← readDecimal_decimalDigits i, digits, readDecimal_decimalDigits]
  rw [List.map_append, places]
  refine List.nodup_append.mpr ⟨List.Nodup.map injective List.nodup_range', by simp, ?_⟩
  intro a ha b hb e
  -- The names of places begin with another letter than that of the key.
  obtain ⟨i, -, rfl⟩ := List.mem_map.mp ha
  obtain rfl : b = foldCase correlationColumn := by simpa [keyParameter] using hb
  have letters := congrArg String.toList e
  rw [String.toList_ofList] at letters
  exact absurd (List.cons.inj (letters.trans (show _ = 'u' :: ['i', 'd'] by decide))).1 (by decide)

theorem spells_position (i : Nat) (ha : Ends after) :
    Spells before after (fun write => write (positionName i)) [positionName i] :=
  spells_parameter (positionName_word i).1 (positionName_word i).2 ha.not_word

theorem spells_correlation (ha : Ends after) :
    Spells before after (fun write => write correlationColumn) [correlationColumn] :=
  spells_parameter (by decide) (List.all_eq_true.mp (by decide)) ha.not_word

/-- The parameters of the columns, each once in their order. -/
theorem parameters_names (columns : List (String × Value)) :
    (parameters columns).map Parameter.name =
      columns.zipIdx.flatMap fun x => [positionName x.2] := by
  rw [parameters_eq, List.map_map]
  exact List.map_eq_flatMap

/-- A name in double quotes. -/
def inQuotes (name : List Char) : List Char := '"' :: (name ++ ['"'])

/-- An insertion with the given texts for its values. -/
def insertWith (table : TableRef) (names : List String) (entries : List (List Char)) : List Char :=
  if names.isEmpty then
    "INSERT INTO ".toList ++ (inQuotes table.identifier ++ " DEFAULT VALUES RETURNING *".toList)
  else "INSERT INTO ".toList ++ (inQuotes table.identifier ++ (" (".toList ++
    ([','].intercalate (names.map fun name => inQuotes name.toList) ++ (") VALUES(".toList ++
      ([','].intercalate entries ++ ") RETURNING *".toList)))))

/-- An update with the given texts for its values and for the value of its key. -/
def updateWith (table : TableRef) (names : List String) (entries : List (List Char)) (key : String)
    (entry : List Char) : List Char :=
  "UPDATE ".toList ++ (inQuotes table.identifier ++ (" SET ".toList ++
    ([','].intercalate (List.zipWith (fun name t => inQuotes name.toList ++ '=' :: t) names entries)
      ++ (" WHERE ".toList ++ (inQuotes key.toList ++ (" = ".toList ++
        (entry ++ " RETURNING *".toList)))))))

/-- A deletion with the given text for the value of its key. -/
def deleteWith (table : TableRef) (key : String) (entry : List Char) : List Char :=
  "DELETE FROM ".toList ++ (inQuotes table.identifier ++ (" WHERE ".toList ++
    (inQuotes key.toList ++ ('=' :: (entry ++ " RETURNING *".toList)))))

theorem insertWith_eq (table : TableRef) (names : List String) (entries : List (List Char)) :
    insertWith table names entries =
      if names.isEmpty then
        "INSERT INTO ".toList ++ (table.text ++ " DEFAULT VALUES RETURNING *".toList)
      else "INSERT INTO ".toList ++ (table.text ++ (" (".toList ++
        (joined [','] (names.map fun name => quotedName name.toList) ++ (") VALUES(".toList ++
          (joined [','] entries ++ ") RETURNING *".toList))))) := by
  rw [table.text_eq, joined_eq_intercalate, joined_eq_intercalate]
  rfl

theorem updateWith_eq (table : TableRef) (names : List String) (entries : List (List Char))
    (key : String) (entry : List Char) : updateWith table names entries key entry =
      "UPDATE ".toList ++ (table.text ++ (" SET ".toList ++ (joined [',']
        (List.zipWith (fun name t => quotedName name.toList ++ '=' :: t) names entries) ++
          (" WHERE ".toList ++ (quotedName key.toList ++ (" = ".toList ++
            (entry ++ " RETURNING *".toList))))))) := by
  rw [table.text_eq, joined_eq_intercalate]
  rfl

theorem deleteWith_eq (table : TableRef) (key : String) (entry : List Char) :
    deleteWith table key entry = "DELETE FROM ".toList ++ (table.text ++ (" WHERE ".toList ++
      (quotedName key.toList ++ ('=' :: (entry ++ " RETURNING *".toList))))) := by
  rw [table.text_eq]
  rfl

theorem insertText_eq (table : TableRef) (columns : List (String × Value)) :
    insertText table columns = insertWith table (columns.map Prod.fst)
      ((parameters columns).map fun p => namedParameter p.name) := by
  rw [insertWith_eq]
  unfold insertText
  cases columns with
  | nil => simp
  | cons c rest => simp [Function.comp_def]

theorem assignments_eq (columns : List (String × Value)) (write : ParameterText) :
    List.zipWith (fun name t => quotedName name.toList ++ '=' :: t) (columns.map Prod.fst)
        ((parameters columns).map fun p => write p.name) =
      columns.zipIdx.map fun x => quotedName x.1.1.toList ++ '=' :: write (positionName x.2) := by
  have names : columns.map Prod.fst = columns.zipIdx.map fun x => x.1.1 := by
    change _ = columns.zipIdx.map (Prod.fst ∘ Prod.fst)
    rw [← List.map_map, List.zipIdx_map_fst]
  rw [names, parameters_eq, List.map_map, List.zipWith_map, List.zipWith_self]
  rfl

theorem updateText_eq (table : TableRef) (columns : List (String × Value)) (key : String) :
    updateText table columns key = updateWith table (columns.map Prod.fst)
      ((parameters columns).map fun p => namedParameter p.name) key
      (namedParameter correlationColumn) := by
  have list : assignments columns = List.zipWith (fun name t => quotedName name.toList ++ '=' :: t)
      (columns.map Prod.fst) ((parameters columns).map fun p => namedParameter p.name) :=
    List.mapIdx_eq_zipIdx_map.trans (assignments_eq columns namedParameter).symm
  unfold updateText
  rw [updateWith_eq, list]

variable {table : TableRef} {columns : List (String × Value)}

theorem spells_insert (clean : table.Clean) (names : ∀ c ∈ columns, '"' ∉ c.1.toList) :
    Spells before after (fun write => insertWith table (columns.map Prod.fst)
      ((parameters columns).map fun p => write p.name))
      ((parameters columns).map Parameter.name) := by
  simp only [insertWith_eq]
  refine spells_ite (fun e => ?_) (fun _ => ?_)
  · obtain rfl : columns = [] := by simpa using e
    refine Spells.after_plain ?_ (by decide)
    exact Spells.before_plain (spells_table clean (by simp)) (by decide)
  · have list (before after : List Char) (ha : Ends after) : Spells before after
        (fun _ => joined [','] ((columns.map Prod.fst).map fun name => quotedName name.toList))
        [] := by
      rw [List.map_map]
      exact spells_joined_fixed _ _ (by decide) (by simp [Ends])
        (fun c hc _ _ ha => spells_quotedName (names c hc) (ha.head?_ne (by decide))) ha
    have values (before after : List Char) (ha : Ends after) : Spells before after
        (fun write => joined [','] ((parameters columns).map fun p => write p.name))
        ((parameters columns).map Parameter.name) := by
      rw [parameters_names, parameters_eq]
      simp only [List.map_map]
      exact spells_joined_of_mem
        (fun (x : (String × Value) × Nat) write => write (positionName x.2)) _ _ (by decide)
        (by simp [Ends]) (fun x _ _ _ ha => spells_position x.2 ha) ha
    refine Spells.after_plain ?_ (by decide)
    refine Spells.after_fixed (spells_table clean (by simp)) ?_
    refine Spells.after_plain ?_ (by decide)
    refine Spells.after_fixed (list _ _ (by simp [Ends])) ?_
    refine Spells.after_plain ?_ (by decide)
    exact Spells.before_plain (values _ _ (by simp [Ends])) (by decide)

/-- What follows the name of the key in a condition. -/
theorem spells_key (before : List Char) : Spells before after
    (fun write => write correlationColumn ++ " RETURNING *".toList) [correlationColumn] :=
  Spells.before_plain (spells_correlation (by simp [Ends])) (by decide)

theorem spells_update (clean : table.Clean) (names : ∀ c ∈ columns, '"' ∉ c.1.toList) {key : String}
    (hk : '"' ∉ key.toList) : Spells before after
      (fun write => updateWith table (columns.map Prod.fst)
        ((parameters columns).map fun p => write p.name) key (write correlationColumn))
      ((parameters columns).map Parameter.name ++ [correlationColumn]) := by
  have list (before after : List Char) (ha : Ends after) : Spells before after
      (fun write => joined [','] (columns.zipIdx.map fun x =>
        quotedName x.1.1.toList ++ '=' :: write (positionName x.2)))
      ((parameters columns).map Parameter.name) := by
    rw [parameters_names]
    refine spells_joined_of_mem (fun (x : (String × Value) × Nat) write =>
      quotedName x.1.1.toList ++ '=' :: write (positionName x.2)) _ _ (by decide) (by simp [Ends])
      (fun x hx before after ha => ?_) ha
    have name := names x.1 (List.fst_mem_of_mem_zipIdx hx)
    refine Spells.after_fixed (spells_quotedName name (by simp)) ?_
    exact Spells.after_char (spells_position x.2 ha) (by decide)
  simp only [updateWith_eq, assignments_eq]
  refine Spells.after_plain ?_ (by decide)
  refine Spells.after_fixed (spells_table clean (by simp)) ?_
  refine Spells.after_plain ?_ (by decide)
  refine Spells.append (list _ _ (by simp [Ends])) ?_
  refine Spells.after_plain ?_ (by decide)
  refine Spells.after_fixed (spells_quotedName hk (by simp)) ?_
  exact Spells.after_plain (spells_key _) (by decide)

theorem spells_delete (clean : table.Clean) {key : String} (hk : '"' ∉ key.toList) :
    Spells before after (fun write => deleteWith table key (write correlationColumn))
      [correlationColumn] := by
  simp only [deleteWith_eq]
  refine Spells.after_plain ?_ (by decide)
  refine Spells.after_fixed (spells_table clean (by simp)) ?_
  refine Spells.after_plain ?_ (by decide)
  refine Spells.after_fixed (spells_quotedName hk (by simp)) ?_
  exact Spells.after_char (spells_key _) (by decide)

/-- Names of the table and of the columns without double quotes. -/
def Clean (m : Mutation) : Prop := m.table.Clean ∧ ∀ c ∈ m.values, '"' ∉ c.1.toList

/-- Whether a column is one of the two keys, whatever the case of its letters. -/
def isIdentity (c : String × Value) : Bool := sameName c.1 "Id"

def isCorrelation (c : String × Value) : Bool := sameName c.1 "UId"

/-- The columns that an insertion names. -/
def inserted (m : Mutation) : List (String × Value) := m.values.filter fun c => !isIdentity c

/-- The columns that an update sets. -/
def updated (m : Mutation) : List (String × Value) :=
  m.values.filter fun c => !isIdentity c && !isCorrelation c

variable {m : Mutation}

theorem columnsExcept_identity (m : Mutation) : m.columnsExcept [identityColumn] = m.inserted := by
  refine List.filter_congr fun c _ => ?_
  simp [isIdentity, identityColumn, sameName_comm "Id"]

theorem columnsExcept_keys (m : Mutation) :
    m.columnsExcept [identityColumn, correlationColumn] = m.updated := by
  refine List.filter_congr fun c _ => ?_
  simp [isIdentity, isCorrelation, identityColumn, correlationColumn, sameName_comm "Id",
    sameName_comm "UId"]

theorem key_eq_ok_iff {k : String × Value} :
    m.key = .ok k ↔ m.values.find? isCorrelation = some k := by
  unfold key
  split
  next other found =>
    have found : m.values.find? isCorrelation = some other := found
    rw [found, Except.ok.injEq, Option.some.injEq]
  next absent =>
    have absent : m.values.find? isCorrelation = none := absent
    simp [absent]

theorem key_eq_error_iff : m.key = .error (.fieldNotFound "UId") ↔
    m.values.find? isCorrelation = none := by
  unfold key
  split
  next k found =>
    have found : m.values.find? isCorrelation = some k := found
    simp [found]
  next absent => exact ⟨fun _ => absent, fun _ => rfl⟩

theorem insert_numbered (clean : m.Clean) : ∃ n entries, m.insert.numbered = .ok n ∧
    n.sql = insertWith m.table (m.inserted.map Prod.fst) entries ∧
      n.Carries (m.inserted.map Prod.snd) entries := by
  have names (c : String × Value) (hc : c ∈ m.inserted) : '"' ∉ c.1.toList :=
    clean.2 c (List.mem_filter.mp hc).1
  have distinct : ((parameters m.inserted).map fun p => foldCase p.name).Nodup := by
    have all := parameters_distinct m.inserted .null
    rw [List.map_append] at all
    exact (List.nodup_append.mp all).1
  obtain ⟨n, write, hn, sql, carried⟩ := (spells_insert clean.1 names).numbered_of_nodup distinct
  rw [parameters_values] at carried
  refine ⟨n, _, ?_, sql, carried⟩
  rw [insert, columnsExcept_identity, insertText_eq]
  exact hn

theorem update_of_key {k : String × Value} (hk : m.values.find? isCorrelation = some k) :
    m.update = if m.updated.isEmpty
      then .error (.emptyUpdate (String.ofList (inQuotes m.table.identifier)))
      else .ok ⟨String.ofList (updateText m.table m.updated k.1),
        parameters m.updated ++ [keyParameter k.2]⟩ := by
  have table : m.table.text = inQuotes m.table.identifier := m.table.text_eq
  rw [update, key_eq_ok_iff.mpr hk, ← table]
  change (if (m.columnsExcept [identityColumn, correlationColumn]).isEmpty then _ else _) = _
  rw [columnsExcept_keys]
  rfl

theorem update_numbered (clean : m.Clean) {k : String × Value}
    (hk : m.values.find? isCorrelation = some k) (nonempty : m.updated ≠ []) :
    ∃ c n entries entry, m.update = .ok c ∧ c.numbered = .ok n ∧
      n.sql = updateWith m.table (m.updated.map Prod.fst) entries k.1 entry ∧
        n.Carries (m.updated.map Prod.snd ++ [k.2]) (entries ++ [entry]) := by
  have names (c : String × Value) (hc : c ∈ m.updated) : '"' ∉ c.1.toList :=
    clean.2 c (List.mem_filter.mp hc).1
  have word : '"' ∉ k.1.toList := clean.2 k (List.mem_of_find?_eq_some hk)
  have spelled : Spells [] [] (fun write => updateWith m.table (m.updated.map Prod.fst)
      ((parameters m.updated).map fun p => write p.name) k.1 (write correlationColumn))
      ((parameters m.updated ++ [keyParameter k.2]).map Parameter.name) := by
    rw [List.map_append]
    exact spells_update clean.1 names word
  obtain ⟨n, write, hn, sql, carried⟩ := spelled.numbered_of_nodup (parameters_distinct _ _)
  rw [List.map_append, List.map_append, parameters_values] at carried
  rw [← updateText_eq] at hn
  refine ⟨_, n, _, _, ?_, hn, sql, carried⟩
  rw [update_of_key hk, if_neg (by simpa using nonempty)]

theorem delete_numbered (clean : m.Clean) {k : String × Value}
    (hk : m.values.find? isCorrelation = some k) :
    ∃ c n entry, m.delete = .ok c ∧ c.numbered = .ok n ∧
      n.sql = deleteWith m.table k.1 entry ∧ n.Carries [k.2] [entry] := by
  have word : '"' ∉ k.1.toList := clean.2 k (List.mem_of_find?_eq_some hk)
  have spelled : Spells [] [] (fun write => deleteWith m.table k.1 (write correlationColumn))
      ([keyParameter k.2].map Parameter.name) := spells_delete clean.1 word
  obtain ⟨n, write, hn, sql, carried⟩ := spelled.numbered_of_nodup (by simp)
  rw [deleteWith_eq] at hn
  refine ⟨_, n, _, ?_, hn, sql, carried⟩
  rw [delete, key_eq_ok_iff.mpr hk]
  rfl

theorem update_eq_fieldNotFound_iff :
    m.update = .error (.fieldNotFound "UId") ↔ m.values.find? isCorrelation = none := by
  cases hk : m.values.find? isCorrelation with
  | none =>
    rw [update, key_eq_error_iff.mpr hk]
    exact ⟨fun _ => rfl, fun _ => rfl⟩
  | some k =>
    rw [update_of_key hk]
    split <;> simp

theorem delete_eq_fieldNotFound_iff :
    m.delete = .error (.fieldNotFound "UId") ↔ m.values.find? isCorrelation = none := by
  cases hk : m.values.find? isCorrelation with
  | none =>
    rw [delete, key_eq_error_iff.mpr hk]
    exact ⟨fun _ => rfl, fun _ => rfl⟩
  | some k =>
    rw [delete, key_eq_ok_iff.mpr hk]
    exact ⟨fun h => (by cases h), fun h => (by cases h)⟩

theorem update_eq_emptyUpdate_iff {k : String × Value}
    (hk : m.values.find? isCorrelation = some k) :
    m.update = .error (.emptyUpdate (String.ofList (inQuotes m.table.identifier))) ↔
      m.updated = [] := by
  rw [update_of_key hk]
  split
  next empty => simpa using empty
  next nonempty => simpa using nonempty

theorem updated_eq_nil_iff : m.updated = [] ↔
    ∀ c ∈ m.values, isIdentity c = true ∨ isCorrelation c = true := by
  rw [updated, List.filter_eq_nil_iff]
  refine forall₂_congr fun c _ => ?_
  cases isIdentity c <;> simp

/-- What an insertion, an update and a deletion become in their numbered form, and which updates
and deletions there are. -/
theorem commands_numbered (clean : m.Clean) :
    (∃ n entries, m.insert.numbered = .ok n ∧
      n.sql = insertWith m.table (m.inserted.map Prod.fst) entries ∧
        n.Carries (m.inserted.map Prod.snd) entries) ∧
    (m.update = .error (.fieldNotFound "UId") ↔ ∀ c ∈ m.values, isCorrelation c = false) ∧
    (m.delete = .error (.fieldNotFound "UId") ↔ ∀ c ∈ m.values, isCorrelation c = false) ∧
    ∀ k, m.values.find? isCorrelation = some k →
      (m.update = .error (.emptyUpdate (String.ofList (inQuotes m.table.identifier))) ↔
        ∀ c ∈ m.values, isIdentity c = true ∨ isCorrelation c = true) ∧
      (¬(∀ c ∈ m.values, isIdentity c = true ∨ isCorrelation c = true) →
        ∃ c n entries entry, m.update = .ok c ∧ c.numbered = .ok n ∧
          n.sql = updateWith m.table (m.updated.map Prod.fst) entries k.1 entry ∧
            n.Carries (m.updated.map Prod.snd ++ [k.2]) (entries ++ [entry])) ∧
      ∃ c n entry, m.delete = .ok c ∧ c.numbered = .ok n ∧
        n.sql = deleteWith m.table k.1 entry ∧ n.Carries [k.2] [entry] := by
  have absent : m.values.find? isCorrelation = none ↔ ∀ c ∈ m.values, isCorrelation c = false := by
    simp
  refine ⟨insert_numbered clean, update_eq_fieldNotFound_iff.trans absent,
    delete_eq_fieldNotFound_iff.trans absent,
    fun k hk => ⟨?_, fun h => ?_, delete_numbered clean hk⟩⟩
  · rw [update_eq_emptyUpdate_iff hk, updated_eq_nil_iff]
  · exact update_numbered clean hk fun e => h (updated_eq_nil_iff.mp e)

/-- Keys in small letters, a null between values and a second column that is spelled like a key. -/
def mixedMutation : Mutation :=
  ⟨⟨"Hr", "Employee"⟩, [("id", .int 1), ("Name", .text "@P0"), ("Gap", .null), ("uid", .int 7),
    ("Age", .int 40), ("UID", .int 8)]⟩

theorem mixedMutation_insert : mixedMutation.insert =
    ⟨"INSERT INTO \"Hr.Employee\" (\"Name\",\"Gap\",\"uid\",\"Age\",\"UID\")" ++
      " VALUES(@P0,@P1,@P2,@P3,@P4) RETURNING *",
      [⟨"P0", .text "@P0"⟩, ⟨"P1", .null⟩, ⟨"P2", .int 7⟩, ⟨"P3", .int 40⟩, ⟨"P4", .int 8⟩]⟩ := by
  rfl

theorem mixedMutation_update : mixedMutation.update =
    .ok ⟨"UPDATE \"Hr.Employee\" SET \"Name\"=@P0,\"Gap\"=@P1,\"Age\"=@P2" ++
      " WHERE \"uid\" = @UId RETURNING *",
      [⟨"P0", .text "@P0"⟩, ⟨"P1", .null⟩, ⟨"P2", .int 40⟩, ⟨"UId", .int 7⟩]⟩ := by
  rfl

theorem mixedMutation_delete : mixedMutation.delete =
    .ok ⟨"DELETE FROM \"Hr.Employee\" WHERE \"uid\"=@UId RETURNING *", [⟨"UId", .int 7⟩]⟩ := by
  rfl

theorem commands_numbered_mixed : mixedMutation.Clean ∧
    mixedMutation.insert.numbered = .ok ⟨"INSERT INTO \"Hr.Employee\"".toList ++
      " (\"Name\",\"Gap\",\"uid\",\"Age\",\"UID\") VALUES($1,NULL,$2,$3,$4) RETURNING *".toList,
      [.text "@P0", .int 7, .int 40, .int 8]⟩ ∧
    (∃ n entries, mixedMutation.insert.numbered = .ok n ∧
      n.sql = insertWith mixedMutation.table ["Name", "Gap", "uid", "Age", "UID"] entries ∧
        n.Carries [.text "@P0", .null, .int 7, .int 40, .int 8] entries) ∧
    mixedMutation.values.find? isCorrelation = some ("uid", .int 7) ∧
    (∃ c, mixedMutation.update = .ok c ∧ c.numbered = .ok ⟨"UPDATE \"Hr.Employee\" SET ".toList ++
      "\"Name\"=$1,\"Gap\"=NULL,\"Age\"=$2 WHERE \"uid\" = $3 RETURNING *".toList,
      [.text "@P0", .int 40, .int 7]⟩) ∧
    (∃ c n entries entry, mixedMutation.update = .ok c ∧ c.numbered = .ok n ∧
      n.sql = updateWith mixedMutation.table ["Name", "Gap", "Age"] entries "uid" entry ∧
        n.Carries ([.text "@P0", .null, .int 40] ++ [.int 7]) (entries ++ [entry])) ∧
    (∃ c, mixedMutation.delete = .ok c ∧ c.numbered =
      .ok ⟨"DELETE FROM \"Hr.Employee\" WHERE \"uid\"=$1 RETURNING *".toList, [.int 7]⟩) ∧
    ∃ c n entry, mixedMutation.delete = .ok c ∧ c.numbered = .ok n ∧
      n.sql = deleteWith mixedMutation.table "uid" entry ∧ n.Carries [.int 7] [entry] := by
  have clean : mixedMutation.Clean := by
    refine ⟨⟨by decide, by decide⟩, ?_⟩
    simp [mixedMutation]
  have key : mixedMutation.values.find? isCorrelation = some ("uid", .int 7) := by rfl
  have settable : ¬∀ c ∈ mixedMutation.values, isIdentity c = true ∨ isCorrelation c = true := by
    intro all
    have name := all ("Name", .text "@P0") (by simp [mixedMutation])
    revert name
    decide
  obtain ⟨inserted, -, -, keyed⟩ := commands_numbered clean
  obtain ⟨-, updated, deleted⟩ := keyed _ key
  refine ⟨clean, ?_, inserted, key, ⟨_, mixedMutation_update, by cbv⟩, updated settable,
    ⟨_, mixedMutation_delete, by cbv⟩, deleted⟩
  rw [mixedMutation_insert]
  cbv

end Mutation

end PlanSql
