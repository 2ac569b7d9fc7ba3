import Mathlib
import PlanSql.Proofs.ColumnScope
import PlanSql.Proofs.DelimitedText
import PlanSql.Proofs.MutationText
import PlanSql.Proofs.TableCells

namespace PlanSql

/-- A name as it stands between quotes. -/
def doubledQuotes (name : List Char) : List Char :=
  name.flatMap fun c => if c = '"' then ['"', '"'] else [c]

/-- The names that stand in quotes in a text, in their order: a quote that no other one follows ends
its name. -/
inductive NamesIn : List Char → List (List Char) → Prop
  | none {gap : List Char} : '"' ∉ gap → NamesIn gap []
  | name {gap name rest : List Char} {names : List (List Char)} : '"' ∉ gap →
    rest.head? ≠ some '"' → NamesIn rest names →
      NamesIn (gap ++ '"' :: (doubledQuotes name ++ '"' :: rest)) (name :: names)

section Quoted

variable {gap name rest s : List Char} {names : List (List Char)}

theorem doubledQuotes_quote (name : List Char) :
    doubledQuotes ('"' :: name) = '"' :: '"' :: doubledQuotes name := rfl

theorem doubledQuotes_cons {c : Char} (h : c ≠ '"') (name : List Char) :
    doubledQuotes (c :: name) = c :: doubledQuotes name := by
  rw [doubledQuotes, List.flatMap_cons, if_neg h]
  rfl

theorem doubledQuotes_of_clean (h : '"' ∉ name) : doubledQuotes name = name := by
  induction name with
  | nil => rfl
  | cons c name ih =>
    rw [List.mem_cons, not_or] at h
    rw [doubledQuotes_cons (Ne.symm h.1), ih h.2]

/-- A name does not end before a quote that is doubled. -/
theorem end_ne_doubled (h : rest.head? ≠ some '"') (c : Char) (name s : List Char) :
    '"' :: rest ≠ doubledQuotes (c :: name) ++ s := by
  intro eq
  by_cases quote : c = '"'
  · rw [quote, doubledQuotes_quote] at eq
    exact h (by rw [List.tail_eq_of_cons_eq eq]; rfl)
  · rw [doubledQuotes_cons quote] at eq
    exact quote (List.head_eq_of_cons_eq eq).symm

theorem doubledQuotes_inj {name' rest' : List Char} (h : rest.head? ≠ some '"')
    (h' : rest'.head? ≠ some '"')
    (eq : doubledQuotes name ++ '"' :: rest = doubledQuotes name' ++ '"' :: rest') :
    name = name' ∧ rest = rest' := by
  induction name generalizing name' with
  | nil =>
    cases name' with
    | nil => exact ⟨rfl, List.tail_eq_of_cons_eq eq⟩
    | cons c name' => exact absurd eq (end_ne_doubled h c name' _)
  | cons c name ih =>
    cases name' with
    | nil => exact absurd eq.symm (end_ne_doubled h' c name _)
    | cons d name' =>
      by_cases hc : c = '"' <;> by_cases hd : d = '"'
      · subst hc hd
        rw [doubledQuotes_quote, doubledQuotes_quote] at eq
        obtain ⟨rfl, same⟩ := ih (List.tail_eq_of_cons_eq (List.tail_eq_of_cons_eq eq))
        exact ⟨rfl, same⟩
      · subst hc
        rw [doubledQuotes_quote, doubledQuotes_cons hd] at eq
        exact absurd (List.head_eq_of_cons_eq eq).symm hd
      · subst hd
        rw [doubledQuotes_quote, doubledQuotes_cons hc] at eq
        exact absurd (List.head_eq_of_cons_eq eq) hc
      · rw [doubledQuotes_cons hc, doubledQuotes_cons hd] at eq
        obtain ⟨rfl, same⟩ := ih (List.tail_eq_of_cons_eq eq)
        exact ⟨by rw [List.head_eq_of_cons_eq eq], same⟩

/-- Behind quotes that are not its own a name does not end where it should. -/
theorem quotes_ne_doubled (h : rest.head? ≠ some '"') (name rest' : List Char) (k : Nat) :
    name ++ '"' :: rest ≠
      List.replicate (k + 1) '"' ++ (doubledQuotes name ++ '"' :: rest') := by
  induction name generalizing k with
  | nil =>
    intro eq
    rw [List.replicate_succ] at eq
    have quote : rest = List.replicate k '"' ++ '"' :: rest' := List.tail_eq_of_cons_eq eq
    exact h (by rw [quote]; cases k <;> rfl)
  | cons c name ih =>
    intro eq
    rw [List.replicate_succ] at eq
    obtain rfl : c = '"' := List.head_eq_of_cons_eq eq
    refine ih (k + 1) ((List.tail_eq_of_cons_eq eq).trans ?_)
    rw [doubledQuotes_quote, List.replicate_succ', List.replicate_succ']
    simp

/-- Only a name without quotes ends where it should when it is written as it is. -/
theorem clean_of_ends {rest' : List Char} (h : rest.head? ≠ some '"')
    (eq : name ++ '"' :: rest = doubledQuotes name ++ '"' :: rest') : '"' ∉ name := by
  induction name with
  | nil => exact List.not_mem_nil
  | cons c name ih =>
    by_cases quote : c = '"'
    · subst quote
      rw [doubledQuotes_quote] at eq
      exact absurd (List.tail_eq_of_cons_eq eq) (quotes_ne_doubled h name rest' 0)
    · rw [doubledQuotes_cons quote] at eq
      rw [List.mem_cons, not_or]
      exact ⟨Ne.symm quote, ih (List.tail_eq_of_cons_eq eq)⟩

/-- The first quote of a text. -/
theorem gap_inj {gap' s' : List Char} (hg : '"' ∉ gap) (hg' : '"' ∉ gap')
    (eq : gap ++ '"' :: s = gap' ++ '"' :: s') : gap = gap' ∧ s = s' := by
  obtain ⟨same, rest⟩ := delimited_word (· != '"') (bne_of_notMem hg) (bne_of_notMem hg')
    (by simp) (by simp) eq
  exact ⟨same, List.tail_eq_of_cons_eq rest⟩

/-- A text has its names in one way only. -/
theorem NamesIn.unique (h : NamesIn s names) {names' : List (List Char)} (h' : NamesIn s names') :
    names = names' := by
  induction h generalizing names' with
  | none clean =>
    cases h' with
    | none => rfl
    | name => exact absurd (by simp) clean
  | @name gap name rest names clean ends _ ih =>
    generalize text : gap ++ '"' :: (doubledQuotes name ++ '"' :: rest) = t at h'
    cases h' with
    | none clean' => exact absurd (by simp [← text]) clean'
    | name clean' ends' later =>
      obtain ⟨-, same⟩ := gap_inj clean clean' text
      obtain ⟨rfl, rfl⟩ := doubledQuotes_inj ends ends' same
      rw [ih later]

theorem namesIn_plain (clean : '"' ∉ gap) : NamesIn (gap ++ s) names ↔ NamesIn s names := by
  constructor
  · intro h
    generalize text : gap ++ s = t at h
    cases h with
    | none whole => exact .none fun mem => whole (by simp [← text, mem])
    | @name gap' name rest names clean' ends later =>
      -- The first quote stands behind the plain text.
      rcases List.append_eq_append_iff.mp text with ⟨front, rfl, rfl⟩ | ⟨back, rfl, quoted⟩
      · exact .name (fun mem => clean' (List.mem_append_right gap mem)) ends later
      · cases back with
        | nil =>
          rw [List.nil_append] at quoted
          exact quoted ▸ NamesIn.name List.not_mem_nil ends later
        | cons c back =>
          obtain rfl : '"' = c := List.head_eq_of_cons_eq quoted
          exact absurd (by simp) clean
  · intro h
    cases h with
    | none clean' => exact .none (by simp [clean, clean'])
    | @name gap' name rest names clean' ends later =>
      rw [← List.append_assoc]
      exact .name (by simp [clean, clean']) ends later

theorem namesIn_quotedName (ends : s.head? ≠ some '"') :
    NamesIn (quotedName name ++ s) (name :: names) ↔ '"' ∉ name ∧ NamesIn s names := by
  have text : quotedName name ++ s = [] ++ '"' :: (name ++ '"' :: s) := by simp [quotedName]
  rw [text]
  constructor
  · intro h
    generalize whole : [] ++ '"' :: (name ++ '"' :: s) = t at h
    cases h with
    | @name gap name rest names clean _ later =>
      obtain ⟨-, same⟩ := gap_inj List.not_mem_nil clean whole
      have plain := clean_of_ends ends same
      rw [doubledQuotes_of_clean plain, List.append_cancel_left_eq] at same
      exact ⟨plain, List.tail_eq_of_cons_eq same ▸ later⟩
  · rintro ⟨plain, later⟩
    have named : NamesIn ([] ++ '"' :: (doubledQuotes name ++ '"' :: s)) (name :: names) :=
      .name List.not_mem_nil ends later
    rwa [doubledQuotes_of_clean plain] at named

/-- A list of quoted names, each with a text without quotes behind it. -/
theorem namesIn_list {α : Type} {f g : α → List Char} {xs : List α} (nonempty : xs ≠ [])
    (clean : ∀ x ∈ xs, '"' ∉ g x) (ends : s.head? ≠ some '"') :
    NamesIn (joined [','] (xs.map fun x => quotedName (f x) ++ g x) ++ s) (xs.map f ++ names) ↔
      (∀ x ∈ xs, '"' ∉ f x) ∧ NamesIn s names := by
  induction xs with
  | nil => exact absurd rfl nonempty
  | cons x xs ih =>
    obtain ⟨first, later⟩ := List.forall_mem_cons.mp clean
    have behind {t : List Char} (h : t.head? ≠ some '"') : (g x ++ t).head? ≠ some '"' := by
      cases hg : g x with
      | nil => exact h
      | cons c r =>
        rintro ⟨⟩
        exact first (by simp [hg])
    cases xs with
    | nil =>
      have text : joined [','] ([x].map fun x => quotedName (f x) ++ g x) ++ s =
          quotedName (f x) ++ (g x ++ s) := by simp [joined]
      rw [text]
      change NamesIn _ (f x :: names) ↔ _
      rw [namesIn_quotedName (behind ends), namesIn_plain first]
      simp
    | cons y xs =>
      have text : joined [','] ((x :: y :: xs).map fun x => quotedName (f x) ++ g x) ++ s =
          quotedName (f x) ++ (g x ++ ([','] ++
            (joined [','] ((y :: xs).map fun x => quotedName (f x) ++ g x) ++ s))) := by
        simp [joined]
      rw [text]
      change NamesIn _ (f x :: ((y :: xs).map f ++ names)) ↔ _
      rw [namesIn_quotedName (behind (by simp)), namesIn_plain first, namesIn_plain (by decide),
        ih (List.cons_ne_nil _ _) later, List.forall_mem_cons (l := y :: xs), and_assoc]

end Quoted

namespace Mutation

theorem unquoted_parameter {name : String} (h : ∀ c ∈ name.toList, isWordChar c = true) :
    '"' ∉ namedParameter name := by
  rw [namedParameter, List.mem_cons, not_or]
  exact ⟨by decide, fun mem => absurd (h _ mem) (by decide)⟩

theorem unquoted_positions (columns : List (String × Value)) :
    '"' ∉ joined [','] ((parameters columns).map fun p => namedParameter p.name) := by
  refine Report.not_mem_joined (by decide) fun text inside => ?_
  rw [parameters_eq, List.map_map] at inside
  obtain ⟨x, -, rfl⟩ := List.mem_map.mp inside
  exact unquoted_parameter (positionName_word x.2).2

/-- The key's name has just its three letters. -/
theorem clean_of_isCorrelation {c : String × Value} (h : isCorrelation c = true) :
    '"' ∉ c.1.toList := by
  intro mem
  have folded : foldCase c.1 = foldCase correlationColumn := sameName_iff.mp h
  have quote : '"' ∈ (foldCase c.1).toList := by
    rw [foldCase, String.toList_ofList]
    exact List.mem_map.mpr ⟨'"', mem, by decide⟩
  rw [folded] at quote
  exact absurd quote (by decide)

variable {table : TableRef} {s : List Char} {names : List (List Char)}

theorem namesIn_table (ends : s.head? ≠ some '"') :
    NamesIn (table.text ++ s) (table.identifier :: names) ↔ table.Clean ∧ NamesIn s names := by
  rw [table.text_eq, namesIn_quotedName ends, table.clean_iff]

theorem namesIn_insertWith (table : TableRef) (columns : List String) {entries : List (List Char)}
    (clean : '"' ∉ joined [','] entries) :
    NamesIn (insertWith table columns entries) (table.identifier :: columns.map String.toList) ↔
      table.Clean ∧ ∀ name ∈ columns, '"' ∉ name.toList := by
  rw [insertWith_eq]
  cases columns with
  | nil =>
    have behind : NamesIn " DEFAULT VALUES RETURNING *".toList [] := .none (by decide)
    rw [if_pos List.isEmpty_nil, namesIn_plain (by decide), List.map_nil,
      namesIn_table (by decide)]
    simp only [behind, List.not_mem_nil, false_implies, implies_true]
  | cons column columns =>
    generalize all : column :: columns = cs
    have nonempty : cs ≠ [] := by simp [← all]
    have list : cs.map (fun name => quotedName name.toList) =
        cs.map fun name => quotedName name.toList ++ [] := by simp
    have names : cs.map String.toList = cs.map String.toList ++ [] := (List.append_nil _).symm
    have behind : NamesIn (") VALUES(".toList ++ (joined [','] entries ++
        ") RETURNING *".toList)) [] := by
      rw [namesIn_plain (by decide), namesIn_plain clean]
      exact .none (by decide)
    rw [if_neg (by simpa using nonempty), namesIn_plain (by decide),
      namesIn_table (by simp), namesIn_plain (by decide), list, names,
      namesIn_list nonempty (by simp) (by simp)]
    simp only [behind, and_true]

theorem namesIn_updateText (table : TableRef) {columns : List (String × Value)}
    (nonempty : columns ≠ []) {key : String} (hk : '"' ∉ key.toList) :
    NamesIn (updateText table columns key)
        (table.identifier :: (columns.map (fun c => c.1.toList) ++ [key.toList])) ↔
      table.Clean ∧ ∀ c ∈ columns, '"' ∉ c.1.toList := by
  have list : assignments columns = columns.zipIdx.map fun x =>
      quotedName x.1.1.toList ++ '=' :: namedParameter (positionName x.2) := by
    rw [assignments, List.mapIdx_eq_zipIdx_map]
  have places : columns.zipIdx.map Prod.fst = columns := List.zipIdx_map_fst ..
  have names : columns.map (fun c => c.1.toList) = columns.zipIdx.map fun x => x.1.1.toList := by
    conv_lhs => rw [← places, List.map_map]
    rfl
  have each : (∀ x ∈ columns.zipIdx, '"' ∉ x.1.1.toList) ↔ ∀ c ∈ columns, '"' ∉ c.1.toList := by
    conv_rhs => rw [← places, List.forall_mem_map]
  have unquoted : ∀ x ∈ columns.zipIdx, '"' ∉ '=' :: namedParameter (positionName x.2) := by
    intro x _
    rw [List.mem_cons, not_or]
    exact ⟨by decide, unquoted_parameter (positionName_word x.2).2⟩
  have behind : NamesIn (" WHERE ".toList ++ (quotedName key.toList ++ (" = ".toList ++
      (namedParameter correlationColumn ++ " RETURNING *".toList)))) [key.toList] := by
    rw [namesIn_plain (by decide), namesIn_quotedName (by simp), namesIn_plain (by decide),
      namesIn_plain (by decide)]
    exact ⟨hk, .none (by decide)⟩
  unfold updateText
  rw [namesIn_plain (by decide), namesIn_table (by simp), namesIn_plain (by decide), list, names,
    namesIn_list (by simpa using nonempty) unquoted (by simp), each]
  simp only [behind, and_true]

theorem namesIn_deleteText (table : TableRef) {key : String} (hk : '"' ∉ key.toList) :
    NamesIn (deleteText table key) [table.identifier, key.toList] ↔ table.Clean := by
  have behind : NamesIn ('=' :: (namedParameter correlationColumn ++ " RETURNING *".toList)) [] :=
    .none (by decide)
  unfold deleteText
  rw [namesIn_plain (by decide), namesIn_table (by simp), namesIn_plain (by decide),
    namesIn_quotedName (by simp)]
  simp only [hk, behind, not_false_eq_true, and_true]

/-- A text gives its quoted names in one way. Those of an insertion and an update are the names of
the table, of the columns in their order and of the key, if and only if neither the table nor a
column has a double quote in its name; the name of the key never has one. -/
theorem names_read_back_iff (m : Mutation) :
    (∀ s names names', NamesIn s names → NamesIn s names' → names = names') ∧
    (NamesIn m.insert.text.toList (m.table.identifier :: m.inserted.map fun c => c.1.toList) ↔
      m.table.Clean ∧ ∀ c ∈ m.inserted, '"' ∉ c.1.toList) ∧
    ∀ k, m.values.find? isCorrelation = some k →
      (m.updated ≠ [] → ∃ c, m.update = .ok c ∧
        (NamesIn c.text.toList
            (m.table.identifier :: (m.updated.map (fun c => c.1.toList) ++ [k.1.toList])) ↔
          m.table.Clean ∧ ∀ c ∈ m.updated, '"' ∉ c.1.toList)) ∧
      ∃ c, m.delete = .ok c ∧
        (NamesIn c.text.toList [m.table.identifier, k.1.toList] ↔ m.table.Clean) := by
  refine ⟨fun s names names' h h' => h.unique h', ?_, fun k hk => ⟨fun nonempty => ?_, ?_⟩⟩
  · have inserted := namesIn_insertWith m.table (m.inserted.map Prod.fst)
      (unquoted_positions m.inserted)
    rw [List.map_map, List.forall_mem_map] at inserted
    rw [insert, columnsExcept_identity, insertText_eq, String.toList_ofList]
    exact inserted
  · have key := clean_of_isCorrelation (List.find?_some hk)
    refine ⟨_, (update_of_key hk).trans (if_neg (by simpa using nonempty)), ?_⟩
    rw [String.toList_ofList]
    exact namesIn_updateText m.table nonempty key
  · have key := clean_of_isCorrelation (List.find?_some hk)
    refine ⟨⟨String.ofList (deleteText m.table k.1), [keyParameter k.2]⟩, ?_, ?_⟩
    · rw [delete, key_eq_ok_iff.mpr hk]
      rfl
    · rw [String.toList_ofList]
      exact namesIn_deleteText m.table key

/-- Names with other marks of the language. -/
def markedColumns : Mutation :=
  ⟨⟨"Acme.Hr", "Employee"⟩,
    [("uid", .int 7), ("Name) VALUES(1) --", .text "Ada"), ("it's, @P0", .null)]⟩

theorem names_read_back_marked :
    markedColumns.values.find? isCorrelation = some ("uid", .int 7) ∧ markedColumns.updated ≠ [] ∧
    NamesIn markedColumns.insert.text.toList ["Acme.Hr.Employee".toList, "uid".toList,
      "Name) VALUES(1) --".toList, "it's, @P0".toList] ∧
    (∃ c, markedColumns.update = .ok c ∧ NamesIn c.text.toList ["Acme.Hr.Employee".toList,
      "Name) VALUES(1) --".toList, "it's, @P0".toList, "uid".toList]) ∧
    ∃ c, markedColumns.delete = .ok c ∧
      NamesIn c.text.toList ["Acme.Hr.Employee".toList, "uid".toList] := by
  have key : markedColumns.values.find? isCorrelation = some ("uid", .int 7) := by rfl
  have columns : markedColumns.updated ≠ [] := by decide
  obtain ⟨-, inserted, others⟩ := names_read_back_iff markedColumns
  obtain ⟨updated, c, deleted, gives⟩ := others _ key
  obtain ⟨d, done, names⟩ := updated columns
  have table : markedColumns.table.Clean := ⟨by decide, by decide⟩
  exact ⟨key, columns, inserted.mpr ⟨table, by decide⟩, ⟨d, done, names.mpr ⟨table, by decide⟩⟩,
    c, deleted, gives.mpr table⟩

/-- A row as it is read, with a column whose name has double quotes inside. -/
def disguisedColumns : Mutation :=
  .ofRecord ⟨"Acme.Hr", "Employee"⟩ (.ofValues [("UId", .int 7), ("Name\",\"Role", .text "Ada")])

/-- The two columns read as three. -/
theorem disguised_column_reads_as_two :
    disguisedColumns.inserted.map Prod.fst = ["UId", "Name\",\"Role"] ∧
    NamesIn disguisedColumns.insert.text.toList
      ["Acme.Hr.Employee".toList, "UId".toList, "Name".toList, "Role".toList] ∧
    ¬NamesIn disguisedColumns.insert.text.toList
      (disguisedColumns.table.identifier :: disguisedColumns.inserted.map fun c => c.1.toList) := by
  have columns : disguisedColumns.inserted.map Prod.fst = ["UId", "Name\",\"Role"] := by decide
  have text : disguisedColumns.insert.text.toList = "INSERT INTO ".toList ++
      (quotedName "Acme.Hr.Employee".toList ++ (" (".toList ++ (quotedName "UId".toList ++
        (",".toList ++ (quotedName "Name".toList ++ (",".toList ++ (quotedName "Role".toList ++
          ") VALUES(@P0,@P1) RETURNING *".toList))))))) := by decide
  have read : NamesIn disguisedColumns.insert.text.toList
      ["Acme.Hr.Employee".toList, "UId".toList, "Name".toList, "Role".toList] := by
    rw [text, namesIn_plain (by decide)]
    refine (namesIn_quotedName (by decide)).mpr ⟨by decide, ?_⟩
    refine (namesIn_plain (by decide)).mpr ((namesIn_quotedName (by decide)).mpr ⟨by decide, ?_⟩)
    refine (namesIn_plain (by decide)).mpr ((namesIn_quotedName (by decide)).mpr ⟨by decide, ?_⟩)
    refine (namesIn_plain (by decide)).mpr ((namesIn_quotedName (by decide)).mpr ⟨by decide, ?_⟩)
    exact .none (by decide)
  refine ⟨columns, read, fun whole => absurd (congrArg List.length (read.unique whole)) ?_⟩
  decide

end Mutation

end PlanSql
