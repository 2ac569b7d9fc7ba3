import PlanSql.Proofs.RecordObject
import PlanSql.Proofs.TextBytes
import PlanSql.Report

namespace PlanSql

theorem splitOn_lineText {lines : List (List Char)} (h : ∀ line ∈ lines, '\n' ∉ line) :
    (lineText lines).splitOn '\n' = lines ++ [[]] := by
  induction lines with
  | nil => rfl
  | cons line lines ih =>
    obtain ⟨unbroken, rest⟩ := List.forall_mem_cons.mp h
    have text : lineText (line :: lines) = line ++ '\n' :: lineText lines := by simp [lineText]
    rw [text, List.splitOn_append_cons_self_of_not_mem unbroken, ih rest, List.cons_append]

theorem length_joined (gap : List Char) (ss : List (List Char)) :
    (joined gap ss).length = (ss.map List.length).sum + gap.length * (ss.length - 1) := by
  induction ss with
  | nil => simp [joined]
  | cons s ss ih =>
    cases ss with
    | nil => simp [joined]
    | cons t rest =>
      rw [joined, List.length_append, List.length_append, ih]
      simp only [List.map_cons, List.sum_cons, List.length_cons, Nat.add_sub_cancel, Nat.mul_succ]
      omega

theorem mem_joined {gap : List Char} {ss : List (List Char)} {c : Char} (h : c ∈ joined gap ss) :
    c ∈ gap ∨ ∃ s ∈ ss, c ∈ s := by
  induction ss with
  | nil => simp [joined] at h
  | cons s ss ih =>
    cases ss with
    | nil => exact .inr ⟨s, by simp, h⟩
    | cons t rest =>
      rw [joined, List.mem_append, List.mem_append] at h
      rcases h with here | inGap | later
      · exact .inr ⟨s, by simp, here⟩
      · exact .inl inGap
      · obtain inGap | ⟨u, mem, inside⟩ := ih later
        · exact .inl inGap
        · exact .inr ⟨u, List.mem_cons_of_mem s mem, inside⟩

theorem length_padded (width : Nat) (s : List Char) :
    (padded width s).length = max width s.length := by
  rw [padded, List.length_append, List.length_replicate]
  omega

namespace Report

/-- Cuts a line at the widths of its columns, with three characters between neighbours. -/
def cellsOf : (widths : List Nat) → (line : List Char) → List (List Char)
  | [], _ => []
  | w :: widths, line => line.take w :: cellsOf widths (line.drop (w + 3))

theorem cellsOf_joined {gap : List Char} (three : gap.length = 3) (ss : List (List Char)) :
    cellsOf (ss.map List.length) (joined gap ss) = ss := by
  induction ss with
  | nil => rfl
  | cons s ss ih =>
    cases ss with
    | nil => simp [cellsOf, joined]
    | cons t rest =>
      have behind : (s ++ (gap ++ joined gap (t :: rest))).drop (s.length + 3) =
          joined gap (t :: rest) := by
        rw [← three, ← List.length_append, ← List.append_assoc, List.drop_left]
      rw [joined, List.map_cons, cellsOf, List.take_left, behind, ih]

variable {rs : List Record} {r : Record} {name : String} {names : List String}

theorem length_le_utf8ByteSize (name : String) : name.toList.length ≤ name.utf8ByteSize := by
  have bytes : name.utf8ByteSize = byteLength name.toList := by
    rw [byteLength, ← utf8Bytes_eq]
    rfl
  rw [bytes]
  induction name.toList with
  | nil => exact Nat.zero_le _
  | cons c s ih =>
    have positive := c.utf8Size_pos
    rw [byteLength_cons, List.length_cons]
    omega

theorem le_foldl_max (rs : List Record) (name : String) (start : Nat) :
    start ≤ rs.foldl (fun w r => max w (cell r name).length) start ∧
      ∀ r ∈ rs, (cell r name).length ≤ rs.foldl (fun w r => max w (cell r name).length) start := by
  induction rs generalizing start with
  | nil => simp
  | cons r rs ih =>
    obtain ⟨above, each⟩ := ih (max start (cell r name).length)
    rw [List.foldl_cons]
    refine ⟨by omega, List.forall_mem_cons.mpr ⟨by omega, each⟩⟩

theorem name_le_columnWidth (rs : List Record) (name : String) :
    name.toList.length ≤ columnWidth rs name :=
  (length_le_utf8ByteSize name).trans (le_foldl_max rs name _).1

theorem cell_le_columnWidth (mem : r ∈ rs) (name : String) :
    (cell r name).length ≤ columnWidth rs name :=
  (le_foldl_max rs name _).2 r mem

theorem columns_eq (nonempty : rs ≠ []) (same : ∀ r ∈ rs, r.names = names) :
    columns rs = names.map fun name => (name, columnWidth rs name) := by
  cases rs with
  | nil => exact absurd rfl nonempty
  | cons r rest => rw [columns, List.head?_cons, Option.map_some, same r (by simp)]; rfl

/-- The lines of the header, of the rule below it and of the records. -/
def tableLines (rs : List Record) : List (List Char) :=
  headerLine (columns rs) :: separatorLine (columns rs) :: rs.map (recordLine (columns rs))

def widths (rs : List Record) : List Nat := (columns rs).map Prod.snd

/-- The length of a line with columns of these widths. -/
def lineLength (widths : List Nat) : Nat := widths.sum + 3 * (widths.length - 1)

/-- The cells in the line of a record. -/
def recordCells (rs : List Record) (r : Record) : List (List Char) :=
  cellsOf (widths rs) (recordLine (columns rs) r)

/-- The cell at a place shows the text of a value, with blanks up to the width of its column. -/
def ShowsAt (rs : List Record) (r : Record) (i : Nat) (v : Value) : Prop :=
  ∃ w, (widths rs)[i]? = some w ∧ (recordCells rs r)[i]? = some (padded w v.plain)

theorem widths_eq (nonempty : rs ≠ []) (same : ∀ r ∈ rs, r.names = names) :
    widths rs = names.map (columnWidth rs) := by
  rw [widths, columns_eq nonempty same, List.map_map]
  rfl

/-- Texts of the widths of the columns make a line of a table. -/
theorem line_of_widths {gap : List Char} (three : gap.length = 3) {ss : List (List Char)}
    {widths : List Nat} (fit : ss.map List.length = widths) :
    (joined gap ss).length = lineLength widths ∧ cellsOf widths (joined gap ss) = ss := by
  subst fit
  exact ⟨by rw [length_joined, three, lineLength, List.length_map], cellsOf_joined three ss⟩

theorem header_line (nonempty : rs ≠ []) (same : ∀ r ∈ rs, r.names = names) :
    (headerLine (columns rs)).length = lineLength (widths rs) ∧
      cellsOf (widths rs) (headerLine (columns rs)) =
        names.map fun name => padded (columnWidth rs name) name.toList := by
  rw [widths_eq nonempty same, columns_eq nonempty same, headerLine, List.map_map]
  refine line_of_widths rfl ?_
  rw [List.map_map]
  refine List.map_congr_left fun name _ => ?_
  exact (length_padded _ _).trans (max_eq_left (name_le_columnWidth rs name))

theorem length_separatorLine (nonempty : rs ≠ []) (same : ∀ r ∈ rs, r.names = names) :
    (separatorLine (columns rs)).length = lineLength (widths rs) := by
  rw [widths_eq nonempty same, columns_eq nonempty same, separatorLine, List.map_map]
  refine (line_of_widths rfl ?_).1
  rw [List.map_map]
  exact List.map_congr_left fun name _ => List.length_replicate

theorem record_line (nonempty : rs ≠ []) (same : ∀ r ∈ rs, r.names = names) (mem : r ∈ rs) :
    (recordLine (columns rs) r).length = lineLength (widths rs) ∧
      recordCells rs r = names.map fun name => padded (columnWidth rs name) (cell r name) := by
  rw [recordCells, widths_eq nonempty same, columns_eq nonempty same, recordLine, List.map_map]
  refine line_of_widths rfl ?_
  rw [List.map_map]
  refine List.map_congr_left fun name _ => ?_
  exact (length_padded _ _).trans (max_eq_left (cell_le_columnWidth mem name))

theorem length_of_mem_tableLines (nonempty : rs ≠ []) (same : ∀ r ∈ rs, r.names = names)
    {line : List Char} (h : line ∈ tableLines rs) : line.length = lineLength (widths rs) := by
  rcases List.mem_cons.mp h with rfl | h
  · exact (header_line nonempty same).1
  rcases List.mem_cons.mp h with rfl | h
  · exact length_separatorLine nonempty same
  obtain ⟨r, mem, rfl⟩ := List.mem_map.mp h
  exact (record_line nonempty same mem).1

theorem cell_of_firstNamed {f : Field} (h : r.firstNamed? name = some f) :
    cell r name = f.value.plain := by
  rw [cell, Record.value_of_firstNamed h]

/-- A cell shows what the first field of the name of its column holds. -/
theorem showsAt_iff (nonempty : rs ≠ []) (same : ∀ r ∈ rs, r.names = names) (mem : r ∈ rs) {i : Nat}
    {f first : Field} (hi : r.fields[i]? = some f) (hf : r.firstNamed? f.name = some first)
    (v : Value) : ShowsAt rs r i v ↔
      padded (columnWidth rs f.name) first.value.plain =
        padded (columnWidth rs f.name) v.plain := by
  have named : names[i]? = some f.name := by
    rw [← same r mem, Record.names, List.getElem?_map, hi]
    rfl
  rw [ShowsAt, widths_eq nonempty same, (record_line nonempty same mem).2, List.getElem?_map,
    List.getElem?_map, named, Option.map_some, Option.map_some, cell_of_firstNamed hf]
  simp

theorem text_table (nonempty : rs ≠ []) (p : Palette) : text p .table rs =
    lineText (p.paint .boldWhite (headerLine (columns rs)) ::
      p.paint .dimmed (separatorLine (columns rs)) :: rs.map (recordLine (columns rs)) ++
        [[], countLine p rs]) := by
  cases rs with
  | nil => exact absurd rfl nonempty
  | cons r rest => rfl

theorem not_mem_padded {c : Char} (blank : c ≠ ' ') {s : List Char} (h : c ∉ s) (width : Nat) :
    c ∉ padded width s := by
  rw [padded, List.mem_append, not_or]
  exact ⟨h, fun mem => blank (List.eq_of_mem_replicate mem)⟩

theorem not_mem_joined {c : Char} {gap : List Char} (hg : c ∉ gap) {ss : List (List Char)}
    (h : ∀ s ∈ ss, c ∉ s) : c ∉ joined gap ss := fun mem =>
  (mem_joined mem).elim hg fun ⟨s, hs, inside⟩ => h s hs inside

/-- No line of a table is broken if no name and no value is. -/
theorem unbroken (nonempty : rs ≠ []) (same : ∀ r ∈ rs, r.names = names)
    (namesWhole : ∀ name ∈ names, '\n' ∉ name.toList)
    (valuesWhole : ∀ r ∈ rs, ∀ f ∈ r.fields, '\n' ∉ f.value.plain) :
    ∀ line ∈ tableLines rs, '\n' ∉ line := by
  intro line h
  rw [tableLines, columns_eq nonempty same] at h
  rcases List.mem_cons.mp h with rfl | h
  · refine not_mem_joined (by decide) fun s hs => ?_
    rw [List.map_map] at hs
    obtain ⟨name, known, rfl⟩ := List.mem_map.mp hs
    exact not_mem_padded (by decide) (namesWhole name known) _
  rcases List.mem_cons.mp h with rfl | h
  · refine not_mem_joined (by decide) fun s hs => ?_
    obtain ⟨column, -, rfl⟩ := List.mem_map.mp hs
    exact fun mem => absurd (List.eq_of_mem_replicate mem) (by decide)
  obtain ⟨r, mem, rfl⟩ := List.mem_map.mp h
  refine not_mem_joined (by decide) fun s hs => ?_
  rw [List.map_map] at hs
  obtain ⟨name, known, rfl⟩ := List.mem_map.mp hs
  obtain ⟨first, hf⟩ := Record.exists_firstNamed ((same r mem).symm ▸ known)
  have whole := valuesWhole r mem first (List.mem_of_find?_eq_some hf)
  exact not_mem_padded (by decide) (cell_of_firstNamed hf ▸ whole) _

theorem countLine_unbroken (rs : List Record) : '\n' ∉ countLine .plain rs := by
  have number : '\n' ∉ decimalDigits rs.length := fun mem =>
    absurd (isDigit_of_mem_decimalDigits mem) (by decide)
  rw [countLine, Palette.paint, if_neg (by decide), List.mem_append, not_or]
  exact ⟨number, by decide⟩

/-- All lines of a table are of one length, with a column for each field, and a text without line
breaks of its own is read back as these lines. A cell shows the value of the first field of its
column's name, so it shows its own value just when that one looks the same in the column, as in all
cells where no name repeats. -/
theorem table_cells_iff (nonempty : rs ≠ []) (same : ∀ r ∈ rs, r.names = names) :
    (∀ p, text p .table rs = lineText (p.paint .boldWhite (headerLine (columns rs)) ::
      p.paint .dimmed (separatorLine (columns rs)) :: rs.map (recordLine (columns rs)) ++
        [[], countLine p rs])) ∧
    ((∀ name ∈ names, '\n' ∉ name.toList) →
      (∀ r ∈ rs, ∀ f ∈ r.fields, '\n' ∉ f.value.plain) →
        (text .plain .table rs).splitOn '\n' = tableLines rs ++ [[], countLine .plain rs, []]) ∧
    (∀ line ∈ tableLines rs, line.length = lineLength (widths rs)) ∧
    widths rs = names.map (columnWidth rs) ∧
    cellsOf (widths rs) (headerLine (columns rs)) =
      names.map (fun name => padded (columnWidth rs name) name.toList) ∧
    (∀ r ∈ rs, ∀ i f, r.fields[i]? = some f → ∃ first, r.firstNamed? f.name = some first ∧
      ShowsAt rs r i first.value ∧ (ShowsAt rs r i f.value ↔
        padded (columnWidth rs f.name) first.value.plain =
          padded (columnWidth rs f.name) f.value.plain)) ∧
    (names.Nodup → ∀ r ∈ rs, ∀ i f, r.fields[i]? = some f → ShowsAt rs r i f.value) := by
  have firstOf : ∀ r ∈ rs, ∀ (i : Nat) f, r.fields[i]? = some f →
      ∃ first, r.firstNamed? f.name = some first := fun r mem i f hi =>
    Record.exists_firstNamed (List.mem_map_of_mem (List.mem_of_getElem? hi))
  refine ⟨text_table nonempty, fun namesWhole valuesWhole => ?_,
    fun _ => length_of_mem_tableLines nonempty same, widths_eq nonempty same,
    (header_line nonempty same).2, fun r mem i f hi => ?_, fun distinct r mem i f hi => ?_⟩
  · have lines : text .plain .table rs =
        lineText (tableLines rs ++ [[], countLine .plain rs]) := text_table nonempty .plain
    rw [lines, splitOn_lineText, List.append_assoc]
    · rfl
    intro line h
    rcases List.mem_append.mp h with inside | h
    · exact unbroken nonempty same namesWhole valuesWhole line inside
    rcases List.mem_pair.mp h with rfl | rfl
    · exact List.not_mem_nil
    · exact countLine_unbroken rs
  · obtain ⟨first, hf⟩ := firstOf r mem i f hi
    exact ⟨first, hf, (showsAt_iff nonempty same mem hi hf _).mpr rfl,
      showsAt_iff nonempty same mem hi hf _⟩
  · obtain ⟨first, hf⟩ := firstOf r mem i f hi
    refine (showsAt_iff nonempty same mem hi hf _).mpr ?_
    have own : first = f := Record.eq_of_name ((same r mem).symm ▸ distinct)
      (List.mem_of_find?_eq_some hf) (List.mem_of_getElem? hi) (by simpa using List.find?_some hf)
    rw [own]

def idsAndNames : List Record :=
  [.ofValues [("Id", .int 1), ("Näme", .text "Bo")], .ofValues [("Id", .int 20), ("Näme", .null)]]

theorem table_cells_iff_idsAndNames :
    idsAndNames ≠ [] ∧ (∀ r ∈ idsAndNames, r.names = ["Id", "Näme"]) ∧
    (text .plain .table idsAndNames).splitOn '\n' =
      ["Id │ Näme ".toList, "───┼──────".toList, "1  │ Bo   ".toList, "20 │ NULL ".toList, [],
        "2 row(s) returned".toList, []] ∧
    (∀ line ∈ tableLines idsAndNames, line.length = 10) ∧
    (["Id", "Näme"] : List String).Nodup ∧
    ∀ r ∈ idsAndNames, ∀ i f, r.fields[i]? = some f → ShowsAt idsAndNames r i f.value := by
  have nonempty : idsAndNames ≠ [] := List.cons_ne_nil _ _
  have same : ∀ r ∈ idsAndNames, r.names = ["Id", "Näme"] := by decide
  have distinct : (["Id", "Näme"] : List String).Nodup := by decide
  obtain ⟨-, printed, lengths, columnWidths, -, -, own⟩ := table_cells_iff nonempty same
  have lines := printed (by decide) (by
    intro r hr f hf
    fin_cases hr <;> fin_cases hf <;> decide)
  refine ⟨nonempty, same, lines.trans ?_, fun line h => (lengths line h).trans ?_, distinct,
    own distinct⟩
  · decide +kernel
  · rw [columnWidths]
    decide +kernel

/-- The column of the second `Id` shows the first one. -/
theorem joinedRow_cell_disagrees :
    recordCells [Record.joinedRow] Record.joinedRow =
        ["1 ".toList, "Ada      ".toList, "1 ".toList] ∧
      Record.joinedRow.fields[2]? = some ⟨"Id", .int, .int 2⟩ ∧
      ¬ShowsAt [Record.joinedRow] Record.joinedRow 2 (.int 2) := by
  have cells : recordCells [Record.joinedRow] Record.joinedRow =
      ["1 ".toList, "Ada      ".toList, "1 ".toList] := by decide +kernel
  have columnWidths : widths [Record.joinedRow] = [2, 9, 2] := by decide +kernel
  refine ⟨cells, rfl, ?_⟩
  rw [ShowsAt, cells, columnWidths]
  rintro ⟨w, width, shown⟩
  cases width
  exact absurd shown (by decide)

end Report

end PlanSql
