import PlanSql.Proofs.CompiledPlan
import PlanSql.Rows

namespace PlanSql

variable {σ κ : Type}

/-- A field for each column in order, with the column's name and type and its value in the row. -/
structure IsRow (σ : Type) [RowSource σ κ] (c : κ) (r : Record) : Prop where
  length_eq : r.fields.length = (RowSource.columns σ c).length
  field : ∀ i f column, r.fields[i]? = some f → (RowSource.columns σ c)[i]? = some column →
    f.name = column.name ∧ f.type = column.type ∧ RowSource.value σ c i = .ok f.value

/-- The error of the first column without a value in the row. -/
def Unreadable (σ : Type) [RowSource σ κ] (c : κ) (e : PlanError) : Prop :=
  ∃ i < (RowSource.columns σ c).length, RowSource.value σ c i = .error e ∧
    ∀ j < i, ∃ v, RowSource.value σ c j = .ok v

theorem map_eq_error_iff {α β : Type} {r : Except PlanError α} {f : α → β} {e : PlanError} :
    r.map f = .error e ↔ r = .error e := by
  cases r <;> simp [Except.map]

theorem inOrder_eq_error {α β : Type} {f : α → Except PlanError β} {as : List α} {e : PlanError}
    (h : inOrder f as = .error e) :
    ∃ (i : Nat) (a : α), as[i]? = some a ∧ f a = .error e ∧
      ∀ (j : Nat) (b : α), j < i → as[j]? = some b → ∃ v, f b = .ok v := by
  induction as with
  | nil => cases h
  | cons a as ih =>
    rw [inOrder] at h
    cases first : f a with
    | error e' =>
      rw [first] at h
      cases h
      exact ⟨0, a, rfl, first, fun j _ hj => absurd hj (Nat.not_lt_zero j)⟩
    | ok b =>
      have rest : inOrder f as = .error e := by
        rw [first] at h
        cases others : inOrder f as with
        | error e' =>
          rw [others] at h
          cases h
          rfl
        | ok bs =>
          rw [others] at h
          cases h
      obtain ⟨i, x, hx, failed, before⟩ := ih rest
      refine ⟨i + 1, x, hx, failed, fun j y hj hy => ?_⟩
      cases j with
      | zero =>
        obtain rfl : a = y := Option.some.inj hy
        exact ⟨b, first⟩
      | succ j => exact before j y (Nat.lt_of_succ_lt_succ hj) hy

section Row

variable [RowSource σ κ] {c : κ} {r : Record} {e : PlanError}

/-- The field of a column, numbered as it stands in the row. -/
def readField (σ : Type) [RowSource σ κ] (c : κ) (a : Column × Nat) : Except PlanError Field :=
  (RowSource.value σ c a.2).map fun v => ⟨a.1.name, a.1.type, v⟩

theorem readRecord_eq (c : κ) : readRecord σ c =
    (inOrder (readField σ c) (RowSource.columns σ c).zipIdx).map Record.mk := by
  have fields : readRecord σ c = (inOrder (readField σ c) (RowSource.columns σ c).zipIdx >>=
    fun fields => .ok ⟨fields⟩) := rfl
  rw [fields]
  cases inOrder (readField σ c) (RowSource.columns σ c).zipIdx <;> rfl

theorem readRecord_eq_ok_iff : readRecord σ c = .ok r ↔ IsRow σ c r := by
  have parts : readRecord σ c = .ok r ↔ List.Forall₂ (fun a f => readField σ c a = .ok f)
      (RowSource.columns σ c).zipIdx r.fields := by
    rw [readRecord_eq, map_eq_ok_iff, ← inOrder_eq_ok_iff]
    constructor
    · rintro ⟨fields, h, rfl⟩
      exact h
    · exact fun h => ⟨r.fields, h, rfl⟩
  rw [parts, List.forall₂_iff_get]
  constructor
  · rintro ⟨length, each⟩
    rw [List.length_zipIdx] at length
    refine ⟨length.symm, fun i f column hf hc => ?_⟩
    obtain ⟨hi, rfl⟩ := List.getElem?_eq_some_iff.mp hf
    obtain ⟨hj, rfl⟩ := List.getElem?_eq_some_iff.mp hc
    obtain ⟨v, value, field⟩ := map_eq_ok_iff.mp (each i (by simpa using hj) hi)
    simp only [List.get_eq_getElem, List.getElem_zipIdx, Nat.zero_add] at value field
    rw [← field]
    exact ⟨rfl, rfl, value⟩
  · intro h
    refine ⟨by rw [List.length_zipIdx, h.length_eq], fun i hi hj => map_eq_ok_iff.mpr ?_⟩
    rw [List.length_zipIdx] at hi
    obtain ⟨name, type, value⟩ :=
      h.field i _ _ (List.getElem?_eq_getElem hj) (List.getElem?_eq_getElem hi)
    refine ⟨r.fields[i].value, by simpa using value, ?_⟩
    simp only [List.get_eq_getElem, List.getElem_zipIdx, ← name, ← type]

theorem Unreadable.of_readRecord (h : readRecord σ c = .error e) : Unreadable σ c e := by
  rw [readRecord_eq, map_eq_error_iff] at h
  obtain ⟨i, ⟨column, j⟩, hi, value, before⟩ := inOrder_eq_error h
  rw [List.getElem?_zipIdx] at hi
  obtain ⟨_, hc, hj⟩ := Option.map_eq_some_iff.mp hi
  cases hj
  have inside := (List.getElem?_eq_some_iff.mp hc).1
  refine ⟨i, inside, by simpa [readField, map_eq_error_iff] using value, fun j hj => ?_⟩
  have other : (RowSource.columns σ c).zipIdx[j]? =
      some ((RowSource.columns σ c)[j], j) := by
    rw [List.getElem?_zipIdx, List.getElem?_eq_getElem (Nat.lt_trans hj inside)]
    simp
  obtain ⟨f, read⟩ := before j _ hj other
  obtain ⟨v, read, -⟩ := map_eq_ok_iff.mp read
  exact ⟨v, read⟩

theorem readRecord_eq_error_iff : readRecord σ c = .error e ↔ Unreadable σ c e := by
  refine ⟨.of_readRecord, ?_⟩
  rintro ⟨i, hi, value, before⟩
  cases h : readRecord σ c with
  | ok r =>
    have row := readRecord_eq_ok_iff.mp h
    have hr : i < r.fields.length := row.length_eq ▸ hi
    have read := (row.field i _ _ (List.getElem?_eq_getElem hr) (List.getElem?_eq_getElem hi)).2.2
    cases value.symm.trans read
  | error e' =>
    obtain ⟨j, hj, value', before'⟩ := Unreadable.of_readRecord h
    rcases Nat.lt_trichotomy i j with lt | rfl | gt
    · obtain ⟨v, read⟩ := before' i lt
      cases value.symm.trans read
    · cases value.symm.trans value'
      rfl
    · obtain ⟨v, read⟩ := before j gt
      cases value'.symm.trans read

end Row

/-- The cursor moves over rows, which are the records in order. -/
inductive RowsRead [RowSource σ κ] : κ → σ → List Record → κ → σ → Prop
  | start {c : κ} {s : σ} : RowsRead c s [] c s
  | row {c c' c'' : κ} {s s' s'' : σ} {r : Record} {records : List Record} :
    RowSource.advance c s = ((.ok true, c'), s') → IsRow σ c' r →
      RowsRead c' s' records c'' s'' → RowsRead c s (r :: records) c'' s''

/-- The next move reads no row, and why: there is none, the move fails, or a column does. -/
inductive RowsStop [RowSource σ κ] (c : κ) (s : σ) : Option PlanError → σ → Prop
  | finished {c' : κ} {s' : σ} :
    RowSource.advance c s = ((.ok false, c'), s') → RowsStop c s none s'
  | failed {c' : κ} {s' : σ} {e : PlanError} :
    RowSource.advance c s = ((.error e, c'), s') → RowsStop c s (some e) s'
  | unreadable {c' : κ} {s' : σ} {e : PlanError} :
    RowSource.advance c s = ((.ok true, c'), s') → Unreadable σ c' e → RowsStop c s (some e) s'

/-- All rows up to the end or the first error, and the state behind the last move. -/
def RowsEnd [RowSource σ κ] (c : κ) (s : σ) (records : List Record) (stop : Option PlanError)
    (s'' : σ) : Prop :=
  ∃ c' s', RowsRead c s records c' s' ∧ RowsStop c' s' stop s''

/-- All records, unless an error stopped them. -/
def drained (records : List Record) : Option PlanError → Except PlanError (List Record)
  | none => .ok records
  | some e => .error e

section Moves

variable [RowSource σ κ] {c c' : κ} {s s' : σ} {k : Nat}

theorem row_or_stops (c : κ) (s : σ) :
    (∃ c' s' r, RowSource.advance c s = ((.ok true, c'), s') ∧ IsRow σ c' r) ∨
      ∃ stop s', RowsStop c s stop s' := by
  rcases move : RowSource.advance c s with ⟨⟨moved, c'⟩, s'⟩
  cases moved with
  | error e => exact .inr ⟨some e, s', .failed move⟩
  | ok more =>
    cases more with
    | false => exact .inr ⟨none, s', .finished move⟩
    | true =>
      cases row : readRecord σ c' with
      | error e => exact .inr ⟨some e, s', .unreadable move (readRecord_eq_error_iff.mp row)⟩
      | ok r => exact .inl ⟨c', s', r, rfl, readRecord_eq_ok_iff.mp row⟩

namespace Records

theorem next_of_row {r : Record} (move : RowSource.advance c s = ((.ok true, c'), s'))
    (row : IsRow σ c' r) : next ⟨some c, k⟩ s = ((some (.ok r), ⟨some c', k + 1⟩), s') := by
  have read := readRecord_eq_ok_iff.mpr row
  simp only [next, bind, StateT.bind, move, read]
  rfl

theorem next_of_stops {stop : Option PlanError} (h : RowsStop c s stop s') :
    next ⟨some c, k⟩ s = ((stop.map .error, ⟨none, k⟩), s') := by
  cases h with
  | finished move =>
    simp only [next, bind, StateT.bind, move]
    rfl
  | failed move =>
    simp only [next, bind, StateT.bind, move]
    rfl
  | unreadable move column =>
    have read := readRecord_eq_error_iff.mpr column
    simp only [next, bind, StateT.bind, move, read]
    rfl

theorem next_closed (k : Nat) (s : σ) :
    next (⟨none, k⟩ : Records κ) s = ((none, ⟨none, k⟩), s) := rfl

/-- The items of a number of calls, and the sequence after them. -/
def nexts : (n : Nat) → Records κ → StateM σ (List (Option (Except PlanError Record)) × Records κ)
  | 0, r => return ([], r)
  | n + 1, r => do
    let (item, r) ← r.next
    let (items, r) ← nexts n r
    return (item :: items, r)

theorem nexts_succ {n : Nat} {r r' r'' : Records κ} {s s' s'' : σ}
    {item : Option (Except PlanError Record)} {items : List (Option (Except PlanError Record))}
    (one : r.next s = ((item, r'), s')) (more : nexts n r' s' = ((items, r''), s'')) :
    nexts (n + 1) r s = ((item :: items, r''), s'') := by
  simp only [nexts, bind, StateT.bind, one, more]
  rfl

theorem nexts_closed (n k : Nat) (s : σ) :
    nexts n (⟨none, k⟩ : Records κ) s = ((List.replicate n none, ⟨none, k⟩), s) := by
  induction n with
  | zero => rfl
  | succ n ih => exact nexts_succ (next_closed k s) ih

theorem collect_succ_of_row {n : Nat} {r : Record} {r' : Records κ} {s s' s'' : σ}
    {q : Records κ} {result : Except PlanError (List Record)}
    (one : q.next s = ((some (.ok r), r'), s')) (more : collect n r' s' = (result, s'')) :
    collect (n + 1) q s = (result.map (r :: ·), s'') := by
  simp only [collect, bind, StateT.bind, one, more]
  rfl

theorem collect_succ_of_stop {n : Nat} {stop : Option PlanError} {q q' : Records κ} {s s' : σ}
    (one : q.next s = ((stop.map .error, q'), s')) :
    collect (n + 1) q s = (drained [] stop, s') := by
  cases stop with
  | none =>
    simp only [collect, bind, StateT.bind, one]
    rfl
  | some e =>
    simp only [collect, bind, StateT.bind, one]
    rfl

/-- The first item as a result. -/
def transposed : Option (Except PlanError Record) → Except PlanError (Option Record)
  | none => .ok none
  | some item => item.map some

theorem first_of_next {r left : Records κ} {s s' : σ} {item : Option (Except PlanError Record)}
    (h : r.next s = ((item, left), s')) : first r s = ((transposed item, left.close), s') := by
  simp only [first, bind, StateT.bind, h]
  rcases item with _ | _ | record <;> rfl

/-- A call on an open sequence makes one move. -/
theorem next_moves (c : κ) (k : Nat) (s : σ) : ∃ moved c' s' item left,
    RowSource.advance c s = ((moved, c'), s') ∧ next ⟨some c, k⟩ s = ((item, left), s') := by
  obtain ⟨c', s', r, move, row⟩ | ⟨stop, s', stops⟩ := row_or_stops c s
  · exact ⟨_, c', s', _, _, move, next_of_row move row⟩
  · have one := next_of_stops (k := k) stops
    cases stops with
    | finished move => exact ⟨_, _, s', _, _, move, one⟩
    | failed move => exact ⟨_, _, s', _, _, move, one⟩
    | unreadable move _ => exact ⟨_, _, s', _, _, move, one⟩

theorem nexts_of_reads {c c' : κ} {s s' : σ} {records : List Record}
    (h : RowsRead c s records c' s') (k : Nat) : nexts records.length ⟨some c, k⟩ s =
      ((records.map fun r => some (.ok r), ⟨some c', k + records.length⟩), s') := by
  induction h generalizing k with
  | start => rfl
  | @row c c₁ c' s s₁ s' r records move row reads ih =>
    have more := ih (k + 1)
    rw [Nat.add_assoc, Nat.add_comm 1] at more
    exact nexts_succ (next_of_row move row) more

theorem collect_of_reads {c c' : κ} {s s' : σ} {records : List Record}
    (h : RowsRead c s records c' s') (k : Nat) :
    collect records.length ⟨some c, k⟩ s = (.ok records, s') := by
  induction h generalizing k with
  | start => rfl
  | row move row _ ih => exact collect_succ_of_row (next_of_row move row) (ih (k + 1))

/-- Behind the item that tells why the rows stopped there is nothing, and no further move. -/
theorem nexts_of_ends {c : κ} {s s' : σ} {records : List Record} {stop : Option PlanError}
    (h : RowsEnd c s records stop s') (k m : Nat) : nexts (records.length + 1 + m) ⟨some c, k⟩ s =
      ((records.map (fun r => some (.ok r)) ++ stop.map .error :: List.replicate m none,
        ⟨none, k + records.length⟩), s') := by
  obtain ⟨c', s₁, reads, stops⟩ := h
  induction reads generalizing k with
  | start =>
    rw [List.length_nil, Nat.zero_add, Nat.add_comm 1]
    exact nexts_succ (next_of_stops stops) (nexts_closed m k s')
  | @row c c₁ c' s s₁ s₂ r records move row reads ih =>
    have more := ih (k + 1) stops
    rw [Nat.add_assoc k, Nat.add_comm 1] at more
    rw [List.length_cons, Nat.add_right_comm (records.length + 1) 1 m]
    exact nexts_succ (next_of_row move row) more

theorem collect_of_ends {c : κ} {s s' : σ} {records : List Record} {stop : Option PlanError}
    (h : RowsEnd c s records stop s') (k m : Nat) :
    collect (records.length + 1 + m) ⟨some c, k⟩ s = (drained records stop, s') := by
  obtain ⟨c', s₁, reads, stops⟩ := h
  induction reads generalizing k with
  | start =>
    rw [List.length_nil, Nat.zero_add, Nat.add_comm 1]
    exact collect_succ_of_stop (next_of_stops stops)
  | @row c c₁ c' s s₁ s₂ r records move row reads ih =>
    have more := collect_succ_of_row (next_of_row move row) (ih (k + 1) stops)
    have add : drained (r :: records) stop = (drained records stop).map (r :: ·) := by
      cases stop <;> rfl
    rw [List.length_cons, Nat.add_right_comm (records.length + 1) 1 m, add]
    exact more

end Records

theorem reads_or_ends (n : Nat) (c : κ) (s : σ) :
    (∃ records c' s', RowsRead c s records c' s' ∧ records.length = n) ∨
      ∃ records stop s', RowsEnd c s records stop s' ∧ records.length < n := by
  induction n generalizing c s with
  | zero => exact .inl ⟨[], c, s, .start, rfl⟩
  | succ n ih =>
    obtain ⟨c₁, s₁, r, move, row⟩ | ⟨stop, s', stops⟩ := row_or_stops c s
    · obtain ⟨records, c', s', reads, length⟩ | ⟨records, stop, s', ends, length⟩ := ih c₁ s₁
      · exact .inl ⟨r :: records, c', s', .row move row reads, congrArg Nat.succ length⟩
      · obtain ⟨c', s₂, reads, stops⟩ := ends
        exact .inr ⟨r :: records, stop, s', ⟨c', s₂, .row move row reads, stops⟩,
          Nat.succ_lt_succ length⟩
    · exact .inr ⟨[], stop, s', ⟨c, s, .start, stops⟩, Nat.succ_pos n⟩

end Moves

theorem RowsRead.length_le [RowSource σ κ] [FiniteRows σ κ] {c c' : κ} {s s' : σ}
    {records : List Record} (h : RowsRead c s records c' s') :
    records.length ≤ FiniteRows.pending c s := by
  induction h with
  | start => exact Nat.zero_le _
  | row move _ _ ih => exact Nat.succ_le_of_lt (Nat.lt_of_le_of_lt ih (FiniteRows.pending_lt move))

theorem ends_within [RowSource σ κ] [FiniteRows σ κ] (c : κ) (s : σ) :
    ∃ records stop s', RowsEnd c s records stop s' ∧ records.length ≤ FiniteRows.pending c s := by
  obtain ⟨records, c', s', reads, length⟩ | ⟨records, stop, s', ends, length⟩ :=
    reads_or_ends (FiniteRows.pending c s + 1) c s
  · have := reads.length_le
    omega
  · exact ⟨records, stop, s', ends, Nat.le_of_lt_succ length⟩

namespace Records

theorem toList_of_ends [RowSource σ κ] [FiniteRows σ κ] {c : κ} {s s' : σ} {records : List Record}
    {stop : Option PlanError} (h : RowsEnd c s records stop s')
    (within : records.length ≤ FiniteRows.pending c s) (k : Nat) :
    toList ⟨some c, k⟩ s = (drained records stop, s') := by
  have all := collect_of_ends h k (FiniteRows.pending c s - records.length)
  have bound : records.length + 1 + (FiniteRows.pending c s - records.length) =
      FiniteRows.pending c s + 1 := by omega
  rw [bound] at all
  exact all

/-- A first record is the first of all, whatever follows. -/
theorem first_of_ends [RowSource σ κ] {c : κ} {s s' : σ} {records : List Record}
    (h : RowsEnd c s records none s') (k : Nat) :
    (first ⟨some c, k⟩ s).1.1 = .ok records.head? := by
  obtain ⟨c', s₁, reads, stops⟩ := h
  cases reads with
  | start =>
    rw [first_of_next (next_of_stops stops)]
    rfl
  | row move row _ =>
    rw [first_of_next (next_of_row move row)]
    rfl

/-- The calls on any cursor yield its rows and then what stopped them, once, and nothing behind it;
the number of records is counted, and the cursor is let go where the rows stop. Reading the first
record makes one move, whose outcome is that of a call, and lets go of the cursor. Where a cursor
comes to an end, reading all records gives them or the error that stopped them, and the first record
is the head of them all. -/
theorem sequence_of_cursor {σ κ : Type} :
    (∀ [RowSource σ κ] (c : κ) (k : Nat) (s : σ),
      (∀ n, nexts n (⟨none, k⟩ : Records κ) s = ((List.replicate n none, ⟨none, k⟩), s)) ∧
      (∀ n,
        (∃ records c' s', RowsRead c s records c' s' ∧ records.length = n ∧
          nexts n ⟨some c, k⟩ s =
            ((records.map fun r => some (.ok r), ⟨some c', k + records.length⟩), s') ∧
          collect n ⟨some c, k⟩ s = (.ok records, s')) ∨
        ∃ records stop s', RowsEnd c s records stop s' ∧ records.length < n ∧
          nexts n ⟨some c, k⟩ s =
            ((records.map (fun r => some (.ok r)) ++
                stop.map .error :: List.replicate (n - (records.length + 1)) none,
              ⟨none, k + records.length⟩), s') ∧
          collect n ⟨some c, k⟩ s = (drained records stop, s')) ∧
      ∃ moved c' s' item left, RowSource.advance c s = ((moved, c'), s') ∧
        next ⟨some c, k⟩ s = ((item, left), s') ∧
        first ⟨some c, k⟩ s = ((transposed item, ⟨none, left.read⟩), s')) ∧
    ∀ [RowSource σ κ] [FiniteRows σ κ] (c : κ) (k : Nat) (s : σ), ∃ records stop s',
      RowsEnd c s records stop s' ∧ toList ⟨some c, k⟩ s = (drained records stop, s') ∧
        ∀ all, (toList ⟨some c, k⟩ s).1 = .ok all →
          (first ⟨some c, k⟩ s).1.1 = .ok all.head? := by
  refine ⟨fun c k s => ⟨fun n => nexts_closed n k s, fun n => ?_, ?_⟩, fun c k s => ?_⟩
  · obtain ⟨records, c', s', reads, rfl⟩ | ⟨records, stop, s', ends, length⟩ := reads_or_ends n c s
    · exact .inl ⟨records, c', s', reads, rfl, nexts_of_reads reads k, collect_of_reads reads k⟩
    · have count : records.length + 1 + (n - (records.length + 1)) = n := by omega
      have items := nexts_of_ends ends k (n - (records.length + 1))
      have all := collect_of_ends ends k (n - (records.length + 1))
      rw [count] at items all
      exact .inr ⟨records, stop, s', ends, length, items, all⟩
  · obtain ⟨moved, c', s', item, left, move, one⟩ := next_moves c k s
    exact ⟨moved, c', s', item, left, move, one, first_of_next one⟩
  · obtain ⟨records, stop, s', ends, within⟩ := ends_within c s
    have all := toList_of_ends ends within k
    refine ⟨records, stop, s', ends, all, fun list h => ?_⟩
    rw [all] at h
    cases stop with
    | none =>
      cases h
      exact first_of_ends ends k
    | some e => cases h

end Records

/-- Moves that are told beforehand; the state counts them. -/
structure ScriptedRows where
  columns : List Column
  moves : List (Except PlanError (List (Except PlanError Value)))
  current : List (Except PlanError Value) := []

namespace ScriptedRows

def advance (c : ScriptedRows) : Except PlanError Bool × ScriptedRows :=
  match c.moves with
  | [] => (.ok false, c)
  | .error e :: rest => (.error e, ⟨c.columns, rest, []⟩)
  | .ok row :: rest => (.ok true, ⟨c.columns, rest, row⟩)

instance : RowSource Nat ScriptedRows where
  advance c := fun moved => (c.advance, moved + 1)
  columns := columns
  value c i := (c.current[i]?).getD (.ok .null)

instance : FiniteRows Nat ScriptedRows where
  pending c _ := c.moves.length
  pending_lt := by
    intro c c' s s' h
    have move : c.advance = (.ok true, c') := congrArg Prod.fst h
    obtain ⟨columns, moves, current⟩ := c
    match moves with
    | [] => cases move
    | .error e :: rest => cases move
    | .ok row :: rest =>
      cases move
      exact Nat.lt_succ_self _

def scores (moves : List (Except PlanError (List (Except PlanError Value)))) : ScriptedRows :=
  ⟨[⟨"Id", .int⟩, ⟨"Score", .double⟩], moves, []⟩

def score (id : Int32) (value : Value) : Record :=
  ⟨[⟨"Id", .int, .int id⟩, ⟨"Score", .double, value⟩]⟩

def twoScores : ScriptedRows :=
  scores [.ok [.ok (.int 1)], .ok [.ok (.int 2), .ok .null]]

/-- A column of the second row fails, and a row stands behind it. -/
def brokenScores : ScriptedRows :=
  scores [.ok [.ok (.int 1)], .ok [.ok (.int 2), .error .io], .ok [.ok (.int 3)]]

end ScriptedRows

namespace Records

open ScriptedRows

theorem sequence_of_cursor_scores :
    (toList (ofCursor twoScores) 0).1 = .ok [score 1 .null, score 2 .null] ∧
      (first (ofCursor twoScores) 0).1.1 = .ok (some (score 1 .null)) := by
  obtain ⟨-, finite⟩ := sequence_of_cursor (σ := Nat) (κ := ScriptedRows)
  obtain ⟨_, _, _, _, _, head⟩ := finite twoScores 0 0
  have all : (toList (ofCursor twoScores) 0).1 = .ok [score 1 .null, score 2 .null] := rfl
  exact ⟨all, head _ all⟩

/-- Two moves, one record and one error. -/
example : nexts 4 (ofCursor brokenScores) 0 =
    (([some (.ok (score 1 .null)), some (.error .io), none, none], ⟨none, 1⟩), 2) := rfl

end Records

end PlanSql
