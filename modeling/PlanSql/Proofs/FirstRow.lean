import Mathlib.Data.List.MinMax
import PlanSql.Proofs.PartitionRows

namespace PlanSql

variable {α κ : Type} [LinearOrder κ] {index : Nat} {identity : α → κ}

/-- The end of a statement that is ordered by `Id`. -/
def identityEnding : List Char := " ORDER BY ".toList ++ ("\"Id\"".toList ++ " LIMIT 1".toList)

/-- What the end of a statement may keep of ranked rows with an `Id`: a row may come first in the
order by `Id` if no other has a lesser one. -/
inductive MayKeep (index : Nat) (identity : α → κ) :
    List Char → List (α × Nat) → List (α × Nat) → Prop
  | ranked {ending : List Char} {out kept : List (α × Nat)} : Keeps index ending out kept →
    MayKeep index identity ending out kept
  | ordered {out sorted : List (α × Nat)} : sorted.Perm out →
    sorted.Pairwise (fun a b => identity a.1 ≤ identity b.1) →
      MayKeep index identity identityEnding out (sorted.take 1)

/-- The ranked rows that a restriction of `base` may return, where `base` returns `rows` in the
order of their ranks. -/
def Answers (index : Nat) (base : List Char) (identity : α → κ) (rows : List α) (text : List Char)
    (out : List (α × Nat)) : Prop :=
  ∃ ending, text = aliased index base ending ∧ MayKeep index identity ending (rows.zipIdx 1) out

theorem Keeps.ne_ordered {ending : List Char} {out kept : List (α × Nat)}
    (h : Keeps index ending out kept) : ending ≠ identityEnding := by
  intro same
  cases h with
  | all => cases same
  | highest =>
    have column := List.append_cancel_left same
    rw [List.append_assoc] at column
    exact append_ne_append rfl _ _ column
  | _ => exact absurd same (append_ne_append rfl _ _)

theorem mayKeep_ranked_iff {ending : List Char} {out kept kept' : List (α × Nat)}
    (h : Keeps index ending out kept) :
    MayKeep index identity ending out kept' ↔ kept' = kept := by
  constructor
  · intro h'
    generalize same : ending = ending' at h'
    cases h' with
    | ranked h' => exact h'.unique h same.symm
    | ordered => exact absurd same h.ne_ordered
  · rintro rfl
    exact .ranked h

theorem mayKeep_ordered_iff {out kept : List (α × Nat)} (nonempty : out ≠ []) :
    MayKeep index identity identityEnding out kept ↔
      ∃ least ∈ out, kept = [least] ∧ ∀ other ∈ out, identity least.1 ≤ identity other.1 := by
  constructor
  · intro h
    generalize same : identityEnding = ending at h
    cases h with
    | ranked h => exact absurd same.symm h.ne_ordered
    | @ordered out sorted perm pairwise =>
      cases sorted with
      | nil => exact absurd perm.nil_eq.symm nonempty
      | cons least rest =>
        refine ⟨least, perm.subset (by simp), rfl, fun other mem => ?_⟩
        rcases List.mem_cons.mp (perm.symm.subset mem) with rfl | mem
        · exact le_rfl
        · exact (List.pairwise_cons.mp pairwise).1 other mem
  · rintro ⟨least, mem, rfl, lowest⟩
    obtain ⟨front, rest, rfl⟩ := List.append_of_mem mem
    let lower : α × Nat → α × Nat → Bool := fun a b => identity a.1 ≤ identity b.1
    have trans (a b c : α × Nat) : lower a b = true → lower b c = true → lower a c = true := by
      simpa [lower] using le_trans
    have total (a b : α × Nat) : (lower a b || lower b a) = true := by
      simpa [lower] using le_total _ _
    let others := (front ++ rest).mergeSort lower
    have sorted : others.Pairwise fun a b => identity a.1 ≤ identity b.1 := by
      simpa [lower] using List.pairwise_mergeSort trans total (front ++ rest)
    have perm : (least :: others).Perm (front ++ least :: rest) :=
      ((List.mergeSort_perm _ _).cons least).trans List.perm_middle.symm
    have first : ∀ other ∈ others, identity least.1 ≤ identity other.1 := fun other mem =>
      lowest other (perm.subset (List.mem_cons_of_mem _ mem))
    exact .ordered perm (List.pairwise_cons.mpr ⟨first, sorted⟩)

/-- A row of the least `Id` among some, if there are any. -/
theorem exists_least {out : List (α × Nat)} (nonempty : out ≠ []) (identity : α → κ) :
    ∃ least ∈ out, ∀ other ∈ out, identity least.1 ≤ identity other.1 := by
  let key : α × Nat → κ := fun row => identity row.1
  cases found : out.argmin key with
  | none => exact absurd (List.argmin_eq_none.mp found) nonempty
  | some least =>
    have lowest : ∀ other ∈ out, key least ≤ key other := fun other mem =>
      List.le_of_mem_argmin mem found
    exact ⟨least, List.argmin_mem found, lowest⟩

/-- No row but the first may be of the least `Id` just when all others have a greater one. -/
theorem only_first_least_iff {row : α} {rows : List α} :
    (∀ least ∈ (row :: rows).zipIdx 1,
      (∀ other ∈ (row :: rows).zipIdx 1, identity least.1 ≤ identity other.1) → least = (row, 1)) ↔
      ∀ other ∈ rows, identity row < identity other := by
  rw [List.zipIdx_cons]
  constructor
  · intro only other member
    by_contra not_less
    have below : identity other ≤ identity row := not_lt.mp not_less
    rw [← List.zipIdx_map_fst 2 rows] at member
    obtain ⟨ranked, inside, rfl⟩ := List.mem_map.mp member
    obtain ⟨least, mem, lowest⟩ := exists_least (List.ne_nil_of_mem inside) identity
    have lowest_of_all : ∀ x ∈ (row, 1) :: rows.zipIdx 2, identity least.1 ≤ identity x.1 := by
      intro x hx
      rcases List.mem_cons.mp hx with rfl | hx
      · exact (lowest ranked inside).trans below
      · exact lowest x hx
    obtain rfl := only least (List.mem_cons_of_mem _ mem) lowest_of_all
    have behind := List.le_snd_of_mem_zipIdx mem
    omega
  · intro less least mem lowest
    rcases List.mem_cons.mp mem with first | inside
    · exact first
    · have greater := less least.1 (List.fst_mem_of_mem_zipIdx inside)
      exact absurd (lowest (row, 1) (by simp)) (not_le.mpr greater)

theorem aliased_cancel {prior ending ending' : List Char}
    (h : aliased index prior ending = aliased index prior ending') : ending = ending' := by
  have endings := List.append_cancel_left (List.append_cancel_left h)
  exact List.append_cancel_left (List.append_cancel_left (List.tail_eq_of_cons_eq endings))

variable {p : Plan} {base : String}

namespace Plan

/-- A further partition operator restricts the statement of the plan without it. -/
theorem statement_partition {s : Statement} {e : Expression} {rule : Restriction}
    (compiled : p.statement = .ok s) (entry : Restriction.ofExpression e = .ok rule) :
    (p.partition e).statement = .ok (.restrict p.level.index rule s) := by
  have further {l : Level} {s₀ : Statement} (h : l.restricted s₀ = .ok s) :
      Level.restricted { l with partitions := l.partitions ++ [e] } s₀ =
        .ok (.restrict l.index rule s) := by
    obtain ⟨rules, entries, rfl⟩ := Level.restricted_eq_ok_iff.mp h
    rw [inOrder_eq_ok_iff] at entries
    refine Level.restricted_eq_ok_iff.mpr ⟨rules ++ [rule], ?_, ?_⟩
    · rw [inOrder_eq_ok_iff]
      exact List.rel_append entries (.cons entry .nil)
    · rw [List.foldl_append]
      rfl
  cases p with
  | base l =>
    obtain ⟨c, clauses, restricted⟩ := statement_base.mp compiled
    exact statement_base.mpr ⟨c, clauses, further restricted⟩
  | nested l q =>
    obtain ⟨inner, c, below, clauses, restricted⟩ := statement_nested.mp compiled
    exact statement_nested.mpr ⟨inner, c, below, clauses, further restricted⟩

theorem sql_partition {e : Expression} {rule : Restriction} (compiled : p.sql = .ok base)
    (entry : Restriction.ofExpression e = .ok rule) :
    (p.partition e).sql = .ok (String.ofList (aliased p.level.index base.toList
      (rule.ending namedParameter p.level.index))) := by
  obtain ⟨s, statement, rfl⟩ := map_eq_ok_iff.mp compiled
  refine map_eq_ok_iff.mpr ⟨_, statement_partition statement entry, congrArg String.ofList ?_⟩
  rw [String.toList_ofList]
  exact rule.around_eq namedParameter p.level.index (s.text namedParameter)

/-- With a further entry the plan compiles, and its statement returns just the rows that `result`
allows. -/
def ReturnsWith (p : Plan) (base : String) (identity : α → κ) (rows : List α) (e : Expression)
    (result : List (α × Nat) → Prop) : Prop :=
  ∃ text, (p.partition e).sql = .ok text ∧
    ∀ out, Answers p.level.index base.toList identity rows text.toList out ↔ result out

theorem ReturnsWith.iff {e : Expression} {result result' : List (α × Nat) → Prop} {rows : List α}
    (h : p.ReturnsWith base identity rows e result) :
    p.ReturnsWith base identity rows e result' ↔ ∀ out, result out ↔ result' out := by
  obtain ⟨text, compiled, answers⟩ := h
  constructor
  · rintro ⟨text', compiled', answers'⟩ out
    obtain rfl := Except.ok.inj (compiled.symm.trans compiled')
    exact (answers out).symm.trans (answers' out)
  · exact fun same => ⟨text, compiled, fun out => (answers out).trans (same out)⟩

theorem returnsWith_ending {e : Expression} {rule : Restriction} (compiled : p.sql = .ok base)
    (entry : Restriction.ofExpression e = .ok rule) (identity : α → κ) (rows : List α) :
    p.ReturnsWith base identity rows e (MayKeep p.level.index identity
      (rule.ending namedParameter p.level.index) (rows.zipIdx 1)) := by
  refine ⟨_, sql_partition compiled entry, fun out => ?_⟩
  rw [String.toList_ofList]
  constructor
  · rintro ⟨ending, same, kept⟩
    rwa [aliased_cancel same]
  · exact fun kept => ⟨_, rfl, kept⟩

/-- An operator of another kind than `First` returns what it keeps by the ranks. -/
theorem returnsWith_kept {e : Expression} {op : RowOperator} (compiled : p.sql = .ok base)
    (denotes : Denotes e op) (identity : α → κ) (rows : List α) :
    p.ReturnsWith base identity rows e (· = op.kept (rows.zipIdx 1)) := by
  obtain ⟨rule, entry, keeps⟩ := denotes.restriction
  exact (returnsWith_ending compiled entry identity rows).iff.mpr fun out =>
    mayKeep_ranked_iff (keeps _ ⟨0, rows, rfl⟩)

theorem returnsWith_least {kind : PartitionKind} (first : kind.plain = .first)
    (operand count : Option Expression) (compiled : p.sql = .ok base) (identity : α → κ)
    {rows : List α} (nonempty : rows ≠ []) :
    p.ReturnsWith base identity rows (.partition kind operand count) fun out =>
      ∃ least ∈ rows.zipIdx 1, out = [least] ∧
        ∀ other ∈ rows.zipIdx 1, identity least.1 ≤ identity other.1 := by
  have entry : Restriction.ofExpression (.partition kind operand count) = .ok .first := by
    cases kind <;> first | rfl | cases first
  have ranked : rows.zipIdx 1 ≠ [] := by simpa using nonempty
  exact (returnsWith_ending compiled entry identity rows).iff.mpr fun out =>
    mayKeep_ordered_iff ranked

/-- `First` returns a row of the least `Id`, whatever the ranks are, so it returns the row of rank
one just when all other rows have a greater `Id`; `Last` returns the row of the highest rank, and
`Take` and `Skip` split the rows at a rank. -/
theorem first_returns_rank_one_iff (compiled : p.sql = .ok base) (identity : α → κ) (row : α)
    (rows : List α) :
    (∀ kind operand count, PartitionKind.plain kind = .first →
      p.ReturnsWith base identity (row :: rows) (.partition kind operand count) (fun out =>
        ∃ least ∈ (row :: rows).zipIdx 1, out = [least] ∧
          ∀ other ∈ (row :: rows).zipIdx 1, identity least.1 ≤ identity other.1) ∧
      (p.ReturnsWith base identity (row :: rows) (.partition kind operand count)
        (· = [(row, 1)]) ↔ ∀ other ∈ rows, identity row < identity other)) ∧
    (∀ kind operand count, PartitionKind.plain kind = .last →
      p.ReturnsWith base identity (row :: rows) (.partition kind operand count)
        (· = [((row :: rows).getLast (by simp), (row :: rows).length)])) ∧
    ∀ (v : Value) (declared : ValueType) (c : Nat), Readable.integer? v = some (c : Int) →
      p.ReturnsWith base identity (row :: rows) (.take (.constant v declared))
        (· = ((row :: rows).zipIdx 1).take c) ∧
      p.ReturnsWith base identity (row :: rows) (.skip (.constant v declared))
        (· = ((row :: rows).zipIdx 1).drop c) := by
  refine ⟨fun kind operand count first => ?_, fun kind operand count last => ?_,
    fun v declared c count => ⟨?_, ?_⟩⟩
  · have least := returnsWith_least first operand count compiled identity
      (List.cons_ne_nil row rows)
    refine ⟨least, least.iff.trans ?_⟩
    rw [← only_first_least_iff]
    constructor
    · intro same least mem lowest
      exact List.singleton_inj.mp ((same [least]).mp ⟨least, mem, rfl, lowest⟩)
    · intro only out
      constructor
      · rintro ⟨least, mem, rfl, lowest⟩
        rw [only least mem lowest]
      · rintro rfl
        have ranked : (row :: rows).zipIdx 1 ≠ [] := List.cons_ne_nil (row, 1) (rows.zipIdx 2)
        obtain ⟨least, mem, lowest⟩ := exists_least ranked identity
        obtain rfl := only least mem lowest
        exact ⟨_, mem, rfl, lowest⟩
  · have denotes : Denotes (.partition kind operand count) .last := .last last
    have kept : p.ReturnsWith base identity (row :: rows) (.partition kind operand count)
        (· = ((row :: rows).zipIdx 1).getLast?.toList) :=
      returnsWith_kept compiled denotes identity (row :: rows)
    have highest : ((row :: rows).zipIdx 1).getLast? =
        some ((row :: rows).getLast (by simp), (row :: rows).length) := by
      rw [List.getLast?_zipIdx, List.getLast?_eq_some_getLast (List.cons_ne_nil row rows),
        Option.map_some, Nat.add_sub_cancel_left]
    rwa [highest] at kept
  · exact returnsWith_kept compiled (.take count) identity (row :: rows)
  · have denotes : Denotes (.skip (.constant v declared)) (.skip c) := .skip count
    have kept := returnsWith_kept compiled denotes identity (row :: rows)
    have leads : leading ((row :: rows).zipIdx 1) = 0 := rfl
    rwa [RowOperator.kept, leads, Nat.sub_zero] at kept

def employeesByName : Plan :=
  (ofTable ⟨"Acme.Hr", "Employee"⟩).orderBy ⟨⟨"Acme.Hr", "Employee"⟩, "FirstName"⟩ .ascending

def employeesByNameText : String :=
  "SELECT row_number() OVER (ORDER BY \"Acme.Hr.Employee\".\"FirstName\" ASC) AS row_id0, *" ++
    " FROM \"Acme.Hr.Employee\" ORDER BY \"Acme.Hr.Employee\".\"FirstName\" ASC"

set_option maxRecDepth 4000 in
theorem employeesByName_sql : employeesByName.sql = .ok employeesByNameText := rfl

theorem first_returns_rank_one_iff_names :
    employeesByName.sql = .ok employeesByNameText ∧
      (employeesByName.ReturnsWith employeesByNameText Prod.snd
        [("Ada", 2), ("Bo", 1), ("Cy", 3)] (.partition .first none none) (fun out =>
          ∃ least ∈ [(("Ada", 2), 1), (("Bo", 1), 2), (("Cy", 3), 3)], out = [least] ∧
            ∀ other ∈ [(("Ada", 2), 1), (("Bo", 1), 2), (("Cy", 3), 3)],
              least.1.2 ≤ other.1.2)) ∧
      employeesByName.ReturnsWith employeesByNameText Prod.snd
        [("Ada", 2), ("Bo", 1), ("Cy", 3)] (.partition .lastOrDefault none none)
        (· = [(("Cy", 3), 3)]) := by
  have first_last := first_returns_rank_one_iff employeesByName_sql (Prod.snd : String × Nat → Nat)
    ("Ada", 2) [("Bo", 1), ("Cy", 3)]
  exact ⟨employeesByName_sql, (first_last.1 .first none none rfl).1,
    first_last.2.1 .lastOrDefault none none rfl⟩

/-- Of two employees, `First` returns the one whose name is last. -/
theorem first_returns_rank_two :
    employeesByName.ReturnsWith employeesByNameText Prod.snd [("Ada", 2), ("Bo", 1)]
        (.partition .first none none) (· = [(("Bo", 1), 2)]) ∧
      ¬employeesByName.ReturnsWith employeesByNameText Prod.snd [("Ada", 2), ("Bo", 1)]
        (.partition .first none none) (· = [(("Ada", 2), 1)]) := by
  have first : PartitionKind.plain .first = .first := rfl
  have least := returnsWith_least first none none employeesByName_sql
    (Prod.snd : String × Nat → Nat) (List.cons_ne_nil ("Ada", 2) [("Bo", 1)])
  have returned : employeesByName.ReturnsWith employeesByNameText Prod.snd
      [("Ada", 2), ("Bo", 1)] (.partition .first none none) (· = [(("Bo", 1), 2)]) := by
    refine least.iff.mpr fun out => ?_
    simp
  refine ⟨returned, fun rank_one => ?_⟩
  have same := (returned.iff.mp rank_one [(("Bo", 1), 2)]).mp rfl
  simp at same

end Plan

end PlanSql
