import Mathlib.Data.List.MinMax
import PlanSql.Proofs.CompiledPlan
import PlanSql.Proofs.DelimitedText
import PlanSql.Readable

namespace PlanSql

variable {α : Type} {index : Nat}

/-- A count as a statement shows it; a constant of a type that is no number stands in quotes. -/
def CountText (c : Nat) (t : List Char) : Prop :=
  t = decimalDigits c ∨ t = '\'' :: (decimalDigits c ++ ['\''])

/-- What the end of a statement keeps of ranked rows. -/
inductive Keeps (index : Nat) : List Char → List (α × Nat) → List (α × Nat) → Prop
  | all {out : List (α × Nat)} : Keeps index [] out out
  | limit {c : Nat} {t : List Char} {out : List (α × Nat)} : CountText c t →
    Keeps index (" LIMIT ".toList ++ t) out (out.take c)
  | after {c : Nat} {t : List Char} {out : List (α × Nat)} : CountText c t →
    Keeps index (" WHERE ".toList ++ ("row_id".toList ++ decimalDigits index ++
      (" > ".toList ++ t))) out (out.filter fun row => c < row.2)
  | highest {out : List (α × Nat)} :
    Keeps index (" ORDER BY ".toList ++ ("row_id".toList ++ decimalDigits index ++
      " DESC LIMIT 1".toList)) out (out.argmax Prod.snd).toList

/-- A statement with its alias and its end around another. -/
def aliased (index : Nat) (prior ending : List Char) : List Char :=
  "SELECT * FROM (".toList ++
    (prior ++ (')' :: (" AS P".toList ++ (decimalDigits index ++ ending))))

/-- The ranked rows that a statement around `base` returns, where `base` returns `rows` in the order
of their ranks. -/
inductive Returns (index : Nat) (base : List Char) (rows : List α) :
    List Char → List (α × Nat) → Prop
  | base : Returns index base rows base (rows.zipIdx 1)
  | around {prior ending : List Char} {out kept : List (α × Nat)} :
    Returns index base rows prior out → Keeps index ending out kept →
      Returns index base rows (aliased index prior ending) kept

theorem last_parenthesis {s t r u : List Char} (hr : ')' ∉ r) (hu : ')' ∉ u)
    (h : s ++ ')' :: r = t ++ ')' :: u) : s = t ∧ r = u := by
  have reversed := congrArg List.reverse h
  rw [List.reverse_append, List.reverse_append, List.reverse_cons, List.reverse_cons,
    List.append_assoc, List.append_assoc] at reversed
  obtain ⟨ends, fronts⟩ := delimited_word (· != ')') (bne_of_notMem (by simpa using hr))
    (bne_of_notMem (by simpa using hu)) (by simp) (by simp) reversed
  exact ⟨List.reverse_injective (List.tail_eq_of_cons_eq fronts), List.reverse_injective ends⟩

theorem not_mem_decimalDigits {c : Char} (h : c.isDigit = false) (n : Nat) :
    c ∉ decimalDigits n := by
  intro hc
  rw [isDigit_of_mem_decimalDigits hc] at h
  cases h

theorem CountText.not_parenthesis {c : Nat} {t : List Char} (h : CountText c t) : ')' ∉ t := by
  have free : ')' ∉ decimalDigits c := not_mem_decimalDigits rfl c
  rcases h with rfl | rfl
  · exact free
  · simp [free]

theorem CountText.unique {c d : Nat} {t : List Char} (hc : CountText c t) (hd : CountText d t) :
    c = d := by
  have bare {c d : Nat} (h : decimalDigits c = decimalDigits d) : c = d := by
    have value := congrArg readDecimal h
    rwa [readDecimal_decimalDigits, readDecimal_decimalDigits] at value
  have mixed (c d : Nat) : decimalDigits c ≠ '\'' :: (decimalDigits d ++ ['\'']) := by
    intro h
    have quote : '\'' ∈ decimalDigits c := by rw [h]; exact List.mem_cons_self
    exact not_mem_decimalDigits rfl c quote
  rcases hc with rfl | rfl
  · rcases hd with h | h
    · exact bare h
    · exact absurd h (mixed c d)
  · rcases hd with h | h
    · exact absurd h.symm (mixed d c)
    · have inside : decimalDigits c ++ ['\''] = decimalDigits d ++ ['\''] :=
        List.tail_eq_of_cons_eq h
      exact bare (List.append_cancel_right inside)

theorem Keeps.not_parenthesis {ending : List Char} {out kept : List (α × Nat)}
    (h : Keeps index ending out kept) : ')' ∉ ending := by
  have digits : ')' ∉ decimalDigits index := not_mem_decimalDigits rfl index
  cases h with
  | all => simp
  | limit count => simp [count.not_parenthesis]
  | after count => simp [count.not_parenthesis, digits]
  | highest => simp [digits]

theorem Keeps.unique {ending ending' : List Char} {out kept kept' : List (α × Nat)}
    (h : Keeps index ending out kept) (h' : Keeps index ending' out kept')
    (same : ending = ending') : kept = kept' := by
  cases h with
  | all =>
    cases h' with
    | all => rfl
    | _ => cases same
  | limit count =>
    cases h' with
    | limit count' =>
      obtain rfl := List.append_cancel_left same
      rw [count.unique count']
    | all => cases same
    | _ => exact absurd same (append_ne_append rfl _ _)
  | after count =>
    cases h' with
    | after count' =>
      have rest := List.append_cancel_left same
      have counts := List.append_cancel_left rest
      obtain rfl := List.append_cancel_left counts
      rw [count.unique count']
    | all => cases same
    | _ => exact absurd same (append_ne_append rfl _ _)
  | highest =>
    cases h' with
    | highest => rfl
    | all => cases same
    | _ => exact absurd same (append_ne_append rfl _ _)

theorem length_lt_aliased (index : Nat) (prior ending : List Char) :
    prior.length < (aliased index prior ending).length := by
  have longer (before after : List Char) :
      prior.length < (before ++ (prior ++ ')' :: after)).length := by
    rw [List.length_append, List.length_append, List.length_cons]
    omega
  exact longer _ _

theorem aliased_inj {prior prior' ending ending' : List Char} (he : ')' ∉ ending)
    (he' : ')' ∉ ending') (h : aliased index prior ending = aliased index prior' ending') :
    prior = prior' ∧ ending = ending' := by
  have free {ending : List Char} (h : ')' ∉ ending) :
      ')' ∉ " AS P".toList ++ (decimalDigits index ++ ending) := by
    rw [List.mem_append, List.mem_append, not_or, not_or]
    exact ⟨by decide, not_mem_decimalDigits rfl index, h⟩
  obtain ⟨priors, rest⟩ := last_parenthesis (free he) (free he') (List.append_cancel_left h)
  exact ⟨priors, List.append_cancel_left (List.append_cancel_left rest)⟩

namespace Returns

variable {base text text' : List Char} {rows : List α} {out out' : List (α × Nat)}

theorem length_le (h : Returns index base rows text out) : base.length ≤ text.length := by
  induction h with
  | base => exact Nat.le_refl _
  | around _ _ ih => exact Nat.le_of_lt (Nat.lt_of_le_of_lt ih (length_lt_aliased ..))

/-- A statement around the base select is longer than that. -/
theorem ne_base (h : Returns index base rows text out) (ending : List Char) :
    aliased index text ending ≠ base := by
  intro same
  have longer := Nat.lt_of_le_of_lt h.length_le (length_lt_aliased index text ending)
  rw [same] at longer
  exact Nat.lt_irrefl _ longer

/-- A text is read in one way. -/
theorem unique (h : Returns index base rows text out) (h' : Returns index base rows text' out')
    (same : text = text') : out = out' := by
  induction h generalizing text' out' with
  | base =>
    cases h' with
    | base => rfl
    | around inner _ => exact absurd same.symm (inner.ne_base _)
  | around inner keeps ih =>
    cases h' with
    | base => exact absurd same (inner.ne_base _)
    | around inner' keeps' =>
      obtain ⟨priors, endings⟩ := aliased_inj keeps.not_parenthesis keeps'.not_parenthesis same
      obtain rfl := ih inner' priors
      exact keeps.unique keeps' endings

end Returns

/-- Rows that follow one another in the base select. -/
def Consecutive (out : List (α × Nat)) : Prop :=
  ∃ (before : Nat) (rows : List α), out = rows.zipIdx (before + 1)

/-- How many base rows stand before the first of these. -/
def leading (out : List (α × Nat)) : Nat := out.head?.elim 0 fun row => row.2 - 1

theorem leading_zipIdx {rows : List α} (h : rows ≠ []) (before : Nat) :
    leading (rows.zipIdx (before + 1)) = before := by
  cases rows with
  | nil => exact absurd rfl h
  | cons row rows => rfl

theorem filter_zipIdx (rows : List α) (before c : Nat) :
    (rows.zipIdx (before + 1)).filter (fun row => c < row.2) =
      (rows.zipIdx (before + 1)).drop (c - before) := by
  induction rows generalizing before with
  | nil => simp
  | cons row rows ih =>
    rw [List.zipIdx_cons, List.filter_cons, ih (before + 1)]
    by_cases below : c ≤ before
    · have none_skipped : c - before = 0 := by omega
      have none_later : c - (before + 1) = 0 := by omega
      have kept : c < before + 1 := by omega
      simp [none_skipped, none_later, kept]
    · have one_skipped : c - before = c - (before + 1) + 1 := by omega
      have skipped : ¬c < before + 1 := by omega
      simp [one_skipped, skipped]

namespace Consecutive

variable {out kept : List (α × Nat)}

theorem append (h : Consecutive (out ++ kept)) : Consecutive out ∧ Consecutive kept := by
  obtain ⟨before, rows, eq⟩ := h
  obtain ⟨front, rest, rfl, hf, hr⟩ := List.zipIdx_eq_append_iff.mp eq.symm
  refine ⟨⟨before, front, hf⟩, ⟨before + front.length, rest, ?_⟩⟩
  rw [hr, Nat.add_right_comm]

theorem split (h : Consecutive out) (c : Nat) :
    Consecutive (out.take c) ∧ Consecutive (out.drop c) := by
  rw [← List.take_append_drop c out] at h
  exact h.append

theorem last (h : Consecutive out) : Consecutive out.getLast?.toList := by
  cases hl : out.getLast? with
  | none => exact ⟨0, [], rfl⟩
  | some row =>
    obtain ⟨front, rfl⟩ := List.getLast?_eq_some_iff.mp hl
    exact (append h).2

/-- Greater ranks are those of the rows behind the first ones. -/
theorem filter_eq (h : Consecutive out) (c : Nat) :
    out.filter (fun row => c < row.2) = out.drop (c - leading out) := by
  obtain ⟨before, rows, rfl⟩ := h
  by_cases empty : rows = []
  · simp [empty]
  · rw [leading_zipIdx empty, filter_zipIdx]

/-- The highest rank is that of the last row. -/
theorem argmax_eq (h : Consecutive out) : out.argmax Prod.snd = out.getLast? := by
  obtain ⟨before, rows, rfl⟩ := h
  induction rows using List.reverseRecOn with
  | nil => rfl
  | append_singleton rows row ih =>
    rw [List.zipIdx_append, List.zipIdx_singleton, List.argmax_concat, List.getLast?_concat]
    cases highest : (rows.zipIdx (before + 1)).argmax Prod.snd with
    | none => rfl
    | some prior =>
      have below := List.snd_lt_add_of_mem_zipIdx (List.argmax_mem highest)
      exact if_pos below

end Consecutive

/-- What a partition operator does to a list of rows. -/
inductive RowOperator
  | take (count : Nat)
  | skip (count : Nat)
  | last
  | single

namespace RowOperator

/-- The operator on the result of the one before. -/
def apply (op : RowOperator) (out : List α) : List α :=
  match op with
  | take c => out.take c
  | skip c => out.drop c
  | last => out.getLast?.toList
  | single => out

/-- The operator where a count of rows to skip is one of base rows. -/
def kept (op : RowOperator) (out : List (α × Nat)) : List (α × Nat) :=
  match op with
  | skip c => out.drop (c - leading out)
  | _ => op.apply out

/-- Whether some rows are skipped. -/
def skips : RowOperator → Bool
  | skip c => c != 0
  | _ => false

/-- Whether the first row may be left out for a later one. -/
def moves : RowOperator → Bool
  | last => true
  | op => op.skips

theorem kept_consecutive {out : List (α × Nat)} (h : Consecutive out) (op : RowOperator) :
    Consecutive (op.kept out) := by
  cases op with
  | take c => exact (h.split c).1
  | skip c => exact (h.split _).2
  | last => exact h.last
  | single => exact h

theorem kept_of_not_skips {op : RowOperator} (h : op.skips = false) (out : List (α × Nat)) :
    op.kept out = op.apply out := by
  cases op with
  | skip c =>
    have zero : c = 0 := by simpa [skips] using h
    subst zero
    simp [kept, apply]
  | _ => rfl

theorem kept_of_leading {out : List (α × Nat)} (h : leading out = 0) (op : RowOperator) :
    op.kept out = op.apply out := by
  cases op with
  | skip c => simp [kept, apply, h]
  | _ => rfl

theorem leading_apply {op : RowOperator} {out : List (α × Nat)} (h : op.moves = false)
    (first : leading out = 0) : leading (op.apply out) = 0 := by
  cases op with
  | take c =>
    cases out with
    | nil => simpa [apply] using first
    | cons row out => cases c with
      | zero => rfl
      | succ c => exact first
  | skip c =>
    have zero : c = 0 := by simpa [moves, skips] using h
    subst zero
    simpa [apply] using first
  | last => cases h
  | single => exact first

theorem foldl_kept_of_not_skips {ops : List RowOperator} (h : ∀ op ∈ ops, op.skips = false)
    (out : List (α × Nat)) :
    ops.foldl (fun out op => op.kept out) out = ops.foldl (fun out op => op.apply out) out := by
  induction ops generalizing out with
  | nil => rfl
  | cons op ops ih =>
    rw [List.foldl_cons, List.foldl_cons, kept_of_not_skips (h op (by simp)),
      ih fun op hop => h op (by simp [hop])]

/-- Until the first row changes, base rows are counted from it. -/
theorem foldl_kept {ops : List RowOperator} {out : List (α × Nat)}
    (h : ops.Pairwise fun prior op => prior.moves = true → op.skips = false)
    (first : leading out = 0) :
    ops.foldl (fun out op => op.kept out) out = ops.foldl (fun out op => op.apply out) out := by
  induction h generalizing out with
  | nil => rfl
  | @cons op ops later _ ih =>
    rw [List.foldl_cons, List.foldl_cons, kept_of_leading first]
    cases moves : op.moves with
    | true => exact foldl_kept_of_not_skips (fun op hop => later op hop moves) _
    | false => exact ih (leading_apply moves first)

end RowOperator

/-- What an entry of a partition list stands for; counts are constants that are no negative
numbers. -/
inductive Denotes : Expression → RowOperator → Prop
  | take {operand : Option Expression} {v : Value} {declared : ValueType} {c : Nat} :
    Readable.integer? v = some (c : Int) →
    Denotes (.partition .take operand (some (.constant v declared))) (.take c)
  | skip {operand : Option Expression} {v : Value} {declared : ValueType} {c : Nat} :
    Readable.integer? v = some (c : Int) →
    Denotes (.partition .skip operand (some (.constant v declared))) (.skip c)
  | last {kind : PartitionKind} {operand count : Option Expression} : kind.plain = .last →
    Denotes (.partition kind operand count) .last
  | single {kind : PartitionKind} {operand count : Option Expression} : kind.plain = .single →
    Denotes (.partition kind operand count) .single

theorem countText_literal {v : Value} {c : Nat} (h : Readable.integer? v = some (c : Int))
    (declared : ValueType) : CountText c (v.literal declared) := by
  have digits : integerText (c : Int) = decimalDigits c := by simp [integerText]
  have shown : v.isNull = false ∧ v.specialFloat? = none ∧ v.plain = decimalDigits c := by
    cases v with
    | smallInt n | int n | bigInt n =>
      have value := Option.some.inj h
      refine ⟨rfl, rfl, ?_⟩
      rw [← digits, ← value]
      rfl
    | _ => cases h
  obtain ⟨notNull, usual, plain⟩ := shown
  unfold Value.literal
  rw [notNull, usual, plain]
  cases declared.isNumeric with
  | true => exact .inl rfl
  | false => exact .inr rfl

theorem Denotes.restriction {e : Expression} {op : RowOperator} (h : Denotes e op) :
    ∃ rule, Restriction.ofExpression e = .ok rule ∧ ∀ out : List (α × Nat), Consecutive out →
      Keeps index (rule.ending namedParameter index) out (op.kept out) := by
  cases h with
  | take count => exact ⟨.limit _, rfl, fun out _ => .limit (countText_literal count _)⟩
  | @skip _ _ declared _ count =>
    refine ⟨.after _, rfl, fun out consecutive => ?_⟩
    have keeps : Keeps index _ out _ := .after (countText_literal count declared)
    rwa [consecutive.filter_eq] at keeps
  | @last kind _ _ plain =>
    refine ⟨.last, ?_, fun out consecutive => ?_⟩
    · cases kind <;> first | rfl | cases plain
    · have keeps : Keeps index _ out _ := .highest
      rwa [consecutive.argmax_eq] at keeps
  | @single kind _ _ plain =>
    refine ⟨.all, ?_, fun out _ => .all⟩
    cases kind <;> first | rfl | cases plain

variable {es : List Expression} {ops : List RowOperator}

/-- Each operator's statement returns what the operator keeps of the rows of the one before. -/
theorem Returns.restrictions {base prior : List Char} {rows : List α} {out : List (α × Nat)}
    (h : List.Forall₂ Denotes es ops) (prior_rows : Returns index base rows prior out)
    (consecutive : Consecutive out) :
    ∃ rules, inOrder Restriction.ofExpression es = .ok rules ∧
      Returns index base rows (rules.foldl (Restriction.around namedParameter index) prior)
        (ops.foldl (fun out op => op.kept out) out) := by
  induction h generalizing prior out with
  | nil => exact ⟨[], rfl, prior_rows⟩
  | @cons e op es ops head _ ih =>
    obtain ⟨rule, entry, keeps⟩ := head.restriction
    have next : Returns index base rows (rule.around namedParameter index prior) (op.kept out) := by
      rw [rule.around_eq]
      exact .around prior_rows (keeps out consecutive)
    obtain ⟨rules, entries, returns⟩ := ih next (op.kept_consecutive consecutive)
    have all : inOrder Restriction.ofExpression (e :: es) = .ok (rule :: rules) :=
      bind_eq_ok_iff.mpr ⟨rule, entry, bind_eq_ok_iff.mpr ⟨rules, entries, rfl⟩⟩
    exact ⟨rule :: rules, all, returns⟩

theorem restrictText_kept (h : List.Forall₂ Denotes es ops) (sql : String) (index : Nat)
    (rows : List α) :
    ∃ text, restrictText sql es index = .ok text ∧
      ∀ out, Returns index sql.toList rows text.toList out ↔
        out = ops.foldl (fun out op => op.kept out) (rows.zipIdx 1) := by
  have start : Returns index sql.toList rows sql.toList (rows.zipIdx 1) := .base
  obtain ⟨rules, entries, returns⟩ := Returns.restrictions h start ⟨0, rows, rfl⟩
  refine ⟨_, bind_eq_ok_iff.mpr ⟨rules, entries, rfl⟩, fun out => ?_⟩
  rw [String.toList_ofList]
  exact ⟨fun other => other.unique returns rfl, fun same => same ▸ returns⟩

/-- The restricted statement returns what the operators keep one after the other. Where no row is
skipped behind one that moved the first row, these are the rows of the operators' composition. -/
theorem restrictText_returns (h : List.Forall₂ Denotes es ops) (sql : String) (index : Nat)
    (rows : List α) :
    ∃ text, restrictText sql es index = .ok text ∧
      (∀ out, Returns index sql.toList rows text.toList out ↔
        out = ops.foldl (fun out op => op.kept out) (rows.zipIdx 1)) ∧
      ((ops.Pairwise fun prior op => prior.moves = true → op.skips = false) →
        ∀ out, Returns index sql.toList rows text.toList out ↔
          out = ops.foldl (fun out op => op.apply out) (rows.zipIdx 1)) := by
  have first : leading (rows.zipIdx 1) = 0 := by cases rows <;> rfl
  obtain ⟨text, ok, rows_iff⟩ := restrictText_kept h sql index rows
  refine ⟨text, ok, rows_iff, fun order out => ?_⟩
  rw [rows_iff, RowOperator.foldl_kept order first]

def baseSelect : String :=
  "SELECT row_number() OVER (ORDER BY \"Id\") AS row_id0, * FROM \"Acme.Hr.Employee\""

/-- The last one of the two rows behind the first. -/
def pageEntries : List Expression :=
  [.skip (.ofValue (.int 1)), .take (.ofValue (.bigInt 2)), .partition .lastOrDefault none none]

theorem restrictText_returns_page :
    List.Forall₂ Denotes pageEntries [.skip 1, .take 2, .last] ∧
      ∃ text, restrictText baseSelect pageEntries 0 = .ok text ∧ ∀ out,
        Returns 0 baseSelect.toList [10, 20, 30, 40] text.toList out ↔ out = [(30, 3)] := by
  have denotes : List.Forall₂ Denotes pageEntries [.skip 1, .take 2, .last] :=
    .cons (.skip rfl) (.cons (.take rfl) (.cons (.last rfl) .nil))
  obtain ⟨text, ok, -, composed⟩ := restrictText_returns denotes baseSelect 0 [10, 20, 30, 40]
  exact ⟨denotes, text, ok, composed (by decide)⟩

def doubleSkip : List Expression := [.skip (.ofValue (.int 1)), .skip (.ofValue (.int 1))]

/-- The second operator skips no row: no rank is lower for the first row being left out. -/
theorem skip_behind_skip :
    List.Forall₂ Denotes doubleSkip [.skip 1, .skip 1] ∧
      ∃ text, restrictText baseSelect doubleSkip 0 = .ok text ∧
        Returns 0 baseSelect.toList [10, 20, 30] text.toList [(20, 2), (30, 3)] ∧
        ¬Returns 0 baseSelect.toList [10, 20, 30] text.toList
          ([RowOperator.skip 1, .skip 1].foldl (fun out op => op.apply out)
            ([10, 20, 30].zipIdx 1)) := by
  have denotes : List.Forall₂ Denotes doubleSkip [.skip 1, .skip 1] :=
    .cons (.skip rfl) (.cons (.skip rfl) .nil)
  obtain ⟨text, ok, rows_iff⟩ := restrictText_kept denotes baseSelect 0 [10, 20, 30]
  refine ⟨denotes, text, ok, (rows_iff _).mpr rfl, fun composed => ?_⟩
  exact absurd ((rows_iff _).mp composed) (by decide)

end PlanSql
