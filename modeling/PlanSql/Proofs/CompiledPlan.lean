import Mathlib.Data.List.Forall2
import PlanSql.Statement

namespace PlanSql

theorem bind_eq_ok_iff {α β : Type} {e : Except PlanError α} {f : α → Except PlanError β} {b : β} :
    e >>= f = .ok b ↔ ∃ a, e = .ok a ∧ f a = .ok b := by
  cases e with
  | error e =>
    constructor
    · intro h
      cases h
    · rintro ⟨_, h, -⟩
      cases h
  | ok a =>
    constructor
    · exact fun h => ⟨a, rfl, h⟩
    · rintro ⟨_, h, hf⟩
      cases h
      exact hf

theorem map_eq_ok_iff {α β : Type} {e : Except PlanError α} {f : α → β} {b : β} :
    e.map f = .ok b ↔ ∃ a, e = .ok a ∧ f a = b := by
  cases e with
  | error e =>
    constructor
    · intro h
      cases h
    · rintro ⟨_, h, -⟩
      cases h
  | ok a =>
    constructor
    · exact fun h => ⟨a, rfl, Except.ok.inj h⟩
    · rintro ⟨_, h, hf⟩
      cases h
      exact congrArg _ hf

theorem inOrder_eq_ok_iff {α β : Type} {f : α → Except PlanError β} {as : List α} {bs : List β} :
    inOrder f as = .ok bs ↔ List.Forall₂ (fun a b => f a = .ok b) as bs := by
  induction as generalizing bs with
  | nil =>
    rw [inOrder, List.forall₂_nil_left_iff]
    exact ⟨fun h => (Except.ok.inj h).symm, fun h => h ▸ rfl⟩
  | cons a as ih =>
    rw [inOrder, List.forall₂_cons_left_iff]
    constructor
    · intro h
      obtain ⟨b, hb, h⟩ := bind_eq_ok_iff.mp h
      obtain ⟨rest, hrest, h⟩ := bind_eq_ok_iff.mp h
      exact ⟨b, rest, hb, ih.mp hrest, (Except.ok.inj h).symm⟩
    · rintro ⟨b, rest, hb, hrest, rfl⟩
      exact bind_eq_ok_iff.mpr ⟨b, hb, bind_eq_ok_iff.mpr ⟨rest, ih.mpr hrest, rfl⟩⟩

theorem Expression.scalar_operation {op : InfixOperator} {left right : Expression} {s : Scalar} :
    (operation op left right).scalar = .ok s ↔
      ∃ a b, left.scalar = .ok a ∧ right.scalar = .ok b ∧ s = .operation op a b := by
  rw [scalar]
  constructor
  · intro h
    obtain ⟨a, ha, h⟩ := bind_eq_ok_iff.mp h
    obtain ⟨b, hb, h⟩ := bind_eq_ok_iff.mp h
    exact ⟨a, b, ha, hb, (Except.ok.inj h).symm⟩
  · rintro ⟨a, b, ha, hb, rfl⟩
    exact bind_eq_ok_iff.mpr ⟨a, ha, bind_eq_ok_iff.mpr ⟨b, hb, rfl⟩⟩

/-- The operator whose text an operator shares: what it does for no rows is left to the caller. -/
def PartitionKind.plain : PartitionKind → PartitionKind
  | .firstOrDefault => .first
  | .lastOrDefault => .last
  | .singleOrDefault => .single
  | kind => kind

/-- The count of an operator that takes one. -/
def Expression.count? : Expression → Option Expression
  | .partition .take _ count | .partition .skip _ count => count
  | _ => none

namespace Restriction

/-- The count of a restriction that has one. -/
def count? : Restriction → Option Scalar
  | limit count | after count => some count
  | _ => none

theorem rel_count {e : Expression} {r : Restriction} (h : ofExpression e = .ok r) :
    Option.Rel (fun count s => count.scalar = .ok s) e.count? r.count? := by
  cases e with
  | partition kind operand count =>
    cases kind with
    | take | skip =>
      cases count with
      | none => cases h
      | some count =>
        cases hs : count.scalar with
        | error e => simp [ofExpression, hs, Except.map] at h
        | ok s =>
          simp only [ofExpression, hs, Except.map, Except.ok.injEq] at h
          subst h
          exact .some hs
    | _ =>
      obtain rfl := Except.ok.inj h
      exact .none
  | _ => cases h

/-- What an entry of a partition list is, by the restriction that it becomes. -/
theorem ofExpression_eq_ok {e : Expression} {r : Restriction} (h : ofExpression e = .ok r) :
    ∃ kind operand count, e = .partition kind operand count ∧
      match r with
      | first => kind.plain = .first
      | last => kind.plain = .last
      | all => kind.plain = .single
      | limit s => kind = .take ∧ ∃ c, count = some c ∧ c.scalar = .ok s
      | after s => kind = .skip ∧ ∃ c, count = some c ∧ c.scalar = .ok s := by
  cases e with
  | partition kind operand count =>
    refine ⟨kind, operand, count, rfl, ?_⟩
    cases kind with
    | take | skip =>
      cases count with
      | none => cases h
      | some c =>
        obtain ⟨s, hs, rfl⟩ := map_eq_ok_iff.mp h
        exact ⟨rfl, c, rfl, hs⟩
    | _ =>
      obtain rfl := Except.ok.inj h
      rfl
  | _ => cases h

/-- The text after the alias of the prior statement. -/
def ending (param : ParameterText) (index : Nat) : Restriction → List Char
  | first => ' ' :: (idOrder ++ " LIMIT 1".toList)
  | last => " ORDER BY ".toList ++ (rankName index ++ " DESC LIMIT 1".toList)
  | all => []
  | limit count => " LIMIT ".toList ++ count.text param
  | after count => " WHERE ".toList ++ (rankName index ++ (" > ".toList ++ count.text param))

theorem around_eq (param : ParameterText) (index : Nat) (prior : List Char) (r : Restriction) :
    r.around param index prior = "SELECT * FROM (".toList ++ (prior ++
      (") AS P".toList ++ (decimalDigits index ++ r.ending param index))) := by
  cases r <;> rfl

end Restriction

/-- Restrictions around a statement, one for each entry of a partition list. -/
inductive Restricted (index : Nat) (s : Statement) : List Expression → Statement → Prop
  | nil : Restricted index s [] s
  | snoc {es : List Expression} {out : Statement} {e : Expression} {rule : Restriction} :
    Restricted index s es out → Restriction.ofExpression e = .ok rule →
      Restricted index s (es ++ [e]) (.restrict index rule out)

namespace Level

theorem clauses_eq_ok_iff {l : Level} {c : Clauses} : l.clauses = .ok c ↔
    inOrder Expression.scalar l.filters = .ok c.filters ∧
      inOrder Expression.scalar l.sorts = .ok c.sorts ∧
        inOrder Expression.scalar l.projections = .ok c.columns := by
  unfold clauses
  constructor
  · intro h
    obtain ⟨filters, hf, h⟩ := bind_eq_ok_iff.mp h
    obtain ⟨sorts, hs, h⟩ := bind_eq_ok_iff.mp h
    obtain ⟨columns, hc, h⟩ := bind_eq_ok_iff.mp h
    obtain rfl := Except.ok.inj h
    exact ⟨hf, hs, hc⟩
  · rintro ⟨hf, hs, hc⟩
    exact bind_eq_ok_iff.mpr ⟨_, hf, bind_eq_ok_iff.mpr ⟨_, hs, bind_eq_ok_iff.mpr ⟨_, hc, rfl⟩⟩⟩

theorem restricted_eq_ok_iff {l : Level} {s out : Statement} : l.restricted s = .ok out ↔
    ∃ rules, inOrder Restriction.ofExpression l.partitions = .ok rules ∧
      out = rules.foldl (fun s rule => .restrict l.index rule s) s := by
  unfold restricted
  constructor
  · intro h
    obtain ⟨rules, hr, h⟩ := bind_eq_ok_iff.mp h
    exact ⟨rules, hr, (Except.ok.inj h).symm⟩
  · rintro ⟨rules, hr, rfl⟩
    exact bind_eq_ok_iff.mpr ⟨rules, hr, rfl⟩

theorem restricted_of_ok {l : Level} {s out : Statement} (h : l.restricted s = .ok out) :
    Restricted l.index s l.partitions out := by
  obtain ⟨rules, hr, rfl⟩ := restricted_eq_ok_iff.mp h
  rw [inOrder_eq_ok_iff] at hr
  have more {es : List Expression} {prior : Statement} {entries : List Expression}
      {rules : List Restriction} (hp : Restricted l.index s es prior)
      (hr : List.Forall₂ (fun e r => Restriction.ofExpression e = .ok r) entries rules) :
      Restricted l.index s (es ++ entries)
        (rules.foldl (fun s rule => .restrict l.index rule s) prior) := by
    induction hr generalizing es prior with
    | nil => simpa using hp
    | @cons e r entries rules head _ ih =>
      have all := ih (hp.snoc head)
      rwa [List.append_assoc] at all
  exact more .nil hr

end Level

namespace Plan

theorem statement_base {l : Level} {s : Statement} : (base l).statement = .ok s ↔
    ∃ c, l.clauses = .ok c ∧ l.restricted (.select l.index l.tables c) = .ok s :=
  bind_eq_ok_iff

theorem statement_nested {l : Level} {p : Plan} {s : Statement} : (nested l p).statement = .ok s ↔
    ∃ inner c, p.statement = .ok inner ∧ l.clauses = .ok c ∧
      l.restricted (.selectFrom l.index inner c) = .ok s := by
  rw [statement]
  constructor
  · intro h
    obtain ⟨inner, hi, h⟩ := bind_eq_ok_iff.mp h
    obtain ⟨c, hc, h⟩ := bind_eq_ok_iff.mp h
    exact ⟨inner, c, hi, hc, h⟩
  · rintro ⟨inner, c, hi, hc, h⟩
    exact bind_eq_ok_iff.mpr ⟨inner, hi, bind_eq_ok_iff.mpr ⟨c, hc, h⟩⟩

end Plan

end PlanSql
