import Mathlib.Logic.Relation
import PlanSql.Proofs.FirstFault
import PlanSql.Proofs.Numbering

namespace PlanSql

/-- Whether a list has no parameter of a name, whatever the case of its letters. -/
def lacksParameter (ps : List Parameter) (name : String) : Bool :=
  ps.all fun p => !sameName p.name name

/-- Steps between parameter lists that the placeholders of the given names cannot tell apart. -/
inductive SameChoice (names : List String) : (ps qs : List Parameter) → Prop
  | unused {ps qs : List Parameter} {p : Parameter} :
    (∀ name ∈ names, sameName p.name name = false) → SameChoice names (ps ++ qs) (ps ++ p :: qs)
  /-- A parameter that stands behind one of its name. -/
  | shadowed {ps qs : List Parameter} {p q : Parameter} : q ∈ ps → sameName q.name p.name = true →
    SameChoice names (ps ++ qs) (ps ++ p :: qs)
  | respelled {ps qs : List Parameter} :
    List.Forall₂ (fun p q => sameName p.name q.name = true ∧ p.value = q.value) ps qs →
    SameChoice names ps qs
  /-- Another order that keeps the order of each name's parameters. -/
  | permuted {ps qs : List Parameter} :
    (∀ name, (ps.filter fun p => sameName p.name name) = qs.filter fun p => sameName p.name name) →
    SameChoice names ps qs

theorem lacksParameter_iff {ps : List Parameter} {name : String} :
    lacksParameter ps name = true ↔ findParameter? ps name = none := by
  simp [lacksParameter, findParameter?]

namespace Numbered

theorem placeholder_reports (ps : List Parameter) (bound : Bound) (name : String) :
    Reports (placeholder ps bound name)
      (([name].filter (lacksParameter ps)).map .missingParameter) := by
  unfold placeholder
  cases found : findParameter? ps name with
  | none =>
    rw [List.filter_cons_of_pos (lacksParameter_iff.mpr found)]
    rfl
  | some p =>
    have present : ¬lacksParameter ps name = true := fun h => by
      rw [lacksParameter_iff.mp h] at found
      cases found
    rw [List.filter_cons_of_neg present]
    dsimp only
    split
    · exact ⟨_, rfl⟩
    · split <;> exact ⟨_, rfl⟩

theorem piece_reports (ps : List Parameter) (bound : Bound) (q : Piece) :
    Reports (piece ps bound q)
      (((placeholderNames [q]).filter (lacksParameter ps)).map .missingParameter) := by
  cases q with
  | placeholder word => exact placeholder_reports ps bound (String.ofList word)
  | _ => exact ⟨_, rfl⟩

/-- The faults of a text are the names without a parameter in their order, whatever is bound. -/
theorem texts_reports (ps : List Parameter) (bound : Bound) (qs : List Piece) :
    Reports (texts ps bound qs)
      (((placeholderNames qs).filter (lacksParameter ps)).map .missingParameter) := by
  induction qs generalizing bound with
  | nil => exact ⟨_, rfl⟩
  | cons q qs ih =>
    rw [← List.singleton_append, placeholderNames_append, List.filter_append, List.map_append]
    exact (piece_reports ps bound q).bind fun out _ => (ih out.2).bind_ok

end Numbered

theorem Command.numbered_reports (c : Command) :
    Reports c.numbered (((placeholderNames (pieces c.text.toList)).filter
      (lacksParameter c.parameters)).map .missingParameter) :=
  (Numbered.texts_reports c.parameters [] _).map _

theorem Command.numbered_eq_error_iff {c : Command} {e : PlanError} : c.numbered = .error e ↔
    ((placeholderNames (pieces c.text.toList)).find? (lacksParameter c.parameters)).map
      .missingParameter = some e := by
  rw [c.numbered_reports.error_iff, List.head?_map, List.head?_filter]

namespace Numbered

variable {ps qs : List Parameter} {names : List String}

theorem valueOf?_eq_none_iff {name : String} :
    valueOf? ps name = none ↔ findParameter? ps name = none := by
  simp [valueOf?]

theorem binds_congr {name : String} (h : valueOf? ps name = valueOf? qs name) :
    binds ps name = binds qs name := by
  rw [binds, binds, h]

theorem firstUses_congr (h : ∀ name ∈ names, valueOf? ps name = valueOf? qs name) :
    firstUses ps names = firstUses qs names := by
  rw [firstUses, firstUses, List.filter_congr fun name hn => binds_congr (h name hn)]

theorem boundValues_congr (h : ∀ name ∈ names, valueOf? ps name = valueOf? qs name) :
    boundValues ps names = boundValues qs names := by
  rw [boundValues, boundValues, ← firstUses_congr h]
  refine List.filterMap_congr fun key hk => ?_
  -- The keys are names with their letters made small, which find the same parameters.
  obtain ⟨name, hn, -, rfl⟩ := mem_firstUses.mp hk
  simpa only [valueOf?, findParameter?_foldCase] using h name hn

theorem writer_congr (h : ∀ name ∈ names, valueOf? ps name = valueOf? qs name) {name : String}
    (hn : name ∈ names) : writer ps names name = writer qs names name := by
  rw [writer, writer, number?, number?, binds_congr (h name hn), firstUses_congr h]

theorem textWith_congr (h : ∀ name ∈ names, valueOf? ps name = valueOf? qs name) {q : Piece}
    (hq : ∀ name, q.name? = some name → name ∈ names) :
    q.textWith (writer ps names) = q.textWith (writer qs names) := by
  cases q with
  | placeholder word => exact writer_congr h (hq _ rfl)
  | _ => rfl

end Numbered

/-- Lists in which every placeholder finds the same value number a text alike. -/
theorem numbered_congr {text : String} {ps qs : List Parameter}
    (h : ∀ name ∈ placeholderNames (pieces text.toList),
      Numbered.valueOf? ps name = Numbered.valueOf? qs name) :
    Command.numbered ⟨text, ps⟩ = Command.numbered ⟨text, qs⟩ := by
  have lacks : ∀ name ∈ placeholderNames (pieces text.toList),
      lacksParameter ps name = lacksParameter qs name := by
    intro name hn
    rw [Bool.eq_iff_iff, lacksParameter_iff, lacksParameter_iff, ← Numbered.valueOf?_eq_none_iff,
      ← Numbered.valueOf?_eq_none_iff, h name hn]
  cases first : Command.numbered ⟨text, ps⟩ with
  | error e =>
    rw [Command.numbered_eq_error_iff] at first
    refine (Command.numbered_eq_error_iff.mpr ?_).symm
    rw [← first, ← List.head?_filter, ← List.head?_filter, List.filter_congr lacks]
  | ok n =>
    obtain ⟨found, rfl⟩ := numbered_eq_ok_iff.mp first
    refine (numbered_eq_ok_iff.mpr ⟨fun name hn => ?_, ?_⟩).symm
    · obtain ⟨p, hp⟩ := found name hn
      have value := h name hn
      rw [Numbered.valueOf?, hp] at value
      obtain ⟨q, hq, -⟩ := Option.map_eq_some_iff.mp value.symm
      exact ⟨q, hq⟩
    · unfold Command.rewritten
      dsimp only
      rw [Numbered.boundValues_congr h, List.flatMap_def, List.flatMap_def,
        List.map_congr_left fun q hq => Numbered.textWith_congr h fun _ => name?_mem hq]

namespace SameChoice

variable {names : List String} {ps qs : List Parameter}

theorem findParameter?_respelled {name : String}
    (h : List.Forall₂ (fun p q => sameName p.name q.name = true ∧ p.value = q.value) ps qs) :
    Numbered.valueOf? ps name = Numbered.valueOf? qs name := by
  induction h with
  | nil => rfl
  | @cons p q ps qs head _ ih =>
    have same : sameName p.name name = sameName q.name name := by
      rw [Bool.eq_iff_iff, sameName_iff, sameName_iff, sameName_iff.mp head.1]
    simp only [Numbered.valueOf?, findParameter?, List.find?_cons, same] at ih ⊢
    split
    · exact congrArg some head.2
    · exact ih

/-- No step changes what a placeholder finds first. -/
theorem valueOf? {name : String} (h : SameChoice names ps qs) (hn : name ∈ names) :
    Numbered.valueOf? ps name = Numbered.valueOf? qs name := by
  cases h with
  | unused other => simp [Numbered.valueOf?, findParameter?, List.find?_append, other name hn]
  | @shadowed ps qs p q hq same =>
    by_cases hp : sameName p.name name = true
    · have found : ∃ q ∈ ps, sameName q.name name = true :=
        ⟨q, hq, sameName_iff.mpr ((sameName_iff.mp same).trans (sameName_iff.mp hp))⟩
      obtain ⟨first, hf⟩ := Option.isSome_iff_exists.mp (List.find?_isSome.mpr found)
      simp [Numbered.valueOf?, findParameter?, List.find?_append, hf]
    · simp [Numbered.valueOf?, findParameter?, List.find?_append, hp]
  | respelled h => exact findParameter?_respelled h
  | permuted h =>
    rw [Numbered.valueOf?, Numbered.valueOf?, findParameter?, findParameter?, ← List.head?_filter,
      ← List.head?_filter, h name]

end SameChoice

/-- The placeholders are those of the one split of the text, which has none inside of quotes,
dollar bodies and comments. -/
theorem numbered_by_first_values {text : String} {split : List Piece}
    (h : Splits [] text.toList split) :
    (∀ ps, (∃ e, Command.numbered ⟨text, ps⟩ = .error e) ↔
      ∃ name ∈ placeholderNames split, ∀ p ∈ ps, sameName p.name name = false) ∧
    (∀ ps e, Command.numbered ⟨text, ps⟩ = .error e ↔
      ((placeholderNames split).find? (lacksParameter ps)).map .missingParameter = some e) ∧
    (∀ ps qs, (∀ name ∈ placeholderNames split,
        Numbered.valueOf? ps name = Numbered.valueOf? qs name) →
      Command.numbered ⟨text, ps⟩ = Command.numbered ⟨text, qs⟩) ∧
    ∀ ps qs, Relation.EqvGen (SameChoice (placeholderNames split)) ps qs →
      Command.numbered ⟨text, ps⟩ = Command.numbered ⟨text, qs⟩ := by
  obtain rfl : split = pieces text.toList := splits_iff.mp h
  refine ⟨fun ps => ?_, fun ps e => Command.numbered_eq_error_iff, fun ps qs => numbered_congr,
    fun ps qs steps => ?_⟩
  · have lacking : (∃ e, Command.numbered ⟨text, ps⟩ = .error e) ↔
        ((placeholderNames (pieces text.toList)).find? (lacksParameter ps)).isSome = true := by
      simp only [Command.numbered_eq_error_iff, Option.map_eq_some_iff,
        Option.isSome_iff_exists]
      exact ⟨fun ⟨_, name, hn, _⟩ => ⟨name, hn⟩, fun ⟨name, hn⟩ => ⟨_, name, hn, rfl⟩⟩
    rw [lacking, List.find?_isSome]
    simp [lacksParameter]
  · induction steps with
    | rel ps qs step => exact numbered_congr fun name hn => step.valueOf? hn
    | refl => rfl
    | symm _ _ _ ih => exact ih.symm
    | trans _ _ _ _ _ first second => exact first.trans second

def choiceText : String := "SELECT @a, '@b', @C, @A -- @d"

theorem choiceText_names : placeholderNames (pieces choiceText.toList) = ["a", "C", "A"] := by cbv

theorem numbered_by_first_values_respelled :
    ∃ split, Splits [] choiceText.toList split ∧ placeholderNames split = ["a", "C", "A"] ∧
      Command.numbered ⟨choiceText, [⟨"A", .int 1⟩]⟩ = .error (.missingParameter "C") ∧
      Command.numbered ⟨choiceText, [⟨"A", .int 1⟩, ⟨"c", .null⟩]⟩ =
        Command.numbered ⟨choiceText,
          [⟨"b", .int 0⟩, ⟨"C", .null⟩, ⟨"a", .int 1⟩, ⟨"A", .int 2⟩]⟩ := by
  have splits : Splits [] choiceText.toList (pieces choiceText.toList) := splits_piecesAfter [] _
  obtain ⟨-, error, same, -⟩ := numbered_by_first_values splits
  rw [choiceText_names] at error same
  refine ⟨_, splits, choiceText_names, (error _ _).mpr (by decide +kernel), same _ _ ?_⟩
  intro name hn
  fin_cases hn <;> rfl

end PlanSql
