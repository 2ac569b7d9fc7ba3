import PlanSql.Proofs.Numbering

namespace PlanSql

/-- Text that stands between the characters `before`, the last one first, and `after` and reads as
pieces of its own, with the parameters `names` for its placeholders. -/
def Spells (before after : List Char) (t : ParameterText → List Char) (names : List String) :
    Prop :=
  ∃ ps, piecesAfter before (t namedParameter ++ after) =
      ps ++ piecesAfter ((t namedParameter).reverse ++ before) after ∧
    placeholderNames ps = names ∧ ∀ write, ps.flatMap (Piece.textWith write) = t write

/-- A character that begins no piece but itself. -/
def isPlain (c : Char) : Bool := !(['\'', '"', '-', '/', '$', '@'] : List Char).contains c

/-- Where a constant may begin: no letter stands there to go with its quote. -/
def Gap (before : List Char) : Prop := ∃ c ∈ before.head?, c = ' ' ∨ c = '('

/-- Where a name, a number or a constant may end. -/
def Ends (after : List Char) : Prop := ∀ c ∈ after.head?, c = ' ' ∨ c = ',' ∨ c = ')'

namespace Piece

theorem QuotedBody.of_plain {quote : Char} {escapes : Prop} (he : ¬escapes) {s : List Char}
    (hs : quote ∉ s) : QuotedBody quote escapes s := by
  induction s with
  | nil => exact .nil
  | cons c s ih =>
    have hc : c ≠ quote := fun e => hs (by simp [e])
    exact .plain hc (fun h => he h.1) (ih fun hm => hs (List.mem_cons_of_mem c hm))

theorem stands_of_next {before s rest : List Char} {c : Char} {p : Piece}
    (h : next before c s = (p, rest)) : p.Stands before rest := by
  have stands := next_stands before s c
  rwa [h] at stands

theorem next_plain {c : Char} (h : isPlain c = true) (before s : List Char) :
    next before c s = (other c, s) := by
  have h : c ≠ '\'' ∧ c ≠ '"' ∧ c ≠ '-' ∧ c ≠ '/' ∧ c ≠ '$' ∧ c ≠ '@' := by
    simpa [isPlain] using h
  simp [next, h]

theorem next_minus {s : List Char} (h : s.head? ≠ some '-') (before : List Char) :
    next before '-' s = (other '-', s) := by
  simp [next, h]

theorem next_slash {s : List Char} (h : s.head? ≠ some '*') (before : List Char) :
    next before '/' s = (other '/', s) := by
  simp [next, h]

theorem Stands.spells {before after : List Char} {p : Piece} (h : p.Stands before after) :
    Spells before after (fun write => p.textWith write) p.name?.toList := by
  obtain ⟨c, s, hs⟩ := List.exists_cons_of_ne_nil (l := p.text ++ after) fun e =>
    h.text_ne_nil (List.append_eq_nil_iff.mp e).1
  have named : p.textWith namedParameter = p.text := by
    cases p <;> first | rfl | simp [textWith, namedParameter, text]
  refine ⟨[p], ?_, by cases p <;> rfl, fun write => by simp⟩
  dsimp only
  rw [named, hs, piecesAfter, next_of_stands h hs]
  rfl

end Piece

variable {before after : List Char} {t u : ParameterText → List Char} {names more : List String}

theorem Ends.head?_ne {c : Char} (ha : Ends after) (hc : c ≠ ' ' ∧ c ≠ ',' ∧ c ≠ ')') :
    after.head? ≠ some c := by
  intro e
  rcases ha c e with h | h | h
  · exact hc.1 h
  · exact hc.2.1 h
  · exact hc.2.2 h

theorem Ends.not_word (ha : Ends after) : ∀ c ∈ after.head?, isWordChar c = false := by
  intro c hc
  rcases ha c hc with rfl | rfl | rfl <;> rfl

theorem spells_nil : Spells before after (fun _ => []) [] := ⟨[], rfl, rfl, fun _ => rfl⟩

theorem Spells.append (ht : Spells before (u namedParameter ++ after) t names)
    (hu : Spells ((t namedParameter).reverse ++ before) after u more) :
    Spells before after (fun write => t write ++ u write) (names ++ more) := by
  obtain ⟨ps, pieces_t, names_t, text_t⟩ := ht
  obtain ⟨qs, pieces_u, names_u, text_u⟩ := hu
  refine ⟨ps ++ qs, ?_, ?_, fun write => ?_⟩
  · rw [List.append_assoc, pieces_t, pieces_u, List.append_assoc, List.reverse_append,
      List.append_assoc]
  · rw [placeholderNames_append, names_t, names_u]
  · rw [List.flatMap_append, text_t, text_u]

theorem spells_plain {s : List Char} (h : s.all isPlain = true) :
    Spells before after (fun _ => s) [] := by
  induction s generalizing before with
  | nil => exact spells_nil
  | cons c s ih =>
    obtain ⟨hc, hs⟩ : isPlain c = true ∧ s.all isPlain = true := by simpa using h
    have first := (Piece.stands_of_next (Piece.next_plain hc before (s ++ after))).spells
    exact first.append (ih hs)

/-- A text without parameters in front of another one. -/
theorem Spells.after_fixed {s : List Char}
    (hs : Spells before (t namedParameter ++ after) (fun _ => s) [])
    (ht : Spells (s.reverse ++ before) after t names) :
    Spells before after (fun write => s ++ t write) names :=
  hs.append ht

theorem Spells.after_plain {s : List Char} (ht : Spells (s.reverse ++ before) after t names)
    (h : s.all isPlain = true) : Spells before after (fun write => s ++ t write) names :=
  (spells_plain h).after_fixed ht

theorem Spells.after_char {c : Char} (ht : Spells (c :: before) after t names)
    (h : isPlain c = true) : Spells before after (fun write => c :: t write) names :=
  Spells.after_plain (s := [c]) ht (by simpa using h)

theorem Spells.before_plain {s : List Char} (ht : Spells before (s ++ after) t names)
    (h : s.all isPlain = true) : Spells before after (fun write => t write ++ s) names := by
  have both : Spells before after (fun write => t write ++ s) (names ++ []) :=
    Spells.append (u := fun _ => s) ht (spells_plain h)
  rwa [List.append_nil] at both

theorem spells_quotedName {name : List Char} (h : '"' ∉ name) (ha : after.head? ≠ some '"') :
    Spells before after (fun _ => quotedName name) [] := by
  have run : (Piece.quoted (quotedName name)).Stands before after :=
    .inr (.closed (.of_plain not_false h) ha)
  exact run.spells

theorem spells_singleQuoted {s : List Char} (h : '\'' ∉ s) (hb : Gap before) (ha : Ends after) :
    Spells before after (fun _ => singleQuoted s) [] := by
  have free : ¬Piece.FollowsEscapeLetter before := by
    rintro ⟨c, rest, rfl, letter, -⟩
    obtain ⟨d, hd, gap⟩ := hb
    obtain rfl : c = d := by simpa using hd
    rcases gap with rfl | rfl <;> simp at letter
  have stop : after.head? ≠ some '\'' := fun e => by
    have := ha '\'' e
    simp at this
  have run : (Piece.quoted (singleQuoted s)).Stands before after :=
    .inl (.closed (.of_plain free h) stop)
  exact run.spells

theorem spells_parameter {name : String} (hne : name ≠ "")
    (hw : ∀ c ∈ name.toList, isWordChar c = true) (ha : ∀ c ∈ after.head?, isWordChar c = false) :
    Spells before after (fun write => write name) [name] := by
  have word : (Piece.placeholder name.toList).Stands before after := ⟨by simpa using hne, hw, ha⟩
  simpa [Piece.textWith, Piece.name?] using word.spells

/-- Either of two texts by a test that no parameter has a part in. -/
theorem spells_ite {b : Bool}
    (ht : b = true → Spells before after t names) (hu : b = false → Spells before after u names) :
    Spells before after (fun write => if b then t write else u write) names := by
  cases b with
  | true => exact ht rfl
  | false => exact hu rfl

/-- Texts one after the other with a fixed gap between neighbours. -/
theorem spells_joined {α : Type} (f : α → ParameterText → List Char) (gap : List Char)
    (plain : gap.all isPlain = true) {Before After : List Char → Prop}
    (enter : ∀ before, Before (gap.reverse ++ before)) (leave : ∀ after, After (gap ++ after))
    {xs : List α} {names : List (List String)}
    (each : List.Forall₂ (fun x names => ∀ before after, Before before → After after →
      Spells before after (f x) names) xs names) (hb : Before before) (ha : After after) :
    Spells before after (fun write => joined gap (xs.map fun x => f x write)) names.flatten := by
  induction each generalizing before with
  | nil => exact spells_nil
  | @cons x names xs rest hx each ih =>
    cases each with
    | nil => simpa [joined] using hx before after hb ha
    | cons hy each =>
      refine Spells.append (hx _ _ hb ?_) ((ih (enter _)).after_plain plain)
      rw [List.append_assoc]
      exact leave _

theorem spells_joined_of_mem {α : Type} (f : α → ParameterText → List Char)
    (g : α → List String) (gap : List Char) (plain : gap.all isPlain = true)
    (leave : ∀ after, Ends (gap ++ after)) {xs : List α}
    (each : ∀ x ∈ xs, ∀ before after, Ends after → Spells before after (f x) (g x))
    (ha : Ends after) :
    Spells before after (fun write => joined gap (xs.map fun x => f x write)) (xs.flatMap g) := by
  have all : List.Forall₂ (fun x names => ∀ before after, True → Ends after →
      Spells before after (f x) names) xs (xs.map g) := by
    rw [List.forall₂_map_right_iff, List.forall₂_same]
    exact fun x hx before after _ => each x hx before after
  rw [List.flatMap_def]
  exact spells_joined f gap plain (fun _ => trivial) leave all trivial ha

theorem spells_joined_fixed {α : Type} (f : α → List Char) (gap : List Char)
    (plain : gap.all isPlain = true) (leave : ∀ after, Ends (gap ++ after)) {xs : List α}
    (each : ∀ x ∈ xs, ∀ before after, Ends after → Spells before after (fun _ => f x) [])
    (ha : Ends after) : Spells before after (fun _ => joined gap (xs.map f)) [] := by
  have all : Spells before after (fun _ => joined gap (xs.map f)) (xs.flatMap fun _ => []) :=
    spells_joined_of_mem (fun x _ => f x) _ gap plain leave each ha
  rwa [List.flatMap_eq_nil_iff.mpr fun _ _ => rfl] at all

/-- What numbering makes of a command whose text spells its parameters. -/
theorem Spells.numbered_eq_ok_iff (h : Spells [] [] t names) {ps : List Parameter} {n : Numbered} :
    (⟨String.ofList (t namedParameter), ps⟩ : Command).numbered = .ok n ↔
      (∀ name ∈ names, ∃ p, findParameter? ps name = some p) ∧
        n = ⟨t (Numbered.writer ps names), Numbered.boundValues ps names⟩ := by
  obtain ⟨qs, read, rfl, text⟩ := h
  have all : pieces (t namedParameter) = qs := by simpa [pieces, piecesAfter] using read
  rw [PlanSql.numbered_eq_ok_iff, Command.rewritten, String.toList_ofList, all, text]

end PlanSql
