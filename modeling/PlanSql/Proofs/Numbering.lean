import Mathlib
import PlanSql.Numbered
import PlanSql.Proofs.PieceGrammar

namespace PlanSql

/-- The name of a placeholder. -/
def Piece.name? : Piece → Option String
  | .placeholder name => some (String.ofList name)
  | _ => none

/-- The text of a piece, with a placeholder as `write` has it. -/
def Piece.textWith (write : ParameterText) : Piece → List Char
  | .placeholder name => write (String.ofList name)
  | p => p.text

/-- The names of the placeholders in their order. -/
def placeholderNames (ps : List Piece) : List String := ps.filterMap Piece.name?

namespace Numbered

/-- The value of the first parameter of a name. -/
def valueOf? (ps : List Parameter) (name : String) : Option Value :=
  (findParameter? ps name).map Parameter.value

/-- Whether a name has a value that is bound. -/
def binds (ps : List Parameter) (name : String) : Bool :=
  (valueOf? ps name).any fun v => !v.isNull

/-- The names with bound values without regard to case, each at its first use. -/
def firstUses (ps : List Parameter) (names : List String) : List String :=
  ((names.filter (binds ps)).map foldCase).eraseDups

/-- What is bound once the names are used. -/
def bindings (ps : List Parameter) (names : List String) : Bound :=
  (firstUses ps names).filterMap fun key => (valueOf? ps key).map (key, ·)

/-- The values of the first uses. -/
def boundValues (ps : List Parameter) (names : List String) : List Value :=
  (firstUses ps names).filterMap (valueOf? ps)

/-- The number of a name among the used ones; a null has none. -/
def number? (ps : List Parameter) (names : List String) (name : String) : Option Nat :=
  if binds ps name then some ((firstUses ps names).idxOf (foldCase name) + 1) else none

def numberText : Option Nat → List Char
  | none => "NULL".toList
  | some k => '$' :: decimalDigits k

/-- How a name is written when `names` are used in all. -/
def writer (ps : List Parameter) (names : List String) : ParameterText :=
  fun name => numberText (number? ps names name)

end Numbered

/-- The numbered form of a command all of whose names have parameters. -/
def Command.rewritten (c : Command) : Numbered :=
  let names := placeholderNames (pieces c.text.toList)
  ⟨(pieces c.text.toList).flatMap (Piece.textWith (Numbered.writer c.parameters names)),
    Numbered.boundValues c.parameters names⟩

theorem foldCase_foldCase (s : String) : foldCase (foldCase s) = foldCase s := by
  have h : Char.toLower ∘ Char.toLower = Char.toLower := funext Char.toLower_toLower_eq_toLower
  simp [foldCase, h]

theorem findParameter?_foldCase (ps : List Parameter) (name : String) :
    findParameter? ps (foldCase name) = findParameter? ps name := by
  simp [findParameter?, sameName, foldCase_foldCase]

theorem placeholderNames_append (ps qs : List Piece) :
    placeholderNames (ps ++ qs) = placeholderNames ps ++ placeholderNames qs :=
  List.filterMap_append

theorem placeholderNames_cons_none {p : Piece} (h : p.name? = none) (ps : List Piece) :
    placeholderNames (p :: ps) = placeholderNames ps := List.filterMap_cons_none h

theorem placeholderNames_cons_some {p : Piece} {name : String} (h : p.name? = some name)
    (ps : List Piece) : placeholderNames (p :: ps) = name :: placeholderNames ps :=
  List.filterMap_cons_some h

theorem eraseDups_concat (xs : List String) (x : String) :
    (xs ++ [x]).eraseDups = if x ∈ xs then xs.eraseDups else xs.eraseDups ++ [x] := by
  rw [List.eraseDups_append]
  by_cases h : x ∈ xs
  · simp [List.removeAll, h]
  · simp [List.removeAll, h, List.eraseDups_cons]

theorem eraseDups_nodup (xs : List String) : xs.eraseDups.Nodup := by
  induction xs using List.reverseRecOn with
  | nil => simp
  | append_singleton xs x ih =>
    rw [eraseDups_concat]
    split
    next => exact ih
    next h => exact List.nodup_append.mpr ⟨ih, by simp, by grind [List.mem_eraseDups]⟩

theorem eraseDups_of_nodup {xs : List String} (h : xs.Nodup) : xs.eraseDups = xs := by
  induction xs using List.reverseRecOn with
  | nil => rfl
  | append_singleton xs x ih =>
    obtain ⟨first, -, new⟩ := List.nodup_append.mp h
    have absent : x ∉ xs := fun hx => new x hx x (by simp) rfl
    rw [eraseDups_concat, if_neg absent, ih first]

namespace Numbered

variable {ps : List Parameter} {names : List String} {name : String}

theorem binds_iff : binds ps name = true ↔
    ∃ p, findParameter? ps name = some p ∧ p.value.isNull = false := by
  simp [binds, valueOf?, Option.any_eq_true]

theorem mem_firstUses {key : String} : key ∈ firstUses ps names ↔
    ∃ name ∈ names, binds ps name = true ∧ foldCase name = key := by
  simp [firstUses, and_assoc]

theorem firstUses_nodup : (firstUses ps names).Nodup := eraseDups_nodup _

theorem firstUses_isPrefix (ps : List Parameter) (names more : List String) :
    firstUses ps names <+: firstUses ps (names ++ more) := by
  rw [firstUses, firstUses, List.filter_append, List.map_append, List.eraseDups_append]
  exact List.prefix_append _ _

/-- A name adds itself at its first use, if it is bound. -/
theorem firstUses_concat : firstUses ps (names ++ [name]) =
    if binds ps name = true ∧ foldCase name ∉ firstUses ps names then
      firstUses ps names ++ [foldCase name]
    else firstUses ps names := by
  rw [firstUses, List.filter_append, List.map_append]
  by_cases hb : binds ps name = true
  · have last : ([name].filter (binds ps)).map foldCase = [foldCase name] := by simp [hb]
    rw [last, eraseDups_concat, firstUses]
    by_cases hm : foldCase name ∈ (names.filter (binds ps)).map foldCase
    · rw [if_pos hm, if_neg fun h => h.2 (List.mem_eraseDups.mpr hm)]
    · rw [if_neg hm, if_pos ⟨hb, fun h => hm (List.mem_eraseDups.mp h)⟩]
  · simp [hb, firstUses]

theorem valueOf?_isSome_of_mem {key : String} (h : key ∈ firstUses ps names) :
    ∃ v, valueOf? ps key = some v ∧ v.isNull = false := by
  obtain ⟨name, -, hb, rfl⟩ := mem_firstUses.mp h
  obtain ⟨p, hp, hv⟩ := binds_iff.mp hb
  exact ⟨p.value, by simp [valueOf?, findParameter?_foldCase, hp], hv⟩

theorem bindings_keys : (bindings ps names).map Prod.fst = firstUses ps names := by
  rw [bindings, List.map_filterMap]
  have keys : ∀ key ∈ firstUses ps names,
      (((valueOf? ps key).map (key, ·)).map Prod.fst : Option String) = some key := by
    intro key hk
    obtain ⟨v, hv, -⟩ := valueOf?_isSome_of_mem hk
    simp [hv]
  rw [List.filterMap_congr keys, List.filterMap_some]

theorem bindings_values : (bindings ps names).map Prod.snd = boundValues ps names := by
  rw [bindings, boundValues, List.map_filterMap]
  exact List.filterMap_congr fun key _ => by cases valueOf? ps key <;> rfl

theorem position?_bindings (key : String) : position? (bindings ps names) key =
    if key ∈ firstUses ps names then some ((firstUses ps names).idxOf key + 1) else none := by
  have keys : (bindings ps names).findIdx? (fun b => b.1 == key) =
      (firstUses ps names).findIdx? (· == key) := by
    rw [← bindings_keys, List.findIdx?_map]
    rfl
  rw [position?, keys]
  split
  next h =>
    have place := List.findIdx?_eq_some_iff_findIdx_eq.mpr
      ⟨List.idxOf_lt_length_of_mem h, (rfl : (firstUses ps names).idxOf key = _)⟩
    rw [place]
    rfl
  next h =>
    rw [List.findIdx?_eq_none_iff.mpr (by grind)]
    rfl

theorem number?_append {more : List String} (h : name ∈ names) :
    number? ps (names ++ more) name = number? ps names name := by
  unfold number?
  split
  next hb =>
    have hk : foldCase name ∈ firstUses ps names := mem_firstUses.mpr ⟨name, h, hb, rfl⟩
    rw [(firstUses_isPrefix ps names more).idxOf_eq_of_mem hk]
  next => rfl

/-- One placeholder is written by its number, and its name is then used. -/
theorem placeholder_bindings {p : Parameter} (hp : findParameter? ps name = some p) :
    placeholder ps (bindings ps names) name =
      .ok (writer ps (names ++ [name]) name, bindings ps (names ++ [name])) := by
  unfold placeholder
  rw [hp]
  dsimp only
  by_cases hn : p.value.isNull = true
  · have hb : ¬binds ps name = true := by simp [binds, valueOf?, hp, hn]
    rw [if_pos hn, writer, number?, if_neg hb, bindings, bindings, firstUses_concat,
      if_neg fun h => hb h.1]
    rfl
  · have hb : binds ps name = true := by simpa [binds, valueOf?, hp] using hn
    rw [if_neg hn, position?_bindings]
    by_cases hm : foldCase name ∈ firstUses ps names
    · have uses : firstUses ps (names ++ [name]) = firstUses ps names := by
        rw [firstUses_concat, if_neg fun h => h.2 hm]
      rw [if_pos hm, writer, number?, if_pos hb, uses, bindings, bindings, uses]
      rfl
    · have uses : firstUses ps (names ++ [name]) = firstUses ps names ++ [foldCase name] := by
        rw [firstUses_concat, if_pos ⟨hb, hm⟩]
      have count : (bindings ps names).length = (firstUses ps names).length := by
        rw [← bindings_keys, List.length_map]
      have last : (firstUses ps names ++ [foldCase name]).idxOf (foldCase name) =
          (firstUses ps names).length := by
        rw [List.idxOf_append_of_notMem hm, List.idxOf_cons_self, Nat.add_zero]
      have value : valueOf? ps (foldCase name) = some p.value := by
        simp [valueOf?, findParameter?_foldCase, hp]
      rw [if_neg hm, writer, number?, if_pos hb, uses, last, count, bindings, bindings, uses,
        List.filterMap_append]
      simp [numberText, positionText, value]

/-- All pieces are written by the numbers of all names, from whatever is bound before them. -/
theorem texts_bindings {qs : List Piece} (names : List String)
    (h : ∀ name ∈ placeholderNames qs, ∃ p, findParameter? ps name = some p) :
    texts ps (bindings ps names) qs =
      .ok (qs.map (Piece.textWith (writer ps (names ++ placeholderNames qs))),
        bindings ps (names ++ placeholderNames qs)) := by
  -- What is bound at each piece are the first uses among the names of the pieces before it.
  induction qs generalizing names with
  | nil => simp [texts, placeholderNames]
  | cons q qs ih =>
    cases hq : q.name? with
    | none =>
      have text : piece ps (bindings ps names) q = .ok (q.text, bindings ps names) ∧
          ∀ write, q.textWith write = q.text := by
        cases q <;> first | exact ⟨rfl, fun _ => rfl⟩ | simp [Piece.name?] at hq
      rw [placeholderNames_cons_none hq] at h ⊢
      rw [texts, text.1]
      change (texts ps (bindings ps names) qs >>= _) = _
      rw [ih names h, List.map_cons, text.2]
      rfl
    | some name =>
      have text : piece ps (bindings ps names) q = placeholder ps (bindings ps names) name ∧
          ∀ write, q.textWith write = write name := by
        cases q <;> first | simp [Piece.name?] at hq
        subst name
        exact ⟨rfl, fun _ => rfl⟩
      rw [placeholderNames_cons_some hq] at h ⊢
      obtain ⟨p, hp⟩ := h name (by simp)
      have rest := ih (names ++ [name]) fun other ho => h other (by simp [ho])
      rw [List.append_assoc, List.singleton_append] at rest
      have head : writer ps (names ++ name :: placeholderNames qs) name =
          writer ps (names ++ [name]) name := by
        rw [writer, writer, ← List.singleton_append, ← List.append_assoc,
          number?_append (by simp)]
      rw [texts, text.1, placeholder_bindings hp]
      change (texts ps (bindings ps (names ++ [name])) qs >>= _) = _
      rw [rest, List.map_cons, text.2, head]
      rfl

theorem found_of_texts {bound : Bound} {qs : List Piece} {out : List (List Char) × Bound}
    (h : texts ps bound qs = .ok out) :
    ∀ name ∈ placeholderNames qs, ∃ p, findParameter? ps name = some p := by
  induction qs generalizing bound out with
  | nil => simp [placeholderNames]
  | cons q qs ih =>
    rw [texts] at h
    cases step : piece ps bound q with
    | error e => rw [step] at h; cases h
    | ok first =>
      rw [step] at h
      change (texts ps first.2 qs >>= _) = _ at h
      cases rest : texts ps first.2 qs with
      | error e => rw [rest] at h; cases h
      | ok others =>
        intro name hn
        rcases q with s | s | s | s | word | c
        case placeholder =>
          rcases List.mem_cons.mp hn with rfl | hn
          · cases found : findParameter? ps (String.ofList word) with
            | none => simp [piece, placeholder, found] at step
            | some p => exact ⟨p, rfl⟩
          · exact ih rest name hn
        all_goals exact ih rest name hn

end Numbered

theorem numbered_of_found {c : Command}
    (h : ∀ name ∈ placeholderNames (pieces c.text.toList),
      ∃ p, findParameter? c.parameters name = some p) : c.numbered = .ok c.rewritten := by
  have run := Numbered.texts_bindings [] h
  rw [List.nil_append] at run
  unfold Command.numbered Command.rewritten
  dsimp only
  rw [show ([] : Numbered.Bound) = Numbered.bindings c.parameters [] from rfl, run,
    ← Numbered.bindings_values, List.flatMap_def]
  rfl

/-- When a command is numbered, and what it becomes then. -/
theorem numbered_eq_ok_iff {c : Command} {n : Numbered} :
    c.numbered = .ok n ↔
      (∀ name ∈ placeholderNames (pieces c.text.toList),
        ∃ p, findParameter? c.parameters name = some p) ∧ n = c.rewritten := by
  constructor
  · intro h
    have found : ∀ name ∈ placeholderNames (pieces c.text.toList),
        ∃ p, findParameter? c.parameters name = some p := by
      unfold Command.numbered at h
      cases out : Numbered.texts c.parameters [] (pieces c.text.toList) with
      | error e => rw [out] at h; cases h
      | ok result => exact Numbered.found_of_texts out
    exact ⟨found, Except.ok.inj (h.symm.trans (numbered_of_found found))⟩
  · rintro ⟨found, rfl⟩
    exact numbered_of_found found

namespace Numbered

variable {ps : List Parameter} {names : List String} {name : String}

theorem length_boundValues : (boundValues ps names).length = (firstUses ps names).length := by
  rw [← bindings_values, ← bindings_keys, List.length_map, List.length_map]

theorem getElem?_boundValues (i : Nat) : (boundValues ps names)[i]? =
    (firstUses ps names)[i]?.bind (valueOf? ps) := by
  have all : ∀ key ∈ firstUses ps names, ∃ v, valueOf? ps key = some v := fun key hk =>
    (valueOf?_isSome_of_mem hk).imp fun _ h => h.1
  unfold boundValues
  generalize firstUses ps names = keys at all
  induction keys generalizing i with
  | nil => rfl
  | cons key keys ih =>
    obtain ⟨v, hv⟩ := all key (by simp)
    rw [List.filterMap_cons_some hv]
    cases i with
    | zero => simp [hv]
    | succ i => simpa using ih i fun other ho => all other (by simp [ho])

theorem number?_eq_none_iff (names : List String) {p : Parameter}
    (hp : findParameter? ps name = some p) :
    number? ps names name = none ↔ p.value.isNull = true := by
  simp [number?, binds, valueOf?, hp]

/-- The value bound in the place of a number is that of the name. -/
theorem getElem?_of_number {k : Nat} {p : Parameter} (hn : name ∈ names)
    (hp : findParameter? ps name = some p) (hk : number? ps names name = some k) :
    1 ≤ k ∧ k ≤ (boundValues ps names).length ∧
      (boundValues ps names)[k - 1]? = some p.value := by
  unfold number? at hk
  split at hk
  next hb =>
    obtain rfl := Option.some.inj hk
    have mem : foldCase name ∈ firstUses ps names := mem_firstUses.mpr ⟨name, hn, hb, rfl⟩
    have bound := List.idxOf_lt_length_of_mem mem
    refine ⟨by omega, by rw [length_boundValues]; omega, ?_⟩
    rw [getElem?_boundValues, Nat.add_sub_cancel, List.getElem?_idxOf mem]
    simp [valueOf?, findParameter?_foldCase, hp]
  next => simp at hk

/-- The number of a name is one more than its place among the first uses. -/
theorem number?_of_getElem {i : Nat} {key : String} (hi : (firstUses ps names)[i]? = some key)
    (hb : binds ps name = true) (hkey : foldCase name = key) :
    number? ps names name = some (i + 1) := by
  obtain ⟨hlt, rfl⟩ := List.getElem?_eq_some_iff.mp hi
  rw [number?, if_pos hb, hkey, List.Nodup.idxOf_getElem firstUses_nodup]

/-- Before a number is given out, all smaller ones are. -/
theorem exists_smaller_number {i k m : Nat} (hi : names[i]? = some name)
    (hk : number? ps names name = some k) (hm : 1 ≤ m) (hlt : m < k) :
    ∃ j other, j < i ∧ names[j]? = some other ∧ number? ps names other = some m := by
  obtain ⟨hib, hname⟩ := List.getElem?_eq_some_iff.mp hi
  have cut : names.take (i + 1) = names.take i ++ [name] := by
    rw [← hname, List.take_append_getElem]
  have pre : firstUses ps (names.take i) <+: firstUses ps names := by
    simpa only [List.take_append_drop] using
      firstUses_isPrefix ps (names.take i) (names.drop i)
  have pre' : firstUses ps (names.take i ++ [name]) <+: firstUses ps names := by
    simpa only [← cut, List.take_append_drop] using
      firstUses_isPrefix ps (names.take (i + 1)) (names.drop (i + 1))
  -- The name itself adds at most one first use to those of the names before it.
  have room : k ≤ (firstUses ps (names.take i)).length + 1 := by
    unfold number? at hk
    split at hk
    next hb =>
      obtain rfl := Option.some.inj hk
      have mem : foldCase name ∈ firstUses ps (names.take i ++ [name]) :=
        mem_firstUses.mpr ⟨name, by simp, hb, rfl⟩
      rw [← pre'.idxOf_eq_of_mem mem]
      have bound := List.idxOf_lt_length_of_mem mem
      have grow : (firstUses ps (names.take i ++ [name])).length ≤
          (firstUses ps (names.take i)).length + 1 := by
        rw [firstUses_concat]
        split <;> simp
      omega
    next => simp at hk
  have hplace : m - 1 < (firstUses ps (names.take i)).length := by omega
  have earlier : (firstUses ps (names.take i))[m - 1]? =
      some (firstUses ps (names.take i))[m - 1] := List.getElem?_eq_getElem hplace
  obtain ⟨other, ho, hb, hkey⟩ := mem_firstUses.mp (List.mem_of_getElem? earlier)
  obtain ⟨j, hj, hjo⟩ := List.mem_iff_getElem.mp ho
  have hji : j < i := by
    rw [List.length_take] at hj
    omega
  refine ⟨j, other, hji, ?_, ?_⟩
  · rw [List.getElem_take] at hjo
    rw [← hjo]
    exact List.getElem?_eq_getElem (by omega)
  · obtain ⟨later, split⟩ := pre
    have whole : (firstUses ps names)[m - 1]? = some (firstUses ps (names.take i))[m - 1] := by
      rw [← split, List.getElem?_append_left hplace, earlier]
    simpa [Nat.sub_add_cancel hm] using number?_of_getElem whole hb hkey

end Numbered

/-- What a value is written as: `NULL`, or the number of a place that holds it. -/
def Refers (values : List Value) (v : Value) (t : List Char) : Prop :=
  if v.isNull then t = "NULL".toList
  else ∃ k, 1 ≤ k ∧ values[k - 1]? = some v ∧ t = '$' :: decimalDigits k

/-- What a piece may become: a placeholder refers to its parameter's value, and all else stays. -/
def Rewritten (ps : List Parameter) (values : List Value) : Piece → List Char → Prop
  | .placeholder name, t =>
    ∃ p, findParameter? ps (String.ofList name) = some p ∧ Refers values p.value t
  | p, t => t = p.text

theorem refers_writer {ps : List Parameter} {names : List String} {name : String} {p : Parameter}
    (hn : name ∈ names) (hp : findParameter? ps name = some p) :
    Refers (Numbered.boundValues ps names) p.value
      (Numbered.writer ps names name) := by
  have unnumbered := Numbered.number?_eq_none_iff names hp
  unfold Refers
  split
  next hnull => rw [Numbered.writer, unnumbered.mpr hnull]; rfl
  next hnull =>
    cases hk : Numbered.number? ps names name with
    | none => exact absurd (unnumbered.mp hk) hnull
    | some k =>
      obtain ⟨low, -, value⟩ := Numbered.getElem?_of_number hn hp hk
      exact ⟨k, low, value, by rw [Numbered.writer, hk]; rfl⟩

theorem rewritten_writer {ps : List Parameter} {names : List String} {q : Piece}
    (hq : ∀ name, q.name? = some name → name ∈ names)
    (found : ∀ name ∈ names, ∃ p, findParameter? ps name = some p) :
    Rewritten ps (Numbered.boundValues ps names) q
      (q.textWith (Numbered.writer ps names)) := by
  cases q with
  | placeholder word =>
    obtain ⟨p, hp⟩ := found _ (hq _ rfl)
    exact ⟨p, hp, refers_writer (hq _ rfl) hp⟩
  | _ => rfl

theorem name?_mem {q : Piece} {qs : List Piece} {name : String} (hq : q ∈ qs)
    (h : q.name? = some name) : name ∈ placeholderNames qs :=
  List.mem_filterMap.mpr ⟨q, hq, h⟩

/-- The text of a numbered command has just one split into pieces, and its placeholders are all
that is rewritten. -/
theorem numbered_keeps_other_pieces {c : Command} {n : Numbered} (h : c.numbered = .ok n) :
    ∃ ps ts, (∀ qs, Splits [] c.text.toList qs ↔ qs = ps) ∧
      List.Forall₂ (Rewritten c.parameters n.values) ps ts ∧ n.sql = ts.flatten := by
  obtain ⟨found, rfl⟩ := numbered_eq_ok_iff.mp h
  refine ⟨pieces c.text.toList, (pieces c.text.toList).map (Piece.textWith _),
    fun _ => splits_iff, ?_, List.flatMap_def⟩
  rw [List.forall₂_map_right_iff, List.forall₂_same]
  exact fun q hq => rewritten_writer (fun _ => name?_mem hq) found

/-- A command with pieces of every kind, a null and a repeated name. -/
def mixedCommand : Command :=
  ⟨"SELECT E'it\\'s @a', '@a', $q$ @a $q$, @Id -- @a\n, /* /* @a */ */ @gap, @iD, \"@a\", @to",
    [⟨"id", .int 7⟩, ⟨"Gap", .null⟩, ⟨"ID", .int 8⟩, ⟨"to", .bool true⟩]⟩

def mixedSql : List Char :=
  "SELECT E'it\\'s @a', '@a', $q$ @a $q$, $1 -- @a\n, /* /* @a */ */ NULL, $1, \"@a\", $2".toList

theorem mixedCommand_numbered :
    mixedCommand.numbered = .ok ⟨mixedSql, [.int 7, .bool true]⟩ := by cbv

theorem numbered_keeps_other_pieces_mixed :
    mixedCommand.numbered = .ok ⟨mixedSql, [.int 7, .bool true]⟩ ∧
    ∃ ps ts, (∀ qs, Splits [] mixedCommand.text.toList qs ↔ qs = ps) ∧
      List.Forall₂ (Rewritten mixedCommand.parameters [.int 7, .bool true]) ps ts ∧
      mixedSql = ts.flatten :=
  ⟨mixedCommand_numbered, numbered_keeps_other_pieces mixedCommand_numbered⟩

/-- The text of pieces whose placeholders take the numbers in turn. -/
def filled : List Piece → List (Option Nat) → List Char
  | .placeholder _ :: ps, k :: ks => Numbered.numberText k ++ filled ps ks
  | p :: ps, ks => p.text ++ filled ps ks
  | [], _ => []

theorem filled_map (number : String → Option Nat) (ps : List Piece) :
    filled ps ((placeholderNames ps).map number) =
      ps.flatMap (Piece.textWith fun name => Numbered.numberText (number name)) := by
  induction ps with
  | nil => rfl
  | cons p ps ih =>
    rw [List.flatMap_cons, ← ih]
    cases p with
    | placeholder word => rfl
    | _ =>
      rw [placeholderNames_cons_none rfl, filled]
      · rfl
      · simp

/-- How the numbers of the placeholders, a null having none, fit the values that are bound. -/
structure Aligned (ps : List Parameter) (names : List String) (ks : List (Option Nat))
    (values : List Value) : Prop where
  /-- A number is the place of the value of the name's first parameter. -/
  value_of_number : List.Forall₂ (fun name k => ∃ p, findParameter? ps name = some p ∧
    (k = none ↔ p.value.isNull = true) ∧
    ∀ n, k = some n → 1 ≤ n ∧ n ≤ values.length ∧ values[n - 1]? = some p.value) names ks
  number_eq_iff : ∀ (i j k l : Nat) (a b : String), names[i]? = some a → names[j]? = some b →
    ks[i]? = some (some k) → ks[j]? = some (some l) → (k = l ↔ sameName a b = true)
  /-- The numbers are given out in turn. -/
  earlier_number : ∀ i k : Nat, ks[i]? = some (some k) →
    ∀ m, 1 ≤ m → m < k → ∃ j < i, ks[j]? = some (some m)
  value_not_null : ∀ v ∈ values, v.isNull = false
  number_used : ∀ k, 1 ≤ k → k ≤ values.length → some k ∈ ks
  /-- There is one value for each name that has one, whatever the case of its letters. -/
  length_values : values.length = ((names.filter (Numbered.binds ps)).map foldCase).toFinset.card

theorem aligned_numbers {ps : List Parameter} {names : List String}
    (found : ∀ name ∈ names, ∃ p, findParameter? ps name = some p) :
    Aligned ps names (names.map (Numbered.number? ps names))
      (Numbered.boundValues ps names) where
  value_of_number := by
    rw [List.forall₂_map_right_iff, List.forall₂_same]
    intro name hn
    obtain ⟨p, hp⟩ := found name hn
    exact ⟨p, hp, Numbered.number?_eq_none_iff names hp, fun k => Numbered.getElem?_of_number hn hp⟩
  number_eq_iff := by
    intro i j k l a b ha hb hk hl
    simp only [List.getElem?_map, ha, hb, Option.map_some, Option.some.injEq] at hk hl
    unfold Numbered.number? at hk hl
    split at hk
    next binds =>
      split at hl
      next =>
        have mem : foldCase a ∈ Numbered.firstUses ps names :=
          Numbered.mem_firstUses.mpr ⟨a, List.mem_of_getElem? ha, binds, rfl⟩
        rw [sameName_iff, ← List.idxOf_inj mem]
        simp only [Option.some.injEq] at hk hl
        omega
      next => simp at hl
    next => simp at hk
  earlier_number := by
    intro i k hk m hm hlt
    rw [List.getElem?_map] at hk
    obtain ⟨name, hi, hk⟩ := Option.map_eq_some_iff.mp hk
    obtain ⟨j, other, hj, ho, hnumber⟩ := Numbered.exists_smaller_number hi hk hm hlt
    exact ⟨j, hj, by simp [ho, hnumber]⟩
  value_not_null := by
    intro v hv
    obtain ⟨key, hk, hv⟩ := List.mem_filterMap.mp hv
    obtain ⟨w, hw, null⟩ := Numbered.valueOf?_isSome_of_mem hk
    obtain rfl := Option.some.inj (hw.symm.trans hv)
    exact null
  number_used := by
    intro k hk hle
    rw [Numbered.length_boundValues] at hle
    have place : (Numbered.firstUses ps names)[k - 1]? =
        some (Numbered.firstUses ps names)[k - 1] := List.getElem?_eq_getElem (by omega)
    obtain ⟨name, hn, hb, hkey⟩ := Numbered.mem_firstUses.mp (List.mem_of_getElem? place)
    refine List.mem_map.mpr ⟨name, hn, ?_⟩
    simpa [Nat.sub_add_cancel hk] using Numbered.number?_of_getElem place hb hkey
  length_values := by
    rw [Numbered.length_boundValues, ← List.toFinset_card_of_nodup Numbered.firstUses_nodup]
    congr 1
    ext key
    simp [Numbered.firstUses]

/-- The placeholders of a numbered command take numbers that fit its values. -/
theorem numbered_aligned {c : Command} {n : Numbered} (h : c.numbered = .ok n) :
    ∃ ks, n.sql = filled (pieces c.text.toList) ks ∧
      Aligned c.parameters (placeholderNames (pieces c.text.toList)) ks n.values := by
  obtain ⟨found, rfl⟩ := numbered_eq_ok_iff.mp h
  exact ⟨_, (filled_map _ _).symm, aligned_numbers found⟩

theorem numbered_aligned_mixed :
    mixedCommand.numbered = .ok ⟨mixedSql, [.int 7, .bool true]⟩ ∧
    ∃ ks, mixedSql = filled (pieces mixedCommand.text.toList) ks ∧
      Aligned mixedCommand.parameters (placeholderNames (pieces mixedCommand.text.toList)) ks
        [.int 7, .bool true] :=
  ⟨mixedCommand_numbered, numbered_aligned mixedCommand_numbered⟩

end PlanSql
