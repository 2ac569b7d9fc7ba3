import PlanSql.Proofs.ConstantText

namespace PlanSql

namespace Piece

/-- What stands in the place of a piece once its placeholder is written. -/
def tokens (write : ParameterText) : Piece → List Piece
  | placeholder name => (write (String.ofList name)).map other
  | p => [p]

/-- A name that, without its `@`, would give a quote behind it backslash escapes. -/
def IsEscapeLetter (name : List Char) : Prop := name = ['E'] ∨ name = ['e']

end Piece

open Piece

/-- The text of the pieces reads as the same pieces, and what is written for a placeholder begins
behind no word and no `$`; no word begins behind a null. -/
structure ReadsBack (write : ParameterText) (qs : List Piece) : Prop where
  pieces_eq : pieces (qs.flatMap (textWith write)) = qs.flatMap (tokens write)
  alone : ∀ first name rest, qs = first ++ placeholder name :: rest →
    FollowsNoWord (first.flatMap (textWith write)).reverse ∧
      (write (String.ofList name) = "NULL".toList →
        ∀ c ∈ (rest.flatMap (textWith write)).head?, isWordChar c = false)

/-- A placeholder between the characters `before`, the last one first, and the pieces `rest`. -/
structure Apart (null : Prop) (before name : List Char) (rest : List Piece) : Prop where
  free : FollowsNoWord before
  /-- A null is no word for an `@` before it. -/
  no_at : null → before.head? ≠ some '@'
  /-- A run in single quotes ends there also without the escapes that the name gives it. -/
  no_escapes : IsEscapeLetter name → ∀ run tail, rest = quoted run :: tail →
    run.head? = some '\'' → QuotedRun '\'' False run (tail.flatMap Piece.text)

/-- Every placeholder keeps apart from its neighbours. -/
def KeepApart (null : String → Prop) (before : List Char) (qs : List Piece) : Prop :=
  ∀ first name rest, qs = first ++ placeholder name :: rest →
    Apart (null (String.ofList name)) ((first.flatMap Piece.text).reverse ++ before) name rest

/-- A null or a number. -/
inductive IsToken (null : Prop) : List Char → Prop
  | null : null → IsToken null "NULL".toList
  | number (k : Nat) : ¬null → IsToken null ('$' :: decimalDigits k)

theorem Splits.text_eq {before text : List Char} {qs : List Piece} (h : Splits before text qs) :
    text = qs.flatMap Piece.text := by
  induction h with
  | nil => rfl
  | cons _ _ ih => rw [List.flatMap_cons, ← ih]

/-- The last pieces of a split are one of what follows the others. -/
theorem Splits.of_append {before text : List Char} {first rest : List Piece}
    (h : Splits before text (first ++ rest)) :
    Splits ((first.flatMap Piece.text).reverse ++ before) (rest.flatMap Piece.text) rest := by
  induction first generalizing before text with
  | nil => rwa [h.text_eq] at h
  | cons p first ih =>
    cases h with
    | cons _ others =>
      rw [List.flatMap_cons, List.reverse_append, List.append_assoc]
      exact ih others

theorem Splits.head {before text : List Char} {rest : List Piece} {p : Piece}
    (h : Splits before text (p :: rest)) : p.Stands before (rest.flatMap Piece.text) := by
  cases h with
  | cons stands others => rwa [others.text_eq] at stands

theorem Splits.tail {before text : List Char} {rest : List Piece} {p : Piece}
    (h : Splits before text (p :: rest)) :
    Splits (p.text.reverse ++ before) (rest.flatMap Piece.text) rest := by
  have others := Splits.of_append (show Splits before text ([p] ++ rest) from h)
  rwa [List.flatMap_singleton] at others

theorem IsToken.exists_first {null : Prop} {t : List Char} (h : IsToken null t) :
    ∃ c s, t = c :: s ∧ (c = '$' ∨ null ∧ c = 'N') := by
  cases h with
  | null hn => exact ⟨'N', _, rfl, .inr ⟨hn, rfl⟩⟩
  | number k => exact ⟨'$', _, rfl, .inl rfl⟩

theorem IsToken.eq_null_iff {null : Prop} {t : List Char} (h : IsToken null t) :
    t = "NULL".toList ↔ null := by
  cases h with
  | null hn => exact iff_of_true rfl hn
  | number k hn => exact iff_of_false (fun e => by cases e) hn

theorem isWordChar_of_isDigit {c : Char} (h : c.isDigit = true) : isWordChar c = true := by
  simp [isWordChar, Char.isAlphanum, h]

theorem IsToken.exists_last {null : Prop} {t : List Char} (h : IsToken null t) :
    ∃ c s, t.reverse = c :: s ∧ isWordChar c = true ∧ ¬(c = 'E' ∨ c = 'e') := by
  cases h with
  | null => exact ⟨'L', _, rfl, rfl, by decide⟩
  | number k =>
    have digits : (decimalDigits k).reverse ≠ [] :=
      List.reverse_eq_nil_iff.not.mpr Nat.toDigits_ne_nil
    obtain ⟨c, s, hc⟩ := List.exists_cons_of_ne_nil digits
    have digit : c.isDigit = true := by
      refine Nat.isDigit_of_mem_toDigits (by decide) (by decide)
        (List.mem_reverse.mp (?_ : c ∈ (decimalDigits k).reverse))
      rw [hc]
      exact List.mem_cons_self
    refine ⟨c, s ++ ['$'], ?_, isWordChar_of_isDigit digit, ?_⟩
    · rw [List.reverse_cons, hc, List.cons_append]
    · rintro (rfl | rfl) <;> cases digit

/-- Texts before a piece that end alike: both in a word, or neither, and as free for a `$`. -/
structure Alike (before before' : List Char) : Prop where
  word : (∃ c ∈ before.head?, isWordChar c = true) ↔ ∃ c ∈ before'.head?, isWordChar c = true
  free : FollowsNoWord before ↔ FollowsNoWord before'

theorem Alike.of_head? {before before' : List Char} (h : before.head? = before'.head?) :
    Alike before before' := by
  refine ⟨?_, ?_⟩
  · rw [h]
  · rw [FollowsNoWord, FollowsNoWord, h]

theorem Alike.append {before before' : List Char} (h : Alike before before') (s : List Char) :
    Alike (s ++ before) (s ++ before') := by
  cases s with
  | nil => exact h
  | cons c s => exact .of_head? rfl

theorem alike_of_word {c d : Char} {before before' : List Char} (hc : isWordChar c = true)
    (hd : isWordChar d = true) : Alike (c :: before) (d :: before') := by
  refine ⟨?_, ?_⟩
  · simp [hc, hd]
  · simp [FollowsNoWord, hc, hd]

theorem followsEscapeLetter_cons {c : Char} {before : List Char} :
    FollowsEscapeLetter (c :: before) ↔
      (c = 'E' ∨ c = 'e') ∧ ¬∃ d ∈ before.head?, isWordChar d = true := by
  constructor
  · rintro ⟨d, rest, e, letter, free⟩
    obtain ⟨rfl, rfl⟩ := List.cons.inj e
    exact ⟨letter, fun ⟨d, hd, word⟩ => by simp [free d hd] at word⟩
  · rintro ⟨letter, free⟩
    refine ⟨c, before, rfl, letter, fun d hd => ?_⟩
    exact Bool.eq_false_iff.mpr fun word => free ⟨d, hd, word⟩

theorem Alike.escapes_iff {before before' : List Char} (h : Alike before before') {s : List Char}
    (hs : s ≠ []) : FollowsEscapeLetter (s ++ before) ↔ FollowsEscapeLetter (s ++ before') := by
  obtain ⟨c, s, rfl⟩ := List.exists_cons_of_ne_nil hs
  rw [List.cons_append, List.cons_append, followsEscapeLetter_cons, followsEscapeLetter_cons,
    (h.append s).word]

theorem escapes_placeholder_iff {name before : List Char} (word : ∀ c ∈ name, isWordChar c = true)
    (hn : name ≠ []) :
    FollowsEscapeLetter (name.reverse ++ '@' :: before) ↔ IsEscapeLetter name := by
  obtain ⟨s, c, rfl⟩ : ∃ s c, name = s ++ [c] := ⟨_, _, (List.dropLast_append_getLast hn).symm⟩
  rw [List.reverse_append, List.reverse_singleton, List.append_assoc, List.singleton_append,
    followsEscapeLetter_cons]
  rcases List.eq_nil_or_concat s with rfl | ⟨r, d, rfl⟩
  · have noWord : ¬isWordChar '@' = true := by decide
    simp [IsEscapeLetter, noWord]
  · -- A longer name ends in a letter that is part of a word.
    have hd : isWordChar d = true := word d (by simp)
    have long (e : Char) : r ++ [d] ++ [c] ≠ [e] := fun h => by
      simpa using congrArg List.length h
    simp only [IsEscapeLetter, List.concat_eq_append, long, or_self, iff_false]
    exact fun h => h.2 (by simpa using hd)

/-- Texts behind a piece: they begin alike, or a token takes the place of a placeholder. -/
structure AlikeAfter (after after' : List Char) : Prop where
  nil_iff : after = [] ↔ after' = []
  head? : after'.head? = after.head? ∨
    after.head? = some '@' ∧ (after'.head? = some '$' ∨ after'.head? = some 'N')

theorem AlikeAfter.head?_ne_iff {after after' : List Char} (h : AlikeAfter after after') {c : Char}
    (hc : c ≠ '@' ∧ c ≠ '$' ∧ c ≠ 'N') : after'.head? ≠ some c ↔ after.head? ≠ some c := by
  rcases h.head? with e | ⟨e, e' | e'⟩
  · rw [e]
  · rw [e, e']
    simp [Ne.symm hc.1, Ne.symm hc.2.1]
  · rw [e, e']
    simp [Ne.symm hc.1, Ne.symm hc.2.2]

namespace Piece

variable {after after' : List Char}

theorem QuotedRun.congr {quote : Char} {escapes escapes' : Prop} {run : List Char}
    (h : QuotedRun quote escapes run after) (e : escapes ↔ escapes') :
    QuotedRun quote escapes' run after := by
  rwa [← propext e]

theorem QuotedRun.head?_eq {quote : Char} {escapes : Prop} {run : List Char}
    (h : QuotedRun quote escapes run after) : run.head? = some quote := by
  cases h <;> rfl

/-- A run that begins with a single quote stands as one. -/
theorem Stands.single {before run : List Char} (h : (quoted run).Stands before after)
    (first : run.head? = some '\'') : QuotedRun '\'' (FollowsEscapeLetter before) run after := by
  rcases h with single | double
  · exact single
  · exact absurd (double.head?_eq.symm.trans first) (by decide)

theorem QuotedRun.of_after {quote : Char} {escapes : Prop} {run : List Char}
    (h : QuotedRun quote escapes run after) (nil : after = [] → after' = [])
    (head? : after.head? ≠ some quote → after'.head? ≠ some quote) :
    QuotedRun quote escapes run after' := by
  cases h with
  | closed body close => exact .closed body (head? close)
  | unclosed body =>
    rw [nil rfl]
    exact .unclosed body
  | cut escapes body =>
    rw [nil rfl]
    exact .cut escapes body

theorem LineRun.of_after {run : List Char} (h : LineRun run after)
    (nil : after = [] → after' = []) : LineRun run after' := by
  cases h with
  | closed body => exact .closed body
  | unclosed body =>
    rw [nil rfl]
    exact .unclosed body

/-- The inside of a comment sees no more than the next character behind it. -/
theorem CommentBody.of_head? {body : List Char} (h : CommentBody body after)
    (e : after'.head? = after.head?) : CommentBody body after' := by
  induction h generalizing after' with
  | nil => exact .nil
  | nested _ _ ihs iht => exact .nested (ihs rfl) (iht e)
  | @plain c t after mark _ ih =>
    refine .plain (fun begins => mark ?_) (ih e)
    have same : (t ++ after').head? = (t ++ after).head? := by
      rw [List.head?_append, List.head?_append, e]
    rwa [BeginsMark, same] at begins

theorem CommentRun.of_after {run : List Char} (h : CommentRun run after)
    (nil : after = [] → after' = []) : CommentRun run after' := by
  cases h with
  | closed body => exact .closed (body.of_head? rfl)
  | unclosed body =>
    rw [nil rfl]
    exact .unclosed body

theorem DollarRun.of_after {run : List Char} (h : DollarRun run after)
    (nil : after = [] → after' = []) : DollarRun run after' := by
  cases h with
  | @closed tag body after valid first =>
    refine .closed valid fun u v e => ?_
    by_contra short
    -- A mark that begins sooner ends before the closing one does.
    have lengths : (u ++ tagMark tag).length ≤ (body ++ tagMark tag).length := by
      simp only [List.length_append]
      omega
    have e : body ++ tagMark tag ++ after' = u ++ tagMark tag ++ v := by simpa using e
    obtain ⟨w, hw⟩ := List.prefix_of_prefix_length_le ⟨v, e.symm⟩ (List.prefix_append _ _) lengths
    refine short (first u (w ++ after) ?_)
    have whole := congrArg (· ++ after) hw.symm
    simpa using whole
  | unclosed valid absent =>
    rw [nil rfl]
    exact .unclosed valid absent

theorem delimiter?_eq_none_iff {s : List Char} : delimiter? s = none ↔
    ((s.dropWhile isWordChar).head? = some '$' →
      (s.takeWhile isWordChar).head?.any Char.isDigit = true) := by
  unfold delimiter? splitWhile
  dsimp only
  split
  next rest e =>
    rw [e]
    simp
  next unmarked =>
    refine iff_of_true rfl fun e => ?_
    obtain ⟨rest, e⟩ := List.head?_eq_some_iff.mp e
    exact absurd e (unmarked rest)

/-- When a character stands for itself. -/
theorem next_eq_other_iff {before s : List Char} {c : Char} :
    next before c s = (other c, s) ↔
      c ≠ '\'' ∧ c ≠ '"' ∧ (c = '-' → s.head? ≠ some '-') ∧ (c = '/' → s.head? ≠ some '*') ∧
        (c = '$' → FollowsNoWord before → delimiter? s = none) ∧
        (c = '@' → ∀ d ∈ s.head?, isWordChar d = false) := by
  constructor
  · intro h
    refine ⟨?_, ?_, ?_, ?_, ?_, ?_⟩
    · rintro rfl
      simp [next_single] at h
    · rintro rfl
      simp [next_double] at h
    · rintro rfl dash
      obtain ⟨rest, rfl⟩ := List.head?_eq_some_iff.mp dash
      simp [next_line] at h
    · rintro rfl star
      obtain ⟨rest, rfl⟩ := List.head?_eq_some_iff.mp star
      simp [next_block] at h
    · rintro rfl free
      cases mark : delimiter? s with
      | none => rfl
      | some out => simp [next_dollar (mayOpenBody_iff.mpr free) mark] at h
    · rintro rfl d hd
      refine Bool.eq_false_iff.mpr fun word => ?_
      obtain ⟨rest, rfl⟩ := List.head?_eq_some_iff.mp hd
      have nonempty : (d :: rest).takeWhile isWordChar ≠ [] := by simp [word]
      simp [next_placeholder (rfl : splitWhile isWordChar (d :: rest) = _) nonempty] at h
  · rintro ⟨single, double, dash, star, dollar, hmark⟩
    unfold next
    rw [if_neg (by simp [single, double]), if_neg (by simpa using dash),
      if_neg (by simpa using star)]
    split
    next h =>
      obtain ⟨rfl, free⟩ : c = '$' ∧ mayOpenBody before = true := by simpa using h
      rw [dollar rfl (mayOpenBody_iff.mp free)]
    next =>
      split
      next h =>
        have empty : s.takeWhile isWordChar = [] := by
          cases s with
          | nil => rfl
          | cons d rest => simp [hmark h d rfl]
        simp [splitWhile, empty]
      next => rfl

/-- A piece that begins with a letter, a digit or `_` is that character. -/
theorem Stands.eq_other {before : List Char} {p : Piece} (h : p.Stands before after) {c : Char}
    {s : List Char} (hp : p.text = c :: s) (word : isWordChar c = true) : p = other c ∧ s = [] := by
  have begins {d : Char} {run : List Char} (e : d :: run = c :: s) (hd : isWordChar d = false) :
      False := by
    rw [(List.cons.inj e).1, word] at hd
    cases hd
  cases p with
  | other d =>
    obtain ⟨rfl, rfl⟩ := List.cons.inj hp
    exact ⟨rfl, rfl⟩
  | placeholder name => exact (begins hp rfl).elim
  | quoted run => rcases h with h | h <;> cases h <;> exact (begins hp rfl).elim
  | lineComment run => cases h <;> exact (begins hp rfl).elim
  | blockComment run => cases h <;> exact (begins hp rfl).elim
  | dollarBody run => cases h.2 <;> exact (begins hp rfl).elim

end Piece

section Written

variable {write : ParameterText} {null : String → Prop} {before before' text : List Char}
  {qs : List Piece}

theorem textWith_of_name? {p : Piece} (h : p.name? = none) (write : ParameterText) :
    p.textWith write = p.text ∧ p.tokens write = [p] := by
  cases p <;> first | exact ⟨rfl, rfl⟩ | cases h

theorem KeepApart.tail {p : Piece} (h : KeepApart null before (p :: qs)) :
    KeepApart null (p.text.reverse ++ before) qs := by
  rintro first name rest rfl
  have apart := h (p :: first) name rest rfl
  rwa [List.flatMap_cons, List.reverse_append, List.append_assoc] at apart

theorem KeepApart.head {name : List Char} (h : KeepApart null before (placeholder name :: qs)) :
    Apart (null (String.ofList name)) before name qs := h [] name qs rfl

/-- What is written for a placeholder is a token. -/
def Writes (null : String → Prop) (write : ParameterText) (qs : List Piece) : Prop :=
  ∀ p ∈ qs, ∀ name, p.name? = some name → IsToken (null name) (write name)

theorem alikeAfter_written (tokens : Writes null write qs) (h : Splits before text qs) :
    AlikeAfter text (qs.flatMap (textWith write)) := by
  cases h with
  | nil => exact ⟨Iff.rfl, .inl rfl⟩
  | @cons _ rest p qs stands others =>
    rw [List.flatMap_cons]
    cases hp : p.name? with
    | none =>
      rw [(textWith_of_name? hp write).1]
      obtain ⟨c, s, hs⟩ := List.exists_cons_of_ne_nil stands.text_ne_nil
      rw [hs]
      exact ⟨by simp, .inl rfl⟩
    | some name =>
      obtain ⟨word, rfl⟩ : ∃ word, p = placeholder word := by
        cases p <;> first | exact ⟨_, rfl⟩ | cases hp
      obtain ⟨c, s, hs, first⟩ := (tokens _ List.mem_cons_self _ rfl).exists_first
      rw [textWith, hs]
      refine ⟨by simp [Piece.text], .inr ⟨rfl, ?_⟩⟩
      rcases first with rfl | ⟨-, rfl⟩
      · exact .inl rfl
      · exact .inr rfl

/-- No placeholder begins in the word behind a `$`, so the word stays as it is. -/
theorem wordRun_written (h : Splits before text qs) (apart : KeepApart null before qs)
    (run : ¬FollowsNoWord before) :
    (qs.flatMap (textWith write)).takeWhile isWordChar = text.takeWhile isWordChar ∧
      ((qs.flatMap (textWith write)).dropWhile isWordChar).head? =
        (text.dropWhile isWordChar).head? := by
  induction h with
  | nil => exact ⟨rfl, rfl⟩
  | @cons before rest p qs stands others ih =>
    have plain : p.name? = none := by
      cases p <;> first | rfl | exact absurd apart.head.free run
    obtain ⟨c, s, hp⟩ := List.exists_cons_of_ne_nil stands.text_ne_nil
    rw [List.flatMap_cons, (textWith_of_name? plain write).1, hp]
    cases word : isWordChar c with
    | false => simp [word]
    | true =>
      obtain ⟨rfl, rfl⟩ := stands.eq_other hp word
      have next_run : ¬FollowsNoWord ((other c).text.reverse ++ before) := fun free => by
        have stop : isWordChar c = false := (free c rfl).1
        simp [word] at stop
      simpa [word] using ih apart.tail next_run

theorem delimiter?_written (h : Splits ('$' :: before) text qs)
    (apart : KeepApart null ('$' :: before) qs) (unmarked : delimiter? text = none) :
    delimiter? (qs.flatMap (textWith write)) = none := by
  have run : ¬FollowsNoWord ('$' :: before) := fun free => (free '$' rfl).2 rfl
  rwa [delimiter?_eq_none_iff, (wordRun_written h apart run).1, (wordRun_written h apart run).2,
    ← delimiter?_eq_none_iff]

/-- No word begins where none began, unless it is a null. -/
theorem not_word_written (tokens : Writes null write qs) (h : Splits before text qs)
    (no_null : ∀ name rest, qs = placeholder name :: rest → ¬null (String.ofList name))
    (no_word : ∀ c ∈ text.head?, isWordChar c = false) :
    ∀ c ∈ (qs.flatMap (textWith write)).head?, isWordChar c = false := by
  cases h with
  | nil => exact no_word
  | @cons _ rest p qs stands others =>
    rw [List.flatMap_cons]
    cases hp : p.name? with
    | none =>
      obtain ⟨c, s, hs⟩ := List.exists_cons_of_ne_nil stands.text_ne_nil
      rw [hs] at no_word
      rwa [(textWith_of_name? hp write).1, hs]
    | some name =>
      obtain ⟨word, rfl⟩ : ∃ word, p = placeholder word := by
        cases p <;> first | exact ⟨_, rfl⟩ | cases hp
      obtain ⟨c, s, hs, first⟩ := (tokens _ List.mem_cons_self _ rfl).exists_first
      rcases first with rfl | ⟨hnull, -⟩
      · rw [textWith, hs]
        rintro d ⟨⟩
        decide
      · exact absurd hnull (no_null word qs rfl)

/-- A piece that is no placeholder stands as before. -/
theorem stands_written {p : Piece} {rest : List Char} (tokens : Writes null write qs)
    (stands : p.Stands before rest) (others : Splits (p.text.reverse ++ before) rest qs)
    (apart : KeepApart null before (p :: qs)) (alike : Alike before before')
    (lead : ∀ run, p = quoted run → run.head? = some '\'' →
      QuotedRun '\'' (FollowsEscapeLetter before') run rest)
    (plain : p.name? = none) : p.Stands before' (qs.flatMap (textWith write)) := by
  have after := alikeAfter_written tokens others
  cases p with
  | placeholder name => cases plain
  | quoted run =>
    rcases stands with single | double
    · exact .inl ((lead run rfl single.head?_eq).of_after after.nil_iff.mp
        (after.head?_ne_iff (by decide)).mpr)
    · exact .inr (double.of_after after.nil_iff.mp (after.head?_ne_iff (by decide)).mpr)
  | lineComment run => exact stands.of_after after.nil_iff.mp
  | blockComment run => exact stands.of_after after.nil_iff.mp
  | dollarBody run => exact ⟨alike.free.mp stands.1, stands.2.of_after after.nil_iff.mp⟩
  | other c =>
    have read : next before c rest = (other c, rest) := next_of_stands stands rfl
    obtain ⟨single, double, dash, slash, dollar, hmark⟩ := next_eq_other_iff.mp read
    refine stands_of_next (next_eq_other_iff.mpr ⟨single, double, fun e => ?_, fun e => ?_, ?_, ?_⟩)
    · exact (after.head?_ne_iff (by decide)).mpr (dash e)
    · exact (after.head?_ne_iff (by decide)).mpr (slash e)
    · rintro rfl free
      exact delimiter?_written others apart.tail (dollar rfl (alike.free.mpr free))
    · rintro rfl
      refine not_word_written tokens others ?_ (hmark rfl)
      rintro name rest rfl hnull
      exact apart.tail.head.no_at hnull rfl

theorem splits_plain {s rest : List Char} (h : s.all isPlain = true)
    (others : Splits (s.reverse ++ before) rest qs) :
    Splits before (s ++ rest) (s.map other ++ qs) := by
  induction s generalizing before with
  | nil => exact others
  | cons c s ih =>
    obtain ⟨hc, hs⟩ : isPlain c = true ∧ s.all isPlain = true := by simpa using h
    refine .cons (stands_of_next (next_plain hc before (s ++ rest))) (ih hs ?_)
    rwa [List.reverse_cons, List.append_assoc] at others

/-- A token reads as its characters. -/
theorem IsToken.splits {null : Prop} {t rest : List Char} (h : IsToken null t)
    (others : Splits (t.reverse ++ before) rest qs) :
    Splits before (t ++ rest) (t.map other ++ qs) := by
  cases h with
  | null => exact splits_plain rfl others
  | number k =>
    have plain : (decimalDigits k).all isPlain = true := List.all_eq_true.mpr fun c hc =>
      isPlain_of_numeral (.inl (isDigit_of_mem_decimalDigits hc))
    have digits : Splits ('$' :: before) (decimalDigits k ++ rest)
        ((decimalDigits k).map other ++ qs) :=
      splits_plain plain (by simpa using others)
    refine .cons (stands_of_next (s := decimalDigits k ++ rest) (next_eq_other_iff.mpr ?_)) digits
    -- A tag does not begin with a digit.
    have unmarked : delimiter? (decimalDigits k ++ rest) = none := by
      have nonempty : decimalDigits k ≠ [] := Nat.toDigits_ne_nil
      obtain ⟨c, s, hs⟩ := List.exists_cons_of_ne_nil nonempty
      have digit : c.isDigit = true :=
        isDigit_of_mem_decimalDigits (n := k) (by rw [hs]; exact List.mem_cons_self)
      rw [delimiter?_eq_none_iff, hs]
      simp [isWordChar_of_isDigit digit, digit]
    simp [unmarked]

theorem IsToken.not_escapes {null : Prop} {t : List Char} (h : IsToken null t) :
    ¬FollowsEscapeLetter (t.reverse ++ before) := by
  obtain ⟨c, s, hc, -, no_letter⟩ := h.exists_last
  rw [hc, List.cons_append, followsEscapeLetter_cons]
  exact fun escapes => no_letter escapes.1

theorem IsToken.alike {null : Prop} {t name : List Char} (h : IsToken null t)
    (word : ∀ c ∈ name, isWordChar c = true) (hn : name ≠ []) :
    Alike (name.reverse ++ '@' :: before) (t.reverse ++ before') := by
  obtain ⟨c, s, hc, token, -⟩ := h.exists_last
  obtain ⟨d, r, hd⟩ := List.exists_cons_of_ne_nil (List.reverse_eq_nil_iff.not.mpr hn)
  have mem : d ∈ name := by
    rw [← List.mem_reverse, hd]
    exact List.mem_cons_self
  rw [hc, hd]
  exact alike_of_word (word d mem) token

theorem alike_piece {p : Piece} {rest : List Char} (stands : p.Stands before rest)
    (token : ∀ name, p.name? = some name → IsToken (null name) (write name))
    (alike : Alike before before') :
    Alike (p.text.reverse ++ before) ((p.textWith write).reverse ++ before') := by
  cases p with
  | placeholder name =>
    rw [Piece.text, List.reverse_cons, List.append_assoc]
    exact (token _ rfl).alike stands.2.1 stands.1
  | _ => exact alike.append _

theorem alike_before {first rest : List Piece} (tokens : Writes null write (first ++ rest))
    (h : Splits before text (first ++ rest)) (alike : Alike before before') :
    Alike ((first.flatMap Piece.text).reverse ++ before)
      ((first.flatMap (textWith write)).reverse ++ before') := by
  induction first generalizing before before' text with
  | nil => exact alike
  | cons p first ih =>
    cases h with
    | cons stands others =>
      have next := alike_piece stands (tokens p List.mem_cons_self) alike
      have all := ih (fun q hq => tokens q (List.mem_cons_of_mem p hq)) others next
      simpa using all

/-- Text whose placeholders keep apart splits as before, each token in the place of its
placeholder. -/
theorem splits_written (tokens : Writes null write qs) (h : Splits before text qs)
    (apart : KeepApart null before qs) (alike : Alike before before')
    (lead : ∀ run rest, qs = quoted run :: rest → run.head? = some '\'' →
      QuotedRun '\'' (FollowsEscapeLetter before') run (rest.flatMap Piece.text)) :
    Splits before' (qs.flatMap (textWith write)) (qs.flatMap (Piece.tokens write)) := by
  induction h generalizing before' with
  | nil => exact .nil
  | @cons before rest p qs stands others ih =>
    have tokens' : Writes null write qs := fun q hq => tokens q (List.mem_cons_of_mem p hq)
    rw [List.flatMap_cons, List.flatMap_cons]
    cases hp : p.name? with
    | none =>
      have stands' : p.Stands before' (qs.flatMap (textWith write)) := by
        refine stands_written tokens' stands others apart alike (fun run e first => ?_) hp
        rw [others.text_eq]
        exact lead run qs (by rw [e]) first
      have next := alike_piece stands (tokens p List.mem_cons_self) alike
      rw [(textWith_of_name? hp write).1] at next ⊢
      rw [(textWith_of_name? hp write).2]
      refine .cons stands' (ih tokens' apart.tail next ?_)
      rintro run tail rfl first
      -- What stands before the run ends in the same piece.
      have reversed : p.text.reverse ≠ [] := List.reverse_eq_nil_iff.not.mpr stands.text_ne_nil
      exact ((others.head).single first).congr (alike.escapes_iff reversed)
    | some name =>
      obtain ⟨word, rfl⟩ : ∃ word, p = placeholder word := by
        cases p <;> first | exact ⟨_, rfl⟩ | cases hp
      obtain ⟨nonempty, inside, -⟩ := stands
      have token := tokens _ List.mem_cons_self _ rfl
      rw [Piece.text, List.reverse_cons, List.append_assoc] at ih others
      refine token.splits (ih tokens' ?_ (token.alike inside nonempty) ?_)
      · have tail := apart.tail
        rwa [Piece.text, List.reverse_cons, List.append_assoc] at tail
      rintro run tail rfl first
      by_cases letter : IsEscapeLetter word
      · exact (apart.head.no_escapes letter run tail rfl first).congr
          (iff_of_false not_false token.not_escapes)
      · have single := (others.head).single first
        refine single.congr (iff_of_false (fun escapes => letter ?_) token.not_escapes)
        exact (escapes_placeholder_iff inside nonempty).mp escapes

theorem tokens_text (write : ParameterText) (p : Piece) :
    (p.tokens write).flatMap Piece.text = p.textWith write := by
  cases p with
  | placeholder name => simp [Piece.tokens, textWith, List.flatMap_map, Piece.text]
  | _ => exact List.flatMap_singleton ..

theorem written_text (write : ParameterText) (qs : List Piece) :
    (qs.flatMap (Piece.tokens write)).flatMap Piece.text = qs.flatMap (textWith write) := by
  rw [List.flatMap_assoc]
  exact congrArg (List.flatMap · qs) (funext (tokens_text write))

/-- A piece that is kept stands between what is written before and after it. -/
theorem stands_of_splits_written {first rest : List Piece} {p : Piece} (hp : p.name? = none)
    (h : Splits before text ((first ++ p :: rest).flatMap (Piece.tokens write))) :
    p.Stands ((first.flatMap (textWith write)).reverse ++ before)
      (rest.flatMap (textWith write)) := by
  rw [List.flatMap_append, List.flatMap_cons, (textWith_of_name? hp write).2,
    List.singleton_append] at h
  have stands := h.of_append.head
  rwa [written_text, written_text] at stands

/-- Only an `@` that stands for itself ends in `@` in front of more text. -/
theorem Piece.Stands.eq_at {after : List Char} {p : Piece} (h : p.Stands before after)
    (more : after ≠ []) (last : p.text.reverse.head? = some '@') : p = other '@' := by
  cases p with
  | quoted run =>
    rcases h with h | h <;> cases h <;> first | exact absurd rfl more | simp [Piece.text] at last
  | lineComment run => cases h <;> first | exact absurd rfl more | simp [Piece.text] at last
  | blockComment run => cases h <;> first | exact absurd rfl more | simp [Piece.text] at last
  | dollarBody run =>
    cases h.2 <;> first | exact absurd rfl more | simp [Piece.text, tagMark] at last
  | placeholder name =>
    obtain ⟨nonempty, word, -⟩ := h
    obtain ⟨c, s, hc⟩ := List.exists_cons_of_ne_nil (List.reverse_eq_nil_iff.not.mpr nonempty)
    obtain rfl : c = '@' := by simpa [Piece.text, hc] using last
    have mem : '@' ∈ name := by
      rw [← List.mem_reverse, hc]
      exact List.mem_cons_self
    exact absurd (word '@' mem) (by decide)
  | other c => simpa [Piece.text] using last

/-- Placeholders that keep apart are written so that the text reads as they were. -/
theorem readsBack_of_apart (tokens : Writes null write qs) (h : Splits [] text qs)
    (apart : KeepApart null [] qs) : ReadsBack write qs where
  pieces_eq := by
    refine (splits_iff.mp (splits_written tokens h apart (.of_head? rfl) ?_)).symm
    rintro run rest rfl first
    exact h.head.single first
  alone := by
    rintro first name rest rfl
    have before := alike_before tokens h (.of_head? rfl)
    rw [List.append_nil, List.append_nil] at before
    have free := (apart first name rest rfl).free
    rw [List.append_nil] at free
    refine ⟨before.free.mp free, fun _ => ?_⟩
    have stands := h.of_append.head
    refine not_word_written (fun q hq => tokens q (by simp [hq])) h.of_append.tail ?_ stands.2.2
    -- A placeholder behind this one would follow its name.
    rintro other more rfl
    have behind := (apart (first ++ [placeholder name]) other more (by simp)).free
    obtain ⟨c, s, hc⟩ := List.exists_cons_of_ne_nil (List.reverse_eq_nil_iff.not.mpr stands.1)
    have word : isWordChar c = true := stands.2.1 c (by
      rw [← List.mem_reverse, hc]
      exact List.mem_cons_self)
    simp [FollowsNoWord, Piece.text, hc, word] at behind

theorem apart_of_readsBack (tokens : Writes null write qs) (h : Splits [] text qs)
    (reads : ReadsBack write qs) : KeepApart null [] qs := by
  have splits : Splits [] (qs.flatMap (textWith write)) (qs.flatMap (Piece.tokens write)) :=
    splits_iff.mpr reads.pieces_eq.symm
  rintro first name rest rfl
  have before := alike_before tokens h (.of_head? rfl)
  rw [List.append_nil, List.append_nil] at before
  have token := tokens (placeholder name) (by simp) _ rfl
  rw [List.append_nil]
  refine ⟨before.free.mpr (reads.alone first name rest rfl).1, fun hnull hmark => ?_, ?_⟩
  · -- The `@` would take the null as its name.
    obtain ⟨init, p, rfl⟩ : ∃ init p, first = init ++ [p] := by
      rcases List.eq_nil_or_concat first with rfl | ⟨init, p, rfl⟩
      · cases hmark
      · exact ⟨init, p, List.concat_eq_append⟩
    rw [List.append_assoc, List.singleton_append] at h splits
    have stands := h.of_append.head
    have last : p.text.reverse.head? = some '@' := by
      obtain ⟨c, s, hc⟩ := List.exists_cons_of_ne_nil
        (List.reverse_eq_nil_iff.not.mpr stands.text_ne_nil)
      simpa [hc] using hmark
    obtain rfl := stands.eq_at (by simp [Piece.text]) last
    have alone := next_of_stands (stands_of_splits_written rfl splits) rfl
    have no_word := (next_eq_other_iff.mp alone).2.2.2.2.2 rfl
    rw [List.flatMap_cons, textWith, token.eq_null_iff.mpr hnull] at no_word
    exact absurd (no_word 'N' rfl) (by decide)
  · rintro - run tail rfl single
    rw [List.append_cons] at h splits
    have stands := (stands_of_splits_written rfl splits).single single
    rw [List.flatMap_append, List.flatMap_singleton, List.reverse_append,
      List.append_assoc] at stands
    have after := alikeAfter_written (fun q hq => tokens q (by simp [hq])) h.of_append.tail
    exact (stands.congr (iff_of_false token.not_escapes not_false)).of_after after.nil_iff.mpr
      (after.head?_ne_iff (by decide)).mp

theorem readsBack_iff (tokens : Writes null write qs) (h : Splits [] text qs) :
    ReadsBack write qs ↔ KeepApart null [] qs :=
  ⟨apart_of_readsBack tokens h, readsBack_of_apart tokens h⟩

end Written

/-- Text without placeholders is numbered as it is. -/
theorem numbered_of_no_names {s : List Char} (h : placeholderNames (pieces s) = [])
    (ps : List Parameter) : (⟨String.ofList s, ps⟩ : Command).numbered = .ok ⟨s, []⟩ := by
  have plain : ∀ p ∈ pieces s, p.name? = none := List.filterMap_eq_nil_iff.mp h
  have kept (write : ParameterText) : (pieces s).flatMap (textWith write) = s := by
    conv_rhs => rw [← pieces_text s]
    exact List.flatMap_congr fun p hp => (textWith_of_name? (plain p hp) write).1
  rw [numbered_eq_ok_iff, Command.rewritten, String.toList_ofList, h, kept]
  exact ⟨by simp, rfl⟩

theorem placeholderNames_tokens (write : ParameterText) (qs : List Piece) :
    placeholderNames (qs.flatMap (Piece.tokens write)) = [] := by
  refine List.filterMap_eq_nil_iff.mpr fun t ht => ?_
  obtain ⟨p, -, hp⟩ := List.mem_flatMap.mp ht
  cases p with
  | placeholder name =>
    obtain ⟨c, -, rfl⟩ := List.mem_map.mp hp
    rfl
  | _ =>
    obtain rfl := List.mem_singleton.mp hp
    rfl

/-- Whether the first parameter of that name is null. -/
def IsNullName (ps : List Parameter) (name : String) : Prop :=
  ∃ p, findParameter? ps name = some p ∧ p.value.isNull = true

theorem isToken_of_refers {ps : List Parameter} {name : String} {p : Parameter}
    {values : List Value} {t : List Char} (hp : findParameter? ps name = some p)
    (h : Refers values p.value t) : IsToken (IsNullName ps name) t := by
  unfold Refers at h
  split at h
  next null =>
    rw [h]
    exact .null ⟨p, hp, null⟩
  next notNull =>
    obtain ⟨k, -, -, rfl⟩ := h
    refine .number k fun ⟨q, hq, null⟩ => notNull ?_
    obtain rfl := Option.some.inj (hp.symm.trans hq)
    exact null

/-- Numbered text is the command's pieces with a token for each placeholder, the null or a number
of its value; it reads as such, and is numbered again as it is, just when the placeholders keep
apart. -/
theorem numbered_reads_back_iff {c : Command} {n : Numbered} (h : c.numbered = .ok n) :
    let qs := pieces c.text.toList
    ∃ write : ParameterText, n.sql = qs.flatMap (textWith write) ∧
      (∀ name ∈ placeholderNames qs, ∃ p, findParameter? c.parameters name = some p ∧
        Refers n.values p.value (write name)) ∧
      (ReadsBack write qs ∧ (⟨String.ofList n.sql, []⟩ : Command).numbered = .ok ⟨n.sql, []⟩ ↔
        KeepApart (IsNullName c.parameters) [] qs) := by
  intro qs
  obtain ⟨found, rfl⟩ := numbered_eq_ok_iff.mp h
  have refers : ∀ name ∈ placeholderNames qs, ∃ p, findParameter? c.parameters name = some p ∧
      Refers c.rewritten.values p.value (Numbered.writer c.parameters (placeholderNames qs) name) :=
    fun name hn => (found name hn).imp fun p hp => ⟨hp, refers_writer hn hp⟩
  refine ⟨Numbered.writer c.parameters (placeholderNames qs), rfl, refers, ?_⟩
  have tokens : Writes (IsNullName c.parameters)
      (Numbered.writer c.parameters (placeholderNames qs)) qs := fun q hq name hname => by
    obtain ⟨p, hp, refer⟩ := refers name (name?_mem hq hname)
    exact isToken_of_refers hp refer
  have both := readsBack_iff tokens (splits_piecesAfter [] c.text.toList)
  refine ⟨fun reads => both.mp reads.1, fun apart => ?_⟩
  have reads := both.mpr apart
  refine ⟨reads, numbered_of_no_names ?_ []⟩
  rw [Command.rewritten, reads.pieces_eq, placeholderNames_tokens]

theorem numbered_reads_back_mixed :
    mixedCommand.numbered = .ok ⟨mixedSql, [.int 7, .bool true]⟩ ∧
    ∃ write : ParameterText, mixedSql = (pieces mixedCommand.text.toList).flatMap (textWith write) ∧
      (∀ name ∈ placeholderNames (pieces mixedCommand.text.toList),
        ∃ p, findParameter? mixedCommand.parameters name = some p ∧
          Refers [.int 7, .bool true] p.value (write name)) ∧
      (ReadsBack write (pieces mixedCommand.text.toList) ∧
        (⟨String.ofList mixedSql, []⟩ : Command).numbered = .ok ⟨mixedSql, []⟩ ↔
        KeepApart (IsNullName mixedCommand.parameters) [] (pieces mixedCommand.text.toList)) :=
  ⟨mixedCommand_numbered, numbered_reads_back_iff mixedCommand_numbered⟩

/-- A placeholder behind a word becomes part of it, and one named `E` takes the escapes of the
quote behind it along. -/
theorem numbered_merges_neighbours :
    ((⟨"SELECT name LIKE@p", [⟨"p", .text "x"⟩]⟩ : Command).numbered =
        .ok ⟨"SELECT name LIKE$1".toList, [.text "x"]⟩ ∧
      ∀ write, ¬ReadsBack write (pieces "SELECT name LIKE@p".toList)) ∧
    (⟨"SELECT @E'\\'@x'", [⟨"e", .text "s"⟩]⟩ : Command).numbered =
        .ok ⟨"SELECT $1'\\'@x'".toList, [.text "s"]⟩ ∧
      (⟨"SELECT $1'\\'@x'", []⟩ : Command).numbered = .error (.missingParameter "x") := by
  refine ⟨⟨by cbv, fun write reads => ?_⟩, by cbv, by cbv⟩
  have split : pieces "SELECT name LIKE@p".toList =
      "SELECT name LIKE".toList.map other ++ [placeholder ['p']] := by cbv
  have free := (reads.alone _ _ _ split).1
  exact absurd (free 'E' rfl).1 (by decide)

end PlanSql
