import PlanSql.Piece

namespace PlanSql

namespace Piece

/-- What stands between the quotes of a run: quotes are doubled, and where `escapes` holds any
character may follow a backslash. -/
inductive QuotedBody (quote : Char) (escapes : Prop) : List Char → Prop
  | nil : QuotedBody quote escapes []
  | doubled {s} : QuotedBody quote escapes s → QuotedBody quote escapes (quote :: quote :: s)
  | escaped {c s} : escapes → QuotedBody quote escapes s → QuotedBody quote escapes ('\\' :: c :: s)
  | plain {c s} : c ≠ quote → ¬(escapes ∧ c = '\\') → QuotedBody quote escapes s →
      QuotedBody quote escapes (c :: s)

/-- A run ends with the first quote that is not doubled, or else with the text. -/
inductive QuotedRun (quote : Char) (escapes : Prop) : (run after : List Char) → Prop
  | closed {body after} : QuotedBody quote escapes body → after.head? ≠ some quote →
      QuotedRun quote escapes (quote :: (body ++ [quote])) after
  | unclosed {body} : QuotedBody quote escapes body → QuotedRun quote escapes (quote :: body) []
  | cut {body} : escapes → QuotedBody quote escapes body →
      QuotedRun quote escapes (quote :: (body ++ ['\\'])) []

/-- A comment from `--` takes the end of its line, if there is one. -/
inductive LineRun : (run after : List Char) → Prop
  | closed {body after} : '\n' ∉ body → LineRun ('-' :: '-' :: (body ++ ['\n'])) after
  | unclosed {body} : '\n' ∉ body → LineRun ('-' :: '-' :: body) []

/-- Whether `c` and the text after it begin with a mark of block comments. -/
def BeginsMark (c : Char) (after : List Char) : Prop :=
  c = '/' ∧ after.head? = some '*' ∨ c = '*' ∧ after.head? = some '/'

/-- The inside of a comment in front of `after`: whole comments, and characters that begin no
mark. -/
inductive CommentBody : (body after : List Char) → Prop
  | nil {after} : CommentBody [] after
  | nested {s t after} : CommentBody s ('*' :: '/' :: (t ++ after)) → CommentBody t after →
      CommentBody ('/' :: '*' :: (s ++ '*' :: '/' :: t)) after
  | plain {c t after} : ¬BeginsMark c (t ++ after) → CommentBody t after →
      CommentBody (c :: t) after

/-- The inside of a comment that the text leaves open, with comments in it that are left open. -/
inductive OpenBody : List Char → Prop
  | flat {s} : CommentBody s [] → OpenBody s
  | nested {s t} : CommentBody s ('/' :: '*' :: t) → OpenBody t → OpenBody (s ++ '/' :: '*' :: t)

inductive CommentRun : (run after : List Char) → Prop
  | closed {s after} : CommentBody s ('*' :: '/' :: after) →
      CommentRun ('/' :: '*' :: (s ++ ['*', '/'])) after
  | unclosed {s} : OpenBody s → CommentRun ('/' :: '*' :: s) []

/-- The tags of dollar bodies: empty, or a word that does not begin with a digit. -/
def IsTag (tag : List Char) : Prop :=
  (∀ c ∈ tag, isWordChar c = true) ∧ ∀ c ∈ tag.head?, c.isDigit = false

def tagMark (tag : List Char) : List Char := '$' :: (tag ++ ['$'])

/-- A dollar body ends with the first repetition of its opening mark, or else with the text. -/
inductive DollarRun : (run after : List Char) → Prop
  | closed {tag body after} : IsTag tag →
      (∀ u v, body ++ (tagMark tag ++ after) = u ++ (tagMark tag ++ v) → body.length ≤ u.length) →
      DollarRun (tagMark tag ++ (body ++ tagMark tag)) after
  | unclosed {tag body} : IsTag tag → ¬tagMark tag <:+: body → DollarRun (tagMark tag ++ body) []

/-- Whether the text before a quote ends in an `E` that is no part of a longer word. -/
def FollowsEscapeLetter (before : List Char) : Prop :=
  ∃ c rest, before = c :: rest ∧ (c = 'E' ∨ c = 'e') ∧ ∀ d ∈ rest.head?, isWordChar d = false

/-- Whether a `$` is free to open a dollar body: it follows no word and no other `$`. -/
def FollowsNoWord (before : List Char) : Prop :=
  ∀ c ∈ before.head?, isWordChar c = false ∧ c ≠ '$'

/-- The pieces that a mark opens, between the text before them, its last character first, and the
text after them. -/
def Opened (before after : List Char) : Piece → Prop
  | quoted s => QuotedRun '\'' (FollowsEscapeLetter before) s after ∨ QuotedRun '"' False s after
  | lineComment s => LineRun s after
  | blockComment s => CommentRun s after
  | dollarBody s => FollowsNoWord before ∧ DollarRun s after
  | placeholder name =>
    name ≠ [] ∧ (∀ c ∈ name, isWordChar c = true) ∧ ∀ c ∈ after.head?, isWordChar c = false
  | other _ => False

/-- A single character stands for itself where no mark opens a piece. -/
def Stands (before after : List Char) : Piece → Prop
  | other c => ∀ p rest, Opened before rest p → p.text ++ rest ≠ c :: after
  | p => Opened before after p

end Piece

/-- The splits of a text that follows the characters `before`, the last one first. -/
inductive Splits : (before text : List Char) → List Piece → Prop
  | nil {before} : Splits before [] []
  | cons {before rest : List Char} {p : Piece} {ps : List Piece} : p.Stands before rest →
      Splits (p.text.reverse ++ before) rest ps → Splits before (p.text ++ rest) (p :: ps)

namespace Piece

theorem opensEscapes_iff {before : List Char} :
    opensEscapes before = true ↔ FollowsEscapeLetter before := by
  constructor
  · intro h
    match before with
    | [c] => exact ⟨c, [], rfl, by simpa [opensEscapes] using h, by simp⟩
    | c :: d :: rest =>
      have h : (c = 'E' ∨ c = 'e') ∧ isWordChar d = false := by simpa [opensEscapes] using h
      exact ⟨c, d :: rest, rfl, h.1, by simpa using h.2⟩
  · rintro ⟨c, rest, rfl, letter, word⟩
    cases rest with
    | nil => simpa [opensEscapes] using letter
    | cons d rest =>
      have : isWordChar d = false := word d rfl
      simpa [opensEscapes, this] using letter

theorem mayOpenBody_iff {before : List Char} :
    mayOpenBody before = true ↔ FollowsNoWord before := by
  cases before <;> simp [mayOpenBody, FollowsNoWord]

theorem takeQuoted_plain {quote c : Char} {escapes : Bool} (hq : c ≠ quote)
    (he : ¬(escapes = true ∧ c = '\\')) (s : List Char) :
    takeQuoted quote escapes (c :: s) =
      (c :: (takeQuoted quote escapes s).1, (takeQuoted quote escapes s).2) := by
  cases s with
  | nil => rfl
  | cons d rest => simp_all [takeQuoted]

theorem takeQuoted_of_body {quote : Char} {escapes : Bool} {body : List Char}
    (h : QuotedBody quote (escapes = true) body) (s : List Char) :
    takeQuoted quote escapes (body ++ s) =
      (body ++ (takeQuoted quote escapes s).1, (takeQuoted quote escapes s).2) := by
  induction h with
  | nil => rfl
  | doubled _ ih => simp [takeQuoted, ih]
  | escaped he _ ih => subst he; simp [takeQuoted, ih]
  | plain hq he _ ih => rw [List.cons_append, takeQuoted_plain hq he, ih]; rfl

theorem takeQuoted_of_run {quote : Char} {escapes : Bool} {run after s : List Char}
    (hq : quote ≠ '\\') (h : QuotedRun quote (escapes = true) run after)
    (hs : run ++ after = quote :: s) : quote :: (takeQuoted quote escapes s).1 = run ∧
      (takeQuoted quote escapes s).2 = after := by
  cases h with
  | @closed body after hb ha =>
    have hs : s = body ++ (quote :: after) := by simpa using hs.symm
    have close : takeQuoted quote escapes (quote :: after) = ([quote], after) := by
      cases after with
      | nil => rfl
      | cons d rest => simp_all [takeQuoted]
    rw [hs, takeQuoted_of_body hb, close]
    exact ⟨rfl, rfl⟩
  | @unclosed body hb =>
    have hs : s = body ++ [] := by simpa using hs.symm
    rw [hs, takeQuoted_of_body hb]
    simp [takeQuoted]
  | @cut body he hb =>
    have hs : s = body ++ ['\\'] := by simpa using hs.symm
    rw [hs, takeQuoted_of_body hb]
    simp [takeQuoted]

theorem QuotedRun.extend {quote : Char} {escapes : Prop} {t after : List Char}
    (unit : List Char)
    (hu : ∀ body, QuotedBody quote escapes body → QuotedBody quote escapes (unit ++ body))
    (h : QuotedRun quote escapes (quote :: t) after) :
    QuotedRun quote escapes (quote :: (unit ++ t)) after := by
  generalize he : quote :: t = run at h
  cases h with
  | @closed body after hb ha =>
    rw [(List.cons.inj he).2, ← List.append_assoc]
    exact .closed (hu _ hb) ha
  | unclosed hb =>
    rw [(List.cons.inj he).2]
    exact .unclosed (hu _ hb)
  | cut hesc hb =>
    rw [(List.cons.inj he).2, ← List.append_assoc]
    exact .cut hesc (hu _ hb)

theorem takeQuoted_run (quote : Char) (escapes : Bool) (s : List Char) :
    QuotedRun quote (escapes = true) (quote :: (takeQuoted quote escapes s).1)
      (takeQuoted quote escapes s).2 := by
  fun_induction takeQuoted quote escapes s with
  | case1 => exact .unclosed .nil
  | case2 c =>
    by_cases hq : c = quote
    · subst c; exact .closed .nil (by simp)
    by_cases he : escapes = true ∧ c = '\\'
    · rw [he.2]; exact .cut he.1 .nil
    · exact .unclosed (.plain hq he .nil)
  | case3 c d rest hcond t r ht ih =>
    have hcond : escapes = true ∧ c = '\\' ∨ c = quote ∧ d = quote := by simpa using hcond
    rw [ht] at ih
    refine ih.extend [c, d] fun body hb => ?_
    rcases hcond with ⟨he, rfl⟩ | ⟨rfl, rfl⟩
    · exact .escaped he hb
    · exact .doubled hb
  | case4 d rest hcond =>
    have hcond : ¬(escapes = true ∧ quote = '\\') ∧ d ≠ quote := by simpa using hcond
    exact .closed .nil (by simpa using hcond.2)
  | case5 c d rest hcond hq t r ht ih =>
    have hcond : ¬(escapes = true ∧ c = '\\' ∨ c = quote ∧ d = quote) := by simpa using hcond
    rw [ht] at ih
    exact ih.extend [c] fun body hb => .plain hq (fun he => hcond (.inl he)) hb

theorem takeLine_of_line {body : List Char} (h : '\n' ∉ body) (s : List Char) :
    takeLine (body ++ s) = (body ++ (takeLine s).1, (takeLine s).2) := by
  induction body with
  | nil => rfl
  | cons c body ih =>
    have hc : c ≠ '\n' := fun e => h (by simp [e])
    have hb : '\n' ∉ body := fun e => h (by simp [e])
    simp [takeLine, hc, ih hb]

theorem takeLine_of_run {run after s : List Char} (h : LineRun run after)
    (hs : run ++ after = '-' :: s) : '-' :: (takeLine s).1 = run ∧ (takeLine s).2 = after := by
  cases h with
  | @closed body after hb =>
    have hs : s = ('-' :: body) ++ ('\n' :: after) := by simpa using hs.symm
    rw [hs, takeLine_of_line (by simpa using hb)]
    simp [takeLine]
  | @unclosed body hb =>
    have hs : s = ('-' :: body) ++ [] := by simpa using hs.symm
    rw [hs, takeLine_of_line (by simpa using hb)]
    simp [takeLine]

theorem takeLine_ends (s : List Char) : ∃ body, '\n' ∉ body ∧
    ((takeLine s).1 = body ++ ['\n'] ∨ (takeLine s).1 = body ∧ (takeLine s).2 = []) := by
  fun_induction takeLine s with
  | case1 => exact ⟨[], by simp, .inr ⟨rfl, rfl⟩⟩
  | case2 rest => exact ⟨[], by simp, .inl rfl⟩
  | case3 c rest hc t r ht ih =>
    rw [ht] at ih
    obtain ⟨body, hb, ends⟩ := ih
    refine ⟨c :: body, by simpa [Ne.symm hc] using hb, ?_⟩
    rcases ends with closed | ⟨unclosed, last⟩
    · exact .inl (congrArg (c :: ·) closed)
    · exact .inr ⟨congrArg (c :: ·) unclosed, last⟩

theorem takeLine_run (s : List Char) :
    LineRun ('-' :: (takeLine ('-' :: s)).1) (takeLine ('-' :: s)).2 := by
  obtain ⟨body, hb, ends⟩ := takeLine_ends s
  have step : takeLine ('-' :: s) = ('-' :: (takeLine s).1, (takeLine s).2) := by simp [takeLine]
  rw [step]
  rcases ends with closed | ⟨unclosed, last⟩
  · rw [closed]; exact .closed hb
  · rw [unclosed, last]; exact .unclosed hb

theorem takeBlock_plain {c : Char} {s : List Char} (h : ¬BeginsMark c s) (depth : Nat) :
    takeBlock depth (c :: s) = (c :: (takeBlock depth s).1, (takeBlock depth s).2) := by
  cases s with
  | nil => rfl
  | cons d rest =>
    have h : ¬(c = '/' ∧ d = '*') ∧ ¬(c = '*' ∧ d = '/') := by
      simpa [BeginsMark, not_or] using h
    conv => lhs; unfold takeBlock
    rw [if_neg (by simpa using h.1), if_neg (by simpa using h.2)]

theorem takeBlock_opening (depth : Nat) (s : List Char) :
    takeBlock depth ('/' :: '*' :: s) =
      ('/' :: '*' :: (takeBlock (depth + 1) s).1, (takeBlock (depth + 1) s).2) := by
  simp [takeBlock]

theorem takeBlock_closing (depth : Nat) (s : List Char) :
    takeBlock (depth + 1) ('*' :: '/' :: s) =
      ('*' :: '/' :: (takeBlock depth s).1, (takeBlock depth s).2) := by
  simp [takeBlock]

/-- Reading passes over the inside of a comment, however deep it lies. -/
theorem takeBlock_of_body {body after : List Char} (h : CommentBody body after) (depth : Nat) :
    takeBlock depth (body ++ after) =
      (body ++ (takeBlock depth after).1, (takeBlock depth after).2) := by
  induction h generalizing depth with
  | nil => rfl
  | @nested s t after _ _ ihs iht =>
    have hs := ihs (depth + 1)
    rw [takeBlock_closing, iht] at hs
    simp only [List.cons_append, List.append_assoc, takeBlock_opening, hs]
  | plain hc _ ih => rw [List.cons_append, takeBlock_plain hc, ih]; rfl

theorem takeBlock_of_open {body : List Char} (h : OpenBody body) (depth : Nat) :
    takeBlock depth body = (body, []) := by
  induction h generalizing depth with
  | flat hb => simpa [takeBlock] using takeBlock_of_body hb depth
  | nested hb _ ih => rw [takeBlock_of_body hb, takeBlock_opening, ih]

theorem takeBlock_of_run {run after s : List Char} (h : CommentRun run after)
    (hs : run ++ after = '/' :: '*' :: s) :
    '/' :: '*' :: (takeBlock 0 s).1 = run ∧ (takeBlock 0 s).2 = after := by
  cases h with
  | @closed body after hb =>
    have hs : s = body ++ ('*' :: '/' :: after) := by simpa using hs.symm
    rw [hs, takeBlock_of_body hb]
    simp [takeBlock]
  | @unclosed body hb =>
    have hs : s = body := by simpa using hs.symm
    rw [hs, takeBlock_of_open hb]
    exact ⟨rfl, rfl⟩

/-- What is read from inside `depth` further comments: all of them are closed in turn, or the text
ends before. -/
inductive Unwinds : (depth : Nat) → (run after : List Char) → Prop
  | last {s after} : CommentBody s ('*' :: '/' :: after) → Unwinds 0 (s ++ ['*', '/']) after
  | stop {depth s} : OpenBody s → Unwinds depth s []
  | more {depth s t after} : CommentBody s ('*' :: '/' :: (t ++ after)) → Unwinds depth t after →
      Unwinds (depth + 1) (s ++ '*' :: '/' :: t) after

theorem OpenBody.extend {t : List Char} (unit : List Char)
    (hu : ∀ s after, s ++ after = t → CommentBody s after → CommentBody (unit ++ s) after)
    (h : OpenBody t) : OpenBody (unit ++ t) := by
  cases h with
  | flat hs => exact .flat (hu _ _ (List.append_nil _) hs)
  | nested hs ht =>
    rw [← List.append_assoc]
    exact .nested (hu _ _ rfl hs) ht

theorem Unwinds.extend {depth : Nat} {t after : List Char} (unit : List Char)
    (hu : ∀ s rest, s ++ rest = t ++ after → CommentBody s rest → CommentBody (unit ++ s) rest)
    (h : Unwinds depth t after) : Unwinds depth (unit ++ t) after := by
  cases h with
  | last hs =>
    rw [← List.append_assoc]
    exact .last (hu _ _ (by simp) hs)
  | stop hs => exact .stop (hs.extend unit fun s rest e => hu s rest (by simpa using e))
  | more hs ht =>
    rw [← List.append_assoc]
    exact .more (hu _ _ (by simp) hs) ht

theorem takeBlock_unwinds (depth : Nat) (s : List Char) :
    Unwinds depth (takeBlock depth s).1 (takeBlock depth s).2 := by
  fun_induction takeBlock depth s with
  | case1 => exact .stop (.flat .nil)
  | case2 depth c => exact .stop (.flat (.plain (by simp [BeginsMark]) .nil))
  | case3 depth c d rest hcond t r ht ih =>
    -- The comment that opens here is closed first, and what was open before it goes on.
    obtain ⟨rfl, rfl⟩ : c = '/' ∧ d = '*' := by simpa using hcond
    rw [ht] at ih
    generalize hd : depth + 1 = inner at ih
    cases ih with
    | last => omega
    | stop hs => exact .stop (.nested .nil hs)
    | @more outer s t after hs hrest =>
      obtain rfl : depth = outer := by omega
      have unit := hrest.extend ('/' :: '*' :: (s ++ ['*', '/'])) fun u rest e hu => by
        rw [← e] at hs
        simpa using CommentBody.nested hs hu
      simpa using unit
  | case4 c d rest _ hcond =>
    obtain ⟨rfl, rfl⟩ : c = '*' ∧ d = '/' := by simpa using hcond
    exact .last .nil
  | case5 c d rest _ hcond depth t r ht ih =>
    obtain ⟨rfl, rfl⟩ : c = '*' ∧ d = '/' := by simpa using hcond
    rw [ht] at ih
    exact .more .nil ih
  | case6 depth c d rest hopen hclose t r ht ih =>
    have happend := takeBlock_append depth (d :: rest)
    rw [ht] at ih happend
    have hmark : ¬BeginsMark c (d :: rest) := by
      simpa [BeginsMark, not_or] using And.intro hopen hclose
    refine ih.extend [c] fun u follow e hu => ?_
    rw [← happend, ← e] at hmark
    exact .plain hmark hu

theorem takeBlock_run (s : List Char) :
    CommentRun ('/' :: '*' :: (takeBlock 0 s).1) (takeBlock 0 s).2 := by
  generalize hd : 0 = depth
  have h := takeBlock_unwinds depth s
  generalize takeBlock depth s = out at h
  obtain ⟨t, r⟩ := out
  cases h with
  | last hs => exact .closed hs
  | stop hs => exact .unclosed hs
  | more => omega

theorem splitWhile_of_boundary {p : Char → Bool} {body after : List Char}
    (inside : ∀ c ∈ body, p c = true) (boundary : ∀ c ∈ after.head?, p c = false) :
    splitWhile p (body ++ after) = (body, after) := by
  have stop : after.takeWhile p = [] ∧ after.dropWhile p = after := by
    cases after with
    | nil => exact ⟨rfl, rfl⟩
    | cons c after => simp [boundary c rfl]
  simp [splitWhile, List.takeWhile_append_of_pos inside, List.dropWhile_append_of_pos inside, stop]

theorem splitWhile_inside (p : Char → Bool) (s : List Char) :
    ∀ c ∈ (splitWhile p s).1, p c = true :=
  List.all_eq_true.mp List.all_takeWhile

theorem splitWhile_boundary (p : Char → Bool) (s : List Char) :
    ∀ c ∈ (splitWhile p s).2.head?, p c = false := by
  intro c hc
  have h := List.head?_dropWhile_not p s
  rw [show s.dropWhile p = (splitWhile p s).2 from rfl, Option.mem_def.mp hc] at h
  simpa using h

theorem dropHead?_append (head rest : List Char) : dropHead? head (head ++ rest) = some rest :=
  dropHead?_eq_some_iff.mpr rfl

/-- Reading goes through the first mark. -/
theorem takeThrough_of_first {c : Char} {mark body after : List Char}
    (first : ∀ u v, body ++ (c :: mark ++ after) = u ++ (c :: mark ++ v) →
      body.length ≤ u.length) :
    takeThrough (c :: mark) (body ++ (c :: mark ++ after)) = (body ++ (c :: mark), after) := by
  induction body with
  | nil =>
    have h : dropHead? (c :: mark) (c :: (mark ++ after)) = some after := dropHead?_append _ _
    simp [takeThrough, h]
  | cons d body ih =>
    have later : dropHead? (c :: mark) (d :: (body ++ (c :: mark ++ after))) = none := by
      cases h : dropHead? (c :: mark) (d :: (body ++ (c :: mark ++ after))) with
      | none => rfl
      | some v =>
        have := first [] v (by simpa using dropHead?_eq_some_iff.mp h)
        simp at this
    have rest := ih fun u v e => by
      have := first (d :: u) v (by simpa using e)
      simpa using this
    rw [List.cons_append, takeThrough, later, rest]
    rfl

theorem takeThrough_of_absent {mark s : List Char} (h : ¬mark <:+: s) :
    takeThrough mark s = (s, []) := by
  induction s with
  | nil => rfl
  | cons c s ih =>
    have absent : dropHead? mark (c :: s) = none := by
      cases hd : dropHead? mark (c :: s) with
      | none => rfl
      | some v => exact absurd ⟨[], v, by simpa using (dropHead?_eq_some_iff.mp hd).symm⟩ h
    have hs : ¬mark <:+: s := fun hs => h (hs.trans (List.suffix_cons c s).isInfix)
    simp [takeThrough, absent, ih hs]

theorem takeThrough_first (mark s : List Char) :
    (∃ body, (takeThrough mark s).1 = body ++ mark ∧
      ∀ u v, s = u ++ (mark ++ v) → body.length ≤ u.length) ∨
    (takeThrough mark s).2 = [] ∧ ¬mark <:+: (takeThrough mark s).1 ∨ mark = [] := by
  fun_induction takeThrough mark s with
  | case1 =>
    by_cases hm : mark = []
    · exact .inr (.inr hm)
    · exact .inr (.inl ⟨rfl, by simpa using hm⟩)
  | case2 c rest r h => exact .inl ⟨[], rfl, fun u v _ => Nat.zero_le _⟩
  | case3 c rest h t r ht ih =>
    have happend := takeThrough_append mark rest
    rw [ht] at ih happend
    have absent : ∀ v, c :: rest ≠ mark ++ v := fun v e => by
      rw [dropHead?_eq_some_iff.mpr e] at h
      exact absurd h (by simp)
    rcases ih with ⟨body, hbody, first⟩ | ⟨last, hinfix⟩ | hm
    · refine .inl ⟨c :: body, congrArg (c :: ·) hbody, fun u v e => ?_⟩
      cases u with
      | nil => exact absurd e (absent v)
      | cons d u =>
        have := first u v (List.cons.inj e).2
        simpa using this
    · refine .inr (.inl ⟨last, fun hi => ?_⟩)
      obtain ⟨u, v, e⟩ := hi
      have hr : r = [] := last
      cases u with
      | nil =>
        rw [hr, List.append_nil] at happend
        exact absent v (by simpa [← happend] using e.symm)
      | cons d u => exact hinfix ⟨u, v, by simpa using (List.cons.inj e).2⟩
    · exact .inr (.inr hm)

theorem delimiter?_eq_some_iff {s mark rest : List Char} :
    delimiter? s = some (mark, rest) ↔
      ∃ tag, IsTag tag ∧ mark = tag ++ ['$'] ∧ s = tag ++ '$' :: rest := by
  constructor
  · intro h
    have happend := splitWhile_append isWordChar s
    have inside := splitWhile_inside isWordChar s
    unfold delimiter? at h
    generalize splitWhile isWordChar s = out at h happend inside
    obtain ⟨tag, tail⟩ := out
    dsimp only at h happend inside
    split at h
    · split at h
      · simp at h
      · next digit =>
        simp only [Option.some.injEq, Prod.mk.injEq] at h
        obtain ⟨rfl, rfl⟩ := h
        refine ⟨tag, ⟨inside, fun c hc => ?_⟩, rfl, happend.symm⟩
        simpa [Option.mem_def.mp hc] using digit
    · simp at h
  · rintro ⟨tag, ⟨word, digit⟩, rfl, rfl⟩
    have hsplit : splitWhile isWordChar (tag ++ '$' :: rest) = (tag, '$' :: rest) :=
      splitWhile_of_boundary word (by simp; decide)
    have hdigit : tag.head?.any Char.isDigit = false := by
      cases h : tag.head? with
      | none => rfl
      | some c => simpa using digit c h
    simp [delimiter?, hsplit, hdigit]

theorem next_single (before s : List Char) :
    next before '\'' s = (quoted ('\'' :: (takeQuoted '\'' (opensEscapes before) s).1),
      (takeQuoted '\'' (opensEscapes before) s).2) := by
  simp [next]

theorem next_double (before s : List Char) :
    next before '"' s =
      (quoted ('"' :: (takeQuoted '"' false s).1), (takeQuoted '"' false s).2) := by
  simp [next]

theorem next_line (before s : List Char) :
    next before '-' ('-' :: s) =
      (lineComment ('-' :: (takeLine ('-' :: s)).1), (takeLine ('-' :: s)).2) := by
  simp [next]

theorem next_block (before s : List Char) :
    next before '/' ('*' :: s) =
      (blockComment ('/' :: '*' :: (takeBlock 0 s).1), (takeBlock 0 s).2) := by
  simp [next]

theorem next_dollar {before s mark rest : List Char} (free : mayOpenBody before = true)
    (h : delimiter? s = some (mark, rest)) :
    next before '$' s = (dollarBody ('$' :: (mark ++ (takeThrough ('$' :: mark) rest).1)),
      (takeThrough ('$' :: mark) rest).2) := by
  simp [next, free, h]

theorem next_placeholder {before s name rest : List Char}
    (h : splitWhile isWordChar s = (name, rest)) (nonempty : name ≠ []) :
    next before '@' s = (placeholder name, rest) := by
  simp [next, h, nonempty]

theorem takeThrough_of_run {run after : List Char} (h : DollarRun run after) :
    ∃ tag body, IsTag tag ∧ run = tagMark tag ++ body ∧
      takeThrough (tagMark tag) (body ++ after) = (body, after) := by
  cases h with
  | @closed tag body after valid first =>
    refine ⟨tag, _, valid, rfl, ?_⟩
    rw [List.append_assoc]
    exact takeThrough_of_first first
  | @unclosed tag body valid absent =>
    refine ⟨tag, body, valid, rfl, ?_⟩
    rw [List.append_nil]
    exact takeThrough_of_absent absent

/-- A piece that a mark opens is the one that is read. -/
theorem next_of_opened {before after s : List Char} {c : Char} {p : Piece}
    (h : p.Opened before after) (hs : p.text ++ after = c :: s) : next before c s = (p, after) := by
  cases p with
  | quoted run =>
    rcases h with h | h
    · obtain ⟨body, rfl⟩ : ∃ body, run = '\'' :: body := by cases h <;> exact ⟨_, rfl⟩
      obtain ⟨rfl, rfl⟩ : '\'' = c ∧ body ++ after = s := List.cons.inj hs
      rw [← opensEscapes_iff] at h
      obtain ⟨hrun, hafter⟩ := takeQuoted_of_run (by decide) h hs
      rw [next_single, hrun, hafter]
    · obtain ⟨body, rfl⟩ : ∃ body, run = '"' :: body := by cases h <;> exact ⟨_, rfl⟩
      obtain ⟨rfl, rfl⟩ : '"' = c ∧ body ++ after = s := List.cons.inj hs
      rw [← Bool.false_eq_true] at h
      obtain ⟨hrun, hafter⟩ := takeQuoted_of_run (by decide) h hs
      rw [next_double, hrun, hafter]
  | lineComment run =>
    obtain ⟨body, rfl⟩ : ∃ body, run = '-' :: '-' :: body := by cases h <;> exact ⟨_, rfl⟩
    obtain ⟨rfl, rfl⟩ : '-' = c ∧ '-' :: (body ++ after) = s := List.cons.inj hs
    obtain ⟨hrun, hafter⟩ := takeLine_of_run h hs
    rw [next_line, hrun, hafter]
  | blockComment run =>
    obtain ⟨body, rfl⟩ : ∃ body, run = '/' :: '*' :: body := by cases h <;> exact ⟨_, rfl⟩
    obtain ⟨rfl, rfl⟩ : '/' = c ∧ '*' :: (body ++ after) = s := List.cons.inj hs
    obtain ⟨hrun, hafter⟩ := takeBlock_of_run h hs
    rw [next_block, hrun, hafter]
  | dollarBody run =>
    obtain ⟨free, h⟩ := h
    obtain ⟨tag, body, valid, rfl, read⟩ := takeThrough_of_run h
    obtain ⟨rfl, rfl⟩ : '$' = c ∧ tag ++ '$' :: (body ++ after) = s := by
      simpa [text, tagMark] using hs
    have hmark : delimiter? (tag ++ '$' :: (body ++ after)) = some (tag ++ ['$'], body ++ after) :=
      delimiter?_eq_some_iff.mpr ⟨tag, valid, rfl, rfl⟩
    rw [next_dollar (mayOpenBody_iff.mpr free) hmark,
      show '$' :: (tag ++ ['$']) = tagMark tag from rfl, read]
    simp [tagMark]
  | placeholder name =>
    obtain ⟨nonempty, word, boundary⟩ := h
    obtain ⟨rfl, rfl⟩ : '@' = c ∧ name ++ after = s := List.cons.inj hs
    exact next_placeholder (splitWhile_of_boundary word boundary) nonempty
  | other c => exact h.elim

theorem next_opened {before s : List Char} {c : Char} (h : next before c s ≠ (other c, s)) :
    (next before c s).1.Opened before (next before c s).2 := by
  unfold next at h ⊢
  split
  · next quote =>
    have quote : c = '\'' ∨ c = '"' := by simpa using quote
    have run := takeQuoted_run c (c == '\'' && opensEscapes before) s
    rcases quote with rfl | rfl
    · refine .inl ?_
      rw [← opensEscapes_iff]
      simpa using run
    · refine .inr ?_
      simpa using run
  next hquote =>
  rw [if_neg hquote] at h
  split
  · next dash =>
    obtain ⟨rfl, hd⟩ : c = '-' ∧ s.head? = some '-' := by simpa using dash
    obtain ⟨rest, rfl⟩ := List.head?_eq_some_iff.mp hd
    exact takeLine_run rest
  next hdash =>
  rw [if_neg hdash] at h
  split
  · next slash =>
    obtain ⟨rfl, hd⟩ : c = '/' ∧ s.head? = some '*' := by simpa using slash
    exact takeBlock_run s.tail
  next hslash =>
  rw [if_neg hslash] at h
  split
  · next dollar =>
    obtain ⟨rfl, free⟩ : c = '$' ∧ mayOpenBody before = true := by simpa using dollar
    rw [if_pos dollar] at h
    split
    · next mark rest hmark =>
      obtain ⟨tag, valid, rfl, -⟩ := delimiter?_eq_some_iff.mp hmark
      refine ⟨mayOpenBody_iff.mp free, ?_⟩
      have happend := takeThrough_append ('$' :: (tag ++ ['$'])) rest
      rcases takeThrough_first ('$' :: (tag ++ ['$'])) rest with
        ⟨body, hbody, first⟩ | ⟨last, hi⟩ | hm
      · dsimp only
        rw [hbody] at happend ⊢
        rw [← happend] at first
        have run : DollarRun _ (takeThrough ('$' :: (tag ++ ['$'])) rest).2 :=
          .closed valid fun u v e => first u v (by simpa [tagMark] using e)
        simpa [tagMark] using run
      · dsimp only
        rw [last]
        simpa [tagMark] using DollarRun.unclosed valid hi
      · simp at hm
    · next hnone =>
      rw [hnone] at h
      exact absurd rfl h
  next hdollar =>
  rw [if_neg hdollar] at h
  split
  · next mark =>
    subst c
    rw [if_pos rfl] at h
    dsimp only at h ⊢
    split
    · next empty =>
      rw [if_pos empty] at h
      exact absurd rfl h
    · next nonempty =>
      exact ⟨by simpa using nonempty, splitWhile_inside _ _, splitWhile_boundary _ _⟩
  · next hat =>
    rw [if_neg hat] at h
    exact absurd rfl h

theorem next_text (before s : List Char) (c : Char) :
    (next before c s).1.text ++ (next before c s).2 = c :: s := by
  obtain ⟨t, ht, hs⟩ := next_append before c s
  rw [ht, List.cons_append, hs]

theorem next_stands (before s : List Char) (c : Char) :
    (next before c s).1.Stands before (next before c s).2 := by
  by_cases h : next before c s = (other c, s)
  · rw [h]
    intro p rest opened hp
    have := next_of_opened opened hp
    obtain ⟨rfl, -⟩ := Prod.mk.inj (h.symm.trans this)
    exact opened
  · have opened := next_opened h
    generalize next before c s = out at opened ⊢
    obtain ⟨p, rest⟩ := out
    cases p <;> first | exact opened | exact opened.elim

theorem next_of_stands {before after s : List Char} {c : Char} {p : Piece}
    (h : p.Stands before after) (hs : p.text ++ after = c :: s) :
    next before c s = (p, after) := by
  cases p with
  | other d =>
    obtain ⟨rfl, rfl⟩ : d = c ∧ after = s := List.cons.inj hs
    exact Classical.byContradiction fun hne =>
      h _ _ (next_opened hne) (next_text before after d)
  | _ => exact next_of_opened h hs

theorem Stands.text_ne_nil {before after : List Char} {p : Piece} (h : p.Stands before after) :
    p.text ≠ [] := by
  cases p with
  | quoted s => rcases h with h | h <;> cases h <;> simp [text]
  | lineComment s => cases h <;> simp [text]
  | blockComment s => cases h <;> simp [text]
  | dollarBody s => cases h.2 <;> simp [text, tagMark]
  | placeholder name => simp [text]
  | other c => simp [text]

end Piece

theorem splits_piecesAfter (before text : List Char) :
    Splits before text (piecesAfter before text) := by
  fun_induction piecesAfter before text with
  | case1 before => exact .nil
  | case2 before c s p ih =>
    have step := Splits.cons (Piece.next_stands before s c) ih
    rwa [Piece.next_text] at step

/-- A text has just one split. -/
theorem splits_iff {before text : List Char} {ps : List Piece} :
    Splits before text ps ↔ ps = piecesAfter before text := by
  constructor
  · intro h
    induction h with
    | nil => simp [piecesAfter]
    | @cons before rest p ps stands _ ih =>
      obtain ⟨c, s, hs⟩ := List.exists_cons_of_ne_nil (l := p.text ++ rest) fun e =>
        stands.text_ne_nil (List.append_eq_nil_iff.mp e).1
      have read := Piece.next_of_stands stands hs
      rw [hs, piecesAfter, read, ih]
  · rintro rfl
    exact splits_piecesAfter before text

end PlanSql
