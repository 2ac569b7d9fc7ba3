import PlanSql.Characters

namespace PlanSql

inductive Piece
  /-- A run in single or double quotes. -/
  | quoted (s : List Char)
  /-- From `--` up to the end of the line. -/
  | lineComment (s : List Char)
  /-- Nested comments from the first opening up to its closing. -/
  | blockComment (s : List Char)
  /-- From an opening `$tag$` up to the same tag. -/
  | dollarBody (s : List Char)
  /-- `@` and a name. -/
  | placeholder (name : List Char)
  | other (c : Char)
  deriving DecidableEq

namespace Piece

def text : Piece → List Char
  | quoted s | lineComment s | blockComment s | dollarBody s => s
  | placeholder name => '@' :: name
  | other c => [c]

/-- Takes what follows an opening quote up to the closing one. Doubled quotes stay inside; where
`escapes` holds, so does a character after a backslash. -/
def takeQuoted (quote : Char) (escapes : Bool) : List Char → List Char × List Char
  | [] => ([], [])
  | [c] => ([c], [])
  | c :: d :: rest =>
    if escapes && c = '\\' || c = quote && d = quote then
      let (s, r) := takeQuoted quote escapes rest
      (c :: d :: s, r)
    else if c = quote then ([c], d :: rest)
    else
      let (s, r) := takeQuoted quote escapes (d :: rest)
      (c :: s, r)

/-- Takes a line with its end. -/
def takeLine : List Char → List Char × List Char
  | [] => ([], [])
  | c :: rest =>
    if c = '\n' then ([c], rest)
    else
      let (s, r) := takeLine rest
      (c :: s, r)

/-- Takes what follows the opening of a comment; `depth` counts the other open comments. -/
def takeBlock (depth : Nat) : List Char → List Char × List Char
  | [] => ([], [])
  | [c] => ([c], [])
  | c :: d :: rest =>
    if c = '/' && d = '*' then
      let (s, r) := takeBlock (depth + 1) rest
      (c :: d :: s, r)
    else if c = '*' && d = '/' then
      match depth with
      | 0 => ([c, d], rest)
      | depth + 1 =>
        let (s, r) := takeBlock depth rest
        (c :: d :: s, r)
    else
      let (s, r) := takeBlock depth (d :: rest)
      (c :: s, r)

/-- Takes a text through the first `mark` in it. -/
def takeThrough (mark : List Char) : List Char → List Char × List Char
  | [] => ([], [])
  | c :: rest =>
    match dropHead? mark (c :: rest) with
    | some r => (mark, r)
    | none =>
      let (s, r) := takeThrough mark rest
      (c :: s, r)

/-- Whether a quote after the characters `before`, the last one first, opens a run with backslash
escapes. -/
def opensEscapes : (before : List Char) → Bool
  | [] => false
  | [c] => c == 'E' || c == 'e'
  | c :: d :: _ => (c == 'E' || c == 'e') && !isWordChar d

/-- Whether a `$` after the characters `before` may open a dollar body. -/
def mayOpenBody : (before : List Char) → Bool
  | [] => true
  | c :: _ => !isWordChar c && c != '$'

/-- The tag and the `$` that follow an opening `$`, and the text after them. -/
def delimiter? (s : List Char) : Option (List Char × List Char) :=
  let (tag, rest) := splitWhile isWordChar s
  match rest with
  | '$' :: rest => if tag.head?.any Char.isDigit then none else some (tag ++ ['$'], rest)
  | _ => none

/-- The piece that begins with `c` and the text after it. -/
def next (before : List Char) (c : Char) (s : List Char) : Piece × List Char :=
  if c = '\'' || c = '"' then
    let (t, r) := takeQuoted c (c == '\'' && opensEscapes before) s
    (quoted (c :: t), r)
  else if c = '-' && s.head? = some '-' then
    let (t, r) := takeLine s
    (lineComment (c :: t), r)
  else if c = '/' && s.head? = some '*' then
    let (t, r) := takeBlock 0 s.tail
    (blockComment (c :: '*' :: t), r)
  else if c = '$' && mayOpenBody before then
    match delimiter? s with
    | some (mark, rest) =>
      let (t, r) := takeThrough (c :: mark) rest
      (dollarBody (c :: (mark ++ t)), r)
    | none => (other c, s)
  else if c = '@' then
    let (name, rest) := splitWhile isWordChar s
    if name.isEmpty then (other c, s) else (placeholder name, rest)
  else (other c, s)

theorem takeQuoted_append (quote : Char) (escapes : Bool) (s : List Char) :
    (takeQuoted quote escapes s).1 ++ (takeQuoted quote escapes s).2 = s := by
  fun_induction takeQuoted quote escapes s <;> simp_all

theorem takeLine_append (s : List Char) : (takeLine s).1 ++ (takeLine s).2 = s := by
  fun_induction takeLine s <;> simp_all

theorem takeBlock_append (depth : Nat) (s : List Char) :
    (takeBlock depth s).1 ++ (takeBlock depth s).2 = s := by
  fun_induction takeBlock depth s <;> simp_all

theorem takeThrough_append (mark s : List Char) :
    (takeThrough mark s).1 ++ (takeThrough mark s).2 = s := by
  fun_induction takeThrough mark s with
  | case1 => rfl
  | case2 c rest r h => exact (dropHead?_eq_some_iff.mp h).symm
  | case3 c rest h s r hs ih => simp_all

theorem splitWhile_append (p : Char → Bool) (s : List Char) :
    (splitWhile p s).1 ++ (splitWhile p s).2 = s := List.takeWhile_append_dropWhile

theorem delimiter?_append {s mark rest : List Char} (h : delimiter? s = some (mark, rest)) :
    mark ++ rest = s := by
  have hs := splitWhile_append isWordChar s
  unfold delimiter? at h
  generalize splitWhile isWordChar s = t at h hs
  obtain ⟨tag, tail⟩ := t
  dsimp only at h hs
  split at h
  · split at h
    · simp at h
    · simp only [Option.some.injEq, Prod.mk.injEq] at h
      obtain ⟨rfl, rfl⟩ := h
      simp [← hs]
  · simp at h

/-- A piece begins with the first character, and what follows it is the rest of the text. -/
theorem next_append (before : List Char) (c : Char) (s : List Char) :
    ∃ t, (next before c s).1.text = c :: t ∧ t ++ (next before c s).2 = s := by
  unfold next
  split
  · exact ⟨_, rfl, takeQuoted_append ..⟩
  split
  · exact ⟨_, rfl, takeLine_append ..⟩
  split
  · next h =>
    simp only [Bool.and_eq_true, decide_eq_true_eq] at h
    obtain ⟨rest, rfl⟩ := List.head?_eq_some_iff.mp h.2
    exact ⟨_, rfl, congrArg ('*' :: ·) (takeBlock_append ..)⟩
  split
  · split
    · next h =>
      refine ⟨_, rfl, ?_⟩
      rw [List.append_assoc, takeThrough_append, delimiter?_append h]
    · exact ⟨[], rfl, rfl⟩
  split
  · next h =>
    dsimp only
    split
    · exact ⟨[], rfl, rfl⟩
    · exact ⟨_, h ▸ rfl, splitWhile_append ..⟩
  · exact ⟨[], rfl, rfl⟩

theorem next_length_le (before : List Char) (c : Char) (s : List Char) :
    (next before c s).2.length ≤ s.length := by
  obtain ⟨t, _, h⟩ := next_append before c s
  have := congrArg List.length h
  simp only [List.length_append] at this
  omega

end Piece

/-- The pieces of a text that follows the characters `before`, the last one first. -/
def piecesAfter (before : List Char) : List Char → List Piece
  | [] => []
  | c :: s =>
    let p := (Piece.next before c s).1
    p :: piecesAfter (p.text.reverse ++ before) (Piece.next before c s).2
termination_by s => s.length
decreasing_by exact Nat.lt_succ_of_le (Piece.next_length_le before c s)

def pieces (s : List Char) : List Piece := piecesAfter [] s

theorem piecesAfter_text (before s : List Char) :
    (piecesAfter before s).flatMap Piece.text = s := by
  fun_induction piecesAfter before s with
  | case1 => rfl
  | case2 before c s p ih =>
    obtain ⟨t, ht, hs⟩ := Piece.next_append before c s
    rw [List.flatMap_cons, ih, ht, List.cons_append, hs]

theorem pieces_text (s : List Char) : (pieces s).flatMap Piece.text = s := piecesAfter_text [] s

end PlanSql
