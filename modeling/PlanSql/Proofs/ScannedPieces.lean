import PlanSql.Proofs.ByteScan
import PlanSql.Proofs.NumberedReading

namespace PlanSql

open Piece

variable {text u s rest : List Char} {c d m quote : Char} {i : Nat}

theorem read_at (split : text = u ++ s) :
    (textBytes text)[byteLength u]? = (textBytes s)[0]? := by
  rw [split, textBytes_append, byteLength, List.getElem?_append_right (Nat.le_refl _), Nat.sub_self]

theorem length_of_split (split : text = u ++ s) :
    (textBytes text).length = byteLength u + byteLength s := by
  rw [split, ← byteLength_append, byteLength]

theorem read_first (split : text = u ++ c :: s) (ascii : c.toNat < 128) :
    (textBytes text)[byteLength u]? = some c.toUInt8 := by
  rw [read_at split, textBytes_ascii ascii, List.getElem?_cons_zero]

theorem byteLength_ascii (ascii : c.toNat < 128) (u : List Char) :
    byteLength (u ++ [c]) = byteLength u + 1 := by
  rw [byteLength_append, byteLength, byteLength, textBytes_ascii ascii]
  rfl

theorem read_next (split : text = u ++ c :: s) (ascii : c.toNat < 128) :
    (textBytes text)[byteLength u + 1]? = (textBytes s)[0]? := by
  have behind : text = (u ++ [c]) ++ s := by simpa using split
  rw [← byteLength_ascii ascii, read_at behind]

/-- What goes on one by one over bytes of no ASCII character goes over a whole one. -/
theorem pass_wide {β : Type} {f : Nat → β} (split : text = u ++ c :: s) (wide : 128 ≤ c.toNat)
    (step : ∀ i b, (textBytes text)[i]? = some b → 128 ≤ b → f i = f (i + 1))
    (lower : byteLength u ≤ i) (upper : i ≤ byteLength (u ++ [c])) :
    f i = f (byteLength (u ++ [c])) := by
  obtain ⟨k, last⟩ := Nat.exists_eq_add_of_le upper
  rw [last]
  induction k generalizing i with
  | zero => rfl
  | succ k ih =>
    have inside : i - byteLength u < (String.utf8EncodeChar c).length := by
      rw [String.length_utf8EncodeChar]
      rw [byteLength_append, byteLength_cons, byteLength_nil] at last
      omega
    have byte : (textBytes text)[i]? = some (String.utf8EncodeChar c)[i - byteLength u] := by
      rw [split, textBytes_append, List.getElem?_append_right lower, textBytes_cons]
      exact (List.getElem?_append_left inside).trans (List.getElem?_eq_getElem inside)
    rw [step i _ byte (wide_bytes wide (List.getElem_mem inside)),
      ih (by omega) (by omega) (by omega)]
    congr 1
    omega

namespace ByteScan

theorem quotedEnd_of_getElem? {bs : List UInt8} {b q : UInt8} {escapes : Bool}
    (read : bs[i]? = some b) : quotedEnd bs q escapes i =
      if escapes && b == '\\'.toUInt8 then quotedEnd bs q escapes (i + 2)
      else if b = q then
        if bs[i + 1]? = some q then quotedEnd bs q escapes (i + 2) else i + 1
      else quotedEnd bs q escapes (i + 1) := by
  obtain ⟨inside, rfl⟩ := List.getElem?_eq_some_iff.mp read
  rw [quotedEnd, dif_pos inside]

theorem quotedEnd_behind {bs : List UInt8} {q : UInt8} {escapes : Bool} (h : bs.length ≤ i) :
    quotedEnd bs q escapes i = bs.length := by
  rw [quotedEnd, dif_neg (Nat.not_lt.mpr h)]

theorem quotedEnd_wide (split : text = u ++ c :: s) (wide : 128 ≤ c.toNat)
    (ascii : quote.toNat < 128) (escapes : Bool) (lower : byteLength u ≤ i)
    (upper : i ≤ byteLength (u ++ [c])) :
    quotedEnd (textBytes text) quote.toUInt8 escapes i =
      quotedEnd (textBytes text) quote.toUInt8 escapes (byteLength (u ++ [c])) := by
  refine pass_wide split wide (fun i b read high => ?_) lower upper
  rw [quotedEnd_of_getElem? read, if_neg, if_neg (ne_toUInt8_of_wide high ascii)]
  have other : b ≠ '\\'.toUInt8 := ne_toUInt8_of_wide high (by decide)
  simp [other]

theorem quotedEnd_inside (split : text = u ++ c :: s) (hq : quote.toNat < 128) (escapes : Bool) :
    quotedEnd (textBytes text) quote.toUInt8 escapes (byteLength u + 1) =
      quotedEnd (textBytes text) quote.toUInt8 escapes (byteLength (u ++ [c])) := by
  rcases Nat.lt_or_ge c.toNat 128 with ascii | wide
  · rw [byteLength_ascii ascii]
  · have size := c.utf8Size_pos
    refine quotedEnd_wide split wide hq escapes (Nat.le_succ _) ?_
    rw [byteLength_append, byteLength_cons]
    omega

theorem quotedEnd_ascii (split : text = u ++ c :: s) (ascii : c.toNat < 128)
    (hq : quote.toNat < 128) (escapes : Bool) :
    quotedEnd (textBytes text) quote.toUInt8 escapes (byteLength u) =
      if escapes && c = '\\' then
        quotedEnd (textBytes text) quote.toUInt8 escapes (byteLength (u ++ [c]) + 1)
      else if c = quote then
        if s.head? = some quote then
          quotedEnd (textBytes text) quote.toUInt8 escapes (byteLength (u ++ [c]) + 1)
        else byteLength (u ++ [c])
      else quotedEnd (textBytes text) quote.toUInt8 escapes (byteLength (u ++ [c])) := by
  have backslash : (c.toUInt8 == '\\'.toUInt8) = decide (c = '\\') := by
    rw [Bool.eq_iff_iff, beq_iff_eq, decide_eq_true_iff, toUInt8_inj ascii (by decide)]
  rw [quotedEnd_of_getElem? (read_first split ascii), read_next split ascii, backslash,
    byteLength_ascii ascii]
  simp only [toUInt8_inj ascii hq, first_eq_iff hq]

theorem quotedEnd_plain (split : text = u ++ c :: s) (hq : quote.toNat < 128) {escapes : Bool}
    (unescaped : ¬(escapes && decide (c = '\\')) = true) (other : c ≠ quote) :
    quotedEnd (textBytes text) quote.toUInt8 escapes (byteLength u) =
      quotedEnd (textBytes text) quote.toUInt8 escapes (byteLength (u ++ [c])) := by
  rcases Nat.lt_or_ge c.toNat 128 with ascii | wide
  · rw [quotedEnd_ascii split ascii hq, if_neg unescaped, if_neg other]
  · exact quotedEnd_wide split wide hq escapes (Nat.le_refl _) (by simp)

/-- A quoted run is read over bytes as over characters. -/
theorem quotedEnd_text (hq : quote.toNat < 128) (escapes : Bool) (split : text = u ++ s) :
    quotedEnd (textBytes text) quote.toUInt8 escapes (byteLength u) =
      byteLength (u ++ (takeQuoted quote escapes s).1) := by
  have behind {i : Nat} (h : byteLength text ≤ i) :
      quotedEnd (textBytes text) quote.toUInt8 escapes i = byteLength text := quotedEnd_behind h
  fun_induction takeQuoted quote escapes s generalizing u with
  | case1 =>
    subst split
    exact behind (by simp)
  | case2 c =>
    have here : byteLength (u ++ [c]) = byteLength text := by rw [split]
    rcases Nat.lt_or_ge c.toNat 128 with ascii | wide
    · rw [quotedEnd_ascii split ascii hq, here, behind (Nat.le_refl _), behind (Nat.le_succ _)]
      simp
    · rw [quotedEnd_wide split wide hq escapes (Nat.le_refl _) (by simp), here,
        behind (Nat.le_refl _)]
  | case3 c d rest h t r ht ih =>
    have split' : text = (u ++ [c]) ++ d :: rest := by simpa using split
    have opened : escapes = true ∧ c = '\\' ∨ c = quote ∧ d = quote := by simpa using h
    have skipped : quotedEnd (textBytes text) quote.toUInt8 escapes (byteLength u) =
        quotedEnd (textBytes text) quote.toUInt8 escapes (byteLength (u ++ [c]) + 1) := by
      rcases opened with ⟨rfl, rfl⟩ | ⟨rfl, rfl⟩
      · rw [quotedEnd_ascii split (by decide) hq, if_pos (by simp)]
      · rw [quotedEnd_ascii split hq hq, if_pos rfl, List.head?_cons, if_pos rfl, ite_self]
    rw [skipped, quotedEnd_inside split' hq]
    have tail := ih (u := u ++ [c] ++ [d]) (by simpa using split)
    rw [ht] at tail
    simpa using tail
  | case4 d rest h =>
    have plain : ¬(escapes = true ∧ quote = '\\') ∧ d ≠ quote := by simpa [not_or] using h
    rw [quotedEnd_ascii split hq hq, if_neg (by simpa using plain.1), if_pos rfl, List.head?_cons,
      if_neg (by simpa using plain.2)]
  | case5 c d rest h other t r ht ih =>
    have unescaped : ¬(escapes && decide (c = '\\')) = true := fun e => h (by rw [e, Bool.true_or])
    have tail := ih (u := u ++ [c]) (by simpa using split)
    rw [ht] at tail
    rw [quotedEnd_plain split hq unescaped other]
    simpa using tail

theorem blockEnd_of_getElem? {bs : List UInt8} {b : UInt8} (read : bs[i]? = some b) (depth : Nat) :
    blockEnd bs depth i =
      if b = '/'.toUInt8 ∧ bs[i + 1]? = some '*'.toUInt8 then blockEnd bs (depth + 1) (i + 2)
      else if b = '*'.toUInt8 ∧ bs[i + 1]? = some '/'.toUInt8 then
        match depth with
        | 0 => none
        | 1 => some (i + 2)
        | depth + 2 => blockEnd bs (depth + 1) (i + 2)
      else blockEnd bs depth (i + 1) := by
  obtain ⟨inside, rfl⟩ := List.getElem?_eq_some_iff.mp read
  have unfolded := blockEnd.eq_def bs depth i
  rw [dif_pos inside] at unfolded
  exact unfolded

theorem blockEnd_behind {bs : List UInt8} (h : bs.length ≤ i) (depth : Nat) :
    blockEnd bs depth i = some bs.length := by
  rw [blockEnd.eq_def, dif_neg (Nat.not_lt.mpr h)]

theorem blockEnd_wide (split : text = u ++ c :: s) (wide : 128 ≤ c.toNat) (depth : Nat) :
    blockEnd (textBytes text) depth (byteLength u) =
      blockEnd (textBytes text) depth (byteLength (u ++ [c])) := by
  refine pass_wide split wide (fun i b read high => ?_) (Nat.le_refl _) (by simp)
  have slash : b ≠ '/'.toUInt8 := ne_toUInt8_of_wide high (by decide)
  have star : b ≠ '*'.toUInt8 := ne_toUInt8_of_wide high (by decide)
  rw [blockEnd_of_getElem? read, if_neg (fun e => slash e.1), if_neg (fun e => star e.1)]

theorem blockEnd_ascii (split : text = u ++ c :: s) (ascii : c.toNat < 128) (depth : Nat) :
    blockEnd (textBytes text) depth (byteLength u) =
      if c = '/' ∧ s.head? = some '*' then
        blockEnd (textBytes text) (depth + 1) (byteLength (u ++ [c]) + 1)
      else if c = '*' ∧ s.head? = some '/' then
        match depth with
        | 0 => none
        | 1 => some (byteLength (u ++ [c]) + 1)
        | depth + 2 => blockEnd (textBytes text) (depth + 1) (byteLength (u ++ [c]) + 1)
      else blockEnd (textBytes text) depth (byteLength (u ++ [c])) := by
  have slash : '/'.toNat < 128 := by decide
  have star : '*'.toNat < 128 := by decide
  rw [blockEnd_of_getElem? (read_first split ascii), read_next split ascii, byteLength_ascii ascii]
  simp only [toUInt8_inj ascii slash, toUInt8_inj ascii star, first_eq_iff slash, first_eq_iff star]

theorem blockEnd_plain (split : text = u ++ c :: s) (opening : ¬(c = '/' ∧ s.head? = some '*'))
    (closing : ¬(c = '*' ∧ s.head? = some '/')) (depth : Nat) :
    blockEnd (textBytes text) depth (byteLength u) =
      blockEnd (textBytes text) depth (byteLength (u ++ [c])) := by
  rcases Nat.lt_or_ge c.toNat 128 with ascii | wide
  · rw [blockEnd_ascii split ascii, if_neg opening, if_neg closing]
  · exact blockEnd_wide split wide depth

/-- The inside of a comment is read over bytes as over characters. -/
theorem blockEnd_text (depth : Nat) (split : text = u ++ s) :
    blockEnd (textBytes text) (depth + 1) (byteLength u) =
      some (byteLength (u ++ (takeBlock depth s).1)) := by
  have behind {i : Nat} (h : byteLength text ≤ i) (depth : Nat) :
      blockEnd (textBytes text) depth i = some (byteLength text) := blockEnd_behind h depth
  have star : '*'.toNat < 128 := by decide
  have slash : '/'.toNat < 128 := by decide
  fun_induction takeBlock depth s generalizing u with
  | case1 =>
    subst split
    exact behind (by simp) _
  | case2 depth c =>
    have here : byteLength (u ++ [c]) = byteLength text := by rw [split]
    rcases Nat.lt_or_ge c.toNat 128 with ascii | wide
    · rw [blockEnd_ascii split ascii, here, behind (Nat.le_refl _)]
      simp
    · rw [blockEnd_wide split wide, here, behind (Nat.le_refl _)]
  | case3 depth c d rest opening t r ht ih =>
    obtain ⟨rfl, rfl⟩ : c = '/' ∧ d = '*' := by simpa using opening
    have tail := ih (u := u ++ ['/'] ++ ['*']) (by simpa using split)
    rw [ht] at tail
    rw [blockEnd_ascii split slash, if_pos ⟨rfl, rfl⟩, ← byteLength_ascii star, tail]
    simp
  | case4 c d rest _ closing =>
    obtain ⟨rfl, rfl⟩ : c = '*' ∧ d = '/' := by simpa using closing
    rw [blockEnd_ascii split star, if_neg (by simp), if_pos ⟨rfl, rfl⟩]
    dsimp only
    rw [← byteLength_ascii slash, List.append_assoc]
    rfl
  | case5 c d rest _ closing depth t r ht ih =>
    obtain ⟨rfl, rfl⟩ : c = '*' ∧ d = '/' := by simpa using closing
    have tail := ih (u := u ++ ['*'] ++ ['/']) (by simpa using split)
    rw [ht] at tail
    rw [blockEnd_ascii split star, if_neg (by simp), if_pos ⟨rfl, rfl⟩]
    dsimp only
    rw [← byteLength_ascii slash, tail]
    simp
  | case6 depth c d rest opening closing t r ht ih =>
    have tail := ih (u := u ++ [c]) (by simpa using split)
    rw [ht] at tail
    rw [blockEnd_plain split (by simpa using opening) (by simpa using closing), tail]
    simp

theorem skipBlock_text (split : text = u ++ '/' :: '*' :: s) :
    skipBlock (textBytes text) (byteLength u) =
      some (byteLength (u ++ '/' :: '*' :: (takeBlock 0 s).1)) := by
  have opened : text = (u ++ ['/'] ++ ['*']) ++ s := by simpa using split
  have star : '*'.toNat < 128 := by decide
  rw [skipBlock, blockEnd_ascii split (by decide), if_pos ⟨rfl, rfl⟩, ← byteLength_ascii star,
    blockEnd_text 0 opened]
  simp

/-- A line ends where its characters do. -/
theorem lineEnd_text (s : List Char) :
    (match (textBytes s).findIdx? (· == '\n'.toUInt8) with
      | some n => n + 1
      | none => byteLength s) = byteLength (takeLine s).1 := by
  have newline : '\n'.toNat < 128 := by decide
  fun_induction takeLine s with
  | case1 => rfl
  | case2 rest =>
    rw [textBytes_ascii newline]
    rfl
  | case3 c rest other t r ht ih =>
    have absent : (String.utf8EncodeChar c).findIdx? (· == '\n'.toUInt8) = none := by
      rw [List.findIdx?_eq_none_iff]
      intro b mem
      rw [beq_eq_false_iff_ne]
      rintro rfl
      exact other ((toUInt8_mem_iff newline).mp mem)
    rw [ht] at ih
    rw [textBytes_cons, List.findIdx?_append, absent, Option.none_or, byteLength_cons,
      byteLength_cons, ← ih, String.length_utf8EncodeChar]
    cases (textBytes rest).findIdx? (· == '\n'.toUInt8) with
    | none => rfl
    | some n => exact (Nat.add_right_comm n _ 1).trans (Nat.add_comm (n + 1) _)

theorem cut?_text {t v : List Char} (split : text = u ++ (t ++ v)) :
    cut? (textBytes text) (byteLength u) (byteLength (u ++ t)) = some (textBytes t) := by
  have bytes : textBytes text = textBytes (u ++ t) ++ textBytes v := by
    rw [← textBytes_append, List.append_assoc, split]
  have inside : byteLength (u ++ t) ≤ (textBytes text).length := by
    rw [bytes, List.length_append]
    exact Nat.le_add_right _ _
  have front : (textBytes text).take (byteLength (u ++ t)) = textBytes u ++ textBytes t := by
    rw [← textBytes_append u t, bytes]
    exact List.take_left' rfl
  rw [cut?_of_le (by simp) inside, front]
  exact congrArg some (List.drop_left' rfl)

theorem cut?_behind (split : text = u ++ s) :
    cut? (textBytes text) (byteLength u) (textBytes text).length = some (textBytes s) := by
  have ends : text = u ++ (s ++ []) := by rw [List.append_nil, split]
  rw [length_of_split split, ← byteLength_append, cut?_text ends]

theorem skipLine_text (split : text = u ++ s) :
    skipLine (textBytes text) (byteLength u) = some (byteLength (u ++ (takeLine s).1)) := by
  rw [skipLine, cut?_behind split, byteLength_append, ← lineEnd_text, length_of_split split,
    Option.bind_eq_bind, Option.bind_some]
  cases (textBytes s).findIdx? (· == '\n'.toUInt8) <;> rfl

theorem windowIndex?_behind {w high rest : List UInt8} {b : UInt8} (hb : b < 128)
    (wide : ∀ x ∈ high, 128 ≤ x) :
    windowIndex? (b :: w) (high ++ rest) = (windowIndex? (b :: w) rest).map (· + high.length) := by
  induction high with
  | nil => simp
  | cons x high ih =>
    have other : b ≠ x := by
      rintro rfl
      exact UInt8.not_lt.mpr (wide b List.mem_cons_self) hb
    have away : (b :: w).isPrefixOf (x :: (high ++ rest)) = false := by
      simp [List.isPrefixOf, other]
    rw [List.cons_append, windowIndex?, away, if_neg Bool.false_ne_true,
      ih fun y mem => wide y (List.mem_cons_of_mem x mem), Option.map_map]
    rfl

/-- The first mark of ASCII characters is found over bytes as over characters. -/
theorem windowEnd_text {mark : List Char} (ascii : ∀ c ∈ m :: mark, c.toNat < 128)
    (s : List Char) :
    (match windowIndex? (textBytes (m :: mark)) (textBytes s) with
      | some n => n + byteLength (m :: mark)
      | none => byteLength s) = byteLength (takeThrough (m :: mark) s).1 := by
  have hm : m.toNat < 128 := ascii m List.mem_cons_self
  fun_induction takeThrough (m :: mark) s with
  | case1 => rfl
  | case2 c rest r found =>
    have here : textBytes (m :: mark) <+: textBytes (c :: rest) :=
      (textBytes_prefix_iff ascii _).mpr ⟨r, (dropHead?_eq_some_iff.mp found).symm⟩
    cases bytes : textBytes (c :: rest) with
    | nil =>
      rw [bytes, textBytes_ascii hm] at here
      exact absurd (List.prefix_nil.mp here) (List.cons_ne_nil _ _)
    | cons b bs =>
      rw [bytes] at here
      rw [windowIndex?, if_pos (List.isPrefixOf_iff_prefix.mpr here)]
      exact Nat.zero_add _
  | case3 c rest away t r ht ih =>
    have passed : windowIndex? (textBytes (m :: mark)) (textBytes (c :: rest)) =
        (windowIndex? (textBytes (m :: mark)) (textBytes rest)).map (· + c.utf8Size) := by
      rcases Nat.lt_or_ge c.toNat 128 with narrow | wide
      · have other : ¬(textBytes (m :: mark)).isPrefixOf (textBytes (c :: rest)) = true := by
          rw [List.isPrefixOf_iff_prefix, textBytes_prefix_iff ascii]
          rintro ⟨after, same⟩
          rw [dropHead?_eq_some_iff.mpr same.symm] at away
          cases away
        have one : c.utf8Size = 1 := Char.utf8Size_eq_one_iff.mpr (Nat.le_of_lt_succ narrow)
        rw [textBytes_ascii narrow] at other ⊢
        rw [windowIndex?, if_neg other, one]
      · rw [textBytes_ascii hm, textBytes_cons, ← String.length_utf8EncodeChar]
        exact windowIndex?_behind (toUInt8_lt hm) fun b mem => wide_bytes wide mem
    rw [ht] at ih
    rw [passed, byteLength_cons c rest]
    dsimp only at ih ⊢
    rw [byteLength_cons c t, ← ih]
    cases windowIndex? (textBytes (m :: mark)) (textBytes rest) with
    | none => rfl
    | some n => exact (Nat.add_right_comm n _ _).trans (Nat.add_comm _ _)

/-- The byte in front of a place is in a class of ASCII characters if the last character is. -/
theorem any_behind {p : Char → Bool} (h : IsAsciiClass p) (split : text = u ++ s) :
    (0 < byteLength u && (textBytes text)[byteLength u - 1]?.any (isByteOf p)) =
      u.getLast?.any p := by
  rcases Nat.eq_zero_or_pos (byteLength u) with empty | nonempty
  · obtain rfl := eq_nil_of_byteLength empty
    rfl
  · have last : (textBytes text)[byteLength u - 1]? = (textBytes u).getLast? := by
      rw [List.getLast?_eq_getElem?, split, textBytes_append]
      exact List.getElem?_append_left (Nat.sub_lt nonempty Nat.one_pos)
    rw [decide_eq_true nonempty, Bool.true_and, last, h.any_getLast?]

theorem opensEscapes_cons (c : Char) (before : List Char) :
    opensEscapes (c :: before) = ((c == 'E' || c == 'e') && !before.head?.any isWordChar) := by
  cases before with
  | nil => simp [opensEscapes]
  | cons d before => rfl

theorem escapesAt_text (split : text = u ++ s) :
    escapesAt (textBytes text) (byteLength u) = opensEscapes u.reverse := by
  have letters : IsAsciiClass fun c => c == 'E' || c == 'e' := by
    intro c h
    have either : c = 'E' ∨ c = 'e' := by simpa using h
    rcases either with rfl | rfl <;> decide
  rw [escapesAt, any_behind letters split]
  rcases List.eq_nil_or_concat u with rfl | ⟨front, c, rfl⟩
  · rfl
  rw [List.concat_eq_append, List.getLast?_concat, Option.any_some, List.reverse_append,
    List.reverse_singleton, List.singleton_append, opensEscapes_cons]
  cases letter : c == 'E' || c == 'e' with
  | false => rfl
  | true =>
    have ascii : c.toNat < 128 := letters c letter
    have earlier : text = front ++ c :: s := by simpa using split
    have place : byteLength front + 1 - 2 = byteLength front - 1 := rfl
    have nearStart : decide (byteLength front + 1 < 2) = !decide (0 < byteLength front) := by
      rw [← decide_not, decide_eq_decide]
      omega
    rw [List.head?_reverse, ← any_behind isWordChar_ascii earlier, byteLength_ascii ascii, place,
      nearStart, Bool.not_and]

theorem mayOpenBody_text (split : text = u ++ s) :
    (0 < byteLength u &&
      (textBytes text)[byteLength u - 1]?.any (isByteOf fun c => isWordChar c || c == '$')) =
      !mayOpenBody u.reverse := by
  have barred : IsAsciiClass fun c => isWordChar c || c == '$' := by
    intro c h
    have either : isWordChar c = true ∨ c = '$' := by simpa using h
    rcases either with word | rfl
    · exact isWordChar_ascii c word
    · decide
  rw [any_behind barred split, ← List.head?_reverse]
  cases u.reverse with
  | nil => rfl
  | cons c before => simp [mayOpenBody, bne]

theorem wordEnd?_text (split : text = u ++ s) :
    wordEnd? (textBytes text) (byteLength u) = some (byteLength (u ++ s.takeWhile isWordChar)) := by
  rw [wordEnd?, cut?_behind split, Option.map_some, isWordChar_ascii.takeWhile, byteLength_append]
  rfl

theorem next_dollar_eq (before s : List Char) : (next before '$' s).1.text =
    match mayOpenBody before, delimiter? s with
    | true, some (mark, rest) => '$' :: (mark ++ (takeThrough ('$' :: mark) rest).1)
    | _, _ => ['$'] := by
  cases free : mayOpenBody before with
  | false => simp [next, free, Piece.text]
  | true =>
    cases found : delimiter? s with
    | none => simp [next, free, found, Piece.text]
    | some out => simp [next, free, found, Piece.text]

theorem delimiter?_isSome_iff : (delimiter? s).isSome = true ↔
    (s.dropWhile isWordChar).head? = some '$' ∧ s.head?.any Char.isDigit = false := by
  constructor
  · intro h
    obtain ⟨⟨mark, rest⟩, found⟩ := Option.isSome_iff_exists.mp h
    obtain ⟨tag, ⟨word, digit⟩, rfl, rfl⟩ := delimiter?_eq_some_iff.mp found
    have ends : splitWhile isWordChar (tag ++ '$' :: rest) = (tag, '$' :: rest) :=
      splitWhile_of_boundary word (by simp; decide)
    refine ⟨congrArg (fun out => out.2.head?) ends, ?_⟩
    cases tag with
    | nil => rfl
    | cons c tag => exact digit c rfl
  · rintro ⟨dollar, digit⟩
    obtain ⟨rest, behind⟩ := List.head?_eq_some_iff.mp dollar
    have whole : s = s.takeWhile isWordChar ++ '$' :: rest := by
      rw [← behind, List.takeWhile_append_dropWhile]
    have tag : IsTag (s.takeWhile isWordChar) := by
      refine ⟨splitWhile_inside isWordChar s, fun c first => ?_⟩
      rw [List.head?_takeWhile, Option.mem_def, Option.filter_eq_some_iff] at first
      rwa [first.1, Option.any_some] at digit
    rw [delimiter?_eq_some_iff.mpr ⟨_, tag, rfl, whole⟩]
    rfl

/-- A dollar body is read over bytes as over characters. -/
theorem bodyEnd_text {mark : List Char} (ascii : ∀ c ∈ m :: mark, c.toNat < 128)
    (split : text = u ++ (m :: mark) ++ s) :
    bodyEnd (textBytes text) (byteLength u) (byteLength (u ++ m :: mark)) =
      some (byteLength (u ++ (m :: mark) ++ (takeThrough (m :: mark) s).1)) := by
  have nonempty : textBytes (m :: mark) ≠ [] := by
    rw [textBytes_ascii (ascii m List.mem_cons_self)]
    exact List.cons_ne_nil _ _
  rw [bodyEnd, cut?_text (split.trans (List.append_assoc _ _ _)), cut?_behind split]
  simp only [Option.bind_eq_bind, Option.bind_some, guard, if_pos nonempty]
  rw [byteLength_append (u ++ m :: mark), ← windowEnd_text ascii,
    length_of_split split]
  cases windowIndex? (textBytes (m :: mark)) (textBytes s) with
  | none => rfl
  | some n => exact congrArg some (Nat.add_assoc _ _ _)

theorem skipDollar_text (split : text = u ++ '$' :: s) :
    skipDollar (textBytes text) (byteLength u) =
      some (byteLength (u ++ (next u.reverse '$' s).1.text)) := by
  have dollar : '$'.toNat < 128 := by decide
  have behind : text = (u ++ ['$']) ++ s := by simpa using split
  have word : text = (u ++ ['$'] ++ s.takeWhile isWordChar) ++ s.dropWhile isWordChar := by
    rw [List.append_assoc, List.takeWhile_append_dropWhile, behind]
  rw [skipDollar, mayOpenBody_text split, next_dollar_eq]
  cases free : mayOpenBody u.reverse with
  | false => rw [if_pos (by simp), ← byteLength_ascii dollar]
  | true =>
    rw [if_neg (by simp), ← byteLength_ascii dollar, wordEnd?_text behind, Option.bind_eq_bind,
      Option.bind_some, read_at word, read_at behind, isDigit_ascii.any_head?]
    have opens := delimiter?_isSome_iff (s := s)
    simp only [first_eq_iff dollar, Bool.not_eq_true', ← opens]
    cases found : delimiter? s with
    | none => rfl
    | some out =>
      obtain ⟨mark, rest⟩ := out
      obtain ⟨tag, ⟨inside, -⟩, rfl, rfl⟩ := delimiter?_eq_some_iff.mp found
      have tag_eq : (tag ++ '$' :: rest).takeWhile isWordChar = tag :=
        congrArg Prod.fst (splitWhile_of_boundary inside (by simp; decide))
      have mark_end : byteLength (u ++ ['$'] ++ tag) + 1 =
          byteLength (u ++ '$' :: (tag ++ ['$'])) := by
        rw [← byteLength_ascii dollar]
        simp
      have ascii : ∀ c ∈ '$' :: (tag ++ ['$']), c.toNat < 128 := by
        intro c mem
        have either : c = '$' ∨ c ∈ tag := by simpa [or_comm] using mem
        rcases either with rfl | mem
        · exact dollar
        · exact isWordChar_ascii c (inside c mem)
      have body := bodyEnd_text ascii (s := rest) (u := u) (by simpa using split)
      rw [tag_eq, mark_end, Option.isSome_some, if_pos rfl, body]
      simp

theorem skipQuoted_text (split : text = u ++ c :: s) (ascii : c.toNat < 128) :
    skipQuoted (textBytes text) (byteLength u) = some (byteLength
      (u ++ c :: (takeQuoted c (c == '\'' && opensEscapes u.reverse) s).1)) := by
  have behind : text = (u ++ [c]) ++ s := by simpa using split
  have single : (c.toUInt8 == '\''.toUInt8) = (c == '\'') := by
    rw [Bool.eq_iff_iff, beq_iff_eq, beq_iff_eq, toUInt8_inj ascii (by decide)]
  rw [skipQuoted, read_first split ascii, Option.bind_eq_bind, Option.bind_some, single,
    escapesAt_text split, ← byteLength_ascii ascii, quotedEnd_text ascii _ behind,
    List.append_assoc]
  rfl

/-- A byte that opens no placeholder takes the scan behind the piece that its character begins. -/
theorem skip_text (split : text = u ++ c :: s) (ascii : c.toNat < 128) (other : c ≠ '@') :
    skip (textBytes text) (byteLength u) c.toUInt8 =
      some (byteLength (u ++ (next u.reverse c s).1.text)) := by
  have same {m : Char} (hm : m.toNat < 128) : c.toUInt8 = m.toUInt8 ↔ c = m := toUInt8_inj ascii hm
  have dash : '-'.toNat < 128 := by decide
  have star : '*'.toNat < 128 := by decide
  rw [skip, read_next split ascii]
  simp only [same (m := '\'') (by decide), same (m := '"') (by decide), same dash,
    same (m := '/') (by decide), same (m := '$') (by decide), first_eq_iff dash, first_eq_iff star]
  by_cases quote : c = '\'' ∨ c = '"'
  · rw [if_pos quote, skipQuoted_text split ascii]
    rcases quote with rfl | rfl
    · rw [next_single]
      rfl
    · rw [next_double]
      rfl
  by_cases line : c = '-' ∧ s.head? = some '-'
  · obtain ⟨rfl, head⟩ := line
    obtain ⟨rest, rfl⟩ := List.head?_eq_some_iff.mp head
    rw [if_neg quote, if_pos ⟨rfl, head⟩, skipLine_text split, next_line]
    rfl
  by_cases block : c = '/' ∧ s.head? = some '*'
  · obtain ⟨rfl, head⟩ := block
    obtain ⟨rest, rfl⟩ := List.head?_eq_some_iff.mp head
    rw [if_neg quote, if_neg line, if_pos ⟨rfl, head⟩, skipBlock_text split, next_block]
    rfl
  rw [if_neg quote, if_neg line, if_neg block]
  by_cases dollar : c = '$'
  · subst dollar
    rw [if_pos rfl, skipDollar_text split]
  · have stands : next u.reverse c s = (.other c, s) :=
      next_eq_other_iff.mpr ⟨fun e => quote (.inl e), fun e => quote (.inr e),
        fun e head => line ⟨e, head⟩, fun e head => block ⟨e, head⟩, fun e => absurd e dollar,
        fun e => absurd e other⟩
    rw [if_neg dollar, stands, ← byteLength_ascii ascii]
    rfl

namespace State

variable {cmd : Command} {copied : Nat} {sql mid front : List Char} {bound : Numbered.Bound}

theorem step_wide {st : State} {b : UInt8} (wide : 128 ≤ b) :
    st.step cmd b = some (.ok { st with index := st.index + 1 }) := by
  have other {m : Char} (hm : m.toNat < 128) : b ≠ m.toUInt8 := ne_toUInt8_of_wide wide hm
  have quote : ¬(b = '\''.toUInt8 ∨ b = '"'.toUInt8) :=
    not_or.mpr ⟨other (by decide), other (by decide)⟩
  rw [step, if_neg (other (by decide)), skip, if_neg quote, if_neg fun e => other (by decide) e.1,
    if_neg fun e => other (by decide) e.1, if_neg (other (by decide))]
  rfl

theorem run_wide (split : cmd.text.toList = u ++ c :: s) (wide : 128 ≤ c.toNat) :
    (⟨byteLength u, copied, sql, bound⟩ : State).run cmd =
      (⟨byteLength (u ++ [c]), copied, sql, bound⟩ : State).run cmd := by
  refine pass_wide (f := fun i => (⟨i, copied, sql, bound⟩ : State).run cmd) split wide
    (fun i b read high => ?_) (Nat.le_refl _) (by simp)
  exact run_step (utf8Bytes_eq cmd.text ▸ read) (step_wide high)

theorem run_skip (split : cmd.text.toList = u ++ c :: s) (ascii : c.toNat < 128) (other : c ≠ '@') :
    (⟨byteLength u, copied, sql, bound⟩ : State).run cmd =
      (⟨byteLength (u ++ (next u.reverse c s).1.text), copied, sql, bound⟩ : State).run cmd := by
  have read : (utf8Bytes cmd.text)[byteLength u]? = some c.toUInt8 :=
    utf8Bytes_eq cmd.text ▸ read_first split ascii
  have away : c.toUInt8 ≠ '@'.toUInt8 := fun e => other ((toUInt8_inj ascii (by decide)).mp e)
  have stepped : (⟨byteLength u, copied, sql, bound⟩ : State).step cmd c.toUInt8 =
      some (.ok ⟨byteLength (u ++ (next u.reverse c s).1.text), copied, sql, bound⟩) := by
    rw [step, if_neg away, utf8Bytes_eq, skip_text split ascii other]
    rfl
  exact run_step read stepped

theorem step_at (split : cmd.text.toList = front ++ (mid ++ '@' :: s)) :
    (⟨byteLength (front ++ mid), byteLength front, sql, bound⟩ : State).step cmd '@'.toUInt8 =
      some (if s.takeWhile isWordChar = [] then
        .ok ⟨byteLength (front ++ mid ++ ['@']), byteLength front, sql, bound⟩
      else (Numbered.placeholder cmd.parameters bound (String.ofList (s.takeWhile isWordChar))).map
        fun (t, bound) =>
          let i := byteLength (front ++ mid ++ ['@'] ++ s.takeWhile isWordChar)
          ⟨i, i, sql ++ (mid ++ t), bound⟩) := by
  have ascii : '@'.toNat < 128 := by decide
  have behind : cmd.text.toList = (front ++ mid ++ ['@']) ++ s := by simpa using split
  rw [step, if_pos rfl, utf8Bytes_eq]
  dsimp only
  rw [← byteLength_ascii ascii, wordEnd?_text behind, Option.bind_eq_bind, Option.bind_some]
  by_cases empty : s.takeWhile isWordChar = []
  · rw [if_pos empty, empty, List.append_nil, if_pos rfl]
    rfl
  · have further : byteLength (front ++ mid ++ ['@'] ++ s.takeWhile isWordChar) ≠
        byteLength (front ++ mid ++ ['@']) := by
      intro same
      rw [byteLength_append (front ++ mid ++ ['@'])] at same
      exact empty (eq_nil_of_byteLength (by omega))
    have name : slice? cmd.text.toList (byteLength (front ++ mid ++ ['@']))
        (byteLength (front ++ mid ++ ['@'] ++ s.takeWhile isWordChar)) =
          some (s.takeWhile isWordChar) :=
      slice?_eq_some_iff.mpr ⟨front ++ mid ++ ['@'], s.dropWhile isWordChar,
        by rw [List.takeWhile_append_dropWhile, behind], rfl, rfl⟩
    have copied : slice? cmd.text.toList (byteLength front) (byteLength (front ++ mid)) =
        some mid := slice?_eq_some_iff.mpr ⟨front, '@' :: s, split, rfl, rfl⟩
    rw [if_neg empty, if_neg further, name, copied]
    rfl

/-- Only ASCII characters begin another piece. -/
theorem next_wide (wide : 128 ≤ c.toNat) (before s : List Char) :
    next before c s = (.other c, s) := by
  have away {m : Char} (hm : m.toNat < 128) : c ≠ m := by
    rintro rfl
    exact Nat.not_lt.mpr wide hm
  exact next_eq_other_iff.mpr ⟨away (by decide), away (by decide),
    fun e => absurd e (away (by decide)), fun e => absurd e (away (by decide)),
    fun e => absurd e (away (by decide)), fun e => absurd e (away (by decide))⟩

/-- The scan goes behind a piece that is no placeholder. -/
theorem run_pass (split : cmd.text.toList = front ++ (mid ++ c :: s))
    (unnamed : (next (front ++ mid).reverse c s).1.name? = none) :
    (⟨byteLength (front ++ mid), byteLength front, sql, bound⟩ : State).run cmd =
      (⟨byteLength (front ++ mid ++ (next (front ++ mid).reverse c s).1.text),
        byteLength front, sql, bound⟩ : State).run cmd := by
  have split' : cmd.text.toList = (front ++ mid) ++ c :: s := by simpa using split
  rcases Nat.lt_or_ge c.toNat 128 with ascii | wide
  · by_cases mark : c = '@'
    · subst mark
      have empty : s.takeWhile isWordChar = [] := by
        by_contra nonempty
        rw [next_placeholder rfl nonempty] at unnamed
        cases unnamed
      have stands : next (front ++ mid).reverse '@' s = (.other '@', s) := by
        simp [next, splitWhile, empty]
      have read : (utf8Bytes cmd.text)[byteLength (front ++ mid)]? = some '@'.toUInt8 :=
        utf8Bytes_eq cmd.text ▸ read_first split' ascii
      rw [stands]
      exact run_step read ((step_at split).trans (congrArg some (if_pos empty)))
    · exact run_skip split' ascii mark
  · rw [next_wide wide]
    exact run_wide split' wide

theorem next_eq_placeholder {before name : List Char}
    (h : (next before c s).1 = .placeholder name) :
    c = '@' ∧ name = s.takeWhile isWordChar ∧ name ≠ [] ∧
      (next before c s).2 = s.dropWhile isWordChar := by
  have text := next_text before s c
  have stands := next_stands before s c
  rw [h] at text stands
  obtain ⟨nonempty, word, boundary⟩ := stands
  obtain ⟨rfl, behind⟩ := List.cons.inj text
  have split : splitWhile isWordChar (name ++ (next before '@' s).2) =
      (name, (next before '@' s).2) := splitWhile_of_boundary word boundary
  rw [show name ++ (next before '@' s).2 = s from behind] at split
  exact ⟨rfl, (congrArg Prod.fst split).symm, nonempty, (congrArg Prod.snd split).symm⟩

/-- What the pieces `qs` give behind what is written in `sql` and what is not yet copied. -/
def outcome (cmd : Command) (bound : Numbered.Bound) (sql mid : List Char) (qs : List Piece) :
    Except PlanError Numbered :=
  (Numbered.texts cmd.parameters bound qs).map fun (ts, bound) =>
    ⟨sql ++ (mid ++ ts.flatten), bound.map (·.2)⟩

theorem outcome_pass {q : Piece} (unnamed : q.name? = none) (qs : List Piece) :
    outcome cmd bound sql mid (q :: qs) = outcome cmd bound sql (mid ++ q.text) qs := by
  have kept : Numbered.piece cmd.parameters bound q = .ok (q.text, bound) := by
    cases q <;> first | rfl | cases unnamed
  rw [outcome, outcome, Numbered.texts, kept]
  change Except.map _ (Numbered.texts cmd.parameters bound qs >>= _) = _
  cases Numbered.texts cmd.parameters bound qs with
  | error e => rfl
  | ok out =>
    have text : mid ++ (q.text :: out.1).flatten = mid ++ q.text ++ out.1.flatten := by simp
    exact congrArg (fun t => Except.ok (Numbered.mk (sql ++ t) (out.2.map (·.2)))) text

theorem outcome_placeholder (name : List Char) (qs : List Piece) :
    outcome cmd bound sql mid (.placeholder name :: qs) =
      match Numbered.placeholder cmd.parameters bound (String.ofList name) with
      | .error e => .error e
      | .ok (t, bound) => outcome cmd bound (sql ++ (mid ++ t)) [] qs := by
  rw [outcome, Numbered.texts, Numbered.piece]
  cases Numbered.placeholder cmd.parameters bound (String.ofList name) with
  | error e => rfl
  | ok first =>
    change Except.map _ (Numbered.texts cmd.parameters first.2 qs >>= _) = outcome _ _ _ _ _
    rw [outcome]
    cases Numbered.texts cmd.parameters first.2 qs with
    | error e => rfl
    | ok out =>
      have text : sql ++ (mid ++ (first.1 :: out.1).flatten) =
          sql ++ (mid ++ first.1) ++ ([] ++ out.1.flatten) := by simp
      exact congrArg (fun t => Except.ok (Numbered.mk t (out.2.map (·.2)))) text

/-- From a piece on the scan gives what the pieces give. -/
theorem run_pieces (split : cmd.text.toList = front ++ (mid ++ s)) :
    (⟨byteLength (front ++ mid), byteLength front, sql, bound⟩ : State).run cmd =
      some (outcome cmd bound sql mid (piecesAfter (front ++ mid).reverse s)) := by
  generalize before_eq : (front ++ mid).reverse = before
  -- By induction on the pieces: the scan stands where one begins, with `mid` read since the last
  -- placeholder. A piece that is none goes to `mid`, a placeholder sends it to the written text.
  fun_induction piecesAfter before s generalizing front mid sql bound with
  | case1 before =>
    have whole : cmd.text.toList = (front ++ mid) ++ [] := by simpa using split
    have read : (utf8Bytes cmd.text)[byteLength (front ++ mid)]? = none := by
      rw [utf8Bytes_eq, read_at whole]
      rfl
    have tail : slice? cmd.text.toList (byteLength front) (utf8Bytes cmd.text).length =
        some mid := by
      refine slice?_eq_some_iff.mpr ⟨front, [], split, rfl, ?_⟩
      rw [utf8Bytes_eq, whole, List.append_nil, byteLength]
    rw [run_end read, tail]
    simp [outcome, Numbered.texts, Except.map]
  | case2 before c s p =>
    rename_i ih
    subst before_eq
    have behind : p.text ++ (next (front ++ mid).reverse c s).2 = c :: s := next_text _ s c
    cases name : p.name? with
    | none =>
      rw [run_pass split name, outcome_pass name, List.append_assoc]
      refine ih ?_ ?_
      · rw [split, ← behind, List.append_assoc]
      · rw [← List.append_assoc, List.reverse_append]
    | some _ =>
      obtain ⟨word, named⟩ : ∃ word, p = .placeholder word := by
        cases same : p <;> first | exact ⟨_, rfl⟩ | rw [same] at name; cases name
      obtain ⟨rfl, rfl, nonempty, rest⟩ := next_eq_placeholder named
      have split' : cmd.text.toList = (front ++ mid) ++ '@' :: s := by simpa using split
      have read : (utf8Bytes cmd.text)[byteLength (front ++ mid)]? = some '@'.toUInt8 :=
        utf8Bytes_eq cmd.text ▸ read_first split' (by decide)
      rw [named, outcome_placeholder,
        run_step read ((step_at split).trans (congrArg some (if_neg nonempty)))]
      cases Numbered.placeholder cmd.parameters bound (String.ofList (s.takeWhile isWordChar)) with
      | error e => rfl
      | ok out =>
        have cut : cmd.text.toList = front ++ mid ++ ['@'] ++ s.takeWhile isWordChar ++
            ([] ++ (next (front ++ mid).reverse '@' s).2) := by
          rw [rest, List.nil_append, List.append_assoc, List.takeWhile_append_dropWhile, split']
          simp
        have before_eq : (front ++ mid ++ ['@'] ++ s.takeWhile isWordChar ++ []).reverse =
            p.text.reverse ++ (front ++ mid).reverse := by
          rw [named]
          simp [Piece.text]
        have tail := @ih (sql ++ (mid ++ out.1)) _ _ out.2 cut before_eq
        rw [named, List.append_nil] at tail
        exact tail

end State

end ByteScan

open ByteScan State

/-- The scan gives the numbered command. -/
theorem scanned_eq (cmd : Command) : cmd.scanned = some cmd.numbered := by
  have from_first : run cmd ⟨byteLength ([] ++ []), byteLength [], [], []⟩ =
      some (outcome cmd [] [] [] (piecesAfter ([] ++ []).reverse cmd.text.toList)) := run_pieces rfl
  exact from_first

/-- The scan of a command ends without a failure in the numbered command. Every state that it
reaches has copied no more than it has read, up to a place between two characters; a turn from there
goes forward in the text, and what it cuts begins and ends between two characters, as does what is
left to copy at the end. Each skip goes forward in any bytes, and none of them closes more comments
than it has opened. -/
theorem scanned_total (cmd : Command) :
    cmd.scanned = some cmd.numbered ∧
    (∀ st, Reached cmd st → Placed cmd st ∧
      (∀ b, (utf8Bytes cmd.text)[st.index]? = some b → Turn cmd st b (st.step cmd b)) ∧
      ∃ tail, Cut cmd.text.toList st.copied (utf8Bytes cmd.text).length tail) ∧
    ∀ bs start, SkipsForward bs start :=
  ⟨scanned_eq cmd, fun _ reached =>
    ⟨reached.placed, fun _ read => reached.placed.turn read, reached.placed.tail⟩, skipsForward⟩

/-- A command with characters of two bytes in runs of every kind, the last of them unclosed. -/
def accentedCommand : Command := ⟨"E'\\é'@a--é\n$é$ /* é", [⟨"a", .int 7⟩]⟩

theorem scanned_total_accented :
    accentedCommand.scanned = some (.ok ⟨"E'\\é'$1--é\n$é$ /* é".toList, [.int 7]⟩) ∧
      Turn accentedCommand first 'E'.toUInt8 (first.step accentedCommand 'E'.toUInt8) ∧
      let bs := utf8Bytes accentedCommand.text
      Forward bs 1 (skipQuoted bs 1) ∧ Forward bs 8 (skipLine bs 8) ∧
        Forward bs 13 (skipDollar bs 13) ∧ Forward bs 18 (skipBlock bs 18) := by
  obtain ⟨total, reached, skips⟩ := scanned_total accentedCommand
  have numbered : accentedCommand.numbered =
      .ok ⟨"E'\\é'$1--é\n$é$ /* é".toList, [.int 7]⟩ := by cbv
  refine ⟨total.trans (congrArg some numbered), (reached _ .first).2.1 _ ?_,
    (skips _ 1).quoted (.inl ?_), (skips _ 8).line ?_ ?_, (skips _ 13).dollar ?_,
    (skips _ 18).block ?_ ?_⟩
  all_goals decide +kernel

end PlanSql
