import PlanSql.Numbered
import PlanSql.Proofs.TextBytes

namespace PlanSql

namespace ByteScan

section Skips

variable (bs : List UInt8)

/-- The bytes from `i` up to `j`. -/
def cut? (i j : Nat) : Option (List UInt8) :=
  if i ≤ j ∧ j ≤ bs.length then some ((bs.take j).drop i) else none

/-- The end of the word at `i`, which may be empty. -/
def wordEnd? (i : Nat) : Option Nat :=
  (cut? bs i bs.length).map fun behind => i + (behind.takeWhile (isByteOf isWordChar)).length

/-- The end of a quoted run that is read from `i` on. -/
def quotedEnd (quote : UInt8) (escapes : Bool) (i : Nat) : Nat :=
  if _ : i < bs.length then
    if escapes && bs[i] == '\\'.toUInt8 then quotedEnd quote escapes (i + 2)
    else if bs[i] = quote then
      if bs[i + 1]? = some quote then quotedEnd quote escapes (i + 2) else i + 1
    else quotedEnd quote escapes (i + 1)
  else bs.length
termination_by bs.length - i

/-- Whether a quote at `start` opens a run with backslash escapes. -/
def escapesAt (start : Nat) : Bool :=
  -- The bytes in front of one that was read are there, so that these reads cannot fail.
  0 < start && bs[start - 1]?.any (isByteOf fun c => c == 'E' || c == 'e') &&
    (start < 2 || !bs[start - 2]?.any (isByteOf isWordChar))

def skipQuoted (start : Nat) : Option Nat := do
  let quote ← bs[start]?
  return quotedEnd bs quote (quote == '\''.toUInt8 && escapesAt bs start) (start + 1)

def skipLine (start : Nat) : Option Nat := do
  let rest ← cut? bs start bs.length
  return match rest.findIdx? (· == '\n'.toUInt8) with
    | some n => start + n + 1
    | none => bs.length

/-- The end of a comment that is read from `i` on with `depth` open ones. -/
def blockEnd (depth i : Nat) : Option Nat :=
  if _ : i < bs.length then
    if bs[i] = '/'.toUInt8 ∧ bs[i + 1]? = some '*'.toUInt8 then blockEnd (depth + 1) (i + 2)
    else if bs[i] = '*'.toUInt8 ∧ bs[i + 1]? = some '/'.toUInt8 then
      match depth with
      | 0 => none
      | 1 => some (i + 2)
      | depth + 2 => blockEnd (depth + 1) (i + 2)
    else blockEnd depth (i + 1)
  else some bs.length
termination_by bs.length - i

def skipBlock (start : Nat) : Option Nat := blockEnd bs 0 start

/-- The place of the first window that is `mark`. -/
def windowIndex? (mark : List UInt8) : List UInt8 → Option Nat
  | [] => none
  | b :: rest =>
    if mark.isPrefixOf (b :: rest) then some 0 else (windowIndex? mark rest).map (· + 1)

/-- The end of a body whose mark stands from `start` up to `stop`. -/
def bodyEnd (start stop : Nat) : Option Nat := do
  let mark ← cut? bs start stop
  let body ← cut? bs stop bs.length
  -- There are no windows of no bytes.
  guard (mark ≠ [])
  return match windowIndex? mark body with
    | some n => stop + n + mark.length
    | none => bs.length

def skipDollar (start : Nat) : Option Nat :=
  if 0 < start && bs[start - 1]?.any (isByteOf fun c => isWordChar c || c == '$') then
    some (start + 1)
  else do
    let close ← wordEnd? bs (start + 1)
    if bs[close]? = some '$'.toUInt8 ∧ !bs[start + 1]?.any (isByteOf Char.isDigit) then
      bodyEnd bs start (close + 1)
    else return start + 1

/-- Where the scan goes on that has read `b`, which is no `@`, at `start`. -/
def skip (start : Nat) (b : UInt8) : Option Nat :=
  if b = '\''.toUInt8 ∨ b = '"'.toUInt8 then skipQuoted bs start
  else if b = '-'.toUInt8 ∧ bs[start + 1]? = some '-'.toUInt8 then skipLine bs start
  else if b = '/'.toUInt8 ∧ bs[start + 1]? = some '*'.toUInt8 then skipBlock bs start
  else if b = '$'.toUInt8 then skipDollar bs start
  else some (start + 1)

end Skips

variable {bs : List UInt8} {start i j : Nat} {b : UInt8}

theorem cut?_of_le (lower : i ≤ j) (upper : j ≤ bs.length) :
    cut? bs i j = some ((bs.take j).drop i) := if_pos ⟨lower, upper⟩

theorem cut?_from (h : i ≤ bs.length) : cut? bs i bs.length = some (bs.drop i) := by
  rw [cut?_of_le h (Nat.le_refl _), List.take_length]

theorem wordEnd?_eq (h : i ≤ bs.length) :
    wordEnd? bs i = some (i + ((bs.drop i).takeWhile (isByteOf isWordChar)).length) := by
  rw [wordEnd?, cut?_from h, Option.map_some]

theorem wordEnd?_bounds (h : wordEnd? bs i = some j) : i ≤ j ∧ j ≤ bs.length := by
  obtain ⟨behind, cut, rfl⟩ := Option.map_eq_some_iff.mp h
  obtain ⟨⟨le, -⟩, same⟩ := Option.ite_none_right_eq_some.mp cut
  cases same
  have within (p : UInt8 → Bool) (s : List UInt8) : (s.takeWhile p).length ≤ s.length :=
    (List.takeWhile_prefix p).length_le
  have inside := within (isByteOf isWordChar) ((bs.take bs.length).drop i)
  rw [List.length_drop, List.length_take] at inside
  omega

/-- A place behind `start` and in the text. -/
def Forward (bs : List UInt8) (start : Nat) (stop : Option Nat) : Prop :=
  ∃ i, stop = some i ∧ start < i ∧ i ≤ bs.length

theorem quotedEnd_bounds (bs : List UInt8) (quote : UInt8) (escapes : Bool) (i : Nat) :
    min i bs.length ≤ quotedEnd bs quote escapes i ∧ quotedEnd bs quote escapes i ≤ bs.length := by
  fun_induction quotedEnd bs quote escapes i <;> omega

theorem skipQuoted_forward (h : start < bs.length) : Forward bs start (skipQuoted bs start) := by
  have ⟨lower, upper⟩ := quotedEnd_bounds bs bs[start]
    (bs[start] == '\''.toUInt8 && escapesAt bs start) (start + 1)
  refine ⟨_, ?_, ?_, upper⟩
  · rw [skipQuoted, List.getElem?_eq_getElem h]
    rfl
  · omega

theorem skipLine_forward (h : start < bs.length) : Forward bs start (skipLine bs start) := by
  rw [skipLine, cut?_from (Nat.le_of_lt h), Option.bind_eq_bind, Option.bind_some]
  cases found : (bs.drop start).findIdx? (· == '\n'.toUInt8) with
  | none => exact ⟨_, rfl, h, Nat.le_refl _⟩
  | some n =>
    have inside : n < (bs.drop start).length := (List.findIdx?_eq_some_iff_getElem.mp found).1
    rw [List.length_drop] at inside
    exact ⟨start + n + 1, rfl, by omega, by omega⟩

/-- Inside a comment no closing is one too many. -/
theorem blockEnd_bounds (bs : List UInt8) {depth : Nat} (nested : 0 < depth) (i : Nat) :
    ∃ stop, blockEnd bs depth i = some stop ∧ min i bs.length ≤ stop ∧ stop ≤ bs.length := by
  fun_induction blockEnd bs depth i with
  | case1 depth i inside opening ih =>
    obtain ⟨stop, found, lower, upper⟩ := ih (Nat.succ_pos _)
    exact ⟨stop, found, by omega, upper⟩
  | case2 => exact absurd nested (Nat.lt_irrefl 0)
  | case3 i inside _ closing =>
    obtain ⟨next, -⟩ := List.getElem?_eq_some_iff.mp closing.2
    exact ⟨_, rfl, by omega, next⟩
  | case4 i inside _ closing depth ih =>
    obtain ⟨stop, found, lower, upper⟩ := ih (Nat.succ_pos _)
    exact ⟨stop, found, by omega, upper⟩
  | case5 depth i inside _ _ ih =>
    obtain ⟨stop, found, lower, upper⟩ := ih nested
    exact ⟨stop, found, by omega, upper⟩
  | case6 depth i behind => exact ⟨_, rfl, Nat.min_le_right _ _, Nat.le_refl _⟩

theorem skipBlock_forward (slash : bs[start]? = some '/'.toUInt8)
    (star : bs[start + 1]? = some '*'.toUInt8) : Forward bs start (skipBlock bs start) := by
  obtain ⟨inside, slash⟩ := List.getElem?_eq_some_iff.mp slash
  obtain ⟨next, -⟩ := List.getElem?_eq_some_iff.mp star
  obtain ⟨stop, found, lower, upper⟩ := blockEnd_bounds bs Nat.one_pos (start + 2)
  refine ⟨stop, ?_, by omega, upper⟩
  rw [skipBlock, blockEnd, dif_pos inside, if_pos ⟨slash, star⟩, found]

theorem windowIndex?_bounds {mark s : List UInt8} {n : Nat} (h : windowIndex? mark s = some n) :
    n + mark.length ≤ s.length := by
  fun_induction windowIndex? mark s generalizing n with
  | case1 => cases h
  | case2 b rest here =>
    cases h
    simpa using (List.isPrefixOf_iff_prefix.mp here).length_le
  | case3 b rest away ih =>
    obtain ⟨k, found, rfl⟩ := Option.map_eq_some_iff.mp h
    have := ih found
    rw [List.length_cons]
    omega

theorem bodyEnd_forward (lower : start < i) (upper : i ≤ bs.length) :
    Forward bs start (bodyEnd bs start i) := by
  have nonempty : (bs.take i).drop start ≠ [] := by
    rw [Ne, List.drop_eq_nil_iff, List.length_take]
    omega
  rw [bodyEnd, cut?_of_le (Nat.le_of_lt lower) upper, cut?_from upper]
  generalize (bs.take i).drop start = mark at nonempty
  simp only [Option.bind_eq_bind, Option.bind_some, guard, if_pos nonempty]
  cases found : windowIndex? mark (bs.drop i) with
  | none => exact ⟨bs.length, rfl, by omega, Nat.le_refl _⟩
  | some n =>
    have fits := windowIndex?_bounds found
    rw [List.length_drop] at fits
    exact ⟨i + n + mark.length, rfl, by omega, by omega⟩

theorem skipDollar_forward (h : start < bs.length) : Forward bs start (skipDollar bs start) := by
  have next : Forward bs start (some (start + 1)) := ⟨_, rfl, Nat.lt_succ_self _, h⟩
  rw [skipDollar]
  split
  · exact next
  obtain ⟨close, word⟩ : ∃ close, wordEnd? bs (start + 1) = some close := ⟨_, wordEnd?_eq h⟩
  obtain ⟨behind, -⟩ := wordEnd?_bounds word
  rw [word, Option.bind_eq_bind, Option.bind_some]
  split
  · next opens =>
    obtain ⟨inside, -⟩ := List.getElem?_eq_some_iff.mp opens.1
    exact bodyEnd_forward (by omega) inside
  · exact next

/-- Each skip goes forward from where the scan calls it. -/
structure SkipsForward (bs : List UInt8) (start : Nat) : Prop where
  quoted : bs[start]? = some '\''.toUInt8 ∨ bs[start]? = some '"'.toUInt8 →
    Forward bs start (skipQuoted bs start)
  line : bs[start]? = some '-'.toUInt8 → bs[start + 1]? = some '-'.toUInt8 →
    Forward bs start (skipLine bs start)
  block : bs[start]? = some '/'.toUInt8 → bs[start + 1]? = some '*'.toUInt8 →
    Forward bs start (skipBlock bs start)
  dollar : bs[start]? = some '$'.toUInt8 → Forward bs start (skipDollar bs start)

theorem skipsForward (bs : List UInt8) (start : Nat) : SkipsForward bs start := by
  have inside {b : UInt8} (read : bs[start]? = some b) : start < bs.length :=
    (List.getElem?_eq_some_iff.mp read).1
  refine ⟨fun quote => ?_, fun dash _ => skipLine_forward (inside dash), skipBlock_forward,
    fun dollar => skipDollar_forward (inside dollar)⟩
  rcases quote with single | double
  · exact skipQuoted_forward (inside single)
  · exact skipQuoted_forward (inside double)

/-- From every byte but an `@` the scan goes forward in the text. -/
theorem skip_forward (h : bs[start]? = some b) : Forward bs start (skip bs start b) := by
  obtain ⟨inside, -⟩ := List.getElem?_eq_some_iff.mp h
  rw [skip]
  split
  · exact skipQuoted_forward inside
  split
  · exact skipLine_forward inside
  split
  · next slash => exact skipBlock_forward (slash.1 ▸ h) slash.2
  split
  · exact skipDollar_forward inside
  · exact ⟨_, rfl, Nat.lt_succ_self _, inside⟩

/-- The text up to `copied` is written in `sql`. -/
structure State where
  index : Nat
  copied : Nat
  sql : List Char
  bound : Numbered.Bound

namespace State

def first : State := ⟨0, 0, [], []⟩

/-- One turn of the scan, which has read `b`. -/
def step (c : Command) (st : State) (b : UInt8) : Option (Except PlanError State) :=
  let bs := utf8Bytes c.text
  if b = '@'.toUInt8 then do
    let stop ← wordEnd? bs (st.index + 1)
    if stop = st.index + 1 then return .ok { st with index := stop }
    else
      let name ← slice? c.text.toList (st.index + 1) stop
      let front ← slice? c.text.toList st.copied st.index
      return (Numbered.placeholder c.parameters st.bound (String.ofList name)).map
        fun (t, bound) => ⟨stop, stop, st.sql ++ (front ++ t), bound⟩
  else (skip bs st.index b).map fun i => .ok { st with index := i }

variable {c : Command} {st st' : State}

/-- Every turn goes forward. -/
theorem step_forward (read : (utf8Bytes c.text)[st.index]? = some b)
    (stepped : st.step c b = some (.ok st')) :
    st.index < st'.index ∧ st'.index ≤ (utf8Bytes c.text).length := by
  rw [step] at stepped
  split at stepped
  · obtain ⟨stop, word, stepped⟩ := Option.bind_eq_some_iff.mp stepped
    have ⟨lower, upper⟩ := wordEnd?_bounds word
    split at stepped
    · cases stepped
      exact ⟨lower, upper⟩
    · obtain ⟨name, -, stepped⟩ := Option.bind_eq_some_iff.mp stepped
      obtain ⟨front, -, stepped⟩ := Option.bind_eq_some_iff.mp stepped
      cases found : Numbered.placeholder c.parameters st.bound (String.ofList name) with
      | error e =>
        rw [found] at stepped
        cases stepped
      | ok out =>
        rw [found] at stepped
        cases stepped
        exact ⟨lower, upper⟩
  · obtain ⟨i, skipped, same⟩ := Option.map_eq_some_iff.mp stepped
    cases same
    obtain ⟨stop, found, lower, upper⟩ := skip_forward read
    obtain rfl := Option.some.inj (skipped.symm.trans found)
    exact ⟨lower, upper⟩

/-- What the scan gives from a state on. -/
def run (c : Command) (st : State) : Option (Except PlanError Numbered) :=
  match _ : (utf8Bytes c.text)[st.index]? with
  | none => (slice? c.text.toList st.copied (utf8Bytes c.text).length).map fun tail =>
      .ok ⟨st.sql ++ tail, st.bound.map (·.2)⟩
  | some b =>
    match _ : st.step c b with
    | none => none
    | some (.error e) => some (.error e)
    | some (.ok next) => next.run c
termination_by (utf8Bytes c.text).length - st.index
decreasing_by
  have ⟨lower, upper⟩ := step_forward ‹_› ‹st.step c b = some (.ok next)›
  omega

theorem run_end (read : (utf8Bytes c.text)[st.index]? = none) :
    st.run c = (slice? c.text.toList st.copied (utf8Bytes c.text).length).map fun tail =>
      .ok ⟨st.sql ++ tail, st.bound.map (·.2)⟩ := by
  rw [run]
  split
  · rfl
  · next b other => cases read.symm.trans other

theorem run_step (read : (utf8Bytes c.text)[st.index]? = some b) {out : Except PlanError State} :
    st.step c b = some out → st.run c = match out with
      | .error e => some (.error e)
      | .ok next => next.run c := by
  intro stepped
  rw [run]
  split
  · next other => cases read.symm.trans other
  · next b' same =>
    obtain rfl := Option.some.inj (same.symm.trans read)
    split
    · next other => cases stepped.symm.trans other
    · next e failed =>
      cases stepped.symm.trans failed
      rfl
    · next next going =>
      cases stepped.symm.trans going
      rfl

/-- The states that the scan of a command goes through. -/
inductive Reached (c : Command) : State → Prop
  | first : Reached c first
  | next {st st' : State} {b : UInt8} : Reached c st → (utf8Bytes c.text)[st.index]? = some b →
    st.step c b = some (.ok st') → Reached c st'

/-- The scan has copied no more than it has read, up to a place between two characters. -/
structure Placed (c : Command) (st : State) : Prop where
  copied_le : st.copied ≤ st.index
  index_le : st.index ≤ (utf8Bytes c.text).length
  copied_between : Between c.text.toList st.copied

/-- The end of a word stands between two characters if its beginning does. -/
theorem between_wordEnd {s : List Char} (h : Between s i)
    (word : wordEnd? (textBytes s) i = some j) : Between s j := by
  rw [wordEnd?_eq h.le_length, Option.some.injEq] at word
  have starts : ((textBytes s).drop i).takeWhile (isByteOf isWordChar) <+: (textBytes s).drop i :=
    List.takeWhile_prefix _
  have inside := List.all_takeWhile (p := isByteOf isWordChar) (l := (textBytes s).drop i)
  generalize ((textBytes s).drop i).takeWhile (isByteOf isWordChar) = run at word starts inside
  subst word
  rcases List.eq_nil_or_concat run with rfl | ⟨front, b, rfl⟩
  · exact h
  · obtain ⟨rest, split⟩ := starts
    have last : (textBytes s)[i + front.length]? = some b := by
      rw [← List.getElem?_drop, ← split]
      simp
    have ascii : b < 128 := lt_of_isByteOf (List.all_eq_true.mp inside b (by simp))
    rw [List.length_concat, ← Nat.add_assoc]
    exact (between_of_ascii last ascii).2

theorem Placed.first : Placed c first := ⟨Nat.le_refl 0, Nat.zero_le _, ⟨[], _, rfl, rfl⟩⟩

/-- What one turn does: it goes on, or it writes what is not yet copied and a placeholder, and cuts
both between two characters. -/
inductive Turn (c : Command) (st : State) (b : UInt8) : Option (Except PlanError State) → Prop
  | pass {i : Nat} : st.index < i → i ≤ (utf8Bytes c.text).length →
    Turn c st b (some (.ok { st with index := i }))
  | placeholder {stop : Nat} {front name : List Char} : b = '@'.toUInt8 →
    st.copied ≤ st.index → Cut c.text.toList st.copied st.index front →
    st.index + 1 < stop → Cut c.text.toList (st.index + 1) stop name →
    Turn c st b (some ((Numbered.placeholder c.parameters st.bound (String.ofList name)).map
      fun (t, bound) => ⟨stop, stop, st.sql ++ (front ++ t), bound⟩))

theorem Placed.turn (h : Placed c st) (read : (utf8Bytes c.text)[st.index]? = some b) :
    Turn c st b (st.step c b) := by
  obtain ⟨inside, -⟩ := List.getElem?_eq_some_iff.mp read
  rw [step]
  split
  · next mark =>
    have ascii : b < 128 := mark ▸ by decide
    obtain ⟨before, behind⟩ := between_of_ascii (utf8Bytes_eq c.text ▸ read) ascii
    obtain ⟨stop, word⟩ : ∃ stop, wordEnd? (utf8Bytes c.text) (st.index + 1) = some stop :=
      ⟨_, wordEnd?_eq inside⟩
    obtain ⟨lower, upper⟩ := wordEnd?_bounds word
    dsimp only
    rw [word, Option.bind_eq_bind, Option.bind_some]
    split
    · exact .pass lower upper
    · next nonempty =>
      have ends : Between c.text.toList stop := between_wordEnd behind (utf8Bytes_eq c.text ▸ word)
      obtain ⟨name, named⟩ := behind.cut ends lower
      obtain ⟨front, copied⟩ := h.copied_between.cut before h.copied_le
      rw [named.text, copied.text]
      exact .placeholder mark h.copied_le copied (by omega) named
  · obtain ⟨i, skipped, lower, upper⟩ := skip_forward read
    rw [skipped]
    exact .pass lower upper

theorem Placed.next (h : Placed c st) (read : (utf8Bytes c.text)[st.index]? = some b)
    (stepped : st.step c b = some (.ok st')) : Placed c st' := by
  have turn := h.turn read
  rw [stepped] at turn
  generalize eq : some (Except.ok st') = out at turn
  cases turn with
  | pass lower upper =>
    cases eq
    exact ⟨Nat.le_trans h.copied_le (Nat.le_of_lt lower), upper, h.copied_between⟩
  | @placeholder stop front name _ _ _ _ named =>
    cases found : Numbered.placeholder c.parameters st.bound (String.ofList name) with
    | error e =>
      rw [found] at eq
      cases eq
    | ok out =>
      rw [found] at eq
      cases eq
      exact ⟨Nat.le_refl _, utf8Bytes_eq c.text ▸ named.upper.le_length, named.upper⟩

theorem Placed.tail (h : Placed c st) :
    ∃ tail, Cut c.text.toList st.copied (utf8Bytes c.text).length tail := by
  rw [utf8Bytes_eq]
  exact h.copied_between.cut (between_end _) h.copied_between.le_length

theorem Reached.placed (h : Reached c st) : Placed c st := by
  induction h with
  | first => exact .first
  | next _ read stepped ih => exact ih.next read stepped

end State

end ByteScan

/-- What the scan gives for a command, or `none` where it fails. -/
def Command.scanned (c : Command) : Option (Except PlanError Numbered) := ByteScan.State.first.run c

end PlanSql
