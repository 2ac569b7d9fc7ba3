import Mathlib
import PlanSql.Bytes

namespace PlanSql

/-- The bytes of a text. -/
def textBytes (s : List Char) : List UInt8 := s.flatMap String.utf8EncodeChar

def byteLength (s : List Char) : Nat := (textBytes s).length

/-- Whether the first `i` bytes of a text are those of whole characters. -/
def Between (s : List Char) (i : Nat) : Prop :=
  ∃ before after, s = before ++ after ∧ byteLength before = i

/-- The characters in the first `i` bytes and those behind them. -/
def splitAtByte? : (i : Nat) → List Char → Option (List Char × List Char)
  | 0, s => some ([], s)
  | _ + 1, [] => none
  | i + 1, c :: s =>
    if c.utf8Size ≤ i + 1 then
      (splitAtByte? (i + 1 - c.utf8Size) s).map fun (before, after) => (c :: before, after)
    else none

/-- The text from byte `i` to byte `j`. -/
def slice? (s : List Char) (i j : Nat) : Option (List Char) := do
  let (before, _) ← splitAtByte? j s
  let (_, inside) ← splitAtByte? i before
  return inside

/-- The text `t` stands from byte `i` to byte `j`, both between two characters. -/
structure Cut (s : List Char) (i j : Nat) (t : List Char) : Prop where
  lower : Between s i
  upper : Between s j
  text : slice? s i j = some t

/-- The bytes of the ASCII characters in a class. -/
def isByteOf (p : Char → Bool) (b : UInt8) : Bool := b < 128 && p (Char.ofNat b.toNat)

/-- Only ASCII characters are in the class. -/
def IsAsciiClass (p : Char → Bool) : Prop := ∀ c, p c = true → c.toNat < 128

variable {s t before after : List Char} {c m : Char} {p : Char → Bool} {b : UInt8} {i j : Nat}

theorem utf8Bytes_eq (t : String) : utf8Bytes t = textBytes t.toList := by
  have bytes : (String.ofList t.toList).toUTF8 = t.toList.utf8Encode := String.toByteArray_ofList
  rw [String.ofList_toList] at bytes
  rw [utf8Bytes, bytes, List.utf8Encode, List.toList_data_toByteArray, textBytes]

@[simp]
theorem textBytes_nil : textBytes [] = [] := rfl

@[simp]
theorem textBytes_append (s t : List Char) : textBytes (s ++ t) = textBytes s ++ textBytes t :=
  List.flatMap_append

theorem textBytes_cons (c : Char) (s : List Char) :
    textBytes (c :: s) = String.utf8EncodeChar c ++ textBytes s := rfl

/-- An ASCII character is one byte. -/
theorem textBytes_ascii (ascii : c.toNat < 128) (s : List Char) :
    textBytes (c :: s) = c.toUInt8 :: textBytes s := by
  have one : c.utf8Size = 1 := Char.utf8Size_eq_one_iff.mpr (Nat.le_of_lt_succ ascii)
  rw [textBytes_cons, String.utf8EncodeChar_eq_singleton one]
  rfl

/-- No byte of another character is one of an ASCII character. -/
theorem wide_bytes (wide : 128 ≤ c.toNat) (mem : b ∈ String.utf8EncodeChar c) : 128 ≤ b := by
  have low : ¬c.val.toNat ≤ 127 := Nat.not_le.mpr wide
  have high (n : Nat) (lower : 128 ≤ n) (upper : n < 256) : (128 : UInt8) ≤ UInt8.ofNat n := by
    rw [UInt8.le_iff_toNat_le, UInt8.toNat_ofNat_of_lt' upper]
    exact lower
  simp only [String.utf8EncodeChar, low, if_false] at mem
  have members : ∃ n, b = UInt8.ofNat n ∧ 128 ≤ n ∧ n < 256 := by
    split at mem
    case' isFalse => split at mem
    all_goals
      simp only [List.mem_cons, List.not_mem_nil, or_false] at mem
      rcases mem with rfl | rfl | rfl | rfl <;> exact ⟨_, rfl, by omega, by omega⟩
  obtain ⟨n, rfl, lower, upper⟩ := members
  rw [UInt8.le_iff_toNat_le, UInt8.toNat_ofNat_of_lt' upper]
  exact lower

theorem textBytes_wide (wide : 128 ≤ c.toNat) (s : List Char) :
    ∃ b rest, textBytes (c :: s) = b :: rest ∧ 128 ≤ b := by
  cases bytes : String.utf8EncodeChar c with
  | nil =>
    have size : (String.utf8EncodeChar c).length = c.utf8Size := String.length_utf8EncodeChar c
    rw [bytes] at size
    exact absurd c.utf8Size_pos (by rw [← size]; decide)
  | cons b rest =>
    have high : 128 ≤ b := wide_bytes wide (bytes ▸ List.mem_cons_self)
    exact ⟨b, rest ++ textBytes s, by rw [textBytes_cons, bytes, List.cons_append], high⟩

@[simp]
theorem byteLength_nil : byteLength [] = 0 := rfl

@[simp]
theorem byteLength_append (s t : List Char) :
    byteLength (s ++ t) = byteLength s + byteLength t := by
  rw [byteLength, textBytes_append, List.length_append, byteLength, byteLength]

theorem byteLength_cons (c : Char) (s : List Char) :
    byteLength (c :: s) = c.utf8Size + byteLength s := by
  rw [byteLength, textBytes_cons, List.length_append, String.length_utf8EncodeChar, byteLength]

theorem toNat_toUInt8 (ascii : c.toNat < 128) : c.toUInt8.toNat = c.toNat := by
  have small : c.val.toNat % 256 = c.val.toNat := Nat.mod_eq_of_lt (Nat.lt_trans ascii (by decide))
  rw [Char.toUInt8, UInt32.toNat_toUInt8]
  exact small

theorem toUInt8_lt (ascii : c.toNat < 128) : c.toUInt8 < 128 := by
  rw [UInt8.lt_iff_toNat_lt, toNat_toUInt8 ascii]
  exact ascii

theorem toUInt8_inj (hc : c.toNat < 128) (hm : m.toNat < 128) : c.toUInt8 = m.toUInt8 ↔ c = m := by
  rw [← UInt8.toNat_inj, toNat_toUInt8 hc, toNat_toUInt8 hm, Char.toNat_inj]

theorem ne_toUInt8_of_wide (wide : 128 ≤ b) (hm : m.toNat < 128) : b ≠ m.toUInt8 := by
  rintro rfl
  exact UInt8.not_lt.mpr wide (toUInt8_lt hm)

theorem lt_of_isByteOf (h : isByteOf p b = true) : b < 128 := by
  have both : b < 128 ∧ p (Char.ofNat b.toNat) = true := by simpa [isByteOf] using h
  exact both.1

theorem isByteOf_toUInt8 (ascii : c.toNat < 128) : isByteOf p c.toUInt8 = p c := by
  rw [isByteOf, toNat_toUInt8 ascii, Char.ofNat_toNat, decide_eq_true (toUInt8_lt ascii),
    Bool.true_and]

theorem isByteOf_wide (wide : 128 ≤ b) : isByteOf p b = false := by
  rw [isByteOf, decide_eq_false (UInt8.not_lt.mpr wide), Bool.false_and]

theorem isWordChar_ascii : IsAsciiClass isWordChar := by
  intro c h
  rw [isWordChar, Bool.or_eq_true, beq_iff_eq] at h
  rcases h with h | rfl
  · simp only [Char.isAlphanum, Char.isAlpha, Char.isUpper, Char.isLower, Char.isDigit,
      Bool.or_eq_true, Bool.and_eq_true, decide_eq_true_eq, UInt32.le_iff_toNat_le, ge_iff_le] at h
    have bounds : (65 ≤ c.toNat ∧ c.toNat ≤ 90 ∨ 97 ≤ c.toNat ∧ c.toNat ≤ 122) ∨
        48 ≤ c.toNat ∧ c.toNat ≤ 57 := h
    omega
  · decide

theorem isDigit_ascii : IsAsciiClass Char.isDigit := by
  intro c digit
  refine isWordChar_ascii c ?_
  rw [isWordChar, Char.isAlphanum, digit, Bool.or_true, Bool.true_or]

theorem IsAsciiClass.wide (h : IsAsciiClass p) (wide : 128 ≤ c.toNat) : p c = false := by
  cases inside : p c with
  | false => rfl
  | true => exact absurd (h c inside) (Nat.not_lt.mpr wide)

/-- The word that a text begins with, byte by byte. -/
theorem IsAsciiClass.takeWhile (h : IsAsciiClass p) (s : List Char) :
    (textBytes s).takeWhile (isByteOf p) = textBytes (s.takeWhile p) := by
  induction s with
  | nil => rfl
  | cons c s ih =>
    rcases Nat.lt_or_ge c.toNat 128 with ascii | wide
    · rw [textBytes_ascii ascii, List.takeWhile_cons, List.takeWhile_cons, isByteOf_toUInt8 ascii]
      cases p c with
      | false => rfl
      | true =>
        rw [if_pos rfl, if_pos rfl, ih, textBytes_ascii ascii]
    · obtain ⟨b, rest, bytes, high⟩ := textBytes_wide wide s
      rw [bytes, List.takeWhile_cons, isByteOf_wide high, List.takeWhile_cons, h.wide wide]
      rfl

/-- The first byte of a text is in a class of ASCII characters if its first character is. -/
theorem IsAsciiClass.any_head? (h : IsAsciiClass p) (s : List Char) :
    (textBytes s)[0]?.any (isByteOf p) = s.head?.any p := by
  cases s with
  | nil => rfl
  | cons c s =>
    rcases Nat.lt_or_ge c.toNat 128 with ascii | wide
    · rw [textBytes_ascii ascii]
      exact isByteOf_toUInt8 ascii
    · obtain ⟨b, rest, bytes, high⟩ := textBytes_wide wide s
      rw [bytes]
      exact (isByteOf_wide high).trans (h.wide wide).symm

theorem IsAsciiClass.any_getLast? (h : IsAsciiClass p) (s : List Char) :
    (textBytes s).getLast?.any (isByteOf p) = s.getLast?.any p := by
  rcases List.eq_nil_or_concat s with rfl | ⟨front, c, rfl⟩
  · rfl
  rw [List.concat_eq_append, textBytes_append, List.getLast?_concat, Option.any_some]
  rcases Nat.lt_or_ge c.toNat 128 with ascii | wide
  · rw [textBytes_ascii ascii, textBytes_nil, List.getLast?_concat]
    exact isByteOf_toUInt8 ascii
  · obtain ⟨b, rest, bytes, -⟩ := textBytes_wide wide []
    have last : (textBytes [c]).getLast? =
        some ((b :: rest).getLast (List.cons_ne_nil b rest)) := by
      rw [bytes, List.getLast?_eq_some_getLast]
    have high : 128 ≤ (b :: rest).getLast (List.cons_ne_nil b rest) :=
      wide_bytes wide (by
        have mem := List.mem_of_getLast? last
        simpa [textBytes] using mem)
    rw [List.getLast?_append, last, Option.some_or]
    exact (isByteOf_wide high).trans (h.wide wide).symm

/-- A text begins with the byte of an ASCII character just when it begins with that character. -/
theorem first_eq_iff (hm : m.toNat < 128) (s : List Char) :
    (textBytes s)[0]? = some m.toUInt8 ↔ s.head? = some m := by
  cases s with
  | nil => simp
  | cons c s =>
    rcases Nat.lt_or_ge c.toNat 128 with ascii | wide
    · rw [textBytes_ascii ascii, List.getElem?_cons_zero, Option.some.injEq, toUInt8_inj ascii hm,
        List.head?_cons, Option.some.injEq]
    · obtain ⟨b, rest, bytes, high⟩ := textBytes_wide wide s
      have other : c ≠ m := by
        rintro rfl
        exact Nat.not_lt.mpr wide hm
      simp [bytes, ne_toUInt8_of_wide high hm, other]

/-- Only an ASCII character has its byte. -/
theorem toUInt8_mem_iff (hm : m.toNat < 128) : m.toUInt8 ∈ String.utf8EncodeChar c ↔ c = m := by
  rcases Nat.lt_or_ge c.toNat 128 with ascii | wide
  · have bytes : String.utf8EncodeChar c = [c.toUInt8] := by
      simpa [textBytes] using textBytes_ascii ascii []
    rw [bytes, List.mem_singleton, toUInt8_inj hm ascii, eq_comm]
  · constructor
    · intro mem
      exact absurd rfl (ne_toUInt8_of_wide (wide_bytes wide mem) hm)
    · rintro rfl
      exact absurd hm (Nat.not_lt.mpr wide)

/-- Text of ASCII characters is in front of a text when its bytes are. -/
theorem textBytes_prefix_iff (ht : ∀ c ∈ t, c.toNat < 128) (s : List Char) :
    textBytes t <+: textBytes s ↔ t <+: s := by
  constructor
  · intro h
    induction t generalizing s with
    | nil => exact List.nil_prefix
    | cons m t ih =>
      have hm : m.toNat < 128 := ht m List.mem_cons_self
      rw [textBytes_ascii hm] at h
      obtain ⟨rest, same⟩ := h
      have first : (textBytes s)[0]? = some m.toUInt8 := by rw [← same]; rfl
      obtain ⟨s, rfl⟩ := List.head?_eq_some_iff.mp ((first_eq_iff hm s).mp first)
      rw [textBytes_ascii hm] at same
      have behind := ih (fun c mem => ht c (List.mem_cons_of_mem m mem)) s
        ⟨rest, List.tail_eq_of_cons_eq same⟩
      exact List.cons_prefix_cons.mpr ⟨rfl, behind⟩
  · rintro ⟨rest, rfl⟩
    exact ⟨textBytes rest, (textBytes_append t rest).symm⟩

theorem eq_nil_of_byteLength (h : byteLength s = 0) : s = [] := by
  cases s with
  | nil => rfl
  | cons c s =>
    rw [byteLength_cons] at h
    exact absurd c.utf8Size_pos (by omega)

theorem splitAtByte?_eq_some_iff :
    splitAtByte? i s = some (before, after) ↔
      s = before ++ after ∧ byteLength before = i := by
  fun_induction splitAtByte? i s generalizing before with
  | case1 s =>
    constructor
    · intro h
      cases h
      exact ⟨rfl, rfl⟩
    · rintro ⟨rfl, empty⟩
      obtain rfl := eq_nil_of_byteLength empty
      rfl
  | case2 i =>
    refine ⟨(fun h => by cases h), ?_⟩
    rintro ⟨empty, length⟩
    obtain rfl := (List.append_eq_nil_iff.mp empty.symm).1
    cases length
  | case3 i c s fits ih =>
    constructor
    · intro h
      obtain ⟨⟨front, rest⟩, split, same⟩ := Option.map_eq_some_iff.mp h
      cases same
      obtain ⟨rfl, length⟩ := ih.mp split
      refine ⟨rfl, ?_⟩
      rw [byteLength_cons]
      omega
    · rintro ⟨same, length⟩
      cases before with
      | nil => cases length
      | cons d front =>
        obtain ⟨rfl, rfl⟩ := List.cons.inj same
        rw [byteLength_cons] at length
        exact Option.map_eq_some_iff.mpr ⟨(front, after), ih.mpr ⟨rfl, by omega⟩, rfl⟩
  | case4 i c s long =>
    refine ⟨(fun h => by cases h), ?_⟩
    rintro ⟨same, length⟩
    cases before with
    | nil => cases length
    | cons d front =>
      obtain ⟨rfl, rfl⟩ := List.cons.inj same
      rw [byteLength_cons] at length
      omega

theorem slice?_eq_some_iff :
    slice? s i j = some t ↔ ∃ before after, s = before ++ (t ++ after) ∧
      byteLength before = i ∧ byteLength (before ++ t) = j := by
  constructor
  · intro h
    obtain ⟨⟨front, after⟩, split, h⟩ := Option.bind_eq_some_iff.mp h
    obtain ⟨⟨before, inside⟩, split', h⟩ := Option.bind_eq_some_iff.mp h
    cases h
    obtain ⟨rfl, upper⟩ := splitAtByte?_eq_some_iff.mp split
    obtain ⟨rfl, lower⟩ := splitAtByte?_eq_some_iff.mp split'
    exact ⟨before, after, List.append_assoc _ _ _, lower, upper⟩
  · rintro ⟨before, after, rfl, lower, upper⟩
    have split : splitAtByte? j (before ++ (t ++ after)) = some (before ++ t, after) :=
      splitAtByte?_eq_some_iff.mpr ⟨(List.append_assoc _ _ _).symm, upper⟩
    have split' : splitAtByte? i (before ++ t) = some (before, t) :=
      splitAtByte?_eq_some_iff.mpr ⟨rfl, lower⟩
    exact Option.bind_eq_some_iff.mpr ⟨_, split, Option.bind_eq_some_iff.mpr ⟨_, split', rfl⟩⟩

/-- A text can be cut between two boundaries. -/
theorem Between.cut (lower : Between s i) (upper : Between s j) (le : i ≤ j) :
    ∃ t, Cut s i j t := by
  obtain ⟨before, rest, rfl, rfl⟩ := lower
  obtain ⟨front, after, same, rfl⟩ := upper
  have found : ∃ t, slice? (before ++ rest) (byteLength before) (byteLength front) = some t := by
    obtain ⟨t, rfl, rfl⟩ | ⟨t, rfl, rfl⟩ := List.append_eq_append_iff.mp same
    · exact ⟨t, slice?_eq_some_iff.mpr ⟨before, after, rfl, rfl, rfl⟩⟩
    · rw [byteLength_append] at le
      obtain rfl : t = [] := eq_nil_of_byteLength (by omega)
      exact ⟨[], slice?_eq_some_iff.mpr ⟨front, rest, by simp, by simp, by simp⟩⟩
  obtain ⟨t, found⟩ := found
  exact ⟨t, ⟨before, rest, rfl, rfl⟩, ⟨front, after, same, rfl⟩, found⟩

theorem between_end (s : List Char) : Between s (byteLength s) :=
  ⟨s, [], (List.append_nil s).symm, rfl⟩

theorem Between.le_length (h : Between s i) : i ≤ byteLength s := by
  obtain ⟨before, after, rfl, rfl⟩ := h
  rw [byteLength_append]
  exact Nat.le_add_right _ _

theorem Between.cons (h : Between s i) (c : Char) : Between (c :: s) (c.utf8Size + i) := by
  obtain ⟨before, after, rfl, rfl⟩ := h
  exact ⟨c :: before, after, rfl, byteLength_cons c before⟩

/-- The bytes of ASCII characters stand between boundaries. -/
theorem between_of_ascii (byte : (textBytes s)[i]? = some b) (ascii : b < 128) :
    Between s i ∧ Between s (i + 1) := by
  induction s generalizing i with
  | nil => cases byte
  | cons c s ih =>
    rcases Nat.lt_or_ge i c.utf8Size with inside | behind
    · have mem : b ∈ String.utf8EncodeChar c := by
        rw [textBytes_cons, List.getElem?_append_left (by simpa using inside)] at byte
        exact List.mem_of_getElem? byte
      rcases Nat.lt_or_ge c.toNat 128 with narrow | wide
      · have one : c.utf8Size = 1 := Char.utf8Size_eq_one_iff.mpr (Nat.le_of_lt_succ narrow)
        obtain rfl : i = 0 := by omega
        exact ⟨⟨[], c :: s, rfl, rfl⟩, ⟨[c], s, rfl, by rw [byteLength_cons, one]; rfl⟩⟩
      · exact absurd ascii (UInt8.not_lt.mpr (wide_bytes wide mem))
    · rw [textBytes_cons, List.getElem?_append_right (by simpa using behind),
        String.length_utf8EncodeChar] at byte
      obtain ⟨lower, upper⟩ := ih byte
      have place : c.utf8Size + (i - c.utf8Size) = i := by omega
      refine ⟨place ▸ lower.cons c, ?_⟩
      have next : c.utf8Size + (i - c.utf8Size + 1) = i + 1 := by omega
      exact next ▸ upper.cons c

end PlanSql
