namespace PlanSql

/-- An ASCII letter, an ASCII digit or `_`. -/
def isWordChar (c : Char) : Bool := c.isAlphanum || c == '_'

/-- The text with its ASCII capitals made small. -/
def foldCase (s : String) : String := String.ofList (s.toList.map Char.toLower)

/-- Equality of names up to the case of ASCII letters. -/
def sameName (a b : String) : Bool := foldCase a == foldCase b

theorem sameName_iff {a b : String} : sameName a b = true ↔ foldCase a = foldCase b := by
  simp [sameName]

theorem sameName_refl (a : String) : sameName a a = true := by simp [sameName]

theorem sameName_comm (a b : String) : sameName a b = sameName b a := by
  rw [Bool.eq_iff_iff, sameName_iff, sameName_iff, eq_comm]

/-- Whether a number lies in one of the runs whose first members and ends are listed in turn: an odd
number of them is not above it. -/
def inRuns (bounds : List Nat) (n : Nat) : Bool := (bounds.takeWhile (· ≤ n)).length % 2 == 1

/-- Unicode white space. -/
def isBlankChar (c : Char) : Bool :=
  let n := c.toNat
  (9 ≤ n && n ≤ 13) || n == 0x20 || n == 0x85 || n == 0xA0 || n == 0x1680 ||
    (0x2000 ≤ n && n ≤ 0x200A) || n == 0x2028 || n == 0x2029 || n == 0x202F ||
    n == 0x205F || n == 0x3000

/-- The control characters: U+0000 to U+001F and U+007F to U+009F. -/
def isControlChar (c : Char) : Bool :=
  let n := c.toNat
  n < 0x20 || (0x7F ≤ n && n < 0xA0)

/-- The text without leading white space. -/
def trimLeft (s : List Char) : List Char := s.dropWhile isBlankChar

/-- The text without white space at either end. -/
def trimBlank (s : List Char) : List Char := (trimLeft (trimLeft s).reverse).reverse

/-- The texts one after the other with `gap` between neighbours. -/
def joined (gap : List Char) : List (List Char) → List Char
  | [] => []
  | [s] => s
  | s :: t :: rest => s ++ (gap ++ joined gap (t :: rest))

/-- Splits a text before the first character that fails `p`. -/
def splitWhile (p : Char → Bool) (s : List Char) : List Char × List Char :=
  (s.takeWhile p, s.dropWhile p)

/-- Removes `head` from the front of a text that starts with it. -/
def dropHead? : (head s : List Char) → Option (List Char)
  | [], s => some s
  | _ :: _, [] => none
  | c :: head, d :: s => if c = d then dropHead? head s else none

theorem dropHead?_eq_some_iff {head s rest : List Char} :
    dropHead? head s = some rest ↔ s = head ++ rest := by
  induction head generalizing s with
  | nil => simp [dropHead?, eq_comm]
  | cons c head ih =>
    cases s with
    | nil => simp [dropHead?]
    | cons d s =>
      by_cases h : c = d
      · simp [dropHead?, h, ih]
      · simp [dropHead?, h, eq_comm]

end PlanSql
