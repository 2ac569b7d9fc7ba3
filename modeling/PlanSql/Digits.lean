namespace PlanSql

/- Powers of numbers are those of the core library in every module, whatever it imports. -/
attribute [instance (1100), default_instance (10100)] instPowNat

/-- The decimal digits of a number, the most significant first. -/
def decimalDigits (n : Nat) : List Char := Nat.toDigits 10 n

/-- The number that a list of decimal digits denotes. -/
def readDecimal (s : List Char) : Nat := Nat.ofDigitChars 10 s 0

theorem readDecimal_decimalDigits (n : Nat) : readDecimal (decimalDigits n) = n :=
  Nat.ofDigitChars_toDigits (by decide) (by decide)

/-- Decimal digits with leading zeros up to `width`. -/
def paddedDigits (width n : Nat) : List Char :=
  List.replicate (width - (decimalDigits n).length) '0' ++ decimalDigits n

/-- A whole number with a sign only when it is negative. -/
def integerText (n : Int) : List Char :=
  if n < 0 then '-' :: decimalDigits n.natAbs else decimalDigits n.natAbs

/-- Reads an optional sign and at least one digit, and nothing else. -/
def readInteger? (s : List Char) : Option Int :=
  let natural (r : List Char) : Option Nat :=
    if r.isEmpty || !r.all Char.isDigit then none else some (readDecimal r)
  match s with
  | '-' :: r => (natural r).map fun n => -(n : Int)
  | '+' :: r => (natural r).map fun n => (n : Int)
  | r => (natural r).map fun n => (n : Int)

/-- The whole numbers of a signed word of `bits` bits. -/
def fitsSigned (bits : Nat) (n : Int) : Bool := -(2 ^ (bits - 1)) ≤ n && n < 2 ^ (bits - 1)

/-- The small hexadecimal digit of a number below sixteen. -/
def hexDigit (n : Nat) : Char :=
  if n < 10 then Char.ofNat (48 + n) else Char.ofNat (87 + n)

/-- The value of a hexadecimal digit of either case. -/
def hexValue? (c : Char) : Option Nat :=
  let n := c.toNat
  if 48 ≤ n && n ≤ 57 then some (n - 48)
  else if 97 ≤ n && n ≤ 102 then some (n - 87)
  else if 65 ≤ n && n ≤ 70 then some (n - 55)
  else none

/-- The last `width` hexadecimal digits of a number, the most significant first. -/
def hexDigits : (width n : Nat) → List Char
  | 0, _ => []
  | width + 1, n => hexDigits width (n / 16) ++ [hexDigit (n % 16)]

/-- The number that a list of hexadecimal digits denotes. -/
def readHex? (s : List Char) : Option Nat :=
  s.foldl (fun n c => n.bind fun n => (hexValue? c).map (16 * n + ·)) (some 0)

end PlanSql
