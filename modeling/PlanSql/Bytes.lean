import PlanSql.Characters
import PlanSql.Digits

namespace PlanSql

/-- The last `width` bytes of a number. -/
def naturalBytes : (width n : Nat) → List UInt8
  | 0, _ => []
  | width + 1, n => naturalBytes width (n / 256) ++ [UInt8.ofNat n]

/-- The number that bytes denote. -/
def naturalOf (bs : List UInt8) : Nat := bs.foldl (fun n b => 256 * n + b.toNat) 0

/-- A whole number of `width` bytes in two's complement. -/
def integerBytes (width : Nat) (n : Int) : List UInt8 :=
  naturalBytes width (n % 256 ^ width).toNat

/-- The whole number that bytes in two's complement denote. -/
def integerOf (bs : List UInt8) : Int :=
  let n : Int := naturalOf bs
  let m : Int := 256 ^ bs.length
  if 2 * n < m then n else n - m

/-- The first `width` bytes and the others. -/
def takeBytes? (width : Nat) (bs : List UInt8) : Option (List UInt8 × List UInt8) :=
  if width ≤ bs.length then some (bs.splitAt width) else none

/-- Takes a whole number of `width` bytes. -/
def takeInteger? (width : Nat) (bs : List UInt8) : Option (Int × List UInt8) :=
  (takeBytes? width bs).map fun (front, rest) => (integerOf front, rest)

/-- The whole number in the first `width` bytes. -/
def firstInteger? (width : Nat) (bs : List UInt8) : Option Int :=
  (takeInteger? width bs).map Prod.fst

def utf8Bytes (s : String) : List UInt8 := s.toUTF8.data.toList

def readUtf8? (bs : List UInt8) : Option String := String.fromUTF8? ⟨bs.toArray⟩

end PlanSql
