import PlanSql.Bytes
import PlanSql.Digits

namespace PlanSql

/-- The bytes of an address of either family. -/
inductive Address
  | v4 (bytes : List UInt8)
  | v6 (bytes : List UInt8)
  deriving DecidableEq

namespace Address

def v4Text (bs : List UInt8) : List Char :=
  joined ['.'] (bs.map fun b => decimalDigits b.toNat)

/-- The groups of two bytes as numbers. -/
def groups : List UInt8 → List Nat
  | a :: b :: rest => (a.toNat * 256 + b.toNat) :: groups rest
  | _ => []

/-- Small hexadecimal digits without leading zeros. -/
def groupText (n : Nat) : List Char :=
  match (hexDigits 4 n).dropWhile (· == '0') with
  | [] => ['0']
  | ds => ds

def groupsText (ns : List Nat) : List Char := joined [':'] (ns.map groupText)

/-- The number of zeros in front. -/
def zeros (ns : List Nat) : Nat := (ns.takeWhile (· == 0)).length

/-- The first of the longest runs of zeros: where it starts and how long it is. -/
def longestRun (start : Nat) : List Nat → Nat × Nat
  | [] => (start, 0)
  | n :: rest =>
    let here := zeros (n :: rest)
    let later := longestRun (start + 1) rest
    if later.2 ≤ here then (start, here) else later

/-- Groups with the longest run of two or more zeros left out. -/
def v6Text (bs : List UInt8) : List Char :=
  let ns := groups bs
  if ns.take 6 = [0, 0, 0, 0, 0, 0xffff] then "::ffff:".toList ++ v4Text (bs.drop 12)
  else
    let (start, length) := longestRun 0 ns
    if 1 < length then
      groupsText (ns.take start) ++ ':' :: ':' :: groupsText (ns.drop (start + length))
    else groupsText ns

def text : Address → List Char
  | v4 bs => v4Text bs
  | v6 bs => v6Text bs

/-- The number of bits of an address. -/
def width : Address → Nat
  | v4 _ => 32
  | v6 _ => 128

/-- Reads the family, the bits of the net, a flag, the length and the address. -/
def decode? : List UInt8 → Option (Address × Nat)
  | family :: bits :: _ :: length :: bs =>
    if family = 2 && length = 4 && bs.length = 4 then some (v4 bs, bits.toNat)
    else if family = 3 && length = 16 && bs.length = 16 then some (v6 bs, bits.toNat)
    else none
  | _ => none

/-- The address with the bits of its net; those of a host are left out where `always` is not set. -/
def netText (always : Bool) (a : Address) (bits : Nat) : List Char :=
  if always || bits != a.width then a.text ++ '/' :: decimalDigits bits else a.text

end Address

end PlanSql
