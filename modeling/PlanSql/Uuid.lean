import PlanSql.Characters
import PlanSql.Digits

namespace PlanSql

structure Uuid where
  bits : BitVec 128
  deriving DecidableEq

namespace Uuid

/-- Small digits in groups of 8, 4, 4, 4 and 12. -/
def text (u : Uuid) : List Char :=
  let ds := hexDigits 32 u.bits.toNat
  ds.take 8 ++ '-' :: ((ds.drop 8).take 4 ++ '-' :: ((ds.drop 12).take 4 ++ '-' ::
    ((ds.drop 16).take 4 ++ '-' :: ds.drop 20)))

def ofDigits? (ds : List Char) : Option Uuid := (readHex? ds).map fun n => ⟨BitVec.ofNat 128 n⟩

/-- Reads five groups with a hyphen between them. -/
def grouped? (s : List Char) : Option Uuid :=
  let hyphens := [s[8]?, s[13]?, s[18]?, s[23]?]
  if s.length = 36 && hyphens.all (· == some '-') then
    ofDigits? (s.take 8 ++ (s.drop 9).take 4 ++ (s.drop 14).take 4 ++ (s.drop 19).take 4 ++
      s.drop 24)
  else none

/-- Reads 32 digits, or five groups, alone or in braces or after `urn:uuid:`. -/
def read? (s : List Char) : Option Uuid :=
  if s.length = 32 then ofDigits? s
  else if s.length = 38 && s.head? = some '\x7b' && s.getLast? = some '\x7d' then
    grouped? (s.drop 1).dropLast
  else match dropHead? "urn:uuid:".toList s with
    | some rest => grouped? rest
    | none => grouped? s

end Uuid

end PlanSql
