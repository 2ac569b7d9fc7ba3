import PlanSql.Digits

namespace PlanSql

structure Interval where
  months : Int32
  days : Int32
  microseconds : Int64
  deriving DecidableEq

namespace Interval

/-- A count with its unit, unless the count is zero. -/
def countText (n : Int) (unit : String) : List (List Char) :=
  if n = 0 then []
  else [integerText n ++ ' ' :: (unit.toList ++ if n.natAbs = 1 then [] else ['s'])]

/-- The digits of a millionth part without the zeros at the end. -/
def fractionText (micros : Nat) : List Char :=
  if micros = 0 then []
  else '.' :: ((paddedDigits 6 micros).reverse.dropWhile (· == '0')).reverse

/-- Hours, minutes and seconds; the hours are not limited to a day. -/
def clockText (micros : Int) : List Char :=
  let n := micros.natAbs
  let s := n / 1000000
  (if micros < 0 then ['-'] else []) ++ paddedDigits 2 (s / 3600) ++ ':' ::
    (paddedDigits 2 (s / 60 % 60) ++ ':' ::
      (paddedDigits 2 (s % 60) ++ fractionText (n % 1000000)))

/-- The parts that are not zero, the clock last; an empty interval is a clock at zero. -/
def parts (i : Interval) : List (List Char) :=
  let months := i.months.toInt
  let counts := countText (months.tdiv 12) "year" ++ countText (months.tmod 12) "mon" ++
    countText i.days.toInt "day"
  let micros := i.microseconds.toInt
  if micros != 0 || counts.isEmpty then counts ++ [clockText micros] else counts

def text (i : Interval) : List Char := [' '].intercalate i.parts

end Interval

end PlanSql
