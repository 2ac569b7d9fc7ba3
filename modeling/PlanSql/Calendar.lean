import PlanSql.Characters
import PlanSql.Digits

namespace PlanSql

def isLeapYear (year : Int) : Bool := year % 4 == 0 && (year % 100 != 0 || year % 400 == 0)

def daysInMonth (year : Int) (month : Nat) : Nat :=
  if month = 2 then if isLeapYear year then 29 else 28
  else if month = 4 || month = 6 || month = 9 || month = 11 then 30
  else 31

def isDate (year : Int) (month day : Nat) : Bool :=
  -262143 ≤ year && year ≤ 262142 && 1 ≤ month && month ≤ 12 && 1 ≤ day &&
    day ≤ daysInMonth year month

structure Date where
  year : Int
  month : Nat
  day : Nat
  isDate : isDate year month day = true
  deriving DecidableEq

/-- A time of day; second 60 is a leap second. -/
structure Clock where
  hour : Nat
  minute : Nat
  second : Nat
  nano : Nat
  hour_lt : hour < 24
  minute_lt : minute < 60
  second_le : second ≤ 60
  nano_lt : nano < 10 ^ 9
  deriving DecidableEq

structure Timestamp where
  date : Date
  clock : Clock
  deriving DecidableEq

/-- A point in time, kept as the date and clock of zone zero. -/
structure Instant where
  utc : Timestamp
  deriving DecidableEq

namespace Date

def ofParts? (year : Int) (month day : Nat) : Option Date :=
  if h : PlanSql.isDate year month day then some ⟨year, month, day, h⟩ else none

/-- Days since 1 January 2000. Years are counted from March and in cycles of 400. -/
def dayNumber (d : Date) : Int :=
  let year := if d.month ≤ 2 then d.year - 1 else d.year
  let cycle := year.fdiv 400
  let y := year - cycle * 400
  let dayOfYear : Int := (153 * ((d.month + 9) % 12) + 2) / 5 + d.day - 1
  cycle * 146097 + (y * 365 + y / 4 - y / 100 + dayOfYear) - 730425

def ofDayNumber? (n : Int) : Option Date :=
  let n := n + 730425
  let cycle := n.fdiv 146097
  let d := (n - cycle * 146097).toNat
  let y := (d - d / 1460 + d / 36524 - d / 146096) / 365
  let dayOfYear := d - (365 * y + y / 4 - y / 100)
  let m := (5 * dayOfYear + 2) / 153
  let day := dayOfYear - (153 * m + 2) / 5 + 1
  let month := if m < 10 then m + 3 else m - 9
  let year : Int := y + cycle * 400
  ofParts? (if month ≤ 2 then year + 1 else year) month day

/-- Four digits, and a sign for years that need more or lie before year 0. -/
def yearText (year : Int) : List Char :=
  if 0 ≤ year && year ≤ 9999 then paddedDigits 4 year.natAbs
  else (if year < 0 then '-' else '+') :: paddedDigits 4 year.natAbs

def text (d : Date) : List Char :=
  yearText d.year ++ '-' :: (paddedDigits 2 d.month ++ '-' :: paddedDigits 2 d.day)

end Date

namespace Clock

def ofParts? (hour minute second nano : Nat) : Option Clock :=
  if h : hour < 24 ∧ minute < 60 ∧ second ≤ 60 ∧ nano < 10 ^ 9 then
    some ⟨hour, minute, second, nano, h.1, h.2.1, h.2.2.1, h.2.2.2⟩
  else none

def nanoseconds (t : Clock) : Nat :=
  ((t.hour * 60 + t.minute) * 60 + t.second) * 10 ^ 9 + t.nano

/-- The time of day that many microseconds after midnight; whole days are left out. -/
def ofMicroseconds (n : Int) : Clock :=
  let n := (n % 86400000000).toNat
  let s := n / 1000000
  have hn : n < 86400000000 := by omega
  ⟨s / 3600, s / 60 % 60, s % 60, n % 1000000 * 1000, by omega, by omega, by omega, by omega⟩

/-- No digits, or the least of 3, 6 and 9 that are exact. -/
def fractionText (nano : Nat) : List Char :=
  if nano = 0 then []
  else if nano % 1000000 = 0 then '.' :: paddedDigits 3 (nano / 1000000)
  else if nano % 1000 = 0 then '.' :: paddedDigits 6 (nano / 1000)
  else '.' :: paddedDigits 9 nano

def text (t : Clock) : List Char :=
  paddedDigits 2 t.hour ++ ':' :: (paddedDigits 2 t.minute ++ ':' ::
    (paddedDigits 2 t.second ++ fractionText t.nano))

end Clock

namespace Timestamp

def text (gap : Char) (t : Timestamp) : List Char := t.date.text ++ gap :: t.clock.text

/-- Microseconds since 1 January 2000, rounded toward zero. -/
def microseconds (t : Timestamp) : Int :=
  (t.date.dayNumber * 86400000000000 + t.clock.nanoseconds).tdiv 1000

def ofMicroseconds? (n : Int) : Option Timestamp :=
  (Date.ofDayNumber? (n.fdiv 86400000000)).map fun d => ⟨d, Clock.ofMicroseconds n⟩

end Timestamp

/-- The point in time of a date and clock that are `offset` minutes ahead of zone zero. The seconds
stay as they are. -/
def Instant.ofLocal? (t : Timestamp) (offset : Int) : Option Instant :=
  let minutes := (t.clock.hour * 60 + t.clock.minute : Nat) - offset
  let ofDay := (minutes % 1440).toNat
  have hd : ofDay < 1440 := by omega
  (Date.ofDayNumber? (t.date.dayNumber + minutes.fdiv 1440)).map fun d =>
    ⟨d, ofDay / 60, ofDay % 60, t.clock.second, t.clock.nano, by omega, by omega,
      t.clock.second_le, t.clock.nano_lt⟩

namespace CalendarText

/-- Reads up to `width` digits, and at least one, after white space. -/
def number? (width : Nat) (s : List Char) : Option (Nat × List Char) :=
  let s := trimLeft s
  let ds := (s.takeWhile Char.isDigit).take width
  if ds.isEmpty then none else some (readDecimal ds, s.drop ds.length)

/-- Reads a year: up to four digits, or a sign and any digits. -/
def year? (s : List Char) : Option (Int × List Char) :=
  match trimLeft s with
  | '-' :: rest => if rest.head?.any Char.isDigit then
      (number? rest.length rest).map fun (n, rest) => (-(n : Int), rest) else none
  | '+' :: rest => if rest.head?.any Char.isDigit then
      (number? rest.length rest).map fun (n, rest) => ((n : Int), rest) else none
  | s => (number? 4 s).map fun (n, rest) => ((n : Int), rest)

/-- Reads a separator after white space. -/
def mark? (c : Char) (s : List Char) : Option (List Char) := dropHead? [c] (trimLeft s)

def date? (s : List Char) : Option (Date × List Char) := do
  let (year, s) ← year? s
  let (month, s) ← number? 2 (← mark? '-' s)
  let (day, s) ← number? 2 (← mark? '-' s)
  return (← Date.ofParts? year month day, s)

/-- Reads the digits after a point, if there is one; those after the ninth are dropped. -/
def fraction? (s : List Char) : Option (Nat × List Char) :=
  match s with
  | '.' :: s =>
    let (ds, rest) := splitWhile Char.isDigit s
    if ds.isEmpty then none
    else some (readDecimal (ds.take 9) * 10 ^ (9 - ds.length), rest)
  | s => some (0, s)

def second? (s : List Char) : Option (Nat × Nat × List Char) := do
  let (second, s) ← number? 2 (← mark? ':' s)
  let (nano, s) ← fraction? s
  if second ≤ 60 then some (second, nano, trimLeft s) else none

def minute? (s : List Char) : Option (Nat × Nat × List Char) := do
  let (hour, s) ← number? 2 s
  let (minute, s) ← number? 2 (← mark? ':' s)
  return (hour, minute, s)

def clock? (s : List Char) : Option (Clock × List Char) := do
  let (hour, minute, s) ← minute? s
  let (second, nano, s) ← second? s
  return (← Clock.ofParts? hour minute second nano, s)

/-- Reads the minutes of a zone: `Z`, `UTC`, or a sign, two digits of hours and two of minutes. -/
def offset? (s : List Char) : Option (Int × List Char) :=
  let signed (sign : Int) (s : List Char) : Option (Int × List Char) :=
    match s with
    | a :: b :: s =>
      match s.dropWhile (fun c => c == ':' || isBlankChar c) with
      | c :: d :: rest =>
        if [a, b, c, d].all Char.isDigit && c < '6' && readDecimal [a, b] < 24 then
          some (sign * (readDecimal [a, b] * 60 + readDecimal [c, d] : Nat), rest)
        else none
      | _ => none
    | _ => none
  if ['u', 't', 'c'] = (s.take 3).map Char.toLower then some (0, s.drop 3)
  else match s with
    | c :: rest =>
      if c = 'z' || c = 'Z' then some (0, rest)
      else if c = '+' then signed 1 rest
      else if c = '-' || c = '\u2212' then signed (-1) rest
      else none
    | [] => none

/-- The value of a reading that leaves nothing but white space. -/
def whole? {α : Type} (r : Option (α × List Char)) : Option α :=
  r.bind fun (a, rest) => if (trimLeft rest).isEmpty then some a else none

end CalendarText

open CalendarText in
def Date.read? (s : List Char) : Option Date := whole? (date? s)

open CalendarText in
/-- Reads a time of day; the seconds may be left out. -/
def Clock.read? (s : List Char) : Option Clock :=
  whole? (clock? s) <|> do
    let (hour, minute, s) ← minute? s
    whole? (some ((), s))
    ofParts? hour minute 0 0

open CalendarText in
def Timestamp.read? (s : List Char) : Option Timestamp :=
  whole? do
    let (date, s) ← date? s
    let (clock, s) ← clock? (← mark? 'T' s)
    return (⟨date, clock⟩, s)

namespace Instant

open CalendarText in
/-- Reads a date, a separator, a time of day and a zone. -/
def read? (s : List Char) : Option Instant := do
  let (date, s) ← date? s
  let s ← match s with
    | c :: s => if c = 't' || c = 'T' || c = ' ' then some s else none
    | [] => none
  let (clock, s) ← clock? s
  let offset ← whole? (offset? s)
  ofLocal? ⟨date, clock⟩ offset

/-- The text that is stored. -/
def text (t : Instant) : List Char := t.utc.text 'T' ++ ['Z']

/-- The text that is shown. -/
def shownText (t : Instant) : List Char := t.utc.text 'T' ++ "+00:00".toList

end Instant

end PlanSql
