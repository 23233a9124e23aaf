import Mathlib.Algebra.GroupWithZero.Nat

/-!
# Civil dates by ordinal

Day 1 is the first of January of year 1 of the proleptic Gregorian calendar.
-/

namespace Screener.Lib.CivilDate

def isLeap (year : Nat) : Bool := year % 4 = 0 && (year % 100 ≠ 0 || year % 400 = 0)

def daysInMonth (year : Nat) : List Nat :=
  [31, if isLeap year then 29 else 28, 31, 30, 31, 30, 31, 31, 30, 31, 30, 31]

/-- The month that day `n` of a year falls into, counted from `month`, and the day in it. -/
def monthOf (month n : Nat) : List Nat → Nat × Nat
  | [] => (month, n + 1)
  | days :: rest => if n < days then (month, n + 1) else monthOf (month + 1) (n - days) rest

/-- Year, month and day of an ordinal: whole cycles of 400, 100, 4 and 1 years are
taken off; the last day of a cycle of 400 or 4 years belongs to a leap year. -/
def ofOrdinal (ordinal : Nat) : Nat × Nat × Nat :=
  let n := ordinal - 1
  let n400 := n / 146097
  let n := n % 146097
  let n100 := n / 36524
  let n := n % 36524
  let n4 := n / 1461
  let n := n % 1461
  let n1 := n / 365
  let n := n % 365
  let year := n400 * 400 + n100 * 100 + n4 * 4 + n1
  if n1 = 4 ∨ n100 = 4 then (year, 12, 31)
  else (year + 1, monthOf 1 n (daysInMonth (year + 1)))

def pad (width n : Nat) : String :=
  let digits := toString n
  String.ofList (List.replicate (width - digits.length) '0') ++ digits

/-- `date.isoformat()`. -/
def isoformat (ordinal : Nat) : String :=
  let (year, month, day) := ofOrdinal ordinal
  pad 4 year ++ "-" ++ pad 2 month ++ "-" ++ pad 2 day

/-- `repr(date)`. -/
def repr (ordinal : Nat) : String :=
  let (year, month, day) := ofOrdinal ordinal
  "datetime.date(" ++ toString year ++ ", " ++ toString month ++ ", " ++ toString day ++ ")"

def daysBeforeYear (year : Nat) : Nat :=
  (year - 1) * 365 + (year - 1) / 4 - (year - 1) / 100 + (year - 1) / 400

/-- The ordinal of a civil date, if there is such a date. -/
def toOrdinal? (year month day : Nat) : Option Nat :=
  if year = 0 ∨ 9999 < year ∨ month = 0 then none
  else match (daysInMonth year)[month - 1]? with
    | none => none
    | some days =>
      if day = 0 ∨ days < day then none
      else some (daysBeforeYear year + ((daysInMonth year).take (month - 1)).sum + day)

/-- The ordinal of a day of an ISO week; the fourth of January is in week 1. -/
def ofWeek? (year week day : Nat) : Option Nat :=
  let first := daysBeforeYear year + 1
  let weekday := (first + 6) % 7
  let long := weekday = 3 ∨ (weekday = 2 ∧ isLeap year = true)
  if year = 0 ∨ 9999 < year ∨ week = 0 ∨ 53 < week ∨ (week = 53 ∧ ¬ long) ∨ day = 0 ∨ 7 < day then
    none
  else some (first + 3 - (first + 2) % 7 + (week - 1) * 7 + (day - 1))

def digits? (cs : List Char) : Option Nat :=
  cs.foldl (fun n c => n.bind fun n => if c.isDigit then some (10 * n + (c.toNat - 48)) else none)
    (some 0)

/-- `date.fromisoformat`: a calendar date or an ISO week, with and without separators. -/
def fromisoformat? (text : String) : Option Nat :=
  let date (y m d : List Char) : Option Nat :=
    (digits? y).bind fun y => (digits? m).bind fun m => (digits? d).bind fun d => toOrdinal? y m d
  let week (y w d : List Char) : Option Nat :=
    (digits? y).bind fun y => (digits? w).bind fun w => (digits? d).bind fun d => ofWeek? y w d
  match text.toList with
  | [a, b, c, d, 'W', e, f] => week [a, b, c, d] [e, f] ['1']
  | [a, b, c, d, '-', 'W', e, f] => week [a, b, c, d] [e, f] ['1']
  | [a, b, c, d, 'W', e, f, g] => week [a, b, c, d] [e, f] [g]
  | [a, b, c, d, e, f, g, h] => date [a, b, c, d] [e, f] [g, h]
  | [a, b, c, d, '-', 'W', e, f, '-', g] => week [a, b, c, d] [e, f] [g]
  | [a, b, c, d, '-', e, f, '-', g, h] => date [a, b, c, d] [e, f] [g, h]
  | _ => none

example : fromisoformat? "2024-02-29" = some 738945 := by decide +kernel
example : fromisoformat? "2026-W02-1" = some 739621 := by decide +kernel
example : ofOrdinal 739621 = (2026, 1, 5) := by decide
example : ofOrdinal 738945 = (2024, 2, 29) := by decide

end Screener.Lib.CivilDate
