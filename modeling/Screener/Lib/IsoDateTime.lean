import Screener.Lib.CivilDate
import Screener.Lib.Stamp

/-!
# Datetimes in ISO format

The texts that `datetime.fromisoformat` reads: a date, one character of any kind, and a
time of hours, minutes, seconds and a fraction, with an offset or without one. The length
of the date follows from its first characters.
-/

namespace Screener.Lib.IsoDateTime

structure Clock where
  hour : Nat
  minute : Nat
  second : Nat
  microsecond : Nat
deriving DecidableEq, Repr

def Clock.total (c : Clock) : Nat :=
  ((c.hour * 60 + c.minute) * 60 + c.second) * 1000000 + c.microsecond

/-- Two digits and what follows them. -/
def two? : List Char → Option (Nat × List Char)
  | a :: b :: rest => (CivilDate.digits? [a, b]).map fun n => (n, rest)
  | _ => none

/-- A fraction in microseconds; what follows six digits is dropped. -/
def fraction? (digits : List Char) : Option Nat :=
  if digits = [] then none
  else (CivilDate.digits? digits).bind fun _ =>
    (CivilDate.digits? (digits.take 6)).map (· * 10 ^ (6 - digits.length))

/-- `HH`, `HHMM`, `HHMMSS` or one of them with colons; seconds may have a fraction. -/
def clock? (text : List Char) : Option Clock :=
  match two? text with
  | none => none
  | some (hour, []) => some ⟨hour, 0, 0, 0⟩
  | some (hour, c :: cs) =>
    let separated := decide (c = ':')
    match two? (if separated then cs else c :: cs) with
    | none => none
    | some (minute, []) => some ⟨hour, minute, 0, 0⟩
    | some (minute, c :: cs) =>
      if separated && c ≠ ':' then none
      else match two? (if separated then cs else c :: cs) with
        | none => none
        | some (second, []) => some ⟨hour, minute, second, 0⟩
        | some (second, c :: cs) =>
          if c = '.' ∨ c = ',' then (fraction? cs).map (Clock.mk hour minute second) else none

/-- The microseconds of a time of day. -/
def timeOfDay? (text : List Char) : Option Nat :=
  (clock? text).bind fun c =>
    if c.hour < 24 ∧ c.minute < 60 ∧ c.second < 60 then some c.total else none

/-- The microseconds of an offset without its sign. -/
def offset? (text : List Char) : Option Nat :=
  (clock? text).bind fun c => if (c.total : ℤ) < dayLength then some c.total else none

/-- Where the date ends. -/
def dateLength (text : List Char) : Nat :=
  if text.length = 7 then 7
  else match text with
    | _ :: _ :: _ :: _ :: '-' :: 'W' :: rest =>
      match rest.drop 2 with
      | '-' :: _ :: c :: _ => if c.isDigit then 8 else 10
      | '-' :: _ => 10
      | _ => 8
    | _ :: _ :: _ :: _ :: '-' :: _ => 10
    | _ :: _ :: _ :: _ :: 'W' :: _ =>
      let stop := 7 + ((text.drop 7).takeWhile Char.isDigit).length
      if stop < 9 then stop else if stop % 2 = 0 then 7 else 8
    | _ => 8

def isZone (c : Char) : Bool := c = '+' || c = '-' || c = 'Z'

/-- The offset that a zone stands for; without a zone there is none. -/
def zone? : List Char → Option (Option ℤ)
  | [] => some none
  | 'Z' :: rest => if rest = [] then some (some 0) else none
  | sign :: rest => (offset? rest).map fun n => some (if sign = '-' then -(n : ℤ) else n)

/-- `datetime.fromisoformat`. -/
def fromisoformat? (text : List Char) : Option Stamp :=
  if text.length < 7 then none
  else (CivilDate.fromisoformat? (String.ofList (text.take (dateLength text)))).bind fun date =>
    match text.drop (dateLength text + 1) with
    | [] => some ⟨date * dayLength, none⟩
    | c :: cs =>
      let (time, zone) := (c :: cs).span (!isZone ·)
      (timeOfDay? time).bind fun t => (zone? zone).map fun offset => ⟨date * dayLength + t, offset⟩

/-- The offset of `isoformat()`: seconds and microseconds where there are any. -/
def isoOffset (offset : ℤ) : String :=
  let n := offset.natAbs
  let minutes := n / 60000000
  let seconds := n / 1000000 % 60
  (if offset < 0 then "-" else "+") ++ CivilDate.pad 2 (minutes / 60) ++ ":" ++
    CivilDate.pad 2 (minutes % 60) ++
    (if n % 60000000 = 0 then "" else ":" ++ CivilDate.pad 2 seconds ++
      if n % 1000000 = 0 then "" else "." ++ CivilDate.pad 6 (n % 1000000))

example : fromisoformat? "2026-01-02T00:00:00+09:00".toList =
    some ⟨739618 * dayLength, some 32400000000⟩ := by decide +kernel
example : fromisoformat? "20260102 153000,5-0030".toList =
    some ⟨739618 * dayLength + 55800500000, some (-1800000000)⟩ := by decide +kernel
example : isoOffset 30472000000 = "+08:27:52" := by decide +kernel

end Screener.Lib.IsoDateTime
