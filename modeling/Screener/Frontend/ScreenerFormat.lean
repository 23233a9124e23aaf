import Screener.Frontend.Format

/-!
# Decimals on the screener page

`screener-dashboard.tsx` has its own comparator and its own percentages, beside those of
`format.ts`.
-/

namespace Screener.Frontend

open Screener.Lib

/-- The whole part without the zeros in front and the fraction without those behind it. -/
def digits (value : Text) : Text × Text :=
  let parts := splitPoint value
  (leadingZeros.replace (fun _ => []) parts.1,
    (Pattern.seq (.plus isZero) .finish).replace (fun _ => []) parts.2)

/-- `a.localeCompare(b)` of digits: the digits of a number stand in their order in every
collation. -/
def localeCompare (a b : Text) : ℤ := if a < b then -1 else if b < a then 1 else 0

def compareDecimalStrings (left right : Text) : ℤ :=
  let (leftWhole, leftFraction) := digits left
  let (rightWhole, rightFraction) := digits right
  if leftWhole.length ≠ rightWhole.length then (leftWhole.length : ℤ) - rightWhole.length
  else
    let whole := localeCompare leftWhole rightWhole
    if whole ≠ 0 then whole
    else
      let size := max leftFraction.length rightFraction.length
      localeCompare (padEnd leftFraction size) (padEnd rightFraction size)

/-! ## Percentages -/

/-- `\.0+$`. -/
def pointZeros : Pattern := .seq (.one isPoint) (.seq (.plus isZero) .finish)

/-- `\.[0-9]*`. -/
def pointDigits : Pattern := .seq (.one isPoint) (.many Char.isDigit)

/-- `(?<=\.[0-9]*)0+$`. -/
def fractionZeros (before after : Text) : Option Nat :=
  if pointDigits.endsAt before then
    (Pattern.seq (.plus isZero) .finish).matchLength before after
  else none

/-- `/\.0+$|(?<=\.[0-9]*)0+$/`. -/
def percentZeros (before after : Text) : Option Nat :=
  (pointZeros.matchLength before after).or (fractionZeros before after)

def formatPercent : Option Text → Text
  | none => ['—']
  | some value =>
    let (whole, fraction) := splitPoint value
    let combined := leadingZeros.replace (fun _ => []) (whole ++ padEnd fraction 2)
    -- `Math.max(0, ...)` twice: a difference of naturals is not below zero.
    let split := combined.length - (fraction.length - 2)
    let result :=
      if split = combined.length then combined
      else orZero (combined.take split) ++ '.' :: combined.drop split
    Pattern.removeAll percentZeros [] 0 result ++ ['%']

example : formatPercent (some "0.03".toList) = "3%".toList := by decide +kernel
example : formatPercent (some "0.00125".toList) = "0.125%".toList := by decide +kernel
example : formatPercent (some "0".toList) = "0%".toList := by decide +kernel

end Screener.Frontend
