import Screener.Lib.Numeral
import Screener.Lib.Pattern

/-!
# Decimals on the page

`format.ts` rewrites the decimals it is sent as texts, without making numbers of them.
`null` and `undefined` are `none`.
-/

namespace Screener.Frontend

open Screener.Lib

/-- `[1-9]`. -/
def isNonZeroDigit (c : Char) : Bool := c.isDigit && !isZero c

def isPoint (c : Char) : Bool := c = '.'

/-- `/(\.\d*?[1-9])0+$|\.0+$/`. -/
def trailingZeros : Pattern :=
  .alt
    (.seq (.group (.seq (.one isPoint) (.seq (.manyLazy Char.isDigit) (.one isNonZeroDigit))))
      (.seq (.plus isZero) .finish))
    (.seq (.one isPoint) (.seq (.plus isZero) .finish))

/-- `/^0+(?=\d)/`. -/
def leadingZeros : Pattern := .seq .start (.seq (.plus isZero) (.ahead (.one Char.isDigit)))

/-- `value.replace(..., "$1")`. -/
def stripTrailingZeros (value : Text) : Text :=
  trailingZeros.replace (fun captured => captured.getD []) value

def displayDecimal : Option Text → Text
  | none => ['—']
  | some value => stripTrailingZeros value

def money : Option Text → Text
  | none => ['—']
  | some value => displayDecimal (some value) ++ [' ', '원']

/-- `text || "0"`. -/
def orZero (text : Text) : Text := if text = [] then ['0'] else text

/-- `const [whole, fraction = ""] = raw.split(".")`. -/
def splitPoint (raw : Text) : Text × Text :=
  match raw.splitOn '.' with
  | [] => ([], [])
  | [whole] => (whole, [])
  | whole :: fraction :: _ => (whole, fraction)

def isNegative (value : Text) : Bool := value.head? = some '-'

/-- `value.slice(1)` behind a sign. -/
def withoutSign (value : Text) : Text := if isNegative value then value.tail else value

def padStart (text : Text) (width : Nat) : Text :=
  List.replicate (width - text.length) '0' ++ text

def padEnd (text : Text) (width : Nat) : Text := text ++ List.replicate (width - text.length) '0'

def decimalTimes100 (value : Text) : Text :=
  let parts := splitPoint (withoutSign value)
  let fraction := parts.2
  let digits := orZero (leadingZeros.replace (fun _ => []) (parts.1 ++ fraction))
  let output :=
    if fraction.length ≤ 2 then digits ++ List.replicate (2 - fraction.length) '0'
    else
      let scale := fraction.length - 2
      orZero (digits.take (digits.length - scale)) ++ '.' ::
        padStart (digits.drop (digits.length - scale)) scale
  Numeral.signed (isNegative value) (displayDecimal (some output))

def percent : Option Text → Text
  | none => ['—']
  | some value => decimalTimes100 value ++ ['%']

/-! ## Comparison -/

structure Normalized where
  negative : Bool
  whole : Text
  fraction : Text
deriving DecidableEq, Repr

def normalize (value : Text) : Normalized :=
  let parts := splitPoint (withoutSign value)
  { negative := isNegative value
    whole := orZero ((Pattern.seq .start (.plus isZero)).replace (fun _ => []) parts.1)
    fraction := (Pattern.seq (.plus isZero) .finish).replace (fun _ => []) parts.2 }

/-- The digits of the whole part and of the fraction, filled up to `width`. -/
def Normalized.digits (n : Normalized) (width : Nat) : Text := n.whole ++ padEnd n.fraction width

def compareDecimal (a b : Text) : ℤ :=
  let left := normalize a
  let right := normalize b
  let direction := if left.negative then -1 else 1
  let width := max left.fraction.length right.fraction.length
  if left.negative ≠ right.negative then (if left.negative then -1 else 1)
  else if left.whole.length ≠ right.whole.length then
    if right.whole.length < left.whole.length then direction else -direction
  else if left.digits width = right.digits width then 0
  else if right.digits width < left.digits width then direction
  else -direction

end Screener.Frontend
