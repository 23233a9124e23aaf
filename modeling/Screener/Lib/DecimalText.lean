import Mathlib.Data.Rat.Defs
import Mathlib.Algebra.Field.Rat

/-!
# Reading a decimal number from a text

The grammar of numeric strings that an arbitrary-precision decimal constructor
accepts: surrounding white space and underscores are dropped, digits may be
those of any script, the letters of `inf`, `nan` and the exponent are
case-insensitive. The value is exact; the exponent must stay in the range of
the widest decimal context, else nothing is read.
-/

namespace Screener.Lib

/-- A decimal value; the payload and the sign of a NaN carry no information here. -/
inductive Dec where
  | finite (value : ℚ)
  | infinite (negative : Bool)
  | nan
deriving DecidableEq, Repr

namespace DecimalText

/-- The zero of each block of ten decimal digits. -/
def zeroDigits : List Nat :=
  [48, 1632, 1776, 1984, 2406, 2534, 2662, 2790, 2918, 3046, 3174, 3302, 3430, 3558, 3664, 3792,
   3872, 4160, 4240, 6112, 6160, 6470, 6608, 6784, 6800, 6992, 7088, 7232, 7248, 42528, 43216,
   43264, 43472, 43504, 43600, 44016, 65296, 66720, 68912, 69734, 69872, 69942, 70096, 70384,
   70736, 70864, 71248, 71360, 71472, 71904, 72016, 72784, 73040, 73120, 73552, 92768, 92864,
   93008, 120782, 120792, 120802, 120812, 120822, 123200, 123632, 124144, 125264, 130032]

def digit? (c : Char) : Option Nat :=
  (zeroDigits.find? fun z => z ≤ c.toNat ∧ c.toNat ≤ z + 9).map (c.toNat - ·)

def isSpace (c : Char) : Bool :=
  let n := c.toNat
  (9 ≤ n && n ≤ 13) || (28 ≤ n && n ≤ 32) || n == 133 || n == 160 || n == 5760 ||
    (8192 ≤ n && n ≤ 8202) || n == 8232 || n == 8233 || n == 8239 || n == 8287 || n == 12288

def strip (cs : List Char) : List Char :=
  ((cs.dropWhile isSpace).reverse.dropWhile isSpace).reverse

/-- The longest prefix of digits, with what follows it. -/
def takeDigits : List Char → List Nat × List Char
  | [] => ([], [])
  | c :: cs =>
    match digit? c with
    | none => ([], c :: cs)
    | some d => let (ds, rest) := takeDigits cs; (d :: ds, rest)

def natOfDigits (ds : List Nat) : Nat := ds.foldl (fun n d => 10 * n + d) 0

def takeSign : List Char → Bool × List Char
  | '-' :: cs => (true, cs)
  | '+' :: cs => (false, cs)
  | cs => (false, cs)

/-- The text after the mantissa: nothing, or an exponent with at least one digit. -/
def exponent? : List Char → Option ℤ
  | [] => some 0
  | c :: cs =>
    if c.toLower ≠ 'e' then none else
      let (negative, cs) := takeSign cs
      match takeDigits cs with
      | (d :: ds, []) =>
        let n : ℤ := natOfDigits (d :: ds)
        some (if negative then -n else n)
      | _ => none

def maximumExponent : ℤ := 999999999999999999

def minimumExponent : ℤ := -1999999999999999997

def numeral? (negative : Bool) (cs : List Char) : Option Dec :=
  let (whole, cs) := takeDigits cs
  let (fraction, cs) := match cs with
    | '.' :: cs => takeDigits cs
    | cs => ([], cs)
  if whole ++ fraction = [] then none else
    match exponent? cs with
    | none => none
    | some e =>
      let coefficient := natOfDigits (whole ++ fraction)
      let scale := e - fraction.length
      let adjusted := scale + ((whole ++ fraction).dropWhile (· = 0)).length - 1
      if scale < minimumExponent ∨ maximumExponent < max scale adjusted then none
      else some (.finite ((if negative then -1 else 1) * coefficient * (10 : ℚ) ^ scale))

def special? (negative : Bool) (cs : List Char) : Option Dec :=
  let lower := cs.map Char.toLower
  if lower = ['i', 'n', 'f'] ∨ lower = ['i', 'n', 'f', 'i', 'n', 'i', 't', 'y'] then
    some (.infinite negative)
  else match lower with
    | 'n' :: 'a' :: 'n' :: digits => if (takeDigits digits).2 = [] then some .nan else none
    | 's' :: 'n' :: 'a' :: 'n' :: digits => if (takeDigits digits).2 = [] then some .nan else none
    | _ => none

/-- The value of a numeric string, `none` where the constructor rejects it. -/
def read (s : String) : Option Dec :=
  let (negative, cs) := takeSign ((strip s.toList).filter (· ≠ '_'))
  (special? negative cs).orElse fun _ => numeral? negative cs

end DecimalText

example : DecimalText.read " 0.2_5 " = some (.finite (1 / 4)) := by decide +kernel
example : DecimalText.read "-1E-3" = some (.finite (-1 / 1000)) := by decide +kernel
example : DecimalText.read "12abc" = none := by decide +kernel

end Screener.Lib
