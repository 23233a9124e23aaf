import Mathlib.Algebra.BigOperators.Group.List.Basic
import Mathlib.Data.String.Basic
import Mathlib.Logic.Function.Basic
import Screener.Lib.DecimalText
import Screener.Lib.Pattern
import Screener.Market.Stocks

/-!
# The universe of KOSPI companies

`build_universe`: the rows of KOSPI in a normalized table of the exchange, one for each
symbol, less those that an exclusion rule matches.
-/

namespace Screener.Market

open Screener.Lib

/-! ## The table -/

/-- A header and rows of its width. -/
structure KrxTable where
  fieldnames : List String
  rows : List (List String)
  widths : ∀ row ∈ rows, row.length = fieldnames.length

def requiredColumns : List String := ["회사명", "시장구분", "종목코드", "업종", "주요제품"]

/-- `dict(zip(fieldnames, row))[column]`, for a column that there is. -/
def cell (fieldnames row : List String) (column : String) : String :=
  ((fieldnames.zip row).reverse.lookup column).getD ""

/-- The cells of a row that are read. -/
structure KrxRow where
  name : String
  market : String
  code : String
  industry : String
  products : String
deriving DecidableEq, Repr

def KrxTable.record (fieldnames row : List String) : KrxRow where
  name := cell fieldnames row "회사명"
  market := cell fieldnames row "시장구분"
  code := cell fieldnames row "종목코드"
  industry := cell fieldnames row "업종"
  products := cell fieldnames row "주요제품"

def KrxTable.records (table : KrxTable) : List KrxRow :=
  table.rows.map (KrxTable.record table.fieldnames)

/-! ## Symbols -/

def strip (s : String) : String := String.ofList (DecimalText.strip s.toList)

/-- The upper case of a character, if it is of letters from A to Z. -/
def upperChar (c : Char) : List Char :=
  if 'a' ≤ c ∧ c ≤ 'z' then [c.toUpper]
  else match c with
    | 'ı' => ['I']
    | 'ſ' => ['S']
    | 'ß' => ['S', 'S']
    | 'ﬀ' => ['F', 'F']
    | 'ﬁ' => ['F', 'I']
    | 'ﬂ' => ['F', 'L']
    | 'ﬃ' => ['F', 'F', 'I']
    | 'ﬄ' => ['F', 'F', 'L']
    | 'ﬅ' => ['S', 'T']
    | 'ﬆ' => ['S', 'T']
    | c => [c]

/-- `upper()`. No other character becomes one of a symbol, so it may stay as it is. -/
def upper (s : String) : String := String.ofList (s.toList.flatMap upperChar)

def isAsciiDigit (c : Char) : Bool := '0' ≤ c && c ≤ '9'

/-- `SYMBOL_PATTERN.fullmatch(symbol)`. -/
def symbolPattern (symbol : Symbol) : Bool :=
  symbol.toList.length == 6 && symbol.toList.all fun c => isAsciiDigit c || ('A' ≤ c && c ≤ 'Z')

/-- `symbol.isdigit()`, for a symbol of the pattern. -/
def isDigits (symbol : Symbol) : Bool := symbol.toList.all isAsciiDigit

namespace KrxRow

def symbol (row : KrxRow) : Symbol := upper (strip row.code)

def isKospi (row : KrxRow) : Bool := ["유가", "KOSPI", "STK"].contains (strip row.market)

/-- What two rows of one symbol have to agree on. -/
def identity (row : KrxRow) : String × String := (strip row.name, strip row.market)

end KrxRow

/-! ## Exclusion -/

inductive ExclusionCategory where
  | reitOrRealEstateInvestmentCompany
  | infrastructureFund
  | etf
  | etn
  | preferredShare
  | warrant
  | spac
  | delisted
  | collectiveInvestmentOrFundLike
deriving DecidableEq, Repr

def ExclusionCategory.all : List ExclusionCategory :=
  [.reitOrRealEstateInvestmentCompany, .infrastructureFund, .etf, .etn, .preferredShare, .warrant,
    .spac, .delisted, .collectiveInvestmentOrFundLike]

section Patterns

open Pattern

def oneOf (texts : List String) : Pattern :=
  (texts.map fun text => literal text.toList).foldr alt (one fun _ => false)

/-- A word between spaces or the ends of the text. -/
def word (p : Pattern) : Pattern :=
  seq (alt start (one DecimalText.isSpace)) (seq p (alt finish (one DecimalText.isSpace)))

def preferred : Pattern :=
  seq (alt (oneOf ["우", "우B", "우C"]) (seq (one fun c => '1' ≤ c && c ≤ '9') (one (· == '우'))))
    finish

def spacPattern : Pattern := oneOf ["스팩", "기업인수목적"]

def reit : Pattern := oneOf ["리츠"]

def warrantPattern : Pattern := oneOf ["워런트", "신주인수권"]

def etfPattern : Pattern :=
  alt (word (seq (anyCase 'E') (seq (anyCase 'T') (anyCase 'F')))) (oneOf ["상장지수펀드"])

def etnPattern : Pattern :=
  alt (word (seq (anyCase 'E') (seq (anyCase 'T') (anyCase 'N')))) (oneOf ["상장지수증권"])

def delistedPattern : Pattern := oneOf ["상장폐지", "폐지종목"]

def infrastructure : Pattern := oneOf ["인프라"]

def fundLike : Pattern := oneOf ["맵스리얼티", "증권투자회사", "집합투자"]

def found (p : Pattern) (text : String) : Bool := p.search text.toList

end Patterns

namespace KrxRow

/-- The category, its pattern and the text that is searched. -/
def rules (row : KrxRow) : List (ExclusionCategory × Pattern × String) :=
  let name := strip row.name
  let text := name ++ " " ++ row.industry ++ " " ++ row.products
  [(.etf, etfPattern, text), (.etn, etnPattern, text), (.preferredShare, preferred, name),
    (.warrant, warrantPattern, text), (.spac, spacPattern, text),
      (.delisted, delistedPattern, text),
    (.collectiveInvestmentOrFundLike, fundLike, name ++ " " ++ row.products)]

def isReit (row : KrxRow) : Bool :=
  (found reit (strip row.name) &&
      ["신탁업 및 집합투자업", "부동산 임대 및 공급업"].contains row.industry) ||
    found (oneOf ["부동산투자회사"]) row.products

end KrxRow

/-- `exclusion_category`: the first rule that matches. -/
def exclusionCategory (row : KrxRow) : Option ExclusionCategory :=
  if row.isReit then some .reitOrRealEstateInvestmentCompany
  else if found infrastructure (strip row.name) then some .infrastructureFund
  else (row.rules.find? fun rule => found rule.2.1 rule.2.2).map (·.1)

/-! ## The build -/

structure BuildResult where
  symbols : List Symbol
  sourceRows : Nat
  kospiRows : Nat
  uniqueSymbols : Nat
  duplicateRows : Nat
  alphanumericSymbols : Nat
  malformedSymbols : Nat
  exclusions : ExclusionCategory → Nat

/-- The state of the first loop. -/
structure Intake where
  bySymbol : Dict Symbol KrxRow := Dict.empty
  duplicates : Nat := 0
  malformed : Nat := 0
  alphanumeric : Nat := 0

def addRow (s : Intake) (row : KrxRow) : Except PyException Intake :=
  if !symbolPattern row.symbol then .ok { s with malformed := s.malformed + 1 }
  else
    let alphanumeric := if isDigits row.symbol then s.alphanumeric else s.alphanumeric + 1
    match s.bySymbol.get? row.symbol with
    | some previous =>
      if previous.identity ≠ row.identity then
        .error (valueError ("conflicting duplicate symbol: " ++ row.symbol))
      else .ok { s with duplicates := s.duplicates + 1, alphanumeric }
    | none => .ok { s with bySymbol := s.bySymbol.set row.symbol row, alphanumeric }

/-- The state of the second loop. -/
structure Sifted where
  symbols : List Symbol := []
  exclusions : ExclusionCategory → Nat := fun _ => 0

def classify (s : Sifted) (entry : Symbol × KrxRow) : Sifted :=
  match exclusionCategory entry.2 with
  | none => { s with symbols := s.symbols ++ [entry.1] }
  | some category =>
    { s with exclusions := Function.update s.exclusions category (s.exclusions category + 1) }

def buildUniverse (table : KrxTable) : Except PyException BuildResult :=
  if requiredColumns.any fun column => !table.fieldnames.contains column then
    .error (valueError "normalized KRX CSV is missing required columns")
  else do
    let rows := table.records
    let kospi := rows.filter (·.isKospi)
    let intake ← kospi.foldlM addRow {}
    let classified := intake.bySymbol.entries.foldl classify {}
    pure {
      symbols := classified.symbols.insertionSort (· ≤ ·)
      sourceRows := rows.length
      kospiRows := kospi.length
      uniqueSymbols := intake.bySymbol.size
      duplicateRows := intake.duplicates
      alphanumericSymbols := intake.alphanumeric
      malformedSymbols := intake.malformed
      exclusions := classified.exclusions }

end Screener.Market
