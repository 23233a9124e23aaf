import Screener.Frontend.ScreenerFormat
import Screener.Lib.Machine
import Screener.Lib.SearchParams
import Mathlib.Data.List.Infix
import Mathlib.Data.List.Sort

/-!
# The filters of the screener and its address

The date, the filters and the order of the screener are kept in the address of the page: an
effect writes each of them when it has changed, and the page is restored from the address when it
is opened or the browser goes back.
-/

namespace Screener.Frontend

open Screener.Lib

/-! ## The list -/

/-- An amount as the API writes it: a decimal without a sign. -/
structure Amount extends Numeral where
  nonNegative : negative = false

structure Candidate where
  rank : ℤ
  symbol : String
  totalScore : Amount
  matchedSetups : Option (List String)
  averageTradingValue20 : Option Amount
  warnings : List String

/-- The states of the page that its address keeps. The order is any text that the address had, or
an option of the select; it is never empty. -/
structure ScreenerQuery where
  date : String
  setup : String
  q : String
  minScore : String
  minValue : String
  warningFree : Bool
  sort : String
  sorted : sort ≠ ""

/-- `!limit || limit === "0" || compareDecimalStrings(value, limit) >= 0`. -/
def atLeast (limit : String) (value : Text) : Bool :=
  limit = "" ∨ limit = "0" ∨ 0 ≤ compareDecimalStrings value limit.toList

/-- `item.average_trading_value_20 ?? "0"`. -/
def Candidate.tradingText (item : Candidate) : Text :=
  match item.averageTradingValue20 with
  | some amount => amount.text
  | none => ['0']

/-- The filter of `shown`. -/
def ScreenerQuery.meets (s : ScreenerQuery) (item : Candidate) : Bool :=
  (s.setup = "" ∨ s.setup ∈ item.matchedSetups.getD []) ∧
    (s.q = "" ∨ s.q.toList <:+: item.symbol.toList) ∧
    atLeast s.minScore item.totalScore.text ∧ atLeast s.minValue item.tradingText ∧
    (s.warningFree = false ∨ item.warnings = [])

/-- The comparison of `shown`; `collate` is the `localeCompare` of the browser. -/
def ScreenerQuery.compare (collate : String → String → ℤ) (s : ScreenerQuery)
    (a b : Candidate) : ℤ :=
  if s.sort = "rank" then a.rank - b.rank
  else if s.sort = "score" then compareDecimalStrings b.totalScore.text a.totalScore.text
  else if s.sort = "value" then compareDecimalStrings b.tradingText a.tradingText
  else collate a.symbol b.symbol

/-- `shown`; the sort of the language is stable. -/
def ScreenerQuery.shown (collate : String → String → ℤ) (s : ScreenerQuery)
    (items : List Candidate) : List Candidate :=
  (items.filter s.meets).insertionSort fun a b => s.compare collate a b ≤ 0

/-! ## The address -/

def setQuery (query : SearchParams) (key value defaultValue : String) : SearchParams :=
  if value = "" ∨ value = defaultValue then query.delete key else query.set key value

/-- A state that the address keeps: its key, its default, and how it is read back. -/
structure QueryField where
  key : String
  defaultValue : String := ""
  read : Option String → String := fun value => value.getD ""

namespace QueryField

def date : QueryField := { key := "date" }
def setup : QueryField := { key := "setup" }
def q : QueryField := { key := "q" }
def minScore : QueryField := { key := "minScore", defaultValue := "0" }
def minValue : QueryField := { key := "minValue", defaultValue := "0" }

/-- `query.get("warningFree") === "1"`, as the text that its effect writes. -/
def warningFree : QueryField :=
  { key := "warningFree", read := fun value => if value = some "1" then "1" else "" }

/-- `query.get("sort") || "rank"`. -/
def sort : QueryField :=
  { key := "sort", defaultValue := "rank",
    read := fun value => if value.getD "" = "" then "rank" else value.getD "" }

end QueryField

namespace ScreenerQuery

/-- The effects in their order, with the values that they write. -/
def effects (s : ScreenerQuery) : List (QueryField × String) :=
  [(.date, s.date), (.setup, s.setup), (.q, s.q), (.minScore, s.minScore), (.minValue, s.minValue),
    (.warningFree, if s.warningFree then "1" else ""), (.sort, s.sort)]

theorem sort_read_ne_empty (value : Option String) : QueryField.sort.read value ≠ "" := by
  show (if value.getD "" = "" then "rank" else value.getD "") ≠ ""
  split_ifs with h
  · decide
  · exact h

/-- `restore`, and the states that the page starts with. -/
def restore (query : SearchParams) : ScreenerQuery where
  date := QueryField.date.read (query.get "date")
  setup := QueryField.setup.read (query.get "setup")
  q := QueryField.q.read (query.get "q")
  minScore := QueryField.minScore.read (query.get "minScore")
  minValue := QueryField.minValue.read (query.get "minValue")
  warningFree := query.get "warningFree" = some "1"
  sort := QueryField.sort.read (query.get "sort")
  sorted := sort_read_ne_empty _

end ScreenerQuery

/-- One effect; `old` is the value of the last render, which the first one has not. -/
def writeField (query : SearchParams) (field : QueryField) (old : Option String) (value : String) :
    SearchParams :=
  if old = some value then query else setQuery query field.key value field.defaultValue

def writeFields (query : SearchParams) (fields : List (QueryField × Option String × String)) :
    SearchParams :=
  fields.foldl (fun query field => writeField query field.1 field.2.1 field.2.2) query

/-- The page with its address. -/
structure ScreenerAddress where
  page : ScreenerQuery
  query : SearchParams

inductive AddressEvent where
  /-- The page sets any of its states: a filter, the date, or all filters at once. -/
  | change (page : ScreenerQuery)
  /-- The browser goes to another entry of its history, at this address. -/
  | popstate (query : SearchParams)

namespace ScreenerAddress

/-- The effects of a render in which `page` takes the place of `old`. -/
def rendered (old page : ScreenerQuery) (query : SearchParams) : ScreenerAddress :=
  ⟨page, writeFields query ((old.effects.zip page.effects).map fun field =>
    (field.2.1, some field.1.2, field.2.2))⟩

def opened (query : SearchParams) : ScreenerAddress :=
  let page := ScreenerQuery.restore query
  ⟨page, writeFields query (page.effects.map fun field => (field.1, none, field.2))⟩

def next (s : ScreenerAddress) : AddressEvent → ScreenerAddress
  | .change page => rendered s.page page s.query
  | .popstate query => rendered s.page (.restore query) query

def machine : Machine ScreenerAddress AddressEvent where
  init s := ∃ query, s = opened query
  step s event t := t = s.next event

end ScreenerAddress

end Screener.Frontend
