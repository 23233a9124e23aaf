import Screener.Lib.CivilDate
import Screener.Lib.Loop
import Screener.Lib.Upsert
import Screener.Market.DailyBars
import Mathlib.Data.List.Sort

/-!
# The stock universe

The provider's rows become instruments, those that are listed common shares of
the reviewed universe become the stock master, and the master is upserted into
the `stocks` table. The table keeps the rows that the master does not name.
-/

namespace Screener.Market

open Screener.Lib

/-- An exception by the name of its class and its text. -/
structure PyException where
  typeName : String
  message : String
deriving DecidableEq, Repr

def valueError (message : String) : PyException := ⟨"ValueError", message⟩

/-! ## The `stocks` table -/

/-- The columns of a stock beside its primary key. -/
structure Stock where
  name : String
  market : String
  exchange : Option String
  currency : String
  country : String
  securityType : Option String
  listingStatus : Option String
  isActive : Bool
deriving DecidableEq, Repr

abbrev StockTable := Dict Symbol Stock

/-- What screening asks of a stock. -/
def Stock.Eligible (stock : Stock) : Prop :=
  stock.isActive = true ∧ stock.market = "KOSPI" ∧ stock.listingStatus = some "listed" ∧
    stock.securityType = some "common_stock"

instance (stock : Stock) : Decidable stock.Eligible := by
  unfold Stock.Eligible; infer_instance

/-- `StockRepository.active`: the symbols that are synchronized, in order. -/
def StockTable.active (stocks : StockTable) : List Symbol :=
  (stocks.keysWhere (·.isActive)).insertionSort (· ≤ ·)

/-! ## Provider rows -/

/-- A value of a decoded JSON object; other values are given by their `str`. -/
inductive JsonValue where
  | null
  | bool (value : Bool)
  | text (value : String)
  | other (rendering : String)
deriving DecidableEq, Repr

def JsonValue.str : JsonValue → String
  | .null => "None"
  | .bool true => "True"
  | .bool false => "False"
  | .text value => value
  | .other rendering => rendering

abbrev ProviderRow := Dict String JsonValue

namespace ProviderRow

variable (row : ProviderRow)

def get (key : String) : JsonValue := (row.get? key).getD .null

/-- `str(row[key])`. -/
def required (key : String) : Except PyException String :=
  match row.get? key with
  | some value => .ok value.str
  | none => .error ⟨"KeyError", "'" ++ key ++ "'"⟩

/-- `_optional`. -/
def optional (key : String) : Option String :=
  match row.get key with
  | .null => none
  | value => some value.str

/-- `_optional_bool`. -/
def optionalBool (key : String) : Except PyException (Option Bool) :=
  match row.get key with
  | .null => .ok none
  | .bool value => .ok (some value)
  | _ => .error ⟨"TypeError", "expected boolean"⟩

/-- `_optional_date`. -/
def optionalDate (key : String) : Except PyException (Option Date) :=
  match row.get key with
  | .null | .text "" => .ok none
  | value => match CivilDate.fromisoformat? value.str with
    | some date => .ok (some date)
    | none => .error (valueError ("Invalid isoformat string: '" ++ value.str ++ "'"))

def isActiveCommonStock : Bool :=
  row.get "market" = .text "KOSPI" && row.get "securityType" = .text "STOCK" &&
    row.get "isCommonShare" = .bool true && row.get "status" = .text "ACTIVE"

end ProviderRow

structure InstrumentSnapshot where
  symbol : Symbol
  name : String
  market : String
  country : Option String
  currency : String
  securityType : Option String
  listingStatus : Option String
  exchange : Option String
  isCommonShare : Option Bool
  listDate : Option Date
  delistDate : Option Date
deriving DecidableEq, Repr

/-- `_instrument`. -/
def instrument (row : ProviderRow) : Except PyException InstrumentSnapshot := do
  let symbol ← row.required "symbol"
  let name ← row.required "name"
  let market ← row.required "market"
  let currency ← row.required "currency"
  let isCommonShare ← row.optionalBool "isCommonShare"
  let listDate ← row.optionalDate "listDate"
  let delistDate ← row.optionalDate "delistDate"
  return { symbol, name, market, currency, isCommonShare, listDate, delistDate
           country := some "KR"
           securityType := if row.isActiveCommonStock then some "common_stock"
             else row.optional "securityType"
           listingStatus := if row.isActiveCommonStock then some "listed"
             else row.optional "status"
           exchange := row.optional "exchange" }

/-! ## The stock master -/

/-- `_malformed`, for the exceptions that the adapter catches. -/
def malformed (e : PyException) : PyException :=
  if e.typeName ∈ ["KeyError", "TypeError", "ValidationError"] then
    ⟨"ProviderMalformedResponseError", "Malformed provider response"⟩
  else e

/-- `[items[offset : offset + size] for offset in range(0, len(items), size)]`. -/
def slices {α : Type} (size : Nat) (items : List α) : List (List α) :=
  (List.range ((items.length + size - 1) / size)).map fun i => (items.drop (i * size)).take size

def maxStockSymbols : Nat := 200

/-- What `stock_master` reads: the universe file and the provider's answer to each
batch of symbols. -/
structure MasterSource where
  kospiSymbols : Except PyException (List Symbol)
  rows : List Symbol → Except PyException (List ProviderRow)

def MasterSource.batch (source : MasterSource) (symbols : List Symbol) :
    Except PyException (List InstrumentSnapshot) :=
  source.rows symbols >>= fun rows => (rows.mapM instrument).mapError malformed

def InstrumentSnapshot.inMaster (item : InstrumentSnapshot) (requested : List Symbol) : Bool :=
  item.symbol ∈ requested && item.market = "KOSPI" && item.securityType = some "common_stock" &&
    item.isCommonShare = some true && item.listingStatus = some "listed"

def stockMaster (source : MasterSource) : Except PyException (List InstrumentSnapshot) := do
  let symbols ← source.kospiSymbols
  let batches ← (slices maxStockSymbols symbols).mapM source.batch
  return batches.flatten.filter (·.inMaster symbols)

/-! ## The upsert -/

/-- `x.country or "KR"`. -/
def InstrumentSnapshot.countryOrKr (item : InstrumentSnapshot) : String :=
  match item.country with
  | none | some "" => "KR"
  | some country => country

/-- The row that `StockRepository.upsert` makes of an instrument. -/
def InstrumentSnapshot.row (item : InstrumentSnapshot) : Symbol × Stock :=
  (item.symbol,
    { name := item.name
      market := item.market
      exchange := item.exchange
      currency := item.currency
      country := item.countryOrKr
      securityType := item.securityType
      listingStatus := item.listingStatus
      isActive := item.listingStatus ≠ some "delisted" ∧ item.listingStatus ≠ some "inactive" })

/-- The snapshots of `StockSyncService._sync`: a symbol may not be named twice. -/
def collectSnapshots (source : MasterSource) : Except PyException (List InstrumentSnapshot) := do
  let snapshots ← stockMaster source
  if (snapshots.map (·.symbol)).Nodup then return snapshots
  else .error (valueError "duplicate symbols in stock master")

end Screener.Market
