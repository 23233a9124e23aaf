import Screener.Lib.IsoDateTime
import Screener.Market.ProviderRequests
import Screener.Market.Sync

/-!
# Daily bars from pages

`TossMarketDataProvider.daily_bars` asks for pages of candles from the end of a range
backwards. Every page says where the next one starts; the bars of the range are collected
by date until a page reaches the start of the range or no page follows.
-/

namespace Screener.Market

open Screener.Lib

/-! ## Reading a candle -/

/-- `int` of a text: digits with single underscores between them, at most 4300 of them. -/
def intText (text : String) : Option ℤ :=
  let (negative, cs) := DecimalText.takeSign (DecimalText.strip text.toList)
  let parts := cs.splitOn '_'
  let digits := parts.flatten.map DecimalText.digit?
  if parts.any (· = []) || 4300 < digits.length then none
  else (digits.mapM id).map fun ds =>
    let n : ℤ := DecimalText.natOfDigits ds
    if negative then -n else n

/-- `_decimal`. -/
def decimalField (text : String) : Option ℚ :=
  match DecimalText.read text with
  | some (.finite value) => if 0 ≤ value then some value else none
  | _ => none

/-- `_integer`. -/
def integerField (text : String) : Option ℤ :=
  (intText text).bind fun n =>
    if 0 ≤ n ∧ DecimalText.read text = some (.finite n) then some n else none

/-- `_parse_datetime`: every `Z` is an offset of zero, and there must be an offset. -/
def parseDatetime (text : String) : Option Stamp :=
  (IsoDateTime.fromisoformat? (text.toList.flatMap fun c =>
    if c = 'Z' then "+00:00".toList else [c])).filter (·.offset.isSome)

/-- The texts of a candle; a key may be missing. -/
structure CandleRow where
  timestamp : Option String
  openPrice : Option String
  highPrice : Option String
  lowPrice : Option String
  closePrice : Option String
  volume : Option String
deriving DecidableEq, Repr

def CandleRow.stamp (row : CandleRow) : Option Stamp := row.timestamp.bind parseDatetime

/-- The validation of the domain model. -/
def dailyBar? (bar : DailyBarRecord) (source : String) (asOf : Instant) : Option DailyBar :=
  if h : bar.NonNegative ∧ bar.ValidOhlc then
    some { toDailyBarRecord := bar, source, asOf, nonNegative := h.1, validOhlc := h.2 }
  else none

/-- The bar of a candle; none where reading or validating it raises. -/
def CandleRow.bar (symbol : Symbol) (row : CandleRow) : Option DailyBar := do
  let stamp ← row.stamp
  let «open» ← row.openPrice.bind decimalField
  let high ← row.highPrice.bind decimalField
  let low ← row.lowPrice.bind decimalField
  let close ← row.closePrice.bind decimalField
  let volume ← row.volume.bind integerField
  dailyBar? ⟨symbol, stamp.date, «open», high, low, close, volume⟩ "toss" stamp.moment

/-! ## The loop -/

/-- The candles of a page and the text of `nextBefore`. -/
structure CandlePage where
  candles : List CandleRow
  nextBefore : Option String
deriving DecidableEq, Repr

/-- A missing or empty `nextBefore` ends the pages. -/
def CandlePage.next (page : CandlePage) : Option String := page.nextBefore.filter (· ≠ "")

/-- `date.today()` is taken to stay the same during a call; `seoulOffset` is the offset of
Seoul at the end of a day. -/
structure BarQuery where
  symbol : Symbol
  start : Date
  «end» : Date
  today : Date
  seoulOffset : Date → ℤ

def malformedPage : RequestExc :=
  .provider { errorClass := .malformedResponse, message := "Malformed provider response" }

def invalidRange : RequestExc :=
  .provider { errorClass := .validation, message := "Invalid candle date range" }

namespace BarQuery

variable (q : BarQuery)

/-- The end of the last day in Seoul. -/
def firstCursor : String :=
  CivilDate.isoformat q.end ++ "T23:59:59.999999" ++ IsoDateTime.isoOffset (q.seoulOffset q.end)

def InRange (date : Date) : Prop := q.start ≤ date ∧ date ≤ q.end ∧ date ≤ q.today

instance (date : Date) : Decidable (q.InRange date) := by unfold InRange; infer_instance

/-- One row: a second bar of a date must be the first one again. -/
def collectRow (byDate : Dict Date DailyBar) (row : CandleRow) :
    Except RequestExc (Dict Date DailyBar) :=
  match row.bar q.symbol with
  | none => .error malformedPage
  | some bar =>
    if q.InRange bar.tradingDate then
      if (byDate.get? bar.tradingDate).any (· ≠ bar) then .error malformedPage
      else .ok (byDate.set bar.tradingDate bar)
    else .ok byDate

/-- The oldest date of a page is the first of the range or before it. -/
def reachedStart (candles : List CandleRow) : Bool :=
  ((candles.filterMap CandleRow.stamp).map Stamp.date).min?.any (· ≤ q.start)

/-- `[by_date[value] for value in sorted(by_date)]`. -/
def ordered (byDate : Dict Date DailyBar) : List DailyBar :=
  (byDate.keys.insertionSort (· ≤ ·)).filterMap byDate.get?

structure PageState where
  before : String
  cursors : List String
  byDate : Dict Date DailyBar

def PageState.first (cursor : String) : PageState := ⟨cursor, [], Dict.empty⟩

/-- One pass of `while before is not None`; `respond` answers the requests. -/
def pageStep (respond : Nat → String → Except RequestExc CandlePage) (n : Nat) (s : PageState) :
    PageState ⊕ Except RequestExc (List DailyBar) :=
  if s.before ∈ s.cursors then .inr (.error malformedPage)
  else match respond n s.before with
    | .error exc => .inr (.error exc)
    | .ok page =>
      match page.candles.foldlM q.collectRow s.byDate with
      | .error exc => .inr (.error exc)
      | .ok byDate =>
        if q.reachedStart page.candles then .inr (.ok (ordered byDate))
        else match page.next with
          | none => .inr (.ok (ordered byDate))
          | some cursor => .inl ⟨cursor, s.before :: s.cursors, byDate⟩

/-- `daily_bars` with at most `fuel` requests. -/
def dailyBars (respond : Nat → String → Except RequestExc CandlePage) (fuel : Nat) :
    Option (Except RequestExc (List DailyBar)) :=
  if q.end < q.start then some (.error invalidRange)
  else drive (q.pageStep respond) fuel 0 (.first q.firstCursor)

end BarQuery

/-- A provider that answers with some pages, whatever it is asked for. -/
def servedPages (pages : Nat → CandlePage) (n : Nat) (_ : String) : Except RequestExc CandlePage :=
  .ok (pages n)

end Screener.Market
