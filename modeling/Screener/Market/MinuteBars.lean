import Screener.Lib.Grouping
import Screener.Lib.Loop
import Screener.Lib.Stamp
import Screener.Market.Stocks

/-!
# Minute bars

`aggregate_minute_bars`: the bars of an instrument are put into buckets of some minutes by
their time in Seoul, whose offset is taken to be nine hours. Every hour starts with a new
bucket. Each bucket becomes one bar, which has to pass the validation of the model.
-/

namespace Screener.Market

open Screener.Lib

/-! ## Bars -/

structure MinuteBarValues where
  symbol : Symbol
  timestamp : Stamp
  «open» : ℚ
  high : ℚ
  low : ℚ
  close : ℚ
  volume : ℤ
  currency : String
  source : String
  asOf : Stamp
deriving DecidableEq, Repr

namespace MinuteBarValues

def NonNegative (v : MinuteBarValues) : Prop :=
  0 ≤ v.open ∧ 0 ≤ v.high ∧ 0 ≤ v.low ∧ 0 ≤ v.close ∧ 0 ≤ v.volume

/-- Both datetimes have an offset. -/
def Aware (v : MinuteBarValues) : Prop := v.timestamp.offset.isSome ∧ v.asOf.offset.isSome

def HighCovers (v : MinuteBarValues) : Prop := max v.open (max v.close v.low) ≤ v.high

def LowCovers (v : MinuteBarValues) : Prop := v.low ≤ min v.open (min v.close v.high)

instance (v : MinuteBarValues) : Decidable v.NonNegative := by unfold NonNegative; infer_instance
instance (v : MinuteBarValues) : Decidable v.Aware := by unfold Aware; infer_instance
instance (v : MinuteBarValues) : Decidable v.HighCovers := by unfold HighCovers; infer_instance
instance (v : MinuteBarValues) : Decidable v.LowCovers := by unfold LowCovers; infer_instance

end MinuteBarValues

/-- A bar that exists has passed the validation. -/
structure MinuteBar extends MinuteBarValues where
  nonNegative : toMinuteBarValues.NonNegative
  aware : toMinuteBarValues.Aware
  highCovers : toMinuteBarValues.HighCovers
  lowCovers : toMinuteBarValues.LowCovers
deriving DecidableEq

def validationError (message : String) : PyException := ⟨"ValidationError", message⟩

/-- `MinuteBar(...)`: the fields and then `valid_minute_bar`. -/
def MinuteBarValues.create (v : MinuteBarValues) : Except PyException MinuteBar :=
  if hnonneg : v.NonNegative then
    if haware : v.Aware then
      if hhigh : v.HighCovers then
        if hlow : v.LowCovers then .ok ⟨v, hnonneg, haware, hhigh, hlow⟩
        else .error (validationError "low is inconsistent with OHLC values")
      else .error (validationError "high is inconsistent with OHLC values")
    else .error (validationError "minute bar timestamps must be timezone-aware")
  else .error (validationError "Input should be greater than or equal to 0")

/-! ## Buckets -/

def minuteLength : ℤ := 60000000

def hourLength : ℤ := 60 * minuteLength

/-- The offset of Seoul. -/
def kst : ℤ := 9 * hourLength

/-- The moment is a datetime in UTC and in Seoul. -/
def InKst (s : Stamp) : Prop := Stamp.InYears s.moment ∧ Stamp.InYears (s.moment + kst)

instance (s : Stamp) : Decidable (InKst s) := by unfold InKst; infer_instance

def overflowError : PyException := ⟨"OverflowError", "date value out of range"⟩

/-- The same moment by the clock of Seoul. -/
def localTime (s : Stamp) : Stamp := ⟨s.moment + kst, some kst⟩

/-- `timestamp.astimezone(KST)`, by way of UTC. -/
def astimezone (s : Stamp) : Except PyException Stamp :=
  if InKst s then .ok (localTime s) else .error overflowError

/-- `local.replace(minute=(local.minute // minutes) * minutes, second=0, microsecond=0)`. -/
def bucketStart (minutes : ℤ) (time : Stamp) : Stamp :=
  let minute := time.wall % hourLength / minuteLength
  { time with wall := time.wall - time.wall % hourLength +
    minute / minutes * minutes * minuteLength }

def addToBucket (minutes : ℤ) (groups : Dict Stamp (List MinuteBar)) (bar : MinuteBar) :
    Except PyException (Dict Stamp (List MinuteBar)) := do
  let time ← astimezone bar.timestamp
  let bucket := bucketStart minutes time
  pure (groups.set bucket (groups.getD bucket [] ++ [bar]))

/-! ## Aggregation -/

/-- `max` of datetimes, by their moments: the first of the latest ones. -/
def latest (first : Stamp) (rest : List Stamp) : Stamp :=
  rest.foldl (fun best s => if best.moment < s.moment then s else best) first

/-- The values of the bar of a bucket. -/
def bucketValues (bucket : Stamp) (first : MinuteBar) (rest : List MinuteBar) :
    MinuteBarValues where
  symbol := first.symbol
  timestamp := bucket
  «open» := first.open
  high := (rest.map (·.high)).foldl max first.high
  low := (rest.map (·.low)).foldl min first.low
  close := ((first :: rest).getLast (List.cons_ne_nil first rest)).close
  volume := ((first :: rest).map (·.volume)).sum
  currency := first.currency
  source := first.source
  asOf := latest first.asOf (rest.map (·.asOf))

def mixedError : PyException := valueError "minute bars cannot mix symbols or currencies"

/-- The bar of a bucket. -/
def aggregateBucket (group : Stamp × List MinuteBar) : Except PyException MinuteBar :=
  let currencies := (group.2.map (·.currency)).dedup
  let symbols := (group.2.map (·.symbol)).dedup
  match group.2 with
  | [] => .error mixedError
  | first :: rest =>
    if currencies.length ≠ 1 ∨ symbols.length ≠ 1 then .error mixedError
    else (bucketValues group.1 first rest).create

def byTimestamp (bars : List MinuteBar) : List MinuteBar :=
  bars.insertionSort fun a b => a.timestamp.moment ≤ b.timestamp.moment

/-- `sorted(groups.items())`: the buckets are distinct datetimes of one offset. -/
def byBucket (groups : List (Stamp × List MinuteBar)) : List (Stamp × List MinuteBar) :=
  groups.insertionSort fun a b => a.1.moment ≤ b.1.moment

def aggregateMinuteBars (bars : List MinuteBar) (minutes : ℤ) :
    Except PyException (List MinuteBar) :=
  if minutes ≤ 0 then .error (valueError "minutes must be positive")
  else if minutes = 1 then .ok bars
  else do
    let groups ← (byTimestamp bars).foldlM (addToBucket minutes) Dict.empty
    (byBucket groups.entries).mapM aggregateBucket

/-- The frames of `analyze_realtime`. -/
structure RealtimeFrames where
  oneMinute : List MinuteBar
  fiveMinutes : List MinuteBar
  tenMinutes : List MinuteBar

def realtimeFrames (bars : List MinuteBar) : Except PyException RealtimeFrames := do
  let oneMinute ← aggregateMinuteBars bars 1
  let fiveMinutes ← aggregateMinuteBars bars 5
  let tenMinutes ← aggregateMinuteBars bars 10
  pure ⟨oneMinute, fiveMinutes, tenMinutes⟩

end Screener.Market
