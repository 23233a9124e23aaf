import Screener.Lib.Grouping
import Screener.Market.MinuteBars
import Screener.Market.Ranking
import Screener.Market.Sync

/-!
# Analysis at request time

`analyze_realtime`: the minute bars of an instrument in three frames and its daily bars are
summed up beside the current price, and the levels of the summaries that are nearest to the
price are its supports and resistances. Decimal arithmetic is exact, apart from the
quantizations the source writes; these raise where the result has too many digits.
-/

namespace Screener.Market

open Screener.Lib

/-! ## Quotes and warnings -/

/-- A quote as the provider reads it: its datetime has an offset. -/
structure QuoteSnapshot where
  symbol : Symbol
  price : ℚ
  asOf : Stamp
  delayed : Option Bool
  nonNegative : 0 ≤ price
  aware : asOf.offset.isSome
deriving DecidableEq

structure StockWarning where
  warningType : String
  active : Bool
  description : Option String
deriving DecidableEq, Repr

inductive Timeframe where
  | oneMinute
  | fiveMinutes
  | tenMinutes
deriving DecidableEq, Repr

def Timeframe.name : Timeframe → String
  | .oneMinute => "1m"
  | .fiveMinutes => "5m"
  | .tenMinutes => "10m"

inductive Trend where
  | bullish
  | pullback
  | neutral
  | bearish
  | insufficient
deriving DecidableEq, Repr

/-! ## Figures -/

def invalidOperation : PyException :=
  ⟨"InvalidOperation", "[<class 'decimal.InvalidOperation'>]"⟩

/-- `value.quantize(..., rounding=ROUND_HALF_UP)`, whose result has at most 28 digits. -/
def quantizeHalfUp (places : Nat) (value : ℚ) : Except PyException ℚ :=
  if |roundHalfUp (value * 10 ^ places)| < 10 ^ 28 then .ok (quantizeWith roundHalfUp places value)
  else .error invalidOperation

/-- `_ratio`. -/
def ratio (value base : ℚ) : Except PyException (Option ℚ) :=
  if base ≤ 0 then .ok none else (quantizeHalfUp 4 ((value - base) / base)).map some

/-- `_ratio(value, base) if base is not None else None`. -/
def ratioTo (value : ℚ) : Option ℚ → Except PyException (Option ℚ)
  | none => .ok none
  | some base => ratio value base

/-- `_mean`. -/
def mean (values : List ℚ) : Option ℚ :=
  if values = [] then none else some (values.sum / values.length)

/-- `_vwap`. -/
def vwap (bars : List MinuteBar) : Option ℚ :=
  let totalVolume := (bars.map (·.volume)).sum
  if totalVolume ≤ 0 then none
  else
    let weighted := (bars.map fun bar =>
      (bar.high + bar.low + bar.close) / 3 * (bar.volume : ℚ)).sum
    some (weighted / totalVolume)

/-- `xs[-n - 1 : -1]`: at most `n` elements before the latest. -/
def beforeLast {α : Type} (n : Nat) (xs : List α) : List α := (trailing (n + 1) xs).dropLast

/-- `xs[-n]`. -/
def fromEnd? {α : Type} (n : Nat) (xs : List α) : Option α :=
  if n ≤ xs.length then xs[xs.length - n]? else none

/-! ## The summary of a frame -/

structure IntradayTechnicalSummary where
  timeframe : Timeframe
  trend : Trend
  candleCount : Nat
  sessionOpen : Option ℚ
  sessionHigh : Option ℚ
  sessionLow : Option ℚ
  changeFromOpenPct : Option ℚ
  sma5 : Option ℚ
  sma20 : Option ℚ
  vwap : Option ℚ
  momentum5Pct : Option ℚ
  latestVolumeRatio : Option ℚ
  recentHigh20 : Option ℚ
  recentLow20 : Option ℚ
deriving DecidableEq, Repr

def IntradayTechnicalSummary.empty (timeframe : Timeframe) : IntradayTechnicalSummary where
  timeframe := timeframe
  trend := .insufficient
  candleCount := 0
  sessionOpen := none
  sessionHigh := none
  sessionLow := none
  changeFromOpenPct := none
  sma5 := none
  sma20 := none
  vwap := none
  momentum5Pct := none
  latestVolumeRatio := none
  recentHigh20 := none
  recentLow20 := none

/-- `timestamp.astimezone(KST).date()`. -/
def kstDate (s : Stamp) : Except PyException Date := (astimezone s).map Stamp.date

/-- The bars of the date of the last bar. -/
def sessionOf (bars : List MinuteBar) : Except PyException (List MinuteBar) :=
  match bars.getLast? with
  | none => .ok []
  | some last => do
    let latestDate ← kstDate last.timestamp
    let dates ← bars.mapM fun bar => kstDate bar.timestamp
    return ((bars.zip dates).filter fun entry => entry.2 = latestDate).map Prod.fst

/-- The trend of a frame beside the current price. -/
def intradayTrend (price : ℚ) (sma5 sma20 sessionVwap : Option ℚ) : Trend :=
  match sma5, sma20 with
  | some five, some twenty =>
    if five ≤ price ∧ twenty ≤ five ∧ sessionVwap.all (· ≤ price) then .bullish
    else if price ≤ five ∧ five ≤ twenty ∧ sessionVwap.all (price ≤ ·) then .bearish
    else .neutral
  | none, some _ => .neutral
  | _, none => .insufficient

/-- The volume of the last bar beside the average of at most twenty before it. -/
def volumeRatio (bars : List MinuteBar) : Option ℚ :=
  match mean ((beforeLast 20 bars).map fun bar => (bar.volume : ℚ)), bars.getLast? with
  | some average, some last => if 0 < average then some (last.volume / average) else none
  | _, _ => none

/-- `_intraday_summary`. -/
def intradaySummary (timeframe : Timeframe) (bars : List MinuteBar) (price : ℚ) :
    Except PyException IntradayTechnicalSummary :=
  if bars = [] then .ok (.empty timeframe)
  else do
    let session ← sessionOf bars
    let closes := bars.map (·.close)
    let sma5 := mean (trailing 5 closes)
    let sma20 := if 20 ≤ closes.length then mean (trailing 20 closes) else none
    let recent := trailing 20 bars
    let changeFromOpenPct ← ratioTo price (session.head?.map (·.open))
    let momentum5Pct ← ratioTo price ((fromEnd? 6 bars).map (·.close))
    return {
      timeframe
      trend := intradayTrend price sma5 sma20 (vwap session)
      candleCount := bars.length
      sessionOpen := session.head?.map (·.open)
      sessionHigh := (session.map (·.high)).max?
      sessionLow := (session.map (·.low)).min?
      changeFromOpenPct
      sma5
      sma20
      vwap := vwap session
      momentum5Pct
      latestVolumeRatio := volumeRatio bars
      recentHigh20 := (recent.map (·.high)).max?
      recentLow20 := (recent.map (·.low)).min? }

/-! ## The summary of the daily bars -/

structure SetupProgress where
  passedRules : Nat
  totalRules : Nat
deriving DecidableEq, Repr

structure DailyTechnicalSummary where
  screeningTradingDate : Option Date
  trend : Trend
  previousClose : Option ℚ
  changePct : Option ℚ
  sma20 : Option ℚ
  sma60 : Option ℚ
  ema20 : Option ℚ
  atrPct : Option ℚ
  recentHigh20 : Option ℚ
  recentLow20 : Option ℚ
  screeningPassed : Bool
  matchedSetups : List Setup
  primarySetup : Option Setup
  totalScore : Option ℚ
  scoreThreshold : ℚ
  meetsScoreThreshold : Bool
  commonFailures : List String
  setupProgress : List (String × SetupProgress)
deriving DecidableEq, Repr

def dailyTrend (price : ℚ) (sma20 sma60 : Option ℚ) : Trend :=
  match sma20, sma60 with
  | some twenty, some sixty =>
    if twenty ≤ price ∧ sixty < twenty then .bullish
    else if sixty < twenty ∧ sixty ≤ price then .pullback
    else if price ≤ twenty ∧ twenty < sixty then .bearish
    else .neutral
  | _, _ => .insufficient

/-- The close of the day before the quote. -/
def previousClose (bars : List DailyBar) (quoteDate : Date) : Option ℚ :=
  let ofToday := bars.getLast?.any fun bar => bar.tradingDate = quoteDate
  if ofToday ∧ 2 ≤ bars.length then (fromEnd? 2 bars).map (·.close)
  else bars.getLast?.map (·.close)

/-- The bars of the highs and lows: those before the latest, where there are any. -/
def priorDays (bars : List DailyBar) : List DailyBar :=
  let prior := if 2 ≤ bars.length then beforeLast 20 bars else bars
  if prior = [] then trailing 20 bars else prior

/-- `key.partition(":")[0]`. -/
def setupOfRule (key : String) : String := String.ofList (key.toList.takeWhile (· ≠ ':'))

/-- The rules of each setup that passed, and all of them. -/
def progressOf (rules : List (String × Bool)) : List (String × SetupProgress) :=
  (collect (fun rule : String × Bool => setupOfRule rule.1) rules).entries.map fun group =>
    (group.1, ⟨group.2.countP (·.2), group.2.length⟩)

/-- `SwingCandidateRanker(config).rank([screening])[0].total_score`, of a result that passed. -/
def rankedScore (c : SwingScreeningConfig) (result : ScreeningResult) : Except String (Option ℚ) :=
  if result.passed then (rank c [result]).map fun ranked => ranked.head?.map (·.totalScore)
  else .ok none

/-- `_daily_summary`. -/
def dailySummary (c : SwingScreeningConfig) (bars : List DailyBar) (quote : QuoteSnapshot) :
    Except PyException DailyTechnicalSummary := do
  let records := bars.map (·.toDailyBarRecord)
  let indicators ← (calculate records).mapError valueError
  let quoteDate ← kstDate quote.asOf
  let screening ← (evaluate c records indicators).mapError valueError
  let totalScore ← (rankedScore c screening).mapError valueError
  let previous := previousClose bars quoteDate
  let prior := trailing 20 (priorDays bars)
  let changePct ← ratioTo quote.price previous
  return {
    screeningTradingDate := bars.getLast?.map (·.tradingDate)
    trend := dailyTrend quote.price indicators.sma20 indicators.sma60
    previousClose := previous
    changePct
    sma20 := indicators.sma20
    sma60 := indicators.sma60
    ema20 := indicators.ema20
    atrPct := if 0 < quote.price then indicators.atr14.map (· / quote.price) else none
    recentHigh20 := (prior.map (·.high)).max?
    recentLow20 := (prior.map (·.low)).min?
    screeningPassed := screening.passed
    matchedSetups := screening.matchedSetups
    primarySetup := screening.primarySetup
    totalScore
    scoreThreshold := c.minimumCandidateScore
    meetsScoreThreshold := totalScore.any (c.minimumCandidateScore ≤ ·)
    commonFailures := screening.reasons
    setupProgress := progressOf screening.ruleEvaluations }

/-! ## Levels -/

/-- A level that exists has passed the validation of its price. -/
structure PriceLevel where
  price : ℚ
  basis : List String
  nonNegative : 0 ≤ price
deriving DecidableEq

def PriceLevel.create (entry : ℚ × List String) : Except PyException PriceLevel :=
  if h : 0 ≤ entry.1 then .ok ⟨entry.1, entry.2, h⟩
  else .error (validationError "Input should be greater than or equal to 0")

structure TechnicalLevels where
  supports : List PriceLevel
  resistances : List PriceLevel
deriving DecidableEq

/-- The values that may be levels, with what they stand for. -/
def candidateLevels (daily : DailyTechnicalSummary) (intraday : IntradayTechnicalSummary) :
    List (Option ℚ × String) :=
  let frame := intraday.timeframe.name
  [(intraday.vwap, "장중 VWAP"),
   (intraday.sma20, frame ++ " SMA20"),
   (intraday.sessionLow, "당일 저가"),
   (intraday.sessionHigh, "당일 고가"),
   (intraday.recentLow20, "최근 20개 " ++ frame ++ "봉 저가"),
   (intraday.recentHigh20, "최근 20개 " ++ frame ++ "봉 고가"),
   (daily.sma20, "일봉 SMA20"),
   (daily.recentLow20, "직전 20일 저가"),
   (daily.recentHigh20, "직전 20일 고가")]

/-- A value that is there goes under its price, once for each basis. -/
def addLevel (grouped : Dict ℚ (List String)) (entry : Option ℚ × String) : Dict ℚ (List String) :=
  match entry.1 with
  | none => grouped
  | some value =>
    if 0 ≤ value then
      let basis := grouped.getD value []
      grouped.set value (if entry.2 ∈ basis then basis else basis ++ [entry.2])
    else grouped

def groupLevels (entries : List (Option ℚ × String)) : Dict ℚ (List String) :=
  entries.foldl addLevel Dict.empty

/-- How many levels there are at most on a side. -/
def maxLevels : Nat := 3

/-- `_levels`. -/
def levels (price : ℚ) (daily : DailyTechnicalSummary) (intraday : IntradayTechnicalSummary) :
    Except PyException TechnicalLevels := do
  let grouped := (groupLevels (candidateLevels daily intraday)).entries
  let below := (grouped.filter fun entry => entry.1 ≤ price).insertionSort fun a b => b.1 ≤ a.1
  let above := (grouped.filter fun entry => price ≤ entry.1).insertionSort fun a b => a.1 ≤ b.1
  let supports ← (below.take maxLevels).mapM PriceLevel.create
  let resistances ← (above.take maxLevels).mapM PriceLevel.create
  return ⟨supports, resistances⟩

/-! ## Texts -/

/-- Commas between groups of three digits, for digits from the last to the first. -/
def commas : List Char → List Char
  | a :: b :: c :: d :: rest => a :: b :: c :: ',' :: commas (d :: rest)
  | short => short

def grouped (n : Nat) : String := String.ofList (commas (Nat.toDigits 10 n).reverse).reverse

/-- Two digits. -/
def twoDigits (n : Nat) : String := if n < 10 then "0" ++ toString n else toString n

/-- A number of hundredths with two decimals. -/
def withDecimals (whole : Nat → String) (hundredths : Nat) : String :=
  whole (hundredths / 100) ++ "." ++ twoDigits (hundredths % 100)

/-- `_price`, of a price that is not negative. -/
def priceText (value : ℚ) : Except PyException String := do
  let rounded ← quantizeHalfUp 2 value
  let hundredths := ⌊rounded * 100⌋.toNat
  return (if hundredths % 100 = 0 then grouped (hundredths / 100)
    else withDecimals grouped hundredths) ++ "원"

/-- `_percent`; a ratio below zero keeps its sign where it is rounded to zero. -/
def percentText (falling : Bool) (value : Option ℚ) : Except PyException String :=
  match value with
  | none => .ok "계산 불가"
  | some value => do
    let rounded ← quantizeHalfUp 2 (value * 100)
    return (if falling then "-" else "") ++ withDecimals toString ⌊rounded * 100⌋.natAbs ++ "%"

/-- `str` of a score with two decimals. -/
def scoreText (score : ℚ) : String := withDecimals toString (roundHalfUp (score * 100)).toNat

/-! ## The narrative -/

structure Narrative where
  verdict : String
  observations : List String
  entryConfirmation : String
  invalidation : String
  riskFlags : List String
deriving DecidableEq, Repr

def verdictText (daily intraday : Trend) : String :=
  if (daily = .bullish ∨ daily = .pullback) ∧ intraday = .bullish then
    "일봉 상승 구조와 장중 흐름이 함께 우세합니다."
  else if (daily = .bullish ∨ daily = .pullback) ∧ intraday = .bearish then
    "일봉 상승 구조 안에서 장중 조정이 진행 중입니다."
  else if daily = .bearish then "일봉 하락 구조로, 추세 회복 확인이 먼저 필요합니다."
  else "일봉과 장중 방향이 엇갈려 추가 확인이 필요합니다."

/-- `warning.description or f"..."`. -/
def StockWarning.flag (warning : StockWarning) : String :=
  match warning.description with
  | none | some "" => "종목 경고: " ++ warning.warningType
  | some description => description

/-- The price is by 3% or more above the average of the session. -/
def chasesVwap (price : ℚ) (sessionVwap : Option ℚ) : Except PyException Bool :=
  match sessionVwap with
  | some vwap =>
    if 0 < vwap then (ratio price vwap).map fun change => change.any (3 / 100 ≤ ·) else .ok false
  | none => .ok false

def riskFlags (quote : QuoteSnapshot) (daily : DailyTechnicalSummary)
    (intraday : IntradayTechnicalSummary) (warnings : List StockWarning) :
    Except PyException (List String) := do
  let chased ← chasesVwap quote.price intraday.vwap
  let flags := (warnings.filter (·.active)).map StockWarning.flag ++
    (if quote.delayed = some true then ["공급자가 지연 시세로 표시한 데이터입니다."] else []) ++
    (if daily.trend = .bearish then ["현재가는 일봉 하락 정렬 구간에 있습니다."] else []) ++
    (if chased then ["현재가가 장중 VWAP보다 3% 이상 높아 추격 변동성에 유의해야 합니다."] else []) ++
    (if intraday.latestVolumeRatio.any (· < 70 / 100) then
      ["최근 봉 거래량이 직전 평균의 70% 미만이라 확인 강도가 약합니다."] else [])
  return if flags = [] then ["현재 데이터에서 별도의 정량 경고는 감지되지 않았습니다."] else flags

/-- The current price beside the close of the day before. -/
def priceObservation (quote : QuoteSnapshot) (daily : DailyTechnicalSummary) :
    Except PyException String := do
  let price ← priceText quote.price
  let change ← percentText (daily.previousClose.any (quote.price < ·)) daily.changePct
  return "현재가 " ++ price ++ ", 전일 종가 대비 " ++ change ++ "입니다."

/-- The current price beside the session. -/
def sessionObservation (quote : QuoteSnapshot) (intraday : IntradayTechnicalSummary) :
    Except PyException String :=
  let frame := intraday.timeframe.name
  match intraday.vwap with
  | some vwap => do
    let change ← percentText (intraday.sessionOpen.any (quote.price < ·)) intraday.changeFromOpenPct
    let price ← priceText vwap
    return frame ++ " 기준 장중 시가 대비 " ++ change ++ ", VWAP " ++ price ++ "입니다."
  | none => .ok (frame ++ " 장중 VWAP을 계산할 데이터가 부족합니다.")

/-- The outcome of the screening of the daily bars. -/
def setupObservation (daily : DailyTechnicalSummary) : String :=
  match daily.screeningPassed, daily.totalScore with
  | true, some score => "일봉 셋업은 " ++ ((daily.primarySetup.map Setup.name).getD "복수 셋업") ++
      "으로 통과했고 종합점수는 " ++ scoreText score ++ "점입니다."
  | _, _ => "현재 일봉은 스크리너의 완성된 진입 셋업을 통과하지 않았습니다."

def entryText (intraday : IntradayTechnicalSummary) (levels : TechnicalLevels) :
    Except PyException String :=
  match levels.resistances, intraday.vwap with
  | nearest :: _, _ => (priceText nearest.price).map fun price =>
      price ++ " 위 안착과 " ++ intraday.timeframe.name ++ " 거래량 증가를 함께 확인하세요."
  | [], some vwap => (priceText vwap).map fun price =>
      "돌파 상태를 유지하면서 " ++ price ++ " 부근의 VWAP 지지를 확인하세요."
  | [], none => .ok "가격 돌파와 거래량 증가가 동시에 확인될 때까지 관찰하세요."

def invalidationText (levels : TechnicalLevels) : Except PyException String :=
  match levels.supports with
  | nearest :: _ => (priceText nearest.price).map fun price =>
      "가장 가까운 지지 후보 " ++ price ++ " 이탈 시 현재 단기 시나리오를 재검토하세요."
  | [] => .ok "명확한 지지 후보가 없어 신규 판단을 보류하는 편이 안전합니다."

/-- `_narrative`. -/
def narrative (quote : QuoteSnapshot) (daily : DailyTechnicalSummary)
    (intraday : IntradayTechnicalSummary) (levels : TechnicalLevels)
    (warnings : List StockWarning) : Except PyException Narrative := do
  let ofPrice ← priceObservation quote daily
  let ofSession ← sessionObservation quote intraday
  let entryConfirmation ← entryText intraday levels
  let invalidation ← invalidationText levels
  let riskFlags ← riskFlags quote daily intraday warnings
  return {
    verdict := verdictText daily.trend intraday.trend
    observations := [ofPrice, ofSession, setupObservation daily]
    entryConfirmation
    invalidation
    riskFlags }

/-! ## The analysis -/

/-- The summaries of the frames. -/
structure IntradaySummaries where
  oneMinute : IntradayTechnicalSummary
  fiveMinutes : IntradayTechnicalSummary
  tenMinutes : IntradayTechnicalSummary
deriving DecidableEq, Repr

structure RealtimeTechnicalAnalysis where
  asOf : Instant
  dailyBars : List DailyBar
  intradayBars : RealtimeFrames
  daily : DailyTechnicalSummary
  intraday : IntradaySummaries
  levels : TechnicalLevels
  narrative : Narrative
  warnings : List StockWarning

def intradaySummaries (frames : RealtimeFrames) (price : ℚ) :
    Except PyException IntradaySummaries := do
  let oneMinute ← intradaySummary .oneMinute frames.oneMinute price
  let fiveMinutes ← intradaySummary .fiveMinutes frames.fiveMinutes price
  let tenMinutes ← intradaySummary .tenMinutes frames.tenMinutes price
  return ⟨oneMinute, fiveMinutes, tenMinutes⟩

/-- `max` of the moments that the data is of. -/
def dataAsOf (quote : QuoteSnapshot) (dailyBars : List DailyBar) (minuteBars : List MinuteBar) :
    Instant :=
  (minuteBars.map (·.asOf.moment) ++ dailyBars.map (·.asOf)).foldl max quote.asOf.moment

def analyzeRealtime (c : SwingScreeningConfig) (quote : QuoteSnapshot) (dailyBars : List DailyBar)
    (minuteBars : List MinuteBar) (warnings : List StockWarning) :
    Except PyException RealtimeTechnicalAnalysis := do
  let frames ← realtimeFrames minuteBars
  let intraday ← intradaySummaries frames quote.price
  let daily ← dailySummary c dailyBars quote
  let levels ← levels quote.price daily intraday.fiveMinutes
  let narrative ← narrative quote daily intraday.fiveMinutes levels warnings
  return {
    asOf := dataAsOf quote dailyBars minuteBars
    dailyBars := trailing 120 dailyBars
    intradayBars := frames
    daily
    intraday
    levels
    narrative
    warnings }

end Screener.Market
