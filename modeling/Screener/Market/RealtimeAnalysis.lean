import Screener.Market.AnalysisTexts
import Screener.Market.CandleLoop
import Screener.Market.MinuteFrames
import Screener.Market.MinutePages
import Screener.Market.ScoreRanges

/-!
# The analysis of one instrument

`MarketDataService.realtime_analysis` asks the provider for an instrument, its quote, its
bars and its warnings, and analyses them. Of the answers that are there, with prices in range,
only the datetimes and the currencies of the minute bars can still stop the analysis.
-/

namespace Screener.Market

open Screener.Lib

/-! ## The request -/

inductive AnalysisExc where
  | provider (exc : RequestExc)
  | python (e : PyException)
deriving DecidableEq, Repr

/-- What the provider answers. The four requests after the first run at the same time; of
several that fail it is not said here which one is raised. -/
structure AnalysisAnswers where
  instrument : Except RequestExc InstrumentSnapshot
  prices : Except RequestExc (List QuoteSnapshot)
  dailyBars : Except RequestExc (List DailyBar)
  minuteBars : Except RequestExc (List MinuteBar)
  warnings : Except RequestExc (List StockWarning)

/-- The instruments that are analysed. -/
def InstrumentSnapshot.Supported (item : InstrumentSnapshot) : Prop :=
  item.market = "KOSPI" ∧ item.securityType = some "common_stock" ∧
    item.listingStatus = some "listed"

instance (item : InstrumentSnapshot) : Decidable item.Supported := by
  unfold InstrumentSnapshot.Supported; infer_instance

/-- The one quote of a symbol. -/
def requestedQuote (symbol : Symbol) : List QuoteSnapshot → Except PyException QuoteSnapshot
  | [quote] =>
    if quote.symbol = symbol then .ok quote
    else .error (valueError "provider did not return the requested quote")
  | _ => .error (valueError "provider did not return the requested quote")

/-- `realtime_analysis`, of a symbol that `symbol()` has returned. -/
def realtimeAnalysis (c : SwingScreeningConfig) (symbol : Symbol) (answers : AnalysisAnswers) :
    Except AnalysisExc RealtimeTechnicalAnalysis := do
  let item ← answers.instrument.mapError .provider
  if item.Supported then
    let prices ← answers.prices.mapError .provider
    let dailyBars ← answers.dailyBars.mapError .provider
    let minuteBars ← answers.minuteBars.mapError .provider
    let warnings ← answers.warnings.mapError .provider
    let quote ← (requestedQuote symbol prices).mapError .python
    (analyzeRealtime c quote dailyBars minuteBars warnings).mapError .python
  else .error (.python (valueError "only active KOSPI common stocks are supported"))

/-! ## The daily bars that the provider returns -/

namespace BarQuery

variable {q : BarQuery} {respond : Nat → String → Except RequestExc CandlePage}

theorem pageStep_inr_ok {n : Nat} {s : PageState} {bars : List DailyBar}
    (h : q.pageStep respond n s = .inr (.ok bars)) :
    ∃ (page : CandlePage) (byDate : Dict Date DailyBar),
      page.candles.foldlM q.collectRow s.byDate = .ok byDate ∧ bars = ordered byDate := by
  rw [pageStep] at h
  split_ifs at h with hbefore
  · cases h
  cases hpage : respond n s.before with
  | error exc => simp [hpage] at h
  | ok page =>
    simp only [hpage] at h
    cases hrows : page.candles.foldlM q.collectRow s.byDate with
    | error exc => simp [hrows] at h
    | ok byDate =>
      refine ⟨page, byDate, hrows, ?_⟩
      simp only [hrows] at h
      split_ifs at h with hstart
      · simpa using h.symm
      · cases hnext : page.next with
        | none => simpa [hnext] using h.symm
        | some cursor => simp [hnext] at h

/-- The bars of a call are those of some candles. -/
theorem collected_of_dailyBars {fuel : Nat} {bars : List DailyBar}
    (h : q.dailyBars respond fuel = some (.ok bars)) :
    ∃ rows byDate, q.Collected rows byDate ∧ bars = ordered byDate := by
  unfold dailyBars at h
  split_ifs at h
  · cases h
  · have hresult := drive_result (fun s : PageState => ∃ rows, q.Collected rows s.byDate)
      (Q := fun result => ∀ bars, result = .ok bars →
        ∃ rows byDate, q.Collected rows byDate ∧ bars = ordered byDate) ?_ ?_
      ⟨[], collected_nil q⟩ h
    · exact hresult bars rfl
    · rintro n s t ⟨rows, hrows⟩ hstep
      obtain ⟨-, page, cursor, byDate, -, hpage, -, -, rfl⟩ := pageStep_inl.mp hstep
      exact ⟨rows ++ page.candles, (hrows.append hpage).2⟩
    · rintro n s result ⟨rows, hrows⟩ hstep bars rfl
      obtain ⟨page, byDate, hpage, rfl⟩ := pageStep_inr_ok hstep
      exact ⟨rows ++ page.candles, byDate, (hrows.append hpage).2, rfl⟩

theorem symbol_of_bar {symbol : Symbol} {row : CandleRow} {bar : DailyBar}
    (h : row.bar symbol = some bar) : bar.symbol = symbol := by
  simp only [CandleRow.bar, Option.bind_eq_bind, Option.bind_eq_some_iff, dailyBar?] at h
  obtain ⟨stamp, -, o, -, high, -, low, -, close, -, volume, -, hbar⟩ := h
  split_ifs at hbar
  rw [← Option.some.inj hbar]

theorem mem_ordered {byDate : Dict Date DailyBar} {bar : DailyBar} :
    bar ∈ ordered byDate ↔ ∃ date, byDate.get? date = some bar := mem_inOrder

/-- The bars of a call are of its symbol and in the order of their dates. -/
theorem dailyBars_series {fuel : Nat} {bars : List DailyBar}
    (h : q.dailyBars respond fuel = some (.ok bars)) :
    (∀ bar ∈ bars, bar.symbol = q.symbol) ∧ Chronological (bars.map (·.toDailyBarRecord)) := by
  obtain ⟨rows, byDate, hcollected, rfl⟩ := collected_of_dailyBars h
  constructor
  · intro bar hbar
    obtain ⟨date, hdate⟩ := mem_ordered.mp hbar
    obtain ⟨row, -, hrow, -⟩ := mem_barsIn.mp ((hcollected date bar).mp hdate).1
    exact symbol_of_bar hrow
  · have htaken : Taken (fun bar : DailyBar => bar.tradingDate) id (q.barsIn rows) byDate := by
      constructor
      case sound => exact fun date bar hdate => (hcollected date bar).mp hdate
      case complete => exact fun bar hbar => ⟨bar, (hcollected _ bar).mpr ⟨hbar, rfl⟩, rfl⟩
    have hstrict : ((ordered byDate).map (·.toDailyBarRecord)).Pairwise
        fun a b => a.tradingDate < b.tradingDate := List.pairwise_map.mpr htaken.inOrder_strict
    exact hstrict.isChain

end BarQuery

/-! ## The frames -/

variable {bars : List MinuteBar} {minutes : ℤ} {price : ℚ}

/-- Bars of one bucket have one currency. -/
def OneCurrencyIn (minutes : ℤ) (bars : List MinuteBar) : Prop :=
  ∀ a ∈ bars, ∀ b ∈ bars, bucketOf minutes a = bucketOf minutes b → a.currency = b.currency

theorem OneCurrencyIn.of_multiple {m n : ℤ} (hm : 0 < m) (hdvd : m ∣ n) (h : OneCurrencyIn n bars) :
    OneCurrencyIn m bars := by
  intro a ha b hb hbucket
  refine h a ha b hb ?_
  rw [← bucketOf_nested hm hdvd a, ← bucketOf_nested hm hdvd b, hbucket]

/-- An aggregation of one symbol's bars stops only where a datetime has no date in Seoul or
a bucket mixes currencies. -/
theorem aggregateMinuteBars_returns_iff (hminutes : 2 ≤ minutes) {symbol : Symbol}
    (hsymbol : ∀ bar ∈ bars, bar.symbol = symbol) :
    (∃ out, aggregateMinuteBars bars minutes = .ok out) ↔
      (∀ bar ∈ bars, InKst bar.timestamp) ∧ OneCurrencyIn minutes bars := by
  have hpieces := bucketGroups_pieces minutes bars
  rw [aggregateMinuteBars_eq hminutes]
  constructor
  · rintro ⟨out, hout⟩
    split_ifs at hout with hin
    refine ⟨hin, fun a ha b hb hbucket => ?_⟩
    obtain ⟨group, hgroup, hkey⟩ := List.mem_map.mp (hpieces.covers a (mem_byTimestamp.mpr ha))
    obtain ⟨bar, -, hbar⟩ := mapM_ok_of_mem hout hgroup
    have hmem : ∀ c ∈ bars, bucketOf minutes c = bucketOf minutes a → c ∈ group.2 := by
      intro c hc hsame
      rw [hpieces.eq_filter group hgroup, List.mem_filter, hkey]
      exact ⟨mem_byTimestamp.mpr hc, decide_eq_true hsame⟩
    exact (aggregateBucket_inv hbar).currency a (hmem a ha rfl) b (hmem b hb hbucket.symm)
  · rintro ⟨hin, hcurrency⟩
    rw [if_pos hin]
    refine mapM_total fun group hgroup => ?_
    obtain ⟨first, hfirst, hbucket⟩ := exists_mem_group hgroup
    have haware : group.1.offset.isSome := by rw [← hbucket, bucketOf_offset]; rfl
    obtain ⟨bar, hbar, -⟩ := aggregateBucket_ok (hpieces.nonempty group hgroup) haware
      ⟨symbol, first.currency, fun other hother =>
        ⟨hsymbol other (mem_of_group hgroup hother),
          hcurrency other (mem_of_group hgroup hother) first (mem_of_group hgroup hfirst)
            ((hpieces.key_of_mem hgroup hother).trans hbucket.symm)⟩⟩
    exact ⟨bar, hbar⟩

/-- The bars of a frame have dates in Seoul, as their bars do. -/
theorem inKst_of_frame (hminutes : 2 ≤ minutes) {out : List MinuteBar}
    (h : aggregateMinuteBars bars minutes = .ok out) : ∀ bar ∈ out, InKst bar.timestamp := by
  rw [aggregateMinuteBars_eq hminutes] at h
  split_ifs at h with hin
  intro bar hbar
  obtain ⟨group, hgroup, hrun⟩ := (mem_mapM_ok h).mp hbar
  obtain ⟨first, hfirst, hbucket⟩ := exists_mem_group hgroup
  rw [(aggregateBucket_inv hrun).timestamp, ← hbucket]
  exact inKst_bucketOf (by omega) (hin first (mem_of_group hgroup hfirst))

theorem intradaySummary_of_dates (timeframe : Timeframe) (hprice : 0 ≤ price)
    (hle : price ≤ 10 ^ 14) (hpriced : Priced bars) (hin : ∀ bar ∈ bars, InKst bar.timestamp) :
    ∃ s, intradaySummary timeframe bars price = .ok s ∧ IntradayInRange price s := by
  obtain ⟨session, hsession⟩ : ∃ session, sessionOf bars = .ok session := by
    cases hlast : bars.getLast? with
    | none =>
      obtain rfl := List.getLast?_eq_none_iff.mp hlast
      exact ⟨[], rfl⟩
    | some last => exact ⟨_, sessionOf_ok hin hlast⟩
  obtain ⟨s, hs⟩ := intradaySummary_total timeframe hprice hle hpriced hsession
  exact ⟨s, hs, intraday_inRange hpriced hsession hs⟩

theorem realtimeFrames_ok {frames : RealtimeFrames} : realtimeFrames bars = .ok frames ↔
    frames.oneMinute = bars ∧ aggregateMinuteBars bars 5 = .ok frames.fiveMinutes ∧
      aggregateMinuteBars bars 10 = .ok frames.tenMinutes := by
  simp only [realtimeFrames, bind_ok, pure_ok]
  constructor
  · rintro ⟨one, hone, five, hfive, ten, hten, rfl⟩
    exact ⟨(Except.ok.inj hone).symm, hfive, hten⟩
  · rintro ⟨rfl, hfive, hten⟩
    exact ⟨_, rfl, _, hfive, _, hten, rfl⟩

theorem frames_return_iff {symbol : Symbol} (hsymbol : ∀ bar ∈ bars, bar.symbol = symbol) :
    (∃ frames, realtimeFrames bars = .ok frames) ↔
      (∀ bar ∈ bars, InKst bar.timestamp) ∧ OneCurrencyIn 10 bars := by
  rw [← aggregateMinuteBars_returns_iff (by decide) hsymbol]
  constructor
  · rintro ⟨frames, hframes⟩
    exact ⟨_, (realtimeFrames_ok.mp hframes).2.2⟩
  · rintro ⟨ten, hten⟩
    obtain ⟨hin, hcurrency⟩ := (aggregateMinuteBars_returns_iff (by decide) hsymbol).mp ⟨ten, hten⟩
    obtain ⟨five, hfive⟩ := (aggregateMinuteBars_returns_iff (show (2 : ℤ) ≤ 5 by decide)
      hsymbol).mpr
      ⟨hin, hcurrency.of_multiple (by decide) (by decide)⟩
    exact ⟨⟨bars, five, ten⟩, realtimeFrames_ok.mpr ⟨rfl, hfive, hten⟩⟩

theorem summaries_return {frames : RealtimeFrames} (hframes : realtimeFrames bars = .ok frames)
    (hprice : 0 ≤ price) (hle : price ≤ 10 ^ 14) (hpriced : Priced bars)
    (hin : ∀ bar ∈ bars, InKst bar.timestamp) :
    ∃ s, intradaySummaries frames price = .ok s ∧ IntradayInRange price s.fiveMinutes := by
  obtain ⟨hone, hfive, hten⟩ := realtimeFrames_ok.mp hframes
  obtain ⟨one, hone, -⟩ := intradaySummary_of_dates .oneMinute hprice hle (hone ▸ hpriced)
    (hone ▸ hin)
  obtain ⟨five, hfive, hinRange⟩ := intradaySummary_of_dates .fiveMinutes hprice hle
    (hpriced.frame (by decide) hfive) (inKst_of_frame (by decide) hfive)
  obtain ⟨ten, hten, -⟩ := intradaySummary_of_dates .tenMinutes hprice hle
    (hpriced.frame (by decide) hten) (inKst_of_frame (by decide) hten)
  exact ⟨⟨one, five, ten⟩,
    bind_ok.mpr ⟨one, hone, bind_ok.mpr ⟨five, hfive, bind_ok.mpr ⟨ten, hten, rfl⟩⟩⟩, hinRange⟩

/-! ## The daily summary -/

/-- A result that passed is of the symbol of its bars. -/
theorem symbol_of_passed {c : SwingScreeningConfig} {records : List DailyBarRecord}
    {i : IndicatorSnapshot} {result : ScreeningResult} (h : evaluate c records i = .ok result)
    (hpassed : result.passed = true) : ∃ last ∈ records, result.symbol = last.symbol := by
  obtain ⟨e, -, -, -, rfl⟩ := evaluate_ok.mp h
  cases hlast : records.getLast? with
  | none =>
    have hfilter : (common c records i).passed = false := by
      rw [common, SwingScreeningValues.commonOf, hlast]
    simp [resultOf, hfilter] at hpassed
  | some last =>
    refine ⟨last, List.mem_of_getLast? hlast, ?_⟩
    simp [resultOf, symbolOf, hlast]

/-- The default configuration evaluates every history. -/
theorem evaluate_default (records : List DailyBarRecord) (i : IndicatorSnapshot) :
    ∃ result, evaluate .default records i = .ok result := by
  let c := SwingScreeningConfig.default.toDecimal
  have hranges : c.RangesFor records.length := default_rangesFor records.length
  obtain ⟨box, hbox⟩ := box_ok_iff.mpr hranges.box
  obtain ⟨pullback, hpullback⟩ := pullback_ok_iff.mpr hranges.pullback
  obtain ⟨contraction, hcontraction⟩ := contraction_ok_iff.mpr hranges.contraction
  exact ⟨_, evaluate_ok.mpr ⟨⟨box, pullback, contraction⟩, hbox, hpullback, hcontraction, rfl⟩⟩

theorem rankedScore_total {c : SwingScreeningConfig} {result : ScreeningResult}
    (h : result.passed = true → blank result.symbol = false) :
    ∃ score, rankedScore c result = .ok score := by
  unfold rankedScore
  split_ifs with hpassed
  · rw [rank_singleton c hpassed (h hpassed)]
    exact ⟨_, rfl⟩
  · exact ⟨_, rfl⟩

theorem previousClose_mem {dailyBars : List DailyBar} {quoteDate : Date} {close : ℚ}
    (h : previousClose dailyBars quoteDate = some close) :
    ∃ bar ∈ dailyBars, bar.close = close := by
  unfold previousClose at h
  dsimp only at h
  split_ifs at h
  · obtain ⟨bar, hbar, rfl⟩ := Option.map_eq_some_iff.mp h
    exact ⟨bar, List.mem_of_getElem? (Option.ite_none_right_eq_some.mp hbar).2, rfl⟩
  · obtain ⟨bar, hbar, rfl⟩ := Option.map_eq_some_iff.mp h
    exact ⟨bar, List.mem_of_getLast? hbar, rfl⟩

theorem dailySummary_returns_iff {symbol : Symbol} {dailyBars : List DailyBar}
    {quote : QuoteSnapshot}
    (hquote : quote.price ≤ 10 ^ 14) (hpriced : PricedDays dailyBars)
    (hsymbol : ∀ bar ∈ dailyBars, bar.symbol = symbol) (hnamed : blank symbol = false)
    (hbars : Chronological (dailyBars.map (·.toDailyBarRecord))) :
    (∃ s, dailySummary .default dailyBars quote = .ok s) ↔ InKst quote.asOf := by
  have hcalculate : calculate (dailyBars.map (·.toDailyBarRecord)) =
      .ok (snapshotOf (dailyBars.map (·.toDailyBarRecord))) := if_pos hbars
  constructor
  · rintro ⟨s, hs⟩
    obtain ⟨indicators, -, hs⟩ := bind_ok.mp hs
    obtain ⟨quoteDate, hdate, -⟩ := bind_ok.mp hs
    unfold kstDate astimezone at hdate
    split_ifs at hdate with hin
    · exact hin
    · cases hdate
  · intro hin
    obtain ⟨result, hscreening⟩ := evaluate_default (dailyBars.map (·.toDailyBarRecord))
      (snapshotOf (dailyBars.map (·.toDailyBarRecord)))
    have hblank : result.passed = true → blank result.symbol = false := by
      intro hpassed
      obtain ⟨last, hlast, heq⟩ := symbol_of_passed hscreening hpassed
      obtain ⟨bar, hbar, rfl⟩ := List.mem_map.mp hlast
      rw [heq, hsymbol bar hbar, hnamed]
    obtain ⟨score, hscore⟩ := rankedScore_total (c := .default) hblank
    have hcloses : ∀ close, previousClose dailyBars (dateInSeoul quote.asOf) = some close →
        InPriceRange close := by
      intro close hclose
      obtain ⟨bar, hbar, rfl⟩ := previousClose_mem hclose
      exact hpriced.close hbar
    obtain ⟨change, hchange⟩ := ratioTo_total quote.nonNegative hquote hcloses
    exact ⟨_, bind_ok.mpr ⟨_, mapError_ok.mpr hcalculate, bind_ok.mpr ⟨_, kstDate_ok hin,
      bind_ok.mpr ⟨_, mapError_ok.mpr hscreening, bind_ok.mpr ⟨score, mapError_ok.mpr hscore,
        bind_ok.mpr ⟨change, hchange, rfl⟩⟩⟩⟩⟩⟩

/-! ## The analysis -/

theorem analyzeRealtime_returns_iff {symbol : Symbol} {dailyBars : List DailyBar}
    {quote : QuoteSnapshot} (warnings : List StockWarning) (hprice : quote.price ≤ 10 ^ 14)
    (hdays : PricedDays dailyBars) (hpriced : Priced bars)
    (hdaily : ∀ bar ∈ dailyBars, bar.symbol = symbol) (hnamed : blank symbol = false)
    (hdates : Chronological (dailyBars.map (·.toDailyBarRecord)))
    (hminutes : ∀ bar ∈ bars, bar.symbol = symbol) :
    (∃ a, analyzeRealtime .default quote dailyBars bars warnings = .ok a) ↔
      InKst quote.asOf ∧ (∀ bar ∈ bars, InKst bar.timestamp) ∧ OneCurrencyIn 10 bars := by
  constructor
  · rintro ⟨a, ha⟩
    obtain ⟨frames, hframes, ha⟩ := bind_ok.mp ha
    obtain ⟨intraday, -, ha⟩ := bind_ok.mp ha
    obtain ⟨daily, hsummary, -⟩ := bind_ok.mp ha
    exact ⟨(dailySummary_returns_iff hprice hdays hdaily hnamed hdates).mp ⟨daily, hsummary⟩,
      (frames_return_iff hminutes).mp ⟨frames, hframes⟩⟩
  · rintro ⟨hquote, hin, hcurrency⟩
    obtain ⟨frames, hframes⟩ := (frames_return_iff hminutes).mpr ⟨hin, hcurrency⟩
    obtain ⟨intraday, hintraday, hinRange⟩ :=
      summaries_return hframes quote.nonNegative hprice hpriced hin
    obtain ⟨daily, hsummary⟩ :=
      (dailySummary_returns_iff hprice hdays hdaily hnamed hdates).mpr hquote
    obtain ⟨out, text, hlevels, htext⟩ :=
      narrative_total hprice (daily_inRange hdays hsummary) hinRange warnings
    exact ⟨_, bind_ok.mpr ⟨frames, hframes, bind_ok.mpr ⟨intraday, hintraday,
      bind_ok.mpr ⟨daily, hsummary, bind_ok.mpr ⟨out, hlevels, bind_ok.mpr ⟨text, htext, rfl⟩⟩⟩⟩⟩⟩

theorem requestedQuote_ok {symbol : Symbol} {prices : List QuoteSnapshot} {quote : QuoteSnapshot} :
    requestedQuote symbol prices = .ok quote ↔ prices = [quote] ∧ quote.symbol = symbol := by
  constructor
  · intro h
    unfold requestedQuote at h
    split at h
    · split_ifs at h with hsymbol
      obtain rfl := Except.ok.inj h
      exact ⟨rfl, hsymbol⟩
    · cases h
  · rintro ⟨rfl, hsymbol⟩
    exact if_pos hsymbol

/-- The answers that an analysis can be made of. -/
structure Analysable (symbol : Symbol) (answers : AnalysisAnswers) : Prop where
  supported : ∃ item, answers.instrument = .ok item ∧ item.Supported
  quoted : ∃ quote, answers.prices = .ok [quote] ∧ quote.symbol = symbol ∧ InKst quote.asOf
  daily : ∃ dailyBars, answers.dailyBars = .ok dailyBars
  minutes : ∃ bars, answers.minuteBars = .ok bars ∧ (∀ bar ∈ bars, InKst bar.timestamp) ∧
    OneCurrencyIn 10 bars
  warned : ∃ warnings, answers.warnings = .ok warnings

/-- The prices of the answers that are there are in range. -/
structure AnswersPriced (answers : AnalysisAnswers) : Prop where
  quotes : ∀ quotes, answers.prices = .ok quotes → ∀ quote ∈ quotes, quote.price ≤ 10 ^ 14
  days : ∀ days, answers.dailyBars = .ok days → PricedDays days
  minutes : ∀ bars, answers.minuteBars = .ok bars → Priced bars

/-- With the bars that the provider's calls return, and prices in range, the analysis of a
symbol is returned exactly where every answer is there, the instrument is supported, the quote
is the one asked for, the datetimes have a date in Seoul, and no ten minutes mix currencies. -/
theorem analysis_returns_iff {q : BarQuery} {page : Nat → String → Except RequestExc CandlePage}
    {fuel : Nat} {answers : AnalysisAnswers} {count : ℤ}
    {response : Except RequestExc (List MinuteRow)}
    (hnamed : blank q.symbol = false) (hdaily : q.dailyBars page fuel = some answers.dailyBars)
    (hminutes : answers.minuteBars = minuteBars q.symbol count response)
    (hpriced : AnswersPriced answers) :
    (∃ a, realtimeAnalysis .default q.symbol answers = .ok a) ↔ Analysable q.symbol answers := by
  have hseries : ∀ dailyBars, answers.dailyBars = .ok dailyBars →
      (∀ bar ∈ dailyBars, bar.symbol = q.symbol) ∧
        Chronological (dailyBars.map (·.toDailyBarRecord)) := by
    intro dailyBars hok
    rw [hok] at hdaily
    exact BarQuery.dailyBars_series hdaily
  have hsymbols : ∀ bars, answers.minuteBars = .ok bars → ∀ bar ∈ bars, bar.symbol = q.symbol := by
    intro bars hok bar hbar
    rw [hminutes] at hok
    cases response with
    | error exc =>
      unfold minuteBars at hok
      split_ifs at hok
      cases hok
    | ok rows => exact (pageBars hok).symbol_eq hbar
  constructor
  · rintro ⟨a, ha⟩
    obtain ⟨item, hitem, ha⟩ := bind_ok.mp ha
    split_ifs at ha with hsupported
    obtain ⟨prices, hprices, ha⟩ := bind_ok.mp ha
    obtain ⟨dailyBars, hdailyBars, ha⟩ := bind_ok.mp ha
    obtain ⟨bars, hbars, ha⟩ := bind_ok.mp ha
    obtain ⟨warnings, hwarnings, ha⟩ := bind_ok.mp ha
    obtain ⟨quote, hquote, hanalysis⟩ := bind_ok.mp ha
    rw [mapError_ok] at hitem hprices hdailyBars hbars hwarnings hquote hanalysis
    obtain ⟨rfl, hsame⟩ := requestedQuote_ok.mp hquote
    obtain ⟨hall, hdates⟩ := hseries dailyBars hdailyBars
    obtain ⟨hin, hmoments, hcurrency⟩ :=
      (analyzeRealtime_returns_iff warnings (hpriced.quotes _ hprices quote List.mem_cons_self)
        (hpriced.days _ hdailyBars) (hpriced.minutes _ hbars) hall hnamed hdates
        (hsymbols bars hbars)).mp ⟨a, hanalysis⟩
    exact
      { supported := ⟨item, hitem, hsupported⟩
        quoted := ⟨quote, hprices, hsame, hin⟩
        daily := ⟨dailyBars, hdailyBars⟩
        minutes := ⟨bars, hbars, hmoments, hcurrency⟩
        warned := ⟨warnings, hwarnings⟩ }
  · intro h
    obtain ⟨item, hitem, hsupported⟩ := h.supported
    obtain ⟨quote, hprices, hsame, hin⟩ := h.quoted
    obtain ⟨dailyBars, hdailyBars⟩ := h.daily
    obtain ⟨bars, hbars, hmoments, hcurrency⟩ := h.minutes
    obtain ⟨warnings, hwarnings⟩ := h.warned
    obtain ⟨hall, hdates⟩ := hseries dailyBars hdailyBars
    obtain ⟨a, ha⟩ := (analyzeRealtime_returns_iff warnings
      (hpriced.quotes _ hprices quote List.mem_cons_self) (hpriced.days _ hdailyBars)
      (hpriced.minutes _ hbars) hall hnamed hdates (hsymbols bars hbars)).mpr
      ⟨hin, hmoments, hcurrency⟩
    refine ⟨a, bind_ok.mpr ⟨item, mapError_ok.mpr hitem, ?_⟩⟩
    rw [if_pos hsupported]
    exact bind_ok.mpr ⟨_, mapError_ok.mpr hprices, bind_ok.mpr ⟨_, mapError_ok.mpr hdailyBars,
      bind_ok.mpr ⟨_, mapError_ok.mpr hbars, bind_ok.mpr ⟨_, mapError_ok.mpr hwarnings,
        bind_ok.mpr ⟨quote, mapError_ok.mpr (requestedQuote_ok.mpr ⟨rfl, hsame⟩),
          mapError_ok.mpr ha⟩⟩⟩⟩⟩

/-- Thursday, the 31st of July 2025. -/
def sampleQuery : BarQuery := ⟨"005930", 739230, 739463, 739463, fun _ => kst⟩

def sampleMinutes : List MinuteRow :=
  [⟨⟨some "2025-07-31T09:00:00+09:00", some "70000", some "70100", some "69900", some "70050",
    some "12"⟩, some "KRW"⟩]

/-- A stock that was listed today, one minute after the opening. -/
def sampleAnswers : AnalysisAnswers where
  instrument := .ok ⟨"005930", "SamsungElec", "KOSPI", some "KR", "KRW", some "common_stock",
    some "listed", none, some true, none, none⟩
  prices := .ok [⟨"005930", 70050, ⟨739463 * dayLength, some kst⟩, none, by norm_num, rfl⟩]
  dailyBars := .ok []
  minuteBars := minuteBars "005930" 200 (.ok sampleMinutes)
  warnings := .ok []

theorem sampleAnswers_priced : AnswersPriced sampleAnswers := by
  have hall : sampleAnswers.minuteBars.toOption.all (Priced ·) = true := by decide +kernel
  constructor
  case quotes =>
    intro quotes hquotes
    rw [← Except.ok.inj hquotes]
    exact List.forall_mem_singleton.mpr (by norm_num)
  case days =>
    intro days hdays
    rw [← Except.ok.inj hdays]
    exact nofun
  case minutes =>
    intro bars hbars
    rw [hbars] at hall
    exact of_decide_eq_true hall

theorem analysis_returns_iff_first :
    (∃ a, realtimeAnalysis .default "005930" sampleAnswers = .ok a) ↔
      Analysable "005930" sampleAnswers :=
  @analysis_returns_iff sampleQuery (fun _ _ => .ok ⟨[], none⟩) 1 sampleAnswers 200
    (.ok sampleMinutes) (by decide) rfl rfl sampleAnswers_priced

end Screener.Market
