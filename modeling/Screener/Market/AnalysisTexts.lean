import Screener.Market.TechnicalLevels
import Screener.Market.TechnicalSession

/-!
# The texts of an analysis

The figures of bars whose prices are in range are in range themselves. So no quantization of
the narrative raises, of a price or of a change.
-/

namespace Screener.Market

open Screener.Lib

variable {bars : List MinuteBar} {price : ℚ} {timeframe : Timeframe}
  {daily : DailyTechnicalSummary} {intraday : IntradayTechnicalSummary}

/-! ## Figures in range -/

/-- A figure that is there is in range. -/
def FigureInRange (figure : Option ℚ) : Prop := ∀ value, figure = some value → InPriceRange value

theorem figureInRange_max {α : Type} {f : α → ℚ} {xs : List α} (h : ∀ x ∈ xs, InPriceRange (f x)) :
    FigureInRange (xs.map f).max? := by
  intro value hvalue
  obtain ⟨x, hx, rfl⟩ := List.mem_map.mp (List.max?_mem hvalue)
  exact h x hx

theorem figureInRange_min {α : Type} {f : α → ℚ} {xs : List α} (h : ∀ x ∈ xs, InPriceRange (f x)) :
    FigureInRange (xs.map f).min? := by
  intro value hvalue
  obtain ⟨x, hx, rfl⟩ := List.mem_map.mp (List.min?_mem hvalue)
  exact h x hx

theorem figureInRange_none : FigureInRange none := by simp [FigureInRange]

structure IntradayInRange (price : ℚ) (s : IntradayTechnicalSummary) : Prop where
  vwap : FigureInRange s.vwap
  sma20 : FigureInRange s.sma20
  sessionLow : FigureInRange s.sessionLow
  sessionHigh : FigureInRange s.sessionHigh
  recentLow20 : FigureInRange s.recentLow20
  recentHigh20 : FigureInRange s.recentHigh20
  change : ∃ base, ratioTo price base = .ok s.changeFromOpenPct

theorem intraday_inRange {session : List MinuteBar} (hpriced : Priced bars)
    (hsession : sessionOf bars = .ok session)
    (h : intradaySummary timeframe bars price = .ok intraday) :
    IntradayInRange price intraday := by
  by_cases hsome : bars = []
  · rw [intradaySummary, if_pos hsome] at h
    obtain rfl := Except.ok.inj h
    have hnone := figureInRange_none
    exact ⟨hnone, hnone, hnone, hnone, hnone, hnone, none, rfl⟩
  · obtain ⟨-, -, hhigh, hlow, hchange, hvwap, -, htwenty, hhigh20, hlow20⟩ :=
      intradaySummary_ok hsome hsession h
    have hin : ∀ bar ∈ session, InPriceRange bar.low ∧ InPriceRange bar.high :=
      fun bar hbar => hpriced bar (mem_of_session hsession hbar)
    have hrecent : ∀ bar ∈ trailing 20 bars, InPriceRange bar.low ∧ InPriceRange bar.high :=
      fun bar hbar => hpriced bar ((trailing_suffix 20 bars).subset hbar)
    constructor
    case vwap =>
      intro value hvalue
      rw [hvwap] at hvalue
      exact vwap_mem (fun bar hbar => ⟨(hin bar hbar).1.1, (hin bar hbar).2.2⟩) hvalue
    case sma20 =>
      intro value hvalue
      refine mean_mem (fun close hclose => ?_) (htwenty value hvalue)
      obtain ⟨bar, hbar, rfl⟩ := List.mem_map.mp ((trailing_suffix 20 _).subset hclose)
      exact hpriced.close hbar
    case sessionLow =>
      rw [hlow]
      exact figureInRange_min fun bar hbar => (hin bar hbar).1
    case sessionHigh =>
      rw [hhigh]
      exact figureInRange_max fun bar hbar => (hin bar hbar).2
    case recentLow20 =>
      rw [hlow20]
      exact figureInRange_min fun bar hbar => (hrecent bar hbar).1
    case recentHigh20 =>
      rw [hhigh20]
      exact figureInRange_max fun bar hbar => (hrecent bar hbar).2
    case change => exact ⟨_, hchange⟩

/-- Daily bars whose prices are all in range. -/
def PricedDays (bars : List DailyBar) : Prop :=
  ∀ bar ∈ bars, InPriceRange bar.low ∧ InPriceRange bar.high

theorem PricedDays.close {days : List DailyBar} (h : PricedDays days) {bar : DailyBar}
    (hbar : bar ∈ days) : InPriceRange bar.close :=
  (h bar hbar).1.between (h bar hbar).2 ⟨bar.validOhlc.2.2.2.2, bar.validOhlc.2.1⟩

structure DailyInRange (price : ℚ) (s : DailyTechnicalSummary) : Prop where
  sma20 : FigureInRange s.sma20
  recentLow20 : FigureInRange s.recentLow20
  recentHigh20 : FigureInRange s.recentHigh20
  change : ∃ base, ratioTo price base = .ok s.changePct

theorem priorDays_subset (days : List DailyBar) : priorDays days ⊆ days := by
  have hbefore : beforeLast 20 days ⊆ days :=
    ((List.dropLast_sublist _).trans (trailing_suffix _ days).sublist).subset
  have htrailing : trailing 20 days ⊆ days := (trailing_suffix 20 days).subset
  unfold priorDays
  dsimp only
  split_ifs
  · exact htrailing
  · exact hbefore
  · exact htrailing
  · exact List.Subset.refl days

theorem simpleMovingAverage_mem {values : List ℚ} {period : Nat} {low high average : ℚ}
    (hperiod : 0 < period) (hbounds : ∀ v ∈ values, low ≤ v ∧ v ≤ high)
    (h : simpleMovingAverage values period = some average) : low ≤ average ∧ average ≤ high := by
  unfold simpleMovingAverage at h
  split_ifs at h with hshort
  obtain rfl := Option.some.inj h
  have hcount : (trailing period values).length = period := by
    rw [length_trailing]
    omega
  have hsome : trailing period values ≠ [] := by
    rw [← List.length_pos_iff, hcount]
    exact hperiod
  have hmem := average_mem hsome fun v hv => hbounds v ((trailing_suffix period values).subset hv)
  rwa [hcount] at hmem

theorem daily_inRange {c : SwingScreeningConfig} {days : List DailyBar} {quote : QuoteSnapshot}
    (hpriced : PricedDays days) (h : dailySummary c days quote = .ok daily) :
    DailyInRange quote.price daily := by
  obtain ⟨indicators, hindicators, h⟩ := bind_ok.mp h
  obtain ⟨quoteDate, -, h⟩ := bind_ok.mp h
  obtain ⟨screening, -, h⟩ := bind_ok.mp h
  obtain ⟨score, -, h⟩ := bind_ok.mp h
  obtain ⟨change, hchange, h⟩ := bind_ok.mp h
  obtain rfl := Except.ok.inj h
  have hprior : ∀ bar ∈ trailing 20 (priorDays days), InPriceRange bar.low ∧
      InPriceRange bar.high :=
    fun bar hbar => hpriced bar (priorDays_subset days ((trailing_suffix 20 _).subset hbar))
  constructor
  case sma20 =>
    intro value hvalue
    rw [mapError_ok, calculate] at hindicators
    split_ifs at hindicators
    obtain rfl := Except.ok.inj hindicators
    refine simpleMovingAverage_mem (by omega) (fun close hclose => ?_) hvalue
    rw [List.map_map] at hclose
    obtain ⟨bar, hbar, rfl⟩ := List.mem_map.mp hclose
    exact hpriced.close hbar
  case recentLow20 => exact figureInRange_min fun bar hbar => (hprior bar hbar).1
  case recentHigh20 => exact figureInRange_max fun bar hbar => (hprior bar hbar).2
  case change => exact ⟨_, hchange⟩

/-! ## Texts -/

theorem priceText_total (h : 0 ≤ price ∧ price ≤ 10 ^ 14) : ∃ text, priceText price = .ok text := by
  have hbound : |price * 10 ^ 2| ≤ ((10 ^ 16 : ℤ) : ℚ) := by
    obtain ⟨hnonneg, hle⟩ := h
    norm_num at hle ⊢
    rw [abs_of_nonneg (by linarith)]
    linarith
  obtain ⟨rounded, hrounded⟩ := quantizeHalfUp_total hbound (by norm_num)
  exact ⟨_, bind_ok.mpr ⟨rounded, hrounded, rfl⟩⟩

/-- A ratio has as many digits as its percentage. -/
theorem percentText_total {base change : Option ℚ} (falling : Bool)
    (h : ratioTo price base = .ok change) : ∃ text, percentText falling change = .ok text := by
  cases change with
  | none => exact ⟨_, rfl⟩
  | some value =>
    have hvalue : ∃ n : ℤ, |n| < 10 ^ 28 ∧ value * 100 * 10 ^ 2 = n := by
      cases base with
      | none => cases h
      | some base =>
        rw [ratioTo, ratio] at h
        split_ifs at h with hbase
        · cases h
        obtain ⟨rounded, hrounded, hsome⟩ := map_ok.mp h
        unfold quantizeHalfUp at hrounded
        split_ifs at hrounded with hdigits
        refine ⟨_, hdigits, ?_⟩
        rw [← Option.some.inj hsome, ← Except.ok.inj hrounded, quantizeWith]
        ring
    obtain ⟨n, hn, heq⟩ := hvalue
    have hrounded : quantizeHalfUp 2 (value * 100) =
        .ok (quantizeWith roundHalfUp 2 (value * 100)) := by
      refine if_pos ?_
      rw [heq, roundHalfUp_intCast]
      exact hn
    exact ⟨_, bind_ok.mpr ⟨_, hrounded, rfl⟩⟩

theorem FigureInRange.text {figure : Option ℚ} (h : FigureInRange figure) {value : ℚ}
    (hvalue : figure = some value) : ∃ text, priceText value = .ok text :=
  priceText_total ⟨(h value hvalue).pos.le, (h value hvalue).2⟩

theorem priceObservation_total {quote : QuoteSnapshot} (hquote : quote.price ≤ 10 ^ 14)
    (h : DailyInRange price daily) : ∃ text, priceObservation quote daily = .ok text := by
  obtain ⟨base, hbase⟩ := h.change
  obtain ⟨text, htext⟩ := priceText_total ⟨quote.nonNegative, hquote⟩
  obtain ⟨change, hchange⟩ := percentText_total (daily.previousClose.any (quote.price < ·)) hbase
  exact ⟨_, bind_ok.mpr ⟨text, htext, bind_ok.mpr ⟨change, hchange, rfl⟩⟩⟩

theorem sessionObservation_total (quote : QuoteSnapshot)
    (h : IntradayInRange price intraday) :
    ∃ text, sessionObservation quote intraday = .ok text := by
  unfold sessionObservation
  cases hvwap : intraday.vwap with
  | none => exact ⟨_, rfl⟩
  | some vwap =>
    obtain ⟨base, hbase⟩ := h.change
    obtain ⟨text, htext⟩ := h.vwap.text hvwap
    obtain ⟨change, hchange⟩ := percentText_total (intraday.sessionOpen.any (quote.price < ·)) hbase
    exact ⟨_, bind_ok.mpr ⟨change, hchange, bind_ok.mpr ⟨text, htext, rfl⟩⟩⟩

theorem entryText_total {levels : TechnicalLevels} (h : IntradayInRange price intraday)
    (hlevels : ∀ level ∈ levels.resistances, InPriceRange level.price) :
    ∃ text, entryText intraday levels = .ok text := by
  unfold entryText
  cases hresistances : levels.resistances with
  | nil =>
    cases hvwap : intraday.vwap with
    | none => exact ⟨_, rfl⟩
    | some vwap =>
      obtain ⟨text, htext⟩ := h.vwap.text hvwap
      exact ⟨_, map_ok.mpr ⟨text, htext, rfl⟩⟩
  | cons nearest rest =>
    rw [hresistances] at hlevels
    have hnearest := hlevels nearest List.mem_cons_self
    obtain ⟨text, htext⟩ := priceText_total ⟨nearest.nonNegative, hnearest.2⟩
    exact ⟨_, map_ok.mpr ⟨text, htext, rfl⟩⟩

theorem invalidationText_total {levels : TechnicalLevels}
    (hlevels : ∀ level ∈ levels.supports, InPriceRange level.price) :
    ∃ text, invalidationText levels = .ok text := by
  unfold invalidationText
  cases hsupports : levels.supports with
  | nil => exact ⟨_, rfl⟩
  | cons nearest rest =>
    rw [hsupports] at hlevels
    have hnearest := hlevels nearest List.mem_cons_self
    obtain ⟨text, htext⟩ := priceText_total ⟨nearest.nonNegative, hnearest.2⟩
    exact ⟨_, map_ok.mpr ⟨text, htext, rfl⟩⟩

theorem riskFlags_total {quote : QuoteSnapshot} (hquote : quote.price ≤ 10 ^ 14)
    (h : IntradayInRange price intraday) (warnings : List StockWarning) :
    ∃ flags, riskFlags quote daily intraday warnings = .ok flags := by
  have hchased : ∃ chased, chasesVwap quote.price intraday.vwap = .ok chased := by
    unfold chasesVwap
    cases hvwap : intraday.vwap with
    | none => exact ⟨_, rfl⟩
    | some vwap =>
      obtain ⟨change, hchange⟩ := ratio_total quote.nonNegative hquote (h.vwap vwap hvwap)
      exact ⟨_, (if_pos (h.vwap vwap hvwap).pos).trans (map_ok.mpr ⟨change, hchange, rfl⟩)⟩
  obtain ⟨chased, hchased⟩ := hchased
  exact ⟨_, bind_ok.mpr ⟨chased, hchased, rfl⟩⟩

/-- The levels of figures in range are in range. -/
theorem levels_inRange (hdaily : DailyInRange price daily)
    (hintraday : IntradayInRange price intraday) {side : ℚ → Prop}
    {closer : ℚ → ℚ → Prop} {out : List PriceLevel}
    (h : NearestLevels (candidateLevels daily intraday) side closer out) :
    ∀ level ∈ out, InPriceRange level.price := by
  intro level hlevel
  obtain ⟨-, hsome, hbasis⟩ := h.sound level hlevel
  obtain ⟨label, hlabel⟩ := List.exists_mem_of_ne_nil _ hsome
  rw [hbasis] at hlabel
  have hentry := mem_basisAt.mp hlabel
  simp only [candidateLevels, List.mem_cons, Prod.mk.injEq, List.not_mem_nil, or_false] at hentry
  rcases hentry with h | h | h | h | h | h | h | h | h
  · exact hintraday.vwap _ h.1.symm
  · exact hintraday.sma20 _ h.1.symm
  · exact hintraday.sessionLow _ h.1.symm
  · exact hintraday.sessionHigh _ h.1.symm
  · exact hintraday.recentLow20 _ h.1.symm
  · exact hintraday.recentHigh20 _ h.1.symm
  · exact hdaily.sma20 _ h.1.symm
  · exact hdaily.recentLow20 _ h.1.symm
  · exact hdaily.recentHigh20 _ h.1.symm

/-- Levels and narrative of figures in range are there. -/
theorem narrative_total {quote : QuoteSnapshot} (hquote : quote.price ≤ 10 ^ 14)
    (hdaily : DailyInRange price daily)
    (hintraday : IntradayInRange price intraday) (warnings : List StockWarning) :
    ∃ out text, levels quote.price daily intraday = .ok out ∧
      narrative quote daily intraday out warnings = .ok text := by
  obtain ⟨below, above, hlevels, hbelow, habove⟩ := levels_sides quote.price daily intraday
  obtain ⟨ofPrice, hprice⟩ := priceObservation_total hquote hdaily
  obtain ⟨ofSession, hsession⟩ := sessionObservation_total quote hintraday
  obtain ⟨entry, hentry⟩ : ∃ text, entryText intraday ⟨below, above⟩ = .ok text :=
    entryText_total hintraday (levels_inRange hdaily hintraday habove)
  obtain ⟨invalidation, hinvalidation⟩ : ∃ text, invalidationText ⟨below, above⟩ = .ok text :=
    invalidationText_total (levels_inRange hdaily hintraday hbelow)
  obtain ⟨flags, hflags⟩ : ∃ flags, riskFlags quote daily intraday warnings = .ok flags :=
    riskFlags_total hquote hintraday warnings
  exact ⟨_, _, hlevels, bind_ok.mpr ⟨ofPrice, hprice, bind_ok.mpr ⟨ofSession, hsession,
    bind_ok.mpr ⟨entry, hentry, bind_ok.mpr ⟨invalidation, hinvalidation,
      bind_ok.mpr ⟨flags, hflags, rfl⟩⟩⟩⟩⟩⟩

end Screener.Market
