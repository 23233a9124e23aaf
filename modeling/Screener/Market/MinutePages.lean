import Screener.Lib.Intake
import Screener.Market.CandlePages
import Screener.Market.MinuteMerge

/-!
# Minute bars from a page

`TossMarketDataProvider.minute_bars` asks for one page of candles. Its bars are collected
by their moment, and a second bar of a moment must be the first one again.
-/

namespace Screener.Market

open Screener.Lib

/-- The texts of a minute candle; a key may be missing. -/
structure MinuteRow extends CandleRow where
  currency : Option String
deriving DecidableEq, Repr

/-- The bar of a minute candle; none where reading or validating it raises. -/
def MinuteRow.minuteBar (symbol : Symbol) (row : MinuteRow) : Option MinuteBar := do
  let timestamp ← row.stamp
  let «open» ← row.openPrice.bind decimalField
  let high ← row.highPrice.bind decimalField
  let low ← row.lowPrice.bind decimalField
  let close ← row.closePrice.bind decimalField
  let volume ← row.volume.bind integerField
  let currency ← row.currency
  let values : MinuteBarValues :=
    { symbol, timestamp, «open», high, low, close, volume, currency, source := "toss"
      asOf := timestamp }
  values.create.toOption

namespace MinuteBar

/-- Two bars are equal where their values are; datetimes compare by their moments. -/
def reading (bar : MinuteBar) : MinuteBarValues :=
  { bar.toMinuteBarValues with
    timestamp := ⟨bar.timestamp.moment, some 0⟩
    asOf := ⟨bar.asOf.moment, some 0⟩ }

def moment (bar : MinuteBar) : ℤ := bar.timestamp.moment

end MinuteBar

/-- `MAX_CANDLES`. -/
def maxCandles : ℤ := 200

def invalidCount : RequestExc :=
  .provider { errorClass := .validation, message := "Invalid minute candle count" }

def collectMinute (symbol : Symbol) :
    Dict ℤ MinuteBar → MinuteRow → Except RequestExc (Dict ℤ MinuteBar) :=
  takeRow (MinuteRow.minuteBar symbol) MinuteBar.moment MinuteBar.reading malformedPage

/-- `minute_bars`; `response` is the answer to its request. -/
def minuteBars (symbol : Symbol) (count : ℤ) (response : Except RequestExc (List MinuteRow)) :
    Except RequestExc (List MinuteBar) :=
  if ¬(1 ≤ count ∧ count ≤ maxCandles) then .error invalidCount
  else do
    let rows ← response
    let byTimestamp ← rows.foldlM (collectMinute symbol) Dict.empty
    return inOrder byTimestamp

/-! ## What a page is read as -/

variable {symbol : Symbol} {count : ℤ} {rows : List MinuteRow} {bars : List MinuteBar}

/-- The bars of a page, as they come. -/
def barsOf (symbol : Symbol) (rows : List MinuteRow) : List MinuteBar :=
  rows.filterMap (MinuteRow.minuteBar symbol)

theorem symbol_of_minuteBar {row : MinuteRow} {bar : MinuteBar}
    (h : row.minuteBar symbol = some bar) :
    bar.symbol = symbol := by
  simp only [MinuteRow.minuteBar, Option.bind_eq_bind, Option.bind_eq_some_iff] at h
  obtain ⟨stamp, -, o, -, high, -, low, -, close, -, volume, -, currency, -, hcreate⟩ := h
  rw [toOption_eq_some] at hcreate
  unfold MinuteBarValues.create at hcreate
  split_ifs at hcreate
  rw [Except.ok.injEq] at hcreate
  rw [← hcreate]

theorem minuteBars_ok : minuteBars symbol count (.ok rows) = .ok bars ↔
    (1 ≤ count ∧ count ≤ maxCandles) ∧ (∀ row ∈ rows, (row.minuteBar symbol).isSome) ∧
      ∃ d, (barsOf symbol rows).foldlM (takeIn MinuteBar.moment MinuteBar.reading malformedPage)
        Dict.empty = .ok d ∧ bars = inOrder d := by
  unfold minuteBars
  constructor
  · intro h
    split_ifs at h with hcount
    obtain ⟨rows', hrows, hrest⟩ := bind_ok.mp h
    obtain rfl := Except.ok.inj hrows
    obtain ⟨d, hcollect, hbars⟩ := bind_ok.mp hrest
    obtain ⟨hreadable, hrun⟩ := takeRow_ok.mp hcollect
    exact ⟨hcount, hreadable, d, hrun, (pure_ok.mp hbars).symm⟩
  · rintro ⟨hcount, hreadable, d, hrun, rfl⟩
    rw [if_neg (not_not_intro hcount)]
    exact bind_ok.mpr ⟨rows, rfl, bind_ok.mpr ⟨d, takeRow_ok.mpr ⟨hreadable, hrun⟩, rfl⟩⟩

/-- What the bars of a page are. -/
structure PageBars (symbol : Symbol) (rows : List MinuteRow) (bars : List MinuteBar) : Prop where
  increasing : bars.Pairwise fun a b => a.moment < b.moment
  ofPage : ∀ bar ∈ bars, bar ∈ barsOf symbol rows
  complete : ∀ bar ∈ barsOf symbol rows, ∃ kept ∈ bars, kept.reading = bar.reading

theorem pageBars (h : minuteBars symbol count (.ok rows) = .ok bars) :
    PageBars symbol rows bars := by
  obtain ⟨-, -, d, hrun, rfl⟩ := minuteBars_ok.mp h
  have htaken : Taken MinuteBar.moment MinuteBar.reading (barsOf symbol rows) d :=
      taken_nil.run hrun
  constructor
  case increasing => exact htaken.inOrder_strict
  case ofPage =>
    intro bar hbar
    obtain ⟨k, hk⟩ := mem_inOrder.mp hbar
    exact (htaken.sound k bar hk).1
  case complete =>
    intro bar hbar
    obtain ⟨kept, hkept, hreading⟩ := htaken.complete bar hbar
    exact ⟨kept, mem_inOrder.mpr ⟨_, hkept⟩, hreading⟩

/-- Candles are refused only where one is no bar or two of a moment differ. -/
theorem minuteBars_ok_iff : (∃ bars, minuteBars symbol count (.ok rows) = .ok bars) ↔
    (1 ≤ count ∧ count ≤ maxCandles) ∧ (∀ row ∈ rows, (row.minuteBar symbol).isSome) ∧
      Agreeing MinuteBar.moment MinuteBar.reading (barsOf symbol rows) := by
  rw [← intake_ok_iff malformedPage]
  simp only [minuteBars_ok]
  constructor
  · rintro ⟨bars, hcount, hreadable, d, hrun, -⟩
    exact ⟨hcount, hreadable, d, hrun⟩
  · rintro ⟨hcount, hreadable, d, hrun⟩
    exact ⟨inOrder d, hcount, hreadable, d, hrun, rfl⟩

theorem reading_moment (bar : MinuteBar) : bar.reading.timestamp.wall = bar.moment := rfl

theorem PageBars.symbol_eq (h : PageBars symbol rows bars) {bar : MinuteBar} (hbar : bar ∈ bars) :
    bar.symbol = symbol := by
  obtain ⟨row, -, hrow⟩ := List.mem_filterMap.mp (h.ofPage bar hbar)
  exact symbol_of_minuteBar hrow

/-- Bars with the readings of bars that agree do so too. -/
theorem agreeing_of_readings {ys : List MinuteBar}
    (h : Agreeing MinuteBar.moment MinuteBar.reading bars)
    (hsame : ∀ v, v ∈ ys.map MinuteBar.reading ↔ v ∈ bars.map MinuteBar.reading) :
    Agreeing MinuteBar.moment MinuteBar.reading ys := by
  intro a ha b hb hmoment
  obtain ⟨a', ha', hra⟩ := List.mem_map.mp ((hsame _).mp (List.mem_map_of_mem ha))
  obtain ⟨b', hb', hrb⟩ := List.mem_map.mp ((hsame _).mp (List.mem_map_of_mem hb))
  rw [← hra, ← hrb]
  refine h a' ha' b' hb' ?_
  rw [← reading_moment, ← reading_moment, hra, hrb]
  exact hmoment

theorem PageBars.readings_mem (h : PageBars symbol rows bars) {v : MinuteBarValues} :
    v ∈ bars.map MinuteBar.reading ↔ v ∈ (barsOf symbol rows).map MinuteBar.reading := by
  simp only [List.mem_map]
  constructor
  · rintro ⟨bar, hbar, rfl⟩
    exact ⟨bar, h.ofPage bar hbar, rfl⟩
  · rintro ⟨bar, hbar, rfl⟩
    exact h.complete bar hbar

theorem PageBars.readings_increasing (h : PageBars symbol rows bars) :
    (bars.map MinuteBar.reading).Pairwise fun a b => a.timestamp.wall < b.timestamp.wall :=
  List.pairwise_map.mpr h.increasing

/-- A page is read as a series of bars of the symbol, one for each moment, exactly where its
candles are bars and agree; another page with the same bars in any order, repeated or
not, is read as the same series. -/
theorem minute_page (symbol : Symbol) (count : ℤ) (rows : List MinuteRow) :
    ((∃ bars, minuteBars symbol count (.ok rows) = .ok bars) ↔
      (1 ≤ count ∧ count ≤ maxCandles) ∧ (∀ row ∈ rows, (row.minuteBar symbol).isSome) ∧
        Agreeing MinuteBar.moment MinuteBar.reading (barsOf symbol rows)) ∧
    ∀ bars, minuteBars symbol count (.ok rows) = .ok bars →
      PageBars symbol rows bars ∧ (∀ bar ∈ bars, bar.symbol = symbol) ∧
      ∀ rows' : List MinuteRow, (∀ row ∈ rows', (row.minuteBar symbol).isSome) →
        (∀ v, v ∈ (barsOf symbol rows').map MinuteBar.reading ↔
          v ∈ (barsOf symbol rows).map MinuteBar.reading) →
        ∃ bars', minuteBars symbol count (.ok rows') = .ok bars' ∧
          bars'.map MinuteBar.reading = bars.map MinuteBar.reading := by
  refine ⟨minuteBars_ok_iff, fun bars hbars => ?_⟩
  have hpage := pageBars hbars
  obtain ⟨hcount, -, hagree⟩ := minuteBars_ok_iff.mp ⟨bars, hbars⟩
  refine ⟨hpage, fun bar => hpage.symbol_eq, fun rows' hreadable hsame => ?_⟩
  obtain ⟨bars', hbars'⟩ := minuteBars_ok_iff.mpr
    ⟨hcount, hreadable, agreeing_of_readings hagree hsame⟩
  have hpage' := pageBars hbars'
  refine ⟨bars', hbars', eq_of_mem_iff (fun v : MinuteBarValues => v.timestamp.wall)
    hpage'.readings_increasing hpage.readings_increasing fun v => ?_⟩
  rw [hpage'.readings_mem, hpage.readings_mem, hsame]

end Screener.Market
