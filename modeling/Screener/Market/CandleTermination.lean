import Screener.Market.CandleLoop

/-!
# When the pages come to an end

Nothing bounds the pages of a provider. The loop ends at a page that it refuses, at one
that reaches the start of the range, at one without a cursor, or at a cursor that it has
used before; and it ends at no other page.
-/

namespace Screener.Market

open Screener.Lib

namespace BarQuery

/-- The cursor of request `n`: the first one, or that of the page before. -/
def cursorAt (q : BarQuery) (pages : Nat → CandlePage) : Nat → Option String
  | 0 => some q.firstCursor
  | n + 1 => (pages n).next

/-- The candles of the first `n` pages. -/
def candlesBefore (pages : Nat → CandlePage) (n : Nat) : List CandleRow :=
  (List.range n).flatMap fun m => (pages m).candles

theorem candlesBefore_succ (pages : Nat → CandlePage) (n : Nat) :
    candlesBefore pages (n + 1) = candlesBefore pages n ++ (pages n).candles := by
  simp [candlesBefore, List.range_succ]

/-- Page `n` ends the loop. -/
inductive StopsAt (q : BarQuery) (pages : Nat → CandlePage) (n : Nat) : Prop
  | unreadable (row : CandleRow) (hrow : row ∈ (pages n).candles) (h : row.bar q.symbol = none)
  | conflicting (bar bar' : DailyBar) (hbar : bar ∈ q.barsIn (candlesBefore pages (n + 1)))
      (hbar' : bar' ∈ q.barsIn (candlesBefore pages (n + 1)))
      (hdate : bar.tradingDate = bar'.tradingDate) (h : bar ≠ bar')
  | reached (row : CandleRow) (hrow : row ∈ (pages n).candles) (s : Stamp)
      (hs : row.stamp = some s) (h : s.date ≤ q.start)
  | last (h : (pages n).next = none)
  | repeated (m : Nat) (hm : m ≤ n) (h : (pages n).next = q.cursorAt pages m)

/-- The loop after `n` pages. -/
structure PageInv (q : BarQuery) (pages : Nat → CandlePage) (n : Nat) (s : PageState) : Prop where
  before : q.cursorAt pages n = some s.before
  cursors : ∀ cursor, cursor ∈ s.cursors ↔ ∃ m < n, q.cursorAt pages m = some cursor
  collected : q.Collected (candlesBefore pages n) s.byDate

variable {q : BarQuery} {pages : Nat → CandlePage} {n : Nat} {s t : PageState}

theorem pageInv_first (q : BarQuery) (pages : Nat → CandlePage) :
    q.PageInv pages 0 (.first q.firstCursor) where
  before := rfl
  cursors cursor := by simp [PageState.first]
  collected := q.collected_nil

/-- A page that the loop goes on from does not end it, except by its cursor. -/
theorem PageInv.step (h : q.PageInv pages n s)
    (hstep : q.pageStep (servedPages pages) n s = .inl t) :
    q.PageInv pages (n + 1) t ∧ (q.StopsAt pages n → t.before ∈ t.cursors) := by
  obtain ⟨-, page, cursor, byDate, hpage, hrows, hstart, hnext, rfl⟩ := pageStep_inl.mp hstep
  obtain rfl := Except.ok.inj hpage
  obtain ⟨hreadable, hcollected⟩ := h.collected.append hrows
  rw [← candlesBefore_succ] at hcollected
  have hcursors : ∀ c, c ∈ s.before :: s.cursors ↔ ∃ m < n + 1, q.cursorAt pages m = some c := by
    intro c
    rw [List.mem_cons, h.cursors]
    constructor
    · rintro (rfl | ⟨m, hm, hc⟩)
      · exact ⟨n, Nat.lt_succ_self n, h.before⟩
      · exact ⟨m, Nat.lt_succ_of_lt hm, hc⟩
    · rintro ⟨m, hm, hc⟩
      rcases Nat.lt_succ_iff_lt_or_eq.mp hm with hm | rfl
      · exact .inr ⟨m, hm, hc⟩
      · exact .inl (Option.some.inj (hc.symm.trans h.before))
  refine ⟨⟨hnext, hcursors, hcollected⟩, fun hstops => ?_⟩
  cases hstops with
  | unreadable row hrow hnone =>
    obtain ⟨bar, hbar⟩ := hreadable row hrow
    rw [hbar] at hnone
    cases hnone
  | conflicting bar bar' hbar hbar' hdate hne =>
    exact absurd (hcollected.consistent bar hbar bar' hbar' hdate) hne
  | reached row hrow stamp hs hle =>
    rw [reachedStart_iff.mpr ⟨row, hrow, stamp, hs, hle⟩] at hstart
    cases hstart
  | last hlast =>
    rw [hlast] at hnext
    cases hnext
  | repeated m hm hsame =>
    exact (hcursors cursor).mpr ⟨m, Nat.lt_succ_of_le hm, hsame.symm.trans hnext⟩

/-- From a page that does not end it the loop goes on, to a cursor that is new. -/
theorem PageInv.goes (h : q.PageInv pages n s) (hfresh : s.before ∉ s.cursors)
    (hstops : ¬q.StopsAt pages n) :
    ∃ t, q.pageStep (servedPages pages) n s = .inl t ∧ q.PageInv pages (n + 1) t ∧
      t.before ∉ t.cursors := by
  have hreadable : q.Readable (pages n).candles := by
    intro row hrow
    exact Option.ne_none_iff_exists'.mp fun hnone => hstops (.unreadable row hrow hnone)
  have hconsistent : q.Consistent (candlesBefore pages n ++ (pages n).candles) := by
    intro bar hbar bar' hbar' hdate
    rw [← candlesBefore_succ] at hbar hbar'
    exact not_not.mp fun hne => hstops (.conflicting bar bar' hbar hbar' hdate hne)
  have hstart : q.reachedStart (pages n).candles = false := by
    rw [← Bool.not_eq_true, reachedStart_iff]
    rintro ⟨row, hrow, stamp, hs, hle⟩
    exact hstops (.reached row hrow stamp hs hle)
  obtain ⟨cursor, hnext⟩ := Option.ne_none_iff_exists'.mp fun hnone => hstops (.last hnone)
  obtain ⟨byDate, hrows⟩ := collect_exists h.collected hreadable hconsistent
  have hstep : q.pageStep (servedPages pages) n s = .inl ⟨cursor, s.before :: s.cursors, byDate⟩ :=
    pageStep_inl.mpr ⟨hfresh, pages n, cursor, byDate, rfl, hrows, hstart, hnext, rfl⟩
  have hinv := (h.step hstep).1
  refine ⟨_, hstep, hinv, fun hin => ?_⟩
  obtain ⟨m, hm, hsame⟩ := (hinv.cursors cursor).mp hin
  exact hstops (.repeated m (Nat.le_of_lt_succ hm) (hnext.trans hsame.symm))

/-- Pages none of which ends the loop are asked for without an end. -/
theorem drive_eq_none_of_not_stopsAt (h : ∀ n, ¬q.StopsAt pages n) (fuel : Nat) :
    drive (q.pageStep (servedPages pages)) fuel 0 (.first q.firstCursor) = none := by
  refine drive_eq_none (fun n s => q.PageInv pages n s ∧ s.before ∉ s.cursors) ?_ fuel
    ⟨pageInv_first q pages, List.not_mem_nil⟩
  rintro n s ⟨hinv, hfresh⟩
  exact hinv.goes hfresh (h n)

/-- A page that ends the loop is the last one, or the one after it would be. -/
theorem ends_of_stopsAt {last : Nat} (h : q.StopsAt pages last) :
    ∃ result, Ends (q.pageStep (servedPages pages)) 0 (.first q.firstCursor) result := by
  suffices hends : ∃ result, Ends (q.pageStep (servedPages pages)) 0 (.first q.firstCursor) result ∧
      True from hends.imp fun _ => And.left
  refine ends_of_measure (fun n s => q.PageInv pages n s ∧ (n ≤ last ∨ s.before ∈ s.cursors))
    (fun n _ => last + 1 - n) ?_ ⟨pageInv_first q pages, .inl (Nat.zero_le last)⟩
  rintro n s ⟨hinv, hn⟩
  cases hstep : q.pageStep (servedPages pages) n s with
  | inr result => exact .inr ⟨result, rfl, trivial⟩
  | inl t =>
    have hfresh := (pageStep_inl.mp hstep).1
    have hn := hn.resolve_right hfresh
    obtain ⟨hnext, hrepeated⟩ := hinv.step hstep
    refine .inl ⟨t, rfl, ⟨hnext, ?_⟩, by omega⟩
    rcases Nat.lt_or_eq_of_le hn with hlt | rfl
    · exact .inl hlt
    · exact .inr (hrepeated h)

/-- The loop returns or raises exactly when some page ends it. -/
theorem dailyBars_ends_iff (q : BarQuery) (pages : Nat → CandlePage) (hrange : q.start ≤ q.end) :
    (∃ fuel result, q.dailyBars (servedPages pages) fuel = some result) ↔
      ∃ n, q.StopsAt pages n := by
  have hdrive : ∀ fuel, q.dailyBars (servedPages pages) fuel =
      drive (q.pageStep (servedPages pages)) fuel 0 (.first q.firstCursor) :=
    fun fuel => if_neg (Nat.not_lt.mpr hrange)
  simp only [hdrive]
  constructor
  · rintro ⟨fuel, result, hrun⟩
    by_contra hnone
    rw [drive_eq_none_of_not_stopsAt (not_exists.mp hnone) fuel] at hrun
    cases hrun
  · rintro ⟨n, hstops⟩
    obtain ⟨result, fuel, hrun⟩ := ends_of_stopsAt hstops
    exact ⟨fuel, result, hrun⟩

/-! ## Pages without an end -/

/-- Empty pages, each with a longer cursor. -/
def endlessPages (q : BarQuery) (n : Nat) : CandlePage where
  candles := []
  nextBefore := some (q.firstCursor ++ String.ofList (List.replicate (n + 1) 'x'))

theorem cursorAt_endless (q : BarQuery) (n : Nat) : q.cursorAt q.endlessPages n =
    some (q.firstCursor ++ String.ofList (List.replicate n 'x')) := by
  cases n with
  | zero => simp [cursorAt]
  | succ n =>
    have hne : q.firstCursor ++ String.ofList (List.replicate (n + 1) 'x') ≠ "" := by
      intro h
      have hlength := congrArg String.length h
      simp at hlength
    rw [cursorAt, CandlePage.next, endlessPages, Option.filter_some, if_pos (decide_eq_true hne)]

theorem not_stopsAt_endless (q : BarQuery) (n : Nat) : ¬q.StopsAt q.endlessPages n := by
  have hcandles : candlesBefore q.endlessPages (n + 1) = [] := by
    simp [candlesBefore, endlessPages]
  have hnext := cursorAt_endless q (n + 1)
  rw [cursorAt] at hnext
  intro hstops
  cases hstops with
  | unreadable row hrow h => cases hrow
  | conflicting bar bar' hbar =>
    rw [hcandles] at hbar
    cases hbar
  | reached row hrow => cases hrow
  | last h =>
    rw [hnext] at h
    cases h
  | repeated m hm h =>
    rw [hnext, cursorAt_endless, Option.some.injEq] at h
    have hlength := congrArg String.length h
    simp at hlength
    omega

/-- A provider can keep `daily_bars` asking for ever. -/
theorem dailyBars_endless : ¬∀ (q : BarQuery) (pages : Nat → CandlePage), q.start ≤ q.end →
    ∃ fuel result, q.dailyBars (servedPages pages) fuel = some result := by
  intro hall
  let q : BarQuery := ⟨"005930", 739618, 739618, 739618, fun _ => 32400000000⟩
  obtain ⟨fuel, result, hrun⟩ := hall q q.endlessPages (Nat.le_refl _)
  have hnone : q.dailyBars (servedPages q.endlessPages) fuel = none :=
    (if_neg (Nat.lt_irrefl _)).trans (drive_eq_none_of_not_stopsAt (not_stopsAt_endless q) fuel)
  rw [hnone] at hrun
  cases hrun

def midnight (date : Date) : String := CivilDate.isoformat date ++ "T00:00:00+09:00"

def midnightCandle (date : Date) : CandleRow :=
  ⟨some (midnight date), some "2", some "3", some "1", some "2.5", some "20"⟩

/-- Two candles a page, day after day; the older one is the cursor, and comes again. -/
def dayPages (q : BarQuery) (n : Nat) : CandlePage where
  candles := [midnightCandle (q.end - n), midnightCandle (q.end - n - 1)]
  nextBefore := some (midnight (q.end - n - 1))

/-- The fourth page has the candle of the first day, and the loop ends with it. -/
theorem dailyBars_ends_iff_last :
    let q : BarQuery := ⟨"005930", 739618, 739622, 739622, fun _ => 32400000000⟩
    (∀ n < 4, (q.dayPages n).next ≠ none) ∧
      ∃ fuel result, q.dailyBars (servedPages q.dayPages) fuel = some result := by
  intro q
  have hfirst : ((midnightCandle 739618).stamp.map Stamp.date) = some 739618 := by decide +kernel
  obtain ⟨s, hs, hdate⟩ := Option.map_eq_some_iff.mp hfirst
  refine ⟨by decide +kernel, (dailyBars_ends_iff q _ (by decide)).mpr ⟨3, ?_⟩⟩
  exact .reached (midnightCandle 739618) (by simp [dayPages, q]) s hs hdate.le

end BarQuery

end Screener.Market
