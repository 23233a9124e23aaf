import Screener.Lib.Loop
import Screener.Lib.Sorted
import Screener.Market.CandlePages

/-!
# The bars that pages collect

After some pages the loop holds, by date, exactly the bars of the range that their
candles stand for. A page is refused where a candle is no bar, or where two candles of a
date are different bars.
-/

namespace Screener.Market

open Screener.Lib

namespace BarQuery

/-! ## What some candles stand for -/

/-- The bars of the range, in the order of their candles. -/
def barsIn (q : BarQuery) (rows : List CandleRow) : List DailyBar :=
  (rows.filterMap (·.bar q.symbol)).filter fun bar => q.InRange bar.tradingDate

def Readable (q : BarQuery) (rows : List CandleRow) : Prop :=
  ∀ row ∈ rows, ∃ bar, row.bar q.symbol = some bar

/-- Two bars of one date are one bar. -/
def Consistent (q : BarQuery) (rows : List CandleRow) : Prop :=
  ∀ bar ∈ q.barsIn rows, ∀ bar' ∈ q.barsIn rows, bar.tradingDate = bar'.tradingDate → bar = bar'

/-- The bars of the range by their dates. -/
def Collected (q : BarQuery) (rows : List CandleRow) (byDate : Dict Date DailyBar) : Prop :=
  ∀ date bar, byDate.get? date = some bar ↔ bar ∈ q.barsIn rows ∧ bar.tradingDate = date

variable {q : BarQuery} {seen rows : List CandleRow} {row : CandleRow} {bar : DailyBar}
  {byDate byDate' : Dict Date DailyBar}

theorem mem_barsIn : bar ∈ q.barsIn rows ↔
    ∃ row ∈ rows, row.bar q.symbol = some bar ∧ q.InRange bar.tradingDate := by
  simp only [barsIn, List.mem_filter, List.mem_filterMap, decide_eq_true_eq]
  constructor
  · rintro ⟨⟨row, hrow, hbar⟩, hrange⟩
    exact ⟨row, hrow, hbar, hrange⟩
  · rintro ⟨row, hrow, hbar, hrange⟩
    exact ⟨⟨row, hrow, hbar⟩, hrange⟩

/-- Candles without a bar in the range may be left out. -/
theorem barsIn_filter {p : CandleRow → Bool} (h : ∀ row ∈ rows, p row = false →
      ∀ bar, row.bar q.symbol = some bar → ¬q.InRange bar.tradingDate) :
    q.barsIn (rows.filter p) = q.barsIn rows := by
  unfold barsIn
  induction rows with
  | nil => rfl
  | cons row rest ih =>
    obtain ⟨hrow, hrest⟩ := List.forall_mem_cons.mp h
    have hsame := ih hrest
    cases hbar : row.bar q.symbol with
    | none =>
      cases hp : p row with
      | true => simp [hp, hbar, hsame]
      | false => simp [hp, hbar, hsame]
    | some bar =>
      cases hp : p row with
      | true => simp [List.filter_cons, hp, hbar, hsame]
      | false => simp [hp, hbar, hsame, hrow hp bar hbar]

theorem mem_barsIn_concat (hrow : row.bar q.symbol = some bar) {other : DailyBar} :
    other ∈ q.barsIn (seen ++ [row]) ↔
      other ∈ q.barsIn seen ∨ other = bar ∧ q.InRange bar.tradingDate := by
  simp only [mem_barsIn, List.mem_append, List.mem_singleton]
  constructor
  · rintro ⟨r, hr | rfl, hbar, hrange⟩
    · exact .inl ⟨r, hr, hbar, hrange⟩
    · obtain rfl := Option.some.inj (hrow.symm.trans hbar)
      exact .inr ⟨rfl, hrange⟩
  · rintro (⟨r, hr, hbar, hrange⟩ | ⟨rfl, hrange⟩)
    · exact ⟨r, .inl hr, hbar, hrange⟩
    · exact ⟨row, .inr rfl, hrow, hrange⟩

theorem collected_nil (q : BarQuery) : q.Collected [] Dict.empty := by
  intro date bar
  simp [barsIn]

theorem Collected.consistent (h : q.Collected rows byDate) : q.Consistent rows := by
  intro bar hbar bar' hbar' hdate
  have hget := (h bar.tradingDate bar).mpr ⟨hbar, rfl⟩
  have hget' := (h bar.tradingDate bar').mpr ⟨hbar', hdate.symm⟩
  exact Option.some.inj (hget.symm.trans hget')

/-- Only the bars matter, not how often or in which order their candles come. -/
theorem Collected.congr (h : q.Collected rows byDate) {rows' : List CandleRow}
    (hrows : ∀ bar, bar ∈ q.barsIn rows ↔ bar ∈ q.barsIn rows') : q.Collected rows' byDate :=
  fun date bar => (h date bar).trans (and_congr_left' (hrows bar))

/-! ## One candle -/

theorem collectRow_ok : q.collectRow byDate row = .ok byDate' ↔
    ∃ bar, row.bar q.symbol = some bar ∧
      (q.InRange bar.tradingDate ∧ (∀ old, byDate.get? bar.tradingDate = some old → old = bar) ∧
          byDate.set bar.tradingDate bar = byDate' ∨
        ¬q.InRange bar.tradingDate ∧ byDate = byDate') := by
  unfold collectRow
  cases hbar : row.bar q.symbol with
  | none => simp
  | some bar =>
    simp only [Option.some.injEq, exists_eq_left']
    have hold : ¬(byDate.get? bar.tradingDate).any (· ≠ bar) = true ↔
        ∀ old, byDate.get? bar.tradingDate = some old → old = bar := by
      cases byDate.get? bar.tradingDate with
      | none => simp
      | some old => simp
    split_ifs with hrange hconflict
    · simp only [hrange, not_true_eq_false, false_and, or_false, true_and, false_iff,
        not_and]
      exact fun h => absurd hconflict (hold.mpr h)
    · simp only [hrange, not_true_eq_false, false_and, or_false, true_and, Except.ok.injEq]
      exact (and_iff_right (hold.mp hconflict)).symm
    · simp [hrange]

theorem Collected.concat (h : q.Collected seen byDate)
    (hrow : q.collectRow byDate row = .ok byDate') :
    q.Collected (seen ++ [row]) byDate' := by
  obtain ⟨bar, hbar, ⟨hrange, hold, rfl⟩ | ⟨hrange, rfl⟩⟩ := collectRow_ok.mp hrow
  · intro date other
    rw [mem_barsIn_concat hbar, Dict.get?_set]
    split_ifs with hdate
    · constructor
      · intro heq
        obtain rfl := Option.some.inj heq
        exact ⟨.inr ⟨rfl, hrange⟩, hdate.symm⟩
      · rintro ⟨hin | ⟨rfl, -⟩, hother⟩
        · rw [hold other ((h _ _).mpr ⟨hin, hother.trans hdate⟩)]
        · rfl
    · rw [h date other]
      refine and_congr_left fun hother => (or_iff_left fun hnew => hdate ?_).symm
      rw [← hother, hnew.1]
  · intro date other
    rw [mem_barsIn_concat hbar, h date other]
    refine and_congr_left' (or_iff_left fun hnew => hrange hnew.2).symm

theorem collectRow_exists (h : q.Collected seen byDate) (hbar : row.bar q.symbol = some bar)
    (hconsistent : q.Consistent (seen ++ [row])) :
    ∃ byDate', q.collectRow byDate row = .ok byDate' := by
  by_cases hrange : q.InRange bar.tradingDate
  · refine ⟨_, collectRow_ok.mpr ⟨bar, hbar, .inl ⟨hrange, fun old hold => ?_, rfl⟩⟩⟩
    obtain ⟨hin, hdate⟩ := (h _ _).mp hold
    exact hconsistent old ((mem_barsIn_concat hbar).mpr (.inl hin)) bar
      ((mem_barsIn_concat hbar).mpr (.inr ⟨rfl, hrange⟩)) hdate
  · exact ⟨byDate, collectRow_ok.mpr ⟨bar, hbar, .inr ⟨hrange, rfl⟩⟩⟩

/-! ## The candles of a page -/

theorem Collected.append (h : q.Collected seen byDate)
    (hrows : rows.foldlM q.collectRow byDate = .ok byDate') :
    q.Readable rows ∧ q.Collected (seen ++ rows) byDate' := by
  induction rows generalizing seen byDate with
  | nil =>
    rw [foldlM_nil_ok] at hrows
    rw [List.append_nil, ← hrows]
    exact ⟨fun row hrow => absurd hrow List.not_mem_nil, h⟩
  | cons row rest ih =>
    obtain ⟨next, hrow, hrest⟩ := foldlM_cons_ok.mp hrows
    obtain ⟨bar, hbar, -⟩ := collectRow_ok.mp hrow
    obtain ⟨hreadable, hcollected⟩ := ih (h.concat hrow) hrest
    rw [List.append_assoc] at hcollected
    exact ⟨List.forall_mem_cons.mpr ⟨⟨bar, hbar⟩, hreadable⟩, hcollected⟩

theorem Consistent.mono {rows' : List CandleRow} (h : q.Consistent rows') (hsub : rows ⊆ rows') :
    q.Consistent rows := by
  have hbars : ∀ bar ∈ q.barsIn rows, bar ∈ q.barsIn rows' := by
    intro bar hbar
    obtain ⟨row, hrow, hread⟩ := mem_barsIn.mp hbar
    exact mem_barsIn.mpr ⟨row, hsub hrow, hread⟩
  exact fun bar hbar bar' hbar' => h bar (hbars bar hbar) bar' (hbars bar' hbar')

theorem collect_exists (h : q.Collected seen byDate) (hreadable : q.Readable rows)
    (hconsistent : q.Consistent (seen ++ rows)) :
    ∃ byDate', rows.foldlM q.collectRow byDate = .ok byDate' := by
  induction rows generalizing seen byDate with
  | nil => exact ⟨byDate, rfl⟩
  | cons row rest ih =>
    obtain ⟨⟨bar, hbar⟩, hreadable⟩ := List.forall_mem_cons.mp hreadable
    have hsub : seen ++ [row] ⊆ seen ++ row :: rest :=
      List.append_subset.mpr ⟨List.subset_append_left _ _,
        List.cons_subset.mpr ⟨List.mem_append_right _ List.mem_cons_self, List.nil_subset _⟩⟩
    obtain ⟨next, hrow⟩ := collectRow_exists h hbar (hconsistent.mono hsub)
    obtain ⟨byDate', hrest⟩ := ih (h.concat hrow) hreadable (by rwa [List.append_assoc])
    exact ⟨byDate', foldlM_cons_ok.mpr ⟨next, hrow, hrest⟩⟩

/-! ## The bars in order -/

/-- The bars of candles that come newest first are returned the other way round. -/
theorem ordered_eq (h : q.Collected rows byDate)
    (hnewest : (q.barsIn rows).Pairwise fun a b => b.tradingDate < a.tradingDate) :
    ordered byDate = (q.barsIn rows).reverse := by
  have hbars : (q.barsIn rows).reverse.Pairwise fun a b => a.tradingDate < b.tradingDate :=
    List.pairwise_reverse.mpr hnewest
  have hkeys : byDate.keys.insertionSort (· ≤ ·) = (q.barsIn rows).reverse.map (·.tradingDate) := by
    refine eq_of_mem_iff id (insertionSort_strict id ?_) (List.pairwise_map.mpr hbars) fun date =>
      ?_
    · rw [List.map_id]
      exact byDate.keys_nodup
    · rw [List.mem_insertionSort, Dict.mem_keys, List.mem_map]
      simp only [h date, List.mem_reverse]
  rw [ordered, hkeys, List.filterMap_map]
  refine (List.filterMap_congr fun bar hbar => ?_).trans List.filterMap_some
  exact (h _ bar).mpr ⟨List.mem_reverse.mp hbar, rfl⟩

/-! ## The stop of a page -/

theorem reachedStart_iff : q.reachedStart rows = true ↔
    ∃ row ∈ rows, ∃ s, row.stamp = some s ∧ s.date ≤ q.start := by
  have hdates : (∃ row ∈ rows, ∃ s, row.stamp = some s ∧ s.date ≤ q.start) ↔
      ∃ date ∈ (rows.filterMap CandleRow.stamp).map Stamp.date, date ≤ q.start := by
    simp only [List.mem_map, List.mem_filterMap]
    constructor
    · rintro ⟨row, hrow, s, hs, hle⟩
      exact ⟨s.date, ⟨s, ⟨row, hrow, hs⟩, rfl⟩, hle⟩
    · rintro ⟨date, ⟨s, ⟨row, hrow, hs⟩, rfl⟩, hle⟩
      exact ⟨row, hrow, s, hs, hle⟩
  rw [hdates, reachedStart]
  generalize (rows.filterMap CandleRow.stamp).map Stamp.date = dates
  cases hmin : dates.min? with
  | none =>
    rw [List.min?_eq_none_iff] at hmin
    simp [hmin]
  | some oldest =>
    obtain ⟨hmem, hle⟩ := List.min?_eq_some_iff.mp hmin
    simp only [Option.any_some, decide_eq_true_eq]
    exact ⟨fun h => ⟨oldest, hmem, h⟩, fun ⟨date, hdate, h⟩ => (hle date hdate).trans h⟩

/-! ## One pass -/

section Step

variable {respond : Nat → String → Except RequestExc CandlePage} {n : Nat} {s t : PageState}

/-- A pass that goes on has collected its page, not reached the start, and has a cursor. -/
theorem pageStep_inl : q.pageStep respond n s = .inl t ↔
    s.before ∉ s.cursors ∧ ∃ page cursor byDate, respond n s.before = .ok page ∧
      page.candles.foldlM q.collectRow s.byDate = .ok byDate ∧
      q.reachedStart page.candles = false ∧ page.next = some cursor ∧
      t = ⟨cursor, s.before :: s.cursors, byDate⟩ := by
  unfold pageStep
  constructor
  · intro h
    split_ifs at h with hbefore
    cases hpage : respond n s.before with
    | error exc => simp [hpage] at h
    | ok page =>
      simp only [hpage] at h
      cases hrows : page.candles.foldlM q.collectRow s.byDate with
      | error exc => simp [hrows] at h
      | ok byDate =>
        simp only [hrows] at h
        split_ifs at h with hstart
        cases hnext : page.next with
        | none => simp [hnext] at h
        | some cursor =>
          simp only [hnext, Sum.inl.injEq] at h
          exact ⟨hbefore, page, cursor, byDate, rfl, hrows, by simpa using hstart, hnext, h.symm⟩
  · rintro ⟨hbefore, page, cursor, byDate, hpage, hrows, hstart, hnext, rfl⟩
    simp [hbefore, hpage, hrows, hstart, hnext]

/-- A collected page that reaches the start or has no cursor ends the loop with the bars. -/
theorem pageStep_stop (hfresh : s.before ∉ s.cursors) {page : CandlePage}
    (hpage : respond n s.before = .ok page)
    (hrows : page.candles.foldlM q.collectRow s.byDate = .ok byDate)
    (hstop : q.reachedStart page.candles = true ∨ page.next = none) :
    q.pageStep respond n s = .inr (.ok (ordered byDate)) := by
  rw [pageStep, if_neg hfresh]
  simp only [hpage, hrows]
  split_ifs with hstart
  · rfl
  · rw [hstop.resolve_left hstart]

end Step

end BarQuery

end Screener.Market
