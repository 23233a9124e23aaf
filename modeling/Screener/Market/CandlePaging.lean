import Screener.Market.CandleLoop
import Screener.Market.TradingDates

/-!
# Daily bars do not depend on the size of the pages

A provider with a finite history answers with the newest candles that are older than the
cursor, at most a page of them; a cursor may include the candle that it was taken from.
Every page then covers the history a step further, and the loop ends with the bars of the
range. The first cursor is the last microsecond of the range: a candle of the last day
that it does not let through is lost.
-/

namespace Screener.Market

open Screener.Lib

/-! ## A provider with a history -/

def CandleRow.moment (row : CandleRow) : ℤ := (row.stamp.map Stamp.moment).getD 0

def CandleRow.date (row : CandleRow) : Date := (row.stamp.map Stamp.date).getD 0

/-- The candles, newest first, and how a cursor is read. -/
structure CandleHistory where
  rows : List CandleRow
  pageSize : Nat
  inclusive : Bool
  read : String → ℤ

namespace CandleHistory

/-- The candle is older than a moment, or of it where the cursor is inclusive. -/
def older (server : CandleHistory) (moment : ℤ) (row : CandleRow) : Bool :=
  if server.inclusive then row.moment ≤ moment else row.moment < moment

/-- The candles from a cursor on. -/
def window (server : CandleHistory) (cursor : String) : List CandleRow :=
  server.rows.filter (server.older (server.read cursor))

/-- A page, with the timestamp of its oldest candle unless nothing older remains. -/
def page (server : CandleHistory) (cursor : String) : CandlePage where
  candles := (server.window cursor).take server.pageSize
  nextBefore :=
    if (server.window cursor).length ≤ server.pageSize then none
    else ((server.window cursor).take server.pageSize).getLast?.bind (·.timestamp)

def respond (server : CandleHistory) (_ : Nat) (cursor : String) : Except RequestExc CandlePage :=
  .ok (server.page cursor)

/-- A history of bars with distinct dates and the offset of Seoul. Cursors are read as the
moments that they denote, and a page is long enough to lead on. -/
structure WellFormed (server : CandleHistory) (q : BarQuery) : Prop where
  bars : q.Readable server.rows
  seoul : ∀ row ∈ server.rows, ∀ s, row.stamp = some s → s.offset = some 32400000000
  newestFirst : server.rows.Pairwise fun a b => b.date < a.date
  reads : ∀ row ∈ server.rows, ∀ text, row.timestamp = some text → server.read text = row.moment
  readsFirst : server.read q.firstCursor =
    (q.end + 1) * dayLength - 1 - q.seoulOffset q.end
  offset : q.seoulOffset q.end < dayLength
  pageSize : (if server.inclusive then 1 else 0) < server.pageSize

section Order

variable {server : CandleHistory} {q : BarQuery}

theorem older_of_lt {moment : ℤ} {row : CandleRow} (h : row.moment < moment) :
    server.older moment row = true := by
  unfold older
  split_ifs
  · exact decide_eq_true h.le
  · exact decide_eq_true h

theorem le_of_older {moment : ℤ} {row : CandleRow} (h : server.older moment row = true) :
    row.moment ≤ moment := by
  unfold older at h
  split_ifs at h
  · exact of_decide_eq_true h
  · exact (of_decide_eq_true h).le

theorem older_self (row : CandleRow) : server.older row.moment row = server.inclusive := by
  unfold older
  split_ifs with hinclusive
  · rw [hinclusive, decide_eq_true le_rfl]
  · rw [Bool.not_eq_true] at hinclusive
    rw [hinclusive, decide_eq_false (lt_irrefl _)]

theorem older_of_le {moment moment' : ℤ} (hle : moment' ≤ moment) {row : CandleRow}
    (h : server.older moment' row = true) : server.older moment row = true := by
  unfold older at h ⊢
  split_ifs at h ⊢
  · exact decide_eq_true ((of_decide_eq_true h).trans hle)
  · exact decide_eq_true ((of_decide_eq_true h).trans_le hle)

/-- What is older than a candle of a sorted list comes after it. -/
theorem filter_older {pre post : List CandleRow} {row : CandleRow}
    (h : (pre ++ row :: post).Pairwise fun a b => b.moment < a.moment) :
    (pre ++ row :: post).filter (server.older row.moment) =
      if server.inclusive then row :: post else post := by
  obtain ⟨-, hpost, hpre⟩ := List.pairwise_append.mp h
  obtain ⟨hafter, -⟩ := List.pairwise_cons.mp hpost
  have hnone : pre.filter (server.older row.moment) = [] := by
    refine List.filter_eq_nil_iff.mpr fun a ha holder => ?_
    exact absurd (hpre a ha row List.mem_cons_self) (not_lt.mpr (le_of_older holder))
  have hall : post.filter (server.older row.moment) = post :=
    List.filter_eq_self.mpr fun b hb => older_of_lt (hafter b hb)
  rw [List.filter_append, hnone, List.nil_append, List.filter_cons, hall, older_self]

end Order

/-! ## What a well-formed history has -/

section WellFormed

variable {server : CandleHistory} {q : BarQuery} {row : CandleRow}

/-- A candle that is a bar has the bar's date and moment. -/
theorem date_of_bar {bar : DailyBar} (h : row.bar q.symbol = some bar) :
    ∃ s, row.stamp = some s ∧ row.date = s.date ∧ row.moment = s.moment ∧
      bar.tradingDate = s.date := by
  simp only [CandleRow.bar, Option.bind_eq_bind, Option.bind_eq_some_iff] at h
  obtain ⟨s, hs, o, -, hi, -, l, -, c, -, v, -, hbar⟩ := h
  unfold dailyBar? at hbar
  split_ifs at hbar with hvalid
  obtain rfl := Option.some.inj hbar
  exact ⟨s, hs, by rw [CandleRow.date, hs]; rfl, by rw [CandleRow.moment, hs]; rfl, rfl⟩

theorem tradingDate_of_bar {bar : DailyBar} (h : row.bar q.symbol = some bar) :
    bar.tradingDate = row.date := by
  obtain ⟨s, -, hdate, -, htrading⟩ := date_of_bar h
  exact htrading.trans hdate.symm

namespace WellFormed

/-- The moment of a candle lies in its day in Seoul. -/
theorem moment_bounds (h : server.WellFormed q) (hrow : row ∈ server.rows) :
    row.date * dayLength - 32400000000 ≤ row.moment ∧
      row.moment < (row.date + 1) * dayLength - 32400000000 := by
  obtain ⟨bar, hbar⟩ := h.bars row hrow
  obtain ⟨s, hs, hdate, hmoment, -⟩ := date_of_bar hbar
  have hwall := wall_nonneg_of_stamp hs
  have hcast : (s.date : ℤ) = s.wall / dayLength :=
    Int.toNat_of_nonneg (Int.ediv_nonneg hwall (by decide))
  rw [hdate, hmoment, hcast, Stamp.moment, h.seoul row hrow s hs, Option.getD_some]
  unfold dayLength
  omega

theorem moment_lt (h : server.WellFormed q) {a b : CandleRow} (ha : a ∈ server.rows)
    (hb : b ∈ server.rows) (hdate : b.date < a.date) : b.moment < a.moment := by
  have hlow := (h.moment_bounds ha).1
  have hhigh := (h.moment_bounds hb).2
  have hdays : (b.date : ℤ) < a.date := Int.ofNat_lt.mpr hdate
  unfold dayLength at hlow hhigh
  omega

theorem newest_moment (h : server.WellFormed q) :
    server.rows.Pairwise fun a b => b.moment < a.moment :=
  h.newestFirst.imp_of_mem fun ha hb hdate => h.moment_lt ha hb hdate

/-- Candles of one date are one candle. -/
theorem eq_of_date (h : server.WellFormed q) {a b : CandleRow} (ha : a ∈ server.rows)
    (hb : b ∈ server.rows) (hdate : a.date = b.date) : a = b := by
  have hnodup : (server.rows.map CandleRow.date).Nodup :=
    List.pairwise_map.mpr (h.newestFirst.imp fun hlt => hlt.ne')
  exact List.inj_on_of_nodup_map hnodup ha hb hdate

theorem consistent (h : server.WellFormed q) {rows : List CandleRow} (hsub : rows ⊆ server.rows) :
    q.Consistent rows := by
  intro bar hbar bar' hbar' hdate
  obtain ⟨row, hrow, hread, -⟩ := BarQuery.mem_barsIn.mp hbar
  obtain ⟨row', hrow', hread', -⟩ := BarQuery.mem_barsIn.mp hbar'
  rw [tradingDate_of_bar hread, tradingDate_of_bar hread'] at hdate
  rw [h.eq_of_date (hsub hrow) (hsub hrow') hdate, hread'] at hread
  exact (Option.some.inj hread).symm

/-- Of the candles of the range, only one of its last day can be left out by the first
cursor. -/
theorem older_first (h : server.WellFormed q) (hrow : row ∈ server.rows)
    (hdate : row.date < q.end) : server.older (server.read q.firstCursor) row = true := by
  have hhigh := (h.moment_bounds hrow).2
  have hoffset := h.offset
  have hdays : (row.date : ℤ) < q.end := Int.ofNat_lt.mpr hdate
  apply older_of_lt
  rw [h.readsFirst]
  unfold dayLength at hhigh hoffset ⊢
  omega

theorem pairwise_window (h : server.WellFormed q) (cursor : String) :
    (server.window cursor).Pairwise fun a b => b.moment < a.moment :=
  h.newest_moment.sublist List.filter_sublist

theorem pairwise_date (h : server.WellFormed q) (cursor : String) :
    (server.window cursor).Pairwise fun a b => b.date < a.date :=
  h.newestFirst.sublist List.filter_sublist

theorem timestamp_of_mem (h : server.WellFormed q) (hrow : row ∈ server.rows) :
    ∃ text, row.timestamp = some text ∧ text ≠ "" ∧ server.read text = row.moment := by
  obtain ⟨bar, hbar⟩ := h.bars row hrow
  obtain ⟨s, hs, -⟩ := date_of_bar hbar
  obtain ⟨text, htext, hparse⟩ := Option.bind_eq_some_iff.mp hs
  refine ⟨text, htext, fun hempty => ?_, h.reads row hrow text htext⟩
  rw [hempty] at hparse
  cases hparse

end WellFormed

end WellFormed

/-! ## From one page to the next -/

section Pages

variable {server : CandleHistory} {q : BarQuery} {cursor next : String}

theorem mem_window {row : CandleRow} : row ∈ server.window cursor ↔
    row ∈ server.rows ∧ server.older (server.read cursor) row = true := List.mem_filter

theorem window_of_le (h : server.read next ≤ server.read cursor) : server.window next =
    (server.window cursor).filter (server.older (server.read next)) := by
  rw [window, window, List.filter_filter]
  refine List.filter_congr fun row _ => ?_
  cases hnext : server.older (server.read next) row with
  | true => simp [older_of_le h hnext]
  | false => simp

section Last

variable {before after : List CandleRow} {last : CandleRow}

/-- The oldest candle of a page is older than the cursor: where the cursor is inclusive, a
newer candle of the page is not newer than the cursor. -/
theorem moment_last_lt (h : server.WellFormed q)
    (hsplit : server.window cursor = before ++ last :: after)
    (hbefore : server.inclusive = true → before ≠ []) : last.moment < server.read cursor := by
  have hmem : ∀ row ∈ before ++ last :: after,
      server.older (server.read cursor) row = true := by
    intro row hrow
    rw [← hsplit] at hrow
    exact (mem_window.mp hrow).2
  cases hinclusive : server.inclusive with
  | true =>
    obtain ⟨newer, hnewer⟩ := List.exists_mem_of_ne_nil before (hbefore hinclusive)
    have hsorted := h.pairwise_window cursor
    rw [hsplit] at hsorted
    have hlt := (List.pairwise_append.mp hsorted).2.2 newer hnewer last List.mem_cons_self
    exact hlt.trans_le (le_of_older (hmem newer (List.mem_append_left _ hnewer)))
  | false =>
    have hlast := hmem last (List.mem_append_right _ List.mem_cons_self)
    rw [older, hinclusive, if_neg Bool.false_ne_true] at hlast
    exact of_decide_eq_true hlast

/-- The window of a cursor that is read as the oldest candle of a page. -/
theorem window_last (h : server.WellFormed q)
    (hsplit : server.window cursor = before ++ last :: after)
    (hlater : server.read next < server.read cursor) (hread : server.read next = last.moment) :
    server.window next = if server.inclusive then last :: after else after := by
  have hsorted := h.pairwise_window cursor
  rw [window_of_le hlater.le, hread]
  rw [hsplit] at hsorted ⊢
  exact filter_older hsorted

end Last

/-- The cursor of a page that is not the last one: it is older, and its window goes on
where the page ended. -/
theorem exists_next (h : server.WellFormed q)
    (hmore : server.pageSize < (server.window cursor).length) :
    ∃ next before, (server.page cursor).next = some next ∧
      server.read next < server.read cursor ∧ before <+: (server.page cursor).candles ∧
      server.window cursor = before ++ server.window next ∧ before ≠ [] := by
  have hsize := h.pageSize
  obtain ⟨j, hj⟩ : ∃ j, server.pageSize = j + 1 := Nat.exists_eq_succ_of_ne_zero (by omega)
  rw [hj] at hsize
  have hjlt : j < (server.window cursor).length := by omega
  let last := (server.window cursor)[j]
  have hpage : (server.window cursor).take (j + 1) = (server.window cursor).take j ++ [last] :=
    List.take_succ_eq_append_getElem hjlt
  have hsplit : server.window cursor =
      (server.window cursor).take j ++ last :: (server.window cursor).drop (j + 1) := by
    rw [← List.drop_eq_getElem_cons hjlt, List.take_append_drop]
  have hfront : server.inclusive = true → (server.window cursor).take j ≠ [] := by
    intro hinclusive
    rw [hinclusive, if_pos rfl] at hsize
    apply List.ne_nil_of_length_pos
    rw [List.length_take]
    omega
  obtain ⟨text, htext, hne, hread⟩ :=
    h.timestamp_of_mem (mem_window.mp (List.getElem_mem hjlt : last ∈ _)).1
  have hlater : server.read text < server.read cursor := hread ▸ moment_last_lt h hsplit hfront
  have hnext : (server.page cursor).next = some text := by
    rw [CandlePage.next, page, if_neg (Nat.not_le.mpr hmore), hj, hpage, List.getLast?_concat,
      Option.bind_some, htext, Option.filter_some, if_pos (decide_eq_true hne)]
  have hcandles : (server.page cursor).candles = (server.window cursor).take (j + 1) := by
    rw [page, hj]
  have hwindow := window_last h hsplit hlater hread
  cases hinclusive : server.inclusive with
  | true =>
    rw [hinclusive, if_pos rfl] at hwindow
    refine ⟨text, (server.window cursor).take j, hnext, hlater, ?_, ?_, hfront hinclusive⟩
    · exact ⟨[last], (hcandles.trans hpage).symm⟩
    · exact hwindow ▸ hsplit
  | false =>
    rw [hinclusive, if_neg Bool.false_ne_true] at hwindow
    refine ⟨text, (server.window cursor).take (j + 1), hnext, hlater, ?_, ?_, ?_⟩
    · exact hcandles ▸ List.prefix_refl _
    · rw [hwindow, List.take_append_drop]
    · rw [hpage]
      exact List.concat_ne_nil _ _

end Pages

/-! ## The run -/

/-- The loop before a request: a candle that the first cursor lets through was collected
or remains, and every earlier cursor was a later one. -/
structure PagingInv (server : CandleHistory) (q : BarQuery) (s : BarQuery.PageState) : Prop where
  covered : ∃ seen, q.Collected seen s.byDate ∧ seen ⊆ server.window q.firstCursor ∧
    ∀ row ∈ server.window q.firstCursor, row ∈ seen ∨ row ∈ server.window s.before
  started : server.read s.before ≤ server.read q.firstCursor
  older : ∀ cursor ∈ s.cursors, server.read s.before < server.read cursor

section Run

variable {server : CandleHistory} {q : BarQuery} {s : BarQuery.PageState} {next : String} {n : Nat}

theorem pagingInv_first (server : CandleHistory) (q : BarQuery) :
    server.PagingInv q (.first q.firstCursor) where
  covered := ⟨[], q.collected_nil, List.nil_subset _, fun _ => .inr⟩
  started := le_rfl
  older _ h := absurd h List.not_mem_nil

theorem window_subset (server : CandleHistory) (cursor : String) :
    server.window cursor ⊆ server.rows := List.filter_subset_self _

theorem page_subset (server : CandleHistory) (cursor : String) :
    (server.page cursor).candles ⊆ server.window cursor := fun _ => List.mem_of_mem_take

theorem barsIn_newest (h : server.WellFormed q) (cursor : String) :
    (q.barsIn (server.window cursor)).Pairwise fun a b => b.tradingDate < a.tradingDate := by
  refine List.Pairwise.filter _ (List.pairwise_filterMap.mpr ?_)
  refine (h.pairwise_date cursor).imp fun hdate bar hbar bar' hbar' => ?_
  rwa [tradingDate_of_bar hbar, tradingDate_of_bar hbar']

/-- Once the candles that remain are before the range, the bars of the range are held. -/
theorem ordered_of_covered (h : server.WellFormed q) {rows : List CandleRow}
    {byDate : Dict Date DailyBar} (hcollected : q.Collected rows byDate)
    (hsub : rows ⊆ server.window q.firstCursor)
    (hcover : ∀ row ∈ server.window q.firstCursor, row ∈ rows ∨ row.date < q.start) :
    BarQuery.ordered byDate = (q.barsIn (server.window q.firstCursor)).reverse := by
  refine BarQuery.ordered_eq (hcollected.congr fun bar => ?_) (barsIn_newest h _)
  simp only [BarQuery.mem_barsIn]
  constructor
  · rintro ⟨row, hrow, hbar⟩
    exact ⟨row, hsub hrow, hbar⟩
  · rintro ⟨row, hrow, hbar, hrange⟩
    refine ⟨row, (hcover row hrow).resolve_right fun hearly => ?_, hbar, hrange⟩
    rw [← tradingDate_of_bar hbar] at hearly
    exact absurd hrange.1 (Nat.not_le.mpr hearly)

/-- What a page leaves of its window is older than a date that the page reaches. -/
theorem date_lt_of_reached (h : server.WellFormed q) {cursor : String}
    (hstart : q.reachedStart (server.page cursor).candles = true) {row : CandleRow}
    (hrow : row ∈ (server.window cursor).drop server.pageSize) : row.date < q.start := by
  obtain ⟨reached, hreached, s, hs, hle⟩ := BarQuery.reachedStart_iff.mp hstart
  have hsorted := h.pairwise_date cursor
  rw [← List.take_append_drop server.pageSize (server.window cursor)] at hsorted
  have hlt := (List.pairwise_append.mp hsorted).2.2 reached hreached row hrow
  have hdate : reached.date = s.date := by
    rw [CandleRow.date, hs]
    rfl
  exact lt_of_lt_of_le hlt (hdate.trans_le hle)

/-- A page is collected; a candle that the first cursor lets through is collected with it,
or the page leaves it. -/
theorem PagingInv.collects (h : server.WellFormed q) (hinv : server.PagingInv q s) :
    ∃ rows byDate, (server.page s.before).candles.foldlM q.collectRow s.byDate = .ok byDate ∧
      q.Collected rows byDate ∧ rows ⊆ server.window q.firstCursor ∧
      (server.page s.before).candles ⊆ rows ∧
      ∀ row ∈ server.window q.firstCursor,
        row ∈ rows ∨ row ∈ (server.window s.before).drop server.pageSize := by
  obtain ⟨⟨seen, hcollected, hseen, hcover⟩, hstarted, -⟩ := hinv
  have hwindow : server.window s.before ⊆ server.window q.firstCursor := by
    rw [window_of_le hstarted]
    exact List.filter_subset_self _
  have hsub : seen ++ (server.page s.before).candles ⊆ server.window q.firstCursor :=
    List.append_subset.mpr
      ⟨hseen, fun row hrow => hwindow (server.page_subset _ hrow)⟩
  have hreadable : q.Readable (server.page s.before).candles :=
    fun row hrow => h.bars row (server.window_subset _ (server.page_subset _ hrow))
  have hconsistent : q.Consistent (seen ++ (server.page s.before).candles) :=
    h.consistent fun row hrow => server.window_subset _ (hsub hrow)
  obtain ⟨byDate, hrows⟩ := BarQuery.collect_exists hcollected hreadable hconsistent
  refine ⟨seen ++ (server.page s.before).candles, byDate, hrows, (hcollected.append hrows).2, hsub,
    List.subset_append_right _ _, fun row hrow => ?_⟩
  rcases hcover row hrow with hrow | hrow
  · exact .inl (List.mem_append_left _ hrow)
  · rw [← List.take_append_drop server.pageSize (server.window s.before), List.mem_append] at hrow
    exact hrow.imp_left (List.mem_append_right _)

/-- Where a page is not the last one, its cursor goes on with what the page leaves. -/
theorem PagingInv.turn (hinv : server.PagingInv q s) {rows : List CandleRow}
    {byDate : Dict Date DailyBar} (hcollected : q.Collected rows byDate)
    (hsub : rows ⊆ server.window q.firstCursor)
    (hrest : ∀ row ∈ server.window q.firstCursor, row ∈ rows ∨ row ∈ server.window next)
    (hlater : server.read next < server.read s.before) :
    server.PagingInv q ⟨next, s.before :: s.cursors, byDate⟩ where
  covered := ⟨rows, hcollected, hsub, hrest⟩
  started := hlater.le.trans hinv.started
  older := List.forall_mem_cons.mpr
    ⟨hlater, fun cursor hcursor => hlater.trans (hinv.older cursor hcursor)⟩

/-- A request either leads on to an older cursor or ends the loop with the bars of the
range. -/
theorem PagingInv.step (h : server.WellFormed q) (hinv : server.PagingInv q s) (n : Nat) :
    (∃ t, q.pageStep server.respond n s = .inl t ∧ server.PagingInv q t ∧
      (server.window t.before).length < (server.window s.before).length) ∨
    ∃ result, q.pageStep server.respond n s = .inr result ∧
      result = .ok (q.barsIn (server.window q.firstCursor)).reverse := by
  have hfresh : s.before ∉ s.cursors := fun hin => lt_irrefl _ (hinv.older _ hin)
  obtain ⟨rows, byDate, hrows, hcollected, hsub, hpage, hrest⟩ := hinv.collects h
  by_cases hstart : q.reachedStart (server.page s.before).candles = true
  · refine .inr ⟨_, BarQuery.pageStep_stop hfresh rfl hrows (.inl hstart), congrArg _ ?_⟩
    refine ordered_of_covered h hcollected hsub fun row hrow => ?_
    exact (hrest row hrow).imp_right (date_lt_of_reached h hstart)
  by_cases hlength : (server.window s.before).length ≤ server.pageSize
  · have hlast : (server.page s.before).next = none := by
      rw [CandlePage.next, page, if_pos hlength]
      rfl
    refine .inr ⟨_, BarQuery.pageStep_stop hfresh rfl hrows (.inr hlast), congrArg _ ?_⟩
    refine ordered_of_covered h hcollected hsub fun row hrow => ?_
    rw [List.drop_eq_nil_of_le hlength] at hrest
    exact (hrest row hrow).imp_right fun hnone => absurd hnone List.not_mem_nil
  · obtain ⟨next, before, hnext, hlater, hfront, hsplit, hbefore⟩ :=
      exists_next h (Nat.not_le.mp hlength)
    rw [Bool.not_eq_true] at hstart
    refine .inl ⟨⟨next, s.before :: s.cursors, byDate⟩, ?_, ?_, ?_⟩
    · exact BarQuery.pageStep_inl.mpr
        ⟨hfresh, server.page s.before, next, byDate, rfl, hrows, hstart, hnext, rfl⟩
    · refine hinv.turn hcollected hsub (fun row hrow => ?_) hlater
      rcases hrest row hrow with hrow | hrow
      · exact .inl hrow
      · have hleft := List.mem_of_mem_drop hrow
        rw [hsplit, List.mem_append] at hleft
        exact hleft.imp_left fun hin => hpage (hfront.subset hin)
    · have hpos := List.length_pos_of_ne_nil hbefore
      rw [hsplit, List.length_append]
      simp only
      omega

/-- The loop ends with the bars of the range that the first cursor lets through. -/
theorem ends_with_window (h : server.WellFormed q) :
    Ends (q.pageStep server.respond) 0 (.first q.firstCursor)
      (.ok (q.barsIn (server.window q.firstCursor)).reverse) := by
  obtain ⟨result, hends, rfl⟩ := ends_of_measure (fun _ s => server.PagingInv q s)
    (fun _ s => (server.window s.before).length) (fun n s hinv => hinv.step h n)
    (server.pagingInv_first q)
  exact hends

/-- The first cursor lets all bars of the range through exactly when it lets that of the
last day through, if the range has one. -/
theorem barsIn_window_iff (h : server.WellFormed q) (hrange : q.start ≤ q.end) :
    q.barsIn (server.window q.firstCursor) = q.barsIn server.rows ↔
      ∀ row ∈ server.rows, row.date = q.end → q.end ≤ q.today →
        server.older (server.read q.firstCursor) row = true := by
  constructor
  · intro hsame row hrow hdate htoday
    obtain ⟨bar, hbar⟩ := h.bars row hrow
    have hin : bar ∈ q.barsIn server.rows := by
      refine BarQuery.mem_barsIn.mpr ⟨row, hrow, hbar, ?_⟩
      rw [tradingDate_of_bar hbar, hdate]
      exact ⟨hrange, le_rfl, htoday⟩
    rw [← hsame] at hin
    obtain ⟨row', hrow', hbar', -⟩ := BarQuery.mem_barsIn.mp hin
    obtain ⟨hmem, holder⟩ := mem_window.mp hrow'
    have hdates : row'.date = row.date :=
      (tradingDate_of_bar hbar').symm.trans (tradingDate_of_bar hbar)
    rwa [h.eq_of_date hmem hrow hdates] at holder
  · intro hlast
    refine BarQuery.barsIn_filter ?_
    rintro row hrow hnot bar hbar ⟨-, hend, htoday⟩
    rw [tradingDate_of_bar hbar] at hend htoday
    have htrue : server.older (server.read q.firstCursor) row = true := by
      rcases Nat.lt_or_eq_of_le hend with hlt | heq
      · exact h.older_first hrow hlt
      · exact hlast row hrow heq (heq ▸ htoday)
    rw [htrue] at hnot
    cases hnot

end Run

end CandleHistory

/-- All bars of the range are returned exactly when the first cursor lets them through. -/
theorem dailyBars_window_iff (q : BarQuery) (server : CandleHistory) (h : server.WellFormed q)
    (hrange : q.start ≤ q.end) :
    (∃ fuel, q.dailyBars server.respond fuel = some (.ok (q.barsIn server.rows).reverse)) ↔
      q.barsIn (server.window q.firstCursor) = q.barsIn server.rows := by
  have hdrive : ∀ fuel, q.dailyBars server.respond fuel =
      drive (q.pageStep server.respond) fuel 0 (.first q.firstCursor) :=
    fun fuel => if_neg (Nat.not_lt.mpr hrange)
  have hends := server.ends_with_window h
  simp only [hdrive]
  constructor
  · intro hwhole
    have hsame := Ends.unique hends hwhole
    exact List.reverse_injective (Except.ok.inj hsame)
  · intro hsame
    rw [← hsame]
    exact hends

/-- A provider's history is read whole, whatever the size of its pages, exactly when the
first cursor lets the bar of the last day through. -/
theorem dailyBars_paged_iff (q : BarQuery) (server : CandleHistory) (h : server.WellFormed q)
    (hrange : q.start ≤ q.end) :
    (∃ fuel, q.dailyBars server.respond fuel = some (.ok (q.barsIn server.rows).reverse)) ↔
      ∀ row ∈ server.rows, row.date = q.end → q.end ≤ q.today →
        server.older (server.read q.firstCursor) row = true :=
  (dailyBars_window_iff q server h hrange).trans (server.barsIn_window_iff h hrange)

/-! ## Two histories -/

/-- A provider of candles at some timestamps that reads a cursor as they are read. -/
def historyAt (timestamps : List String) (pageSize : Nat) (inclusive : Bool) : CandleHistory where
  rows := timestamps.map fun timestamp =>
    ⟨some timestamp, some "2", some "3", some "1", some "2.5", some "20"⟩
  pageSize
  inclusive
  read text := ((parseDatetime text).map Stamp.moment).getD 0

theorem wellFormed_historyAt {timestamps : List String} {pageSize : Nat} {inclusive : Bool}
    (hbars : ∀ row ∈ (historyAt timestamps pageSize inclusive).rows,
      (row.bar newYear.symbol).isSome = true ∧ row.stamp.bind Stamp.offset = some 32400000000)
    (hnewest : (historyAt timestamps pageSize inclusive).rows.Pairwise fun a b => b.date < a.date)
    (hsize : (if inclusive then 1 else 0) < pageSize) :
    (historyAt timestamps pageSize inclusive).WellFormed newYear := by
  constructor
  case bars => exact fun row hrow => Option.isSome_iff_exists.mp (hbars row hrow).1
  case seoul =>
    intro row hrow s hs
    have hoffset := (hbars row hrow).2
    rwa [hs, Option.bind_some] at hoffset
  case newestFirst => exact hnewest
  case reads =>
    intro row hrow text htext
    rw [CandleRow.moment, CandleRow.stamp, htext]
    rfl
  case readsFirst =>
    show ((parseDatetime newYear.firstCursor).map Stamp.moment).getD 0 = _
    decide +kernel
  case offset => decide
  case pageSize => exact hsize

/-- One candle, of the last microsecond of a day. -/
def lateHistory : CandleHistory := historyAt ["2026-01-02T23:59:59.999999+09:00"] 1 false

/-- The bar of the last microsecond of the range is lost. -/
theorem lastMicrosecond_lost :
    lateHistory.WellFormed newYear ∧
    (newYear.dailyBars lateHistory.respond 1).map Except.toOption = some (some []) ∧
    ¬∃ fuel, newYear.dailyBars lateHistory.respond fuel =
      some (.ok (newYear.barsIn lateHistory.rows).reverse) := by
  have h : lateHistory.WellFormed newYear :=
    wellFormed_historyAt (by decide +kernel) (List.pairwise_singleton _ _) (by decide)
  refine ⟨h, by decide +kernel, ?_⟩
  rw [dailyBars_window_iff _ _ h (by decide)]
  decide +kernel

/-- Three midnights, in pages of two with an inclusive cursor. -/
def midnights : CandleHistory := historyAt
  ["2026-01-03T00:00:00+09:00", "2026-01-02T00:00:00+09:00", "2026-01-01T00:00:00+09:00"] 2 true

theorem dailyBars_paged_iff_midnights : ∃ fuel, newYear.dailyBars midnights.respond fuel =
    some (.ok (newYear.barsIn midnights.rows).reverse) := by
  refine (dailyBars_paged_iff newYear _ (wellFormed_historyAt (by decide +kernel) ?_ (by decide))
    (by decide)).mpr ?_
  · decide +kernel
  · decide +kernel

end Screener.Market
