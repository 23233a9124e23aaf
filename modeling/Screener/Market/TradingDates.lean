import Screener.Market.CandlePages

/-!
# Trading dates and offsets

The trading date of a candle is the date of its timestamp in the offset that the
timestamp carries. It is the date in Seoul exactly where the difference between the two
offsets does not lead out of the day.
-/

namespace Screener.Market

open Screener.Lib

/-! ## Parsed datetimes -/

theorem wall_nonneg_of_fromisoformat {text : List Char} {s : Stamp}
    (h : IsoDateTime.fromisoformat? text = some s) : 0 ≤ s.wall := by
  unfold IsoDateTime.fromisoformat? at h
  split_ifs at h
  obtain ⟨date, -, h⟩ := Option.bind_eq_some_iff.mp h
  have hdate : 0 ≤ (date : ℤ) * dayLength := mul_nonneg (Int.natCast_nonneg _) (by decide)
  split at h
  · rw [← Option.some.inj h]
    exact hdate
  · obtain ⟨t, -, h⟩ := Option.bind_eq_some_iff.mp h
    obtain ⟨offset, -, rfl⟩ := Option.map_eq_some_iff.mp h
    exact add_nonneg hdate (Int.natCast_nonneg _)

theorem wall_nonneg_of_stamp {row : CandleRow} {s : Stamp} (h : row.stamp = some s) :
    0 ≤ s.wall := by
  obtain ⟨text, -, h⟩ := Option.bind_eq_some_iff.mp h
  exact wall_nonneg_of_fromisoformat (Option.filter_eq_some_iff.mp h).1

/-! ## The date in Seoul -/

/-- The date in Seoul, whose offset depends on the moment. -/
def seoulDate (seoul : Instant → ℤ) (moment : Instant) : ℤ := (moment + seoul moment) / dayLength

/-- The trading date of a candle is that of its moment in Seoul. -/
def AssignsSeoulDate (seoul : Instant → ℤ) (row : CandleRow) : Prop :=
  ∀ s, row.stamp = some s → (s.date : ℤ) = seoulDate seoul s.moment

/-- The time of day in Seoul, moved by the difference of the offsets, stays in the day. -/
def StaysInDay (seoul : Instant → ℤ) (row : CandleRow) : Prop :=
  ∀ s, row.stamp = some s →
    0 ≤ (s.moment + seoul s.moment) % dayLength + (s.offset.getD 0 - seoul s.moment) ∧
    (s.moment + seoul s.moment) % dayLength + (s.offset.getD 0 - seoul s.moment) < dayLength

theorem ediv_dayLength_eq_iff (a d : ℤ) :
    (a + d) / dayLength = a / dayLength ↔
      0 ≤ a % dayLength + d ∧ a % dayLength + d < dayLength := by
  unfold dayLength
  omega

theorem assignsSeoulDate_iff (seoul : Instant → ℤ) (row : CandleRow) :
    AssignsSeoulDate seoul row ↔ StaysInDay seoul row := by
  refine forall₂_congr fun s hs => ?_
  have hdate : (s.date : ℤ) = s.wall / dayLength :=
    Int.toNat_of_nonneg (Int.ediv_nonneg (wall_nonneg_of_stamp hs) (by decide))
  have hwall : s.wall = s.moment + seoul s.moment + (s.offset.getD 0 - seoul s.moment) := by
    unfold Stamp.moment
    omega
  rw [hdate, hwall, seoulDate, ediv_dayLength_eq_iff]

/-- A candle with the offset of Seoul has the date in Seoul. -/
theorem staysInDay_of_offset {seoul : Instant → ℤ} {row : CandleRow}
    (h : ∀ s, row.stamp = some s → s.offset = some (seoul s.moment)) : StaysInDay seoul row := by
  intro s hs
  rw [h s hs, Option.getD_some]
  unfold dayLength
  omega

/-! ## Pages with other offsets -/

/-- Two candles that differ only in how their moment is written. -/
structure SameMoment (row row' : CandleRow) : Prop where
  moment : ∃ s s', row.stamp = some s ∧ row'.stamp = some s' ∧ s.moment = s'.moment
  openPrice : row.openPrice = row'.openPrice
  highPrice : row.highPrice = row'.highPrice
  lowPrice : row.lowPrice = row'.lowPrice
  closePrice : row.closePrice = row'.closePrice
  volume : row.volume = row'.volume

structure Rewritten (page page' : CandlePage) : Prop where
  candles : List.Forall₂ SameMoment page.candles page'.candles
  nextBefore : page.nextBefore = page'.nextBefore

section SameDates

variable {q : BarQuery} {seoul : Instant → ℤ}

theorem SameMoment.date_eq {row row' : CandleRow} (h : SameMoment row row')
    (hrow : AssignsSeoulDate seoul row) (hrow' : AssignsSeoulDate seoul row') :
    row.stamp.map Stamp.date = row'.stamp.map Stamp.date := by
  obtain ⟨s, s', hs, hs', hmoment⟩ := h.moment
  have hdate : (s.date : ℤ) = s'.date := by rw [hrow s hs, hrow' s' hs', hmoment]
  rw [hs, hs', Option.map_some, Option.map_some, Int.ofNat_inj.mp hdate]

theorem SameMoment.bar_eq {row row' : CandleRow} (h : SameMoment row row')
    (hrow : AssignsSeoulDate seoul row) (hrow' : AssignsSeoulDate seoul row') (symbol : Symbol) :
    row.bar symbol = row'.bar symbol := by
  have hdate := h.date_eq hrow hrow'
  obtain ⟨s, s', hs, hs', hmoment⟩ := h.moment
  rw [hs, hs', Option.map_some, Option.map_some, Option.some.injEq] at hdate
  simp only [CandleRow.bar, hs, hs', h.openPrice, h.highPrice, h.lowPrice, h.closePrice, h.volume,
    Option.bind_eq_bind, Option.bind_some, hdate, hmoment]

variable {rows rows' : List CandleRow}

theorem foldlM_collectRow_eq (h : List.Forall₂ SameMoment rows rows')
    (hrows : ∀ row ∈ rows, AssignsSeoulDate seoul row)
    (hrows' : ∀ row ∈ rows', AssignsSeoulDate seoul row) (byDate : Dict Date DailyBar) :
    rows.foldlM q.collectRow byDate = rows'.foldlM q.collectRow byDate := by
  induction h generalizing byDate with
  | nil => rfl
  | @cons row row' rest rest' hrow hrest ih =>
    obtain ⟨hfirst, hrows⟩ := List.forall_mem_cons.mp hrows
    obtain ⟨hfirst', hrows'⟩ := List.forall_mem_cons.mp hrows'
    have hsame : q.collectRow byDate row = q.collectRow byDate row' := by
      unfold BarQuery.collectRow
      rw [hrow.bar_eq hfirst hfirst']
    rw [List.foldlM_cons, List.foldlM_cons, hsame]
    exact congrArg _ (funext (ih hrows hrows'))

theorem reachedStart_eq (h : List.Forall₂ SameMoment rows rows')
    (hrows : ∀ row ∈ rows, AssignsSeoulDate seoul row)
    (hrows' : ∀ row ∈ rows', AssignsSeoulDate seoul row) :
    q.reachedStart rows = q.reachedStart rows' := by
  have hdates : (rows.filterMap CandleRow.stamp).map Stamp.date =
      (rows'.filterMap CandleRow.stamp).map Stamp.date := by
    rw [List.map_filterMap, List.map_filterMap]
    induction h with
    | nil => rfl
    | @cons row row' rest rest' hrow hrest ih =>
      obtain ⟨hfirst, hrows⟩ := List.forall_mem_cons.mp hrows
      obtain ⟨hfirst', hrows'⟩ := List.forall_mem_cons.mp hrows'
      rw [List.filterMap_cons, List.filterMap_cons, hrow.date_eq hfirst hfirst', ih hrows hrows']
  unfold BarQuery.reachedStart
  rw [hdates]

variable {pages pages' : Nat → CandlePage}

/-- Pages whose candles all have the date in Seoul lead to the same bars. -/
theorem dailyBars_eq (h : ∀ n, Rewritten (pages n) (pages' n))
    (hpages : ∀ n, ∀ row ∈ (pages n).candles, AssignsSeoulDate seoul row)
    (hpages' : ∀ n, ∀ row ∈ (pages' n).candles, AssignsSeoulDate seoul row) (fuel : Nat) :
    q.dailyBars (servedPages pages) fuel = q.dailyBars (servedPages pages') fuel := by
  have hstep : q.pageStep (servedPages pages) = q.pageStep (servedPages pages') := by
    funext n s
    simp only [BarQuery.pageStep, servedPages, CandlePage.next, (h n).nextBefore,
      foldlM_collectRow_eq (h n).candles (hpages n) (hpages' n),
      reachedStart_eq (h n).candles (hpages n) (hpages' n)]
  unfold BarQuery.dailyBars
  rw [hstep]

end SameDates

/-- Every candle of two rewritings of the same pages has the date in Seoul, and both give
the same bars, exactly when the offsets of all candles keep them in their day. -/
theorem dailyBars_dates_iff (q : BarQuery) (seoul : Instant → ℤ) (pages pages' : Nat → CandlePage)
    (h : ∀ n, Rewritten (pages n) (pages' n)) :
    ((∀ n, ∀ row ∈ (pages n).candles ++ (pages' n).candles, AssignsSeoulDate seoul row) ∧
      ∀ fuel, q.dailyBars (servedPages pages) fuel = q.dailyBars (servedPages pages') fuel) ↔
    ∀ n, ∀ row ∈ (pages n).candles ++ (pages' n).candles, StaysInDay seoul row := by
  simp only [← assignsSeoulDate_iff]
  constructor
  · exact And.left
  · intro hdates
    have hpages : ∀ n, ∀ row ∈ (pages n).candles, AssignsSeoulDate seoul row :=
      fun n row hrow => hdates n row (List.mem_append_left _ hrow)
    have hpages' : ∀ n, ∀ row ∈ (pages' n).candles, AssignsSeoulDate seoul row :=
      fun n row hrow => hdates n row (List.mem_append_right _ hrow)
    exact ⟨hdates, dailyBars_eq h hpages hpages'⟩

/-- A page with one candle of a timestamp. -/
def pageAt (timestamp : String) : CandlePage where
  candles := [⟨some timestamp, some "2", some "3", some "1", some "2.5", some "20"⟩]
  nextBefore := none

def newYear : BarQuery where
  symbol := "005930"
  start := 739617
  «end» := 739618
  today := 739620
  seoulOffset _ := 32400000000

def BarQuery.dates (q : BarQuery) (page : CandlePage) : Option (List Date) :=
  match q.dailyBars (servedPages fun _ => page) 1 with
  | some (.ok bars) => some (bars.map (·.tradingDate))
  | _ => none

theorem rewritten_pageAt {timestamp timestamp' : String} {s s' : Stamp}
    (h : parseDatetime timestamp = some s) (h' : parseDatetime timestamp' = some s')
    (hmoment : s.moment = s'.moment) : Rewritten (pageAt timestamp) (pageAt timestamp') := by
  refine ⟨List.Forall₂.cons ?_ List.Forall₂.nil, rfl⟩
  constructor
  case moment => exact ⟨s, s', h, h', hmoment⟩
  all_goals rfl

/-- Midnight in Seoul has the date of the day before when it is written in UTC. -/
theorem dates_of_midnight :
    Rewritten (pageAt "2026-01-02T00:00:00+09:00") (pageAt "2026-01-01T15:00:00Z") ∧
    newYear.dates (pageAt "2026-01-02T00:00:00+09:00") = some [739618] ∧
    newYear.dates (pageAt "2026-01-01T15:00:00Z") = some [739617] := by
  have h : parseDatetime "2026-01-02T00:00:00+09:00" =
      some ⟨739618 * dayLength, some 32400000000⟩ := by decide +kernel
  have h' : parseDatetime "2026-01-01T15:00:00Z" =
      some ⟨739617 * dayLength + 54000000000, some 0⟩ := by decide +kernel
  exact ⟨rewritten_pageAt h h' (by decide), by decide +kernel, by decide +kernel⟩

/-- Midnight in Seoul in the extended and in the basic format. -/
theorem dailyBars_dates_iff_midnight :
    newYear.dailyBars (servedPages fun _ => pageAt "2026-01-02T00:00:00+09:00") 1 =
      newYear.dailyBars (servedPages fun _ => pageAt "20260102T000000+0900") 1 := by
  have h : parseDatetime "2026-01-02T00:00:00+09:00" =
      some ⟨739618 * dayLength, some 32400000000⟩ := by decide +kernel
  have h' : parseDatetime "20260102T000000+0900" =
      some ⟨739618 * dayLength, some 32400000000⟩ := by decide +kernel
  refine ((dailyBars_dates_iff newYear (fun _ => 32400000000) _ _
    fun _ => rewritten_pageAt h h' rfl).mpr fun _ => ?_).2 1
  refine List.forall_mem_cons.mpr ⟨?_, List.forall_mem_singleton.mpr ?_⟩
  · refine staysInDay_of_offset fun s hs => ?_
    rw [← Option.some.inj (h.symm.trans hs)]
  · refine staysInDay_of_offset fun s hs => ?_
    rw [← Option.some.inj (h'.symm.trans hs)]

end Screener.Market
