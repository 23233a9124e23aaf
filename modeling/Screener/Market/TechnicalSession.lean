import Mathlib.Algebra.BigOperators.Ring.Finset
import Screener.Lib.Averages
import Screener.Market.MinuteFrames
import Screener.Market.PriceRanges

/-!
# One session in three frames

The frames of an analysis show the same session: it opens at one price, and it has one high
and one low, however its minutes are put together. Every average of a frame lies between
the low and the high that the frame shows beside it.
-/

namespace Screener.Market

open Screener.Lib

variable {bars : List MinuteBar} {minutes : ℤ} {summary : Stamp × List MinuteBar → MinuteBar}
  {price : ℚ} {timeframe : Timeframe}

/-! ## The session of a frame -/

/-- The date of a moment in Seoul. -/
def dateInSeoul (s : Stamp) : Date := (localTime s).date

theorem kstDate_ok {s : Stamp} (h : InKst s) : kstDate s = .ok (dateInSeoul s) := by
  rw [kstDate, astimezone, if_pos h]
  rfl

theorem filter_zip_map {α β : Type} (f : α → β) (p : β → Bool) (xs : List α) :
    ((xs.zip (xs.map f)).filter fun entry => p entry.2).map Prod.fst = xs.filter fun x =>
      p (f x) := by
  induction xs with
  | nil => rfl
  | cons x xs ih =>
    rw [List.map_cons, List.zip_cons_cons]
    cases hp : p (f x) with
    | true => simp [hp, ih]
    | false => simp [hp, ih]

/-- The bars of a date. -/
def barsOn (date : Date) (bars : List MinuteBar) : List MinuteBar :=
  bars.filter fun bar => dateInSeoul bar.timestamp = date

theorem sessionOf_ok (hin : ∀ bar ∈ bars, InKst bar.timestamp) {last : MinuteBar}
    (hlast : bars.getLast? = some last) :
    sessionOf bars = .ok (barsOn (dateInSeoul last.timestamp) bars) := by
  have hdates : bars.mapM (fun bar => kstDate bar.timestamp) =
      (.ok (bars.map fun bar => dateInSeoul bar.timestamp) : Except PyException _) :=
    mapM_ok_map fun bar hbar => kstDate_ok (hin bar hbar)
  have hdate := kstDate_ok (hin last (List.mem_of_getLast? hlast))
  rw [sessionOf, hlast]
  simp only [hdate, hdates]
  exact congrArg Except.ok
    (filter_zip_map (fun bar : MinuteBar => dateInSeoul bar.timestamp)
      (fun date => decide (date = dateInSeoul last.timestamp)) bars)

theorem dayLength_hours : dayLength = 24 * hourLength := by decide

/-- A bucket starts on the date of its bars. -/
theorem dateInSeoul_bucketOf (hpos : 0 < minutes) (bar : MinuteBar) :
    dateInSeoul (bucketOf minutes bar) = dateInSeoul bar.timestamp := by
  have hhour : (bucketOf minutes bar).wall / hourLength =
      (localTime bar.timestamp).wall / hourLength := by
    rw [bucketOf_wall, bucketWall_hour (width_pos hpos), localTime_wall]
  rw [dateInSeoul, localTime_of_kst (bucketOf_offset minutes bar), dateInSeoul, Stamp.date,
    Stamp.date,
    dayLength_hours, mul_comm, ← Int.ediv_ediv_of_nonneg hourLength_pos.le, hhour,
    Int.ediv_ediv_of_nonneg hourLength_pos.le]

/-- Bars in the order of time, as the provider returns them. -/
def InTime (bars : List MinuteBar) : Prop :=
  bars.Pairwise fun a b => a.timestamp.moment < b.timestamp.moment

instance (bars : List MinuteBar) : Decidable (InTime bars) := by unfold InTime; infer_instance

theorem InTime.distinct (h : InTime bars) : DistinctTimes bars :=
  List.pairwise_map.mpr (h.imp fun hlt => hlt.ne)

theorem InTime.byTimestamp (h : InTime bars) : byTimestamp bars = bars :=
  (h.imp fun hlt => hlt.le).insertionSort_eq

/-- The last group has the last bar. -/
theorem getLast?_groups (hpos : 0 < minutes) (htime : InTime bars) {last : MinuteBar}
    (hlast : bars.getLast? = some last) :
    ∃ group, (bucketGroups minutes bars).getLast? = some group ∧ last ∈ group.2 := by
  have hall := flatMap_bucketGroups hpos htime.distinct
  rw [htime.byTimestamp] at hall
  cases hgroups : (bucketGroups minutes bars).getLast? with
  | none =>
    rw [List.getLast?_eq_none_iff] at hgroups
    rw [hgroups, List.flatMap_nil] at hall
    rw [← hall] at hlast
    cases hlast
  | some group =>
    refine ⟨group, rfl, ?_⟩
    obtain ⟨front, hfront⟩ := List.getLast?_eq_some_iff.mp hgroups
    have hsome : group.2 ≠ [] := by
      refine (bucketGroups_pieces minutes bars).nonempty group ?_
      rw [hfront]
      exact List.mem_append_right _ List.mem_cons_self
    rw [hfront, List.flatMap_append, List.flatMap_singleton] at hall
    rw [← hall, List.getLast?_append_of_ne_nil _ hsome] at hlast
    exact List.mem_of_getLast? hlast

theorem dateInSeoul_of_group (hpos : 0 < minutes) {group : Stamp × List MinuteBar}
    (hgroup : group ∈ bucketGroups minutes bars) {bar : MinuteBar} (hbar : bar ∈ group.2) :
    dateInSeoul group.1 = dateInSeoul bar.timestamp := by
  rw [← (bucketGroups_pieces minutes bars).key_of_mem hgroup hbar, dateInSeoul_bucketOf hpos]

/-! ## The same session -/

/-- The figures of the merged bars. -/
theorem figures_of_merged (bucket : Stamp) (session : List MinuteBar) :
    session.head?.map (·.open) = (merged bucket session).map (·.open) ∧
      (session.map (·.high)).max? = (merged bucket session).map (·.high) ∧
      (session.map (·.low)).min? = (merged bucket session).map (·.low) := by
  cases session with
  | nil => exact ⟨rfl, rfl, rfl⟩
  | cons first rest =>
    rw [merged_cons]
    exact ⟨rfl, List.max?_cons', List.min?_cons'⟩

/-- Two lists of bars that merge to the same values. -/
def SameFigures (xs ys : List MinuteBar) : Prop := ∃ bucket, merged bucket xs = merged bucket ys

/-- The session of a frame has the figures of the session of its bars. -/
theorem sessionOf_frame (hminutes : 2 ≤ minutes) (htime : InTime bars)
    (hin : ∀ bar ∈ bars, InKst bar.timestamp) (hsummary : Summaries minutes bars summary)
    {last : MinuteBar} (hlast : bars.getLast? = some last) :
    ∃ session, sessionOf ((bucketGroups minutes bars).map summary) = .ok session ∧
      SameFigures (barsOn (dateInSeoul last.timestamp) bars) session := by
  have hpos : 0 < minutes := by omega
  have hstamps : ∀ bar ∈ (bucketGroups minutes bars).map summary, InKst bar.timestamp := by
    refine List.forall_mem_map.mpr fun group hgroup => ?_
    obtain ⟨bar, hbar, hbucket⟩ := exists_mem_group hgroup
    rw [hsummary.timestamp hgroup, ← hbucket]
    exact inKst_bucketOf hpos (hin bar (mem_of_group hgroup hbar))
  obtain ⟨group, hgroup, hbar⟩ := getLast?_groups hpos htime hlast
  have hmem : group ∈ bucketGroups minutes bars := List.mem_of_getLast? hgroup
  have hlastFrame : ((bucketGroups minutes bars).map summary).getLast? = some (summary group) := by
    rw [List.getLast?_map, hgroup]
    rfl
  have hdate : dateInSeoul (summary group).timestamp = dateInSeoul last.timestamp := by
    rw [hsummary.timestamp hmem, dateInSeoul_of_group hpos hmem hbar]
  refine ⟨_, sessionOf_ok hstamps hlastFrame, ⟨0, none⟩, ?_⟩
  -- The groups of the date are the groups of its bars.
  let ofDate (s : Stamp) : Bool := dateInSeoul s = dateInSeoul last.timestamp
  have hgroups : barsOn (dateInSeoul (summary group).timestamp)
      ((bucketGroups minutes bars).map summary) =
      ((bucketGroups minutes bars).filter fun g => ofDate g.1).map summary := by
    rw [barsOn, hdate, List.filter_map]
    refine congrArg _ (List.filter_congr fun g hg => ?_)
    rw [Function.comp_apply, hsummary.timestamp hg]
  have hbars : barsOn (dateInSeoul last.timestamp) bars =
      ((bucketGroups minutes bars).filter fun g => ofDate g.1).flatMap Prod.snd := by
    have hflat := flatMap_bucketGroups hpos htime.distinct
    rw [htime.byTimestamp] at hflat
    have hkeep : ∀ g ∈ bucketGroups minutes bars, ∀ bar ∈ g.2,
        ofDate bar.timestamp = ofDate g.1 := by
      intro g hg bar hbar
      simp only [ofDate, dateInSeoul_of_group hpos hg hbar]
    rw [flatMap_filter hkeep, hflat]
    rfl
  rw [hgroups, hbars]
  exact merged_flatMap fun g hg => hsummary g (List.mem_of_mem_filter hg)

/-- The summaries of one session. -/
structure SameSession (s t : IntradayTechnicalSummary) : Prop where
  sessionOpen : s.sessionOpen = t.sessionOpen
  sessionHigh : s.sessionHigh = t.sessionHigh
  sessionLow : s.sessionLow = t.sessionLow
  changeFromOpenPct : s.changeFromOpenPct = t.changeFromOpenPct

theorem intradaySummary_ok {s : IntradayTechnicalSummary} {session : List MinuteBar}
    (hsome : bars ≠ []) (hsession : sessionOf bars = .ok session)
    (h : intradaySummary timeframe bars price = .ok s) :
    s.candleCount = bars.length ∧ s.sessionOpen = session.head?.map (·.open) ∧
      s.sessionHigh = (session.map (·.high)).max? ∧ s.sessionLow = (session.map (·.low)).min? ∧
      ratioTo price (session.head?.map (·.open)) = .ok s.changeFromOpenPct ∧
      s.vwap = Screener.Market.vwap session ∧
      s.sma5 = mean (trailing 5 (bars.map (·.close))) ∧
      (∀ average, s.sma20 = some average → mean (trailing 20 (bars.map (·.close))) = some average) ∧
      s.recentHigh20 = ((trailing 20 bars).map (·.high)).max? ∧
      s.recentLow20 = ((trailing 20 bars).map (·.low)).min? := by
  rw [intradaySummary, if_neg hsome] at h
  obtain ⟨found, hfound, h⟩ := bind_ok.mp h
  obtain rfl := Except.ok.inj (hfound.symm.trans hsession)
  obtain ⟨change, hchange, h⟩ := bind_ok.mp h
  obtain ⟨momentum, -, h⟩ := bind_ok.mp h
  obtain rfl := pure_ok.mp h
  exact ⟨rfl, rfl, rfl, rfl, hchange, rfl, rfl,
    fun average haverage => (Option.ite_none_right_eq_some.mp haverage).2, rfl, rfl⟩

/-! ## Figures between figures -/

/-- The low and the high of some bars. -/
theorem bounds_exist (hsome : bars ≠ []) : ∃ low high, (bars.map (·.low)).min? = some low ∧
    (bars.map (·.high)).max? = some high ∧ ∀ bar ∈ bars, low ≤ bar.low ∧ bar.high ≤ high := by
  cases bars with
  | nil => exact absurd rfl hsome
  | cons first rest =>
    refine ⟨_, _, List.min?_cons', List.max?_cons', fun bar hbar => ?_⟩
    exact ⟨(isLeast_foldl_min (·.low) first rest).2 ⟨bar, hbar, rfl⟩,
      (isGreatest_foldl_max (·.high) first rest).2 ⟨bar, hbar, rfl⟩⟩

theorem vwap_mem {low high v : ℚ} (hbounds : ∀ bar ∈ bars, low ≤ bar.low ∧ bar.high ≤ high)
    (h : vwap bars = some v) : low ≤ v ∧ v ≤ high := by
  simp only [vwap] at h
  split_ifs at h with htotal
  obtain rfl := Option.some.inj h
  have hcast : (((bars.map (·.volume)).sum : ℤ) : ℚ) =
      (bars.map fun bar => (bar.volume : ℚ)).sum := by
    rw [Int.cast_list_sum, List.map_map]
    rfl
  have hpos : 0 < (bars.map fun bar => (bar.volume : ℚ)).sum := by
    rw [← hcast]
    exact Int.cast_pos.mpr (not_le.mp htotal)
  have hvolume : ∀ bar ∈ bars, (0 : ℚ) ≤ (bar.volume : ℚ) := fun bar _ =>
    Int.cast_nonneg bar.nonNegative.2.2.2.2
  rw [hcast]
  refine weightedAverage_mem hvolume (fun bar hbar => ?_) hpos
  obtain ⟨hlow, hhigh⟩ := hbounds bar hbar
  obtain ⟨-, -, hclose, hclose', hrange⟩ := bar_covers bar
  constructor
  · linarith
  · linarith

theorem mean_mem {values : List ℚ} {low high average : ℚ}
    (hbounds : ∀ v ∈ values, low ≤ v ∧ v ≤ high) (h : mean values = some average) :
    low ≤ average ∧ average ≤ high := by
  unfold mean at h
  split_ifs at h with hnil
  obtain rfl := Option.some.inj h
  exact average_mem hnil hbounds

/-- The averages of a frame beside its lows and highs. -/
structure Coherent (s : IntradayTechnicalSummary) : Prop where
  session : ∃ low high «open», s.sessionLow = some low ∧ s.sessionHigh = some high ∧
    s.sessionOpen = some «open» ∧ low ≤ «open» ∧ «open» ≤ high ∧
    ∀ v, s.vwap = some v → low ≤ v ∧ v ≤ high
  recent : ∃ low high, s.recentLow20 = some low ∧ s.recentHigh20 = some high ∧
    (∀ v, s.sma5 = some v → low ≤ v ∧ v ≤ high) ∧ ∀ v, s.sma20 = some v → low ≤ v ∧ v ≤ high

theorem coherent_of_ok {s : IntradayTechnicalSummary} {session : List MinuteBar} (hsome : bars ≠ [])
    (hsession : sessionOf bars = .ok session) (hnonempty : session ≠ [])
    (h : intradaySummary timeframe bars price = .ok s) : Coherent s := by
  obtain ⟨-, hopen, hhigh, hlow, -, hvwap, hfive, htwenty, hhigh20, hlow20⟩ :=
    intradaySummary_ok hsome hsession h
  constructor
  case session =>
    obtain ⟨low, high, hmin, hmax, hbounds⟩ := bounds_exist hnonempty
    obtain ⟨first, rest, rfl⟩ := List.exists_cons_of_ne_nil hnonempty
    obtain ⟨hfirst, hfirst'⟩ := hbounds first List.mem_cons_self
    obtain ⟨hlower, hupper, -⟩ := bar_covers first
    refine ⟨low, high, first.open, hlow.trans hmin, hhigh.trans hmax, hopen, hfirst.trans hlower,
      hupper.trans hfirst', fun v hv => ?_⟩
    rw [hvwap] at hv
    exact vwap_mem hbounds hv
  case recent =>
    have hrecent : trailing 20 bars ≠ [] := by
      rw [← List.length_pos_iff, length_trailing]
      have hlength := List.length_pos_iff.mpr hsome
      omega
    obtain ⟨low, high, hmin, hmax, hbounds⟩ := bounds_exist hrecent
    have hcloses : ∀ v ∈ trailing 20 (bars.map (·.close)), low ≤ v ∧ v ≤ high := by
      rw [← map_trailing, List.forall_mem_map]
      intro bar hbar
      obtain ⟨hbelow, habove⟩ := hbounds bar hbar
      obtain ⟨-, -, hclose, hclose', -⟩ := bar_covers bar
      exact ⟨hbelow.trans hclose, hclose'.trans habove⟩
    have hlast : ∀ v ∈ trailing 5 (bars.map (·.close)), low ≤ v ∧ v ≤ high := by
      intro v hv
      rw [← trailing_trailing (show 5 ≤ 20 by omega)] at hv
      exact hcloses v ((trailing_suffix 5 _).subset hv)
    refine ⟨low, high, hlow20.trans hmin, hhigh20.trans hmax, fun v hv => ?_, fun v hv => ?_⟩
    · rw [hfive] at hv
      exact mean_mem hlast hv
    · exact mean_mem hcloses (htwenty v hv)

/-! ## The frames -/

theorem mem_of_session {session : List MinuteBar} (h : sessionOf bars = .ok session)
    {bar : MinuteBar} (hbar : bar ∈ session) : bar ∈ bars := by
  unfold sessionOf at h
  cases hlast : bars.getLast? with
  | none =>
    rw [hlast] at h
    obtain rfl := Except.ok.inj h
    cases hbar
  | some last =>
    simp only [hlast, bind_ok, pure_ok] at h
    obtain ⟨date, -, dates, -, rfl⟩ := h
    obtain ⟨entry, hentry, rfl⟩ := List.mem_map.mp hbar
    exact (List.of_mem_zip (List.mem_of_mem_filter hentry)).1

theorem intradaySummary_total (timeframe : Timeframe) (hprice : 0 ≤ price) (hle : price ≤ 10 ^ 14)
    (hpriced : Priced bars) {session : List MinuteBar} (hsession : sessionOf bars = .ok session) :
    ∃ s, intradaySummary timeframe bars price = .ok s := by
  unfold intradaySummary
  split_ifs with hnil
  · exact ⟨_, rfl⟩
  · have hopens : ∀ b, session.head?.map (·.open) = some b → InPriceRange b := by
      intro b hb
      obtain ⟨bar, hbar, rfl⟩ := Option.map_eq_some_iff.mp hb
      exact hpriced.open (mem_of_session hsession (List.mem_of_head? hbar))
    have hcloses : ∀ b, (fromEnd? 6 bars).map (·.close) = some b → InPriceRange b := by
      intro b hb
      obtain ⟨bar, hbar, rfl⟩ := Option.map_eq_some_iff.mp hb
      exact hpriced.close (List.mem_of_getElem? (Option.ite_none_right_eq_some.mp hbar).2)
    obtain ⟨change, hchange⟩ := ratioTo_total hprice hle hopens
    obtain ⟨momentum, hmomentum⟩ := ratioTo_total hprice hle hcloses
    exact ⟨_, bind_ok.mpr ⟨session, hsession, bind_ok.mpr ⟨change, hchange,
      bind_ok.mpr ⟨momentum, hmomentum, rfl⟩⟩⟩⟩

theorem sameSession_of_figures {s t : IntradayTechnicalSummary} {timeframe' : Timeframe}
    {bars' session session' : List MinuteBar} (hsome : bars ≠ []) (hsome' : bars' ≠ [])
    (hsession : sessionOf bars = .ok session) (hsession' : sessionOf bars' = .ok session')
    (hs : intradaySummary timeframe bars price = .ok s)
    (ht : intradaySummary timeframe' bars' price = .ok t) (hsame : SameFigures session session') :
    SameSession s t := by
  obtain ⟨bucket, hmerged⟩ := hsame
  obtain ⟨-, hopen, hhigh, hlow, hchange, -⟩ := intradaySummary_ok hsome hsession hs
  obtain ⟨-, hopen', hhigh', hlow', hchange', -⟩ := intradaySummary_ok hsome' hsession' ht
  obtain ⟨hfirst, hmax, hmin⟩ := figures_of_merged bucket session
  obtain ⟨hfirst', hmax', hmin'⟩ := figures_of_merged bucket session'
  constructor
  case sessionOpen => rw [hopen, hopen', hfirst, hfirst', hmerged]
  case sessionHigh => rw [hhigh, hhigh', hmax, hmax', hmerged]
  case sessionLow => rw [hlow, hlow', hmin, hmin', hmerged]
  case changeFromOpenPct =>
    rw [hfirst, hmerged, ← hfirst', hchange'] at hchange
    exact (Except.ok.inj hchange).symm

theorem nonempty_of_figures {xs ys : List MinuteBar} (h : SameFigures xs ys) (hxs : xs ≠ []) :
    ys ≠ [] := by
  obtain ⟨bucket, hmerged⟩ := h
  obtain ⟨first, rest, rfl⟩ := List.exists_cons_of_ne_nil hxs
  rintro rfl
  rw [merged_cons] at hmerged
  cases hmerged

theorem barsOn_ne_nil {last : MinuteBar} (hlast : bars.getLast? = some last) :
    barsOn (dateInSeoul last.timestamp) bars ≠ [] :=
  List.ne_nil_of_mem (List.mem_filter.mpr ⟨List.mem_of_getLast? hlast, by simp⟩)

/-- There are not more pieces than elements. -/
theorem length_pieces_le {α κ : Type} [DecidableEq κ] {key : α → κ} {xs : List α}
    {pieces : List (κ × List α)} (h : Pieces key xs pieces) : pieces.length ≤ xs.length := by
  have hlengths : ∀ n ∈ pieces.map fun p => p.2.length, 1 ≤ n :=
    List.forall_mem_map.mpr fun p hp => List.length_pos_iff.mpr (h.nonempty p hp)
  have hsum := List.length_le_sum_of_one_le _ hlengths
  rwa [List.length_map, ← List.length_flatMap, h.flatMap_perm.length_eq] at hsum

theorem length_groups_le (minutes : ℤ) (bars : List MinuteBar) :
    (bucketGroups minutes bars).length ≤ bars.length := by
  have hle := length_pieces_le (bucketGroups_pieces minutes bars).toPieces
  rwa [byTimestamp, List.length_insertionSort] at hle

/-- Longer buckets are fewer. -/
theorem length_groups_anti {m n : ℤ} (hm : 0 < m) (hdvd : m ∣ n) (hdistinct : DistinctTimes bars) :
    (bucketGroups n bars).length ≤ (bucketGroups m bars).length := by
  rw [bucketGroups_of_outer hm hdvd hdistinct, List.length_map]
  exact length_pieces_le (outerGroups_pieces m n bars).toPieces

/-- What a frame of some minutes shows. -/
theorem frame_shows (hprice : 0 ≤ price) (hle : price ≤ 10 ^ 14) (timeframe : Timeframe)
    (hminutes : 2 ≤ minutes) (hone : OneInstrument bars) (htime : InTime bars)
    (hpriced : Priced bars) (hin : ∀ bar ∈ bars, InKst bar.timestamp) {last : MinuteBar}
    (hlast : bars.getLast? = some last) :
    ∃ frame session s, aggregateMinuteBars bars minutes = .ok frame ∧ frame ≠ [] ∧
      sessionOf frame = .ok session ∧ session ≠ [] ∧
      SameFigures (barsOn (dateInSeoul last.timestamp) bars) session ∧
      intradaySummary timeframe frame price = .ok s ∧
      s.candleCount = (bucketGroups minutes bars).length := by
  obtain ⟨summary, hrun, hsummary⟩ := aggregateMinuteBars_ok hminutes hone hin
  obtain ⟨session, hsession, hfigures⟩ := sessionOf_frame hminutes htime hin hsummary hlast
  have hsome : (bucketGroups minutes bars).map summary ≠ [] := by
    obtain ⟨group, hgroup, -⟩ := getLast?_groups (show 0 < minutes by omega) htime hlast
    exact List.ne_nil_of_mem (List.mem_map_of_mem (List.mem_of_getLast? hgroup))
  obtain ⟨s, hs⟩ :=
    intradaySummary_total timeframe hprice hle (hpriced.frame hminutes hrun) hsession
  have hcount := (intradaySummary_ok hsome hsession hs).1
  rw [List.length_map] at hcount
  exact ⟨_, session, s, hrun, hsome, hsession, nonempty_of_figures hfigures (barsOn_ne_nil hlast),
    hfigures, hs, hcount⟩

/-- The frames of one instrument's bars show one session, and figures that fit together. -/
theorem frames_show_session (hprice : 0 ≤ price) (hle : price ≤ 10 ^ 14) (hsome : bars ≠ [])
    (hone : OneInstrument bars) (htime : InTime bars) (hpriced : Priced bars)
    (hin : ∀ bar ∈ bars, InKst bar.timestamp) :
    ∃ frames s, realtimeFrames bars = .ok frames ∧ intradaySummaries frames price = .ok s ∧
      SameSession s.oneMinute s.fiveMinutes ∧ SameSession s.oneMinute s.tenMinutes ∧
      s.tenMinutes.candleCount ≤ s.fiveMinutes.candleCount ∧
      s.fiveMinutes.candleCount ≤ s.oneMinute.candleCount ∧
      s.oneMinute.candleCount = bars.length ∧
      Coherent s.oneMinute ∧ Coherent s.fiveMinutes ∧ Coherent s.tenMinutes := by
  obtain ⟨last, hlast⟩ := Option.isSome_iff_exists.mp (List.getLast?_isSome.mpr hsome)
  have hsession := sessionOf_ok hin hlast
  obtain ⟨one, hone'⟩ := intradaySummary_total .oneMinute hprice hle hpriced hsession
  obtain ⟨five, fiveSession, s5, hrun5, hsome5, hsession5, hnil5, hfigures5, hs5, hcount5⟩ :=
    frame_shows hprice hle .fiveMinutes (show (2 : ℤ) ≤ 5 by omega) hone htime hpriced hin hlast
  obtain ⟨ten, tenSession, s10, hrun10, hsome10, hsession10, hnil10, hfigures10, hs10, hcount10⟩ :=
    frame_shows hprice hle .tenMinutes (show (2 : ℤ) ≤ 10 by omega) hone htime hpriced hin hlast
  have hcount := (intradaySummary_ok hsome hsession hone').1
  refine ⟨⟨bars, five, ten⟩, ⟨one, s5, s10⟩, ?_, ?_, ?_, ?_, ?_, ?_, hcount, ?_, ?_, ?_⟩
  · exact bind_ok.mpr ⟨bars, rfl, bind_ok.mpr ⟨five, hrun5, bind_ok.mpr ⟨ten, hrun10, rfl⟩⟩⟩
  · exact bind_ok.mpr ⟨one, hone', bind_ok.mpr ⟨s5, hs5, bind_ok.mpr ⟨s10, hs10, rfl⟩⟩⟩
  · exact sameSession_of_figures hsome hsome5 hsession hsession5 hone' hs5 hfigures5
  · exact sameSession_of_figures hsome hsome10 hsession hsession10 hone' hs10 hfigures10
  · rw [hcount5, hcount10]
    exact length_groups_anti (by omega) (by omega) htime.distinct
  · rw [hcount5, hcount]
    exact length_groups_le 5 bars
  · exact coherent_of_ok hsome hsession (barsOn_ne_nil hlast) hone'
  · exact coherent_of_ok hsome5 hsession5 hnil5 hs5
  · exact coherent_of_ok hsome10 hsession10 hnil10 hs10

theorem frames_show_session_two :
    let bars := [ofTrade "005930" (3 * dayLength + 4 * minuteLength) 70000 2,
      ofTrade "005930" (3 * dayLength + 7 * minuteLength) 70100 3]
    ∃ frames s, realtimeFrames bars = .ok frames ∧ intradaySummaries frames 70050 = .ok s ∧
      SameSession s.oneMinute s.fiveMinutes ∧ SameSession s.oneMinute s.tenMinutes ∧
      s.tenMinutes.candleCount ≤ s.fiveMinutes.candleCount ∧
      s.fiveMinutes.candleCount ≤ s.oneMinute.candleCount ∧
      s.oneMinute.candleCount = bars.length ∧
      Coherent s.oneMinute ∧ Coherent s.fiveMinutes ∧ Coherent s.tenMinutes :=
  frames_show_session (by norm_num) (by norm_num) (List.cons_ne_nil _ _)
    ⟨"005930", "KRW", by simp [ofTrade]⟩ (by decide) (by decide +kernel) (by decide)

end Screener.Market
