import Mathlib.Order.Bounds.Basic
import Screener.Market.MinuteBuckets
import Screener.Market.MinuteMerge

/-!
# Aggregation of minute bars

The aggregation puts every bar into one bucket and sums up the bars of each bucket. The
order of the bars does not matter where their timestamps are distinct.
-/

namespace Screener.Market

open Screener.Lib

variable {minutes : ℤ} {bars bars' : List MinuteBar}

/-! ## The groups -/

/-- The buckets with their bars, in the order of time. -/
def bucketGroups (minutes : ℤ) (bars : List MinuteBar) : List (Stamp × List MinuteBar) :=
  byBucket (collect (bucketOf minutes) (byTimestamp bars)).entries

theorem bucketGroups_pieces (minutes : ℤ) (bars : List MinuteBar) :
    OrderedPieces Stamp.moment (bucketOf minutes) (byTimestamp bars) (bucketGroups minutes bars) :=
  (collect_pieces (bucketOf minutes) (byTimestamp bars)).sorted fun _ _ _ _ => bucketStart_inj

theorem foldlM_addToBucket (minutes : ℤ) (bars : List MinuteBar)
    (groups : Dict Stamp (List MinuteBar)) : bars.foldlM (addToBucket minutes) groups =
      if ∀ bar ∈ bars, InKst bar.timestamp then
        .ok (bars.foldl (fun output bar => output.set (bucketOf minutes bar)
          (output.getD (bucketOf minutes bar) [] ++ [bar])) groups)
      else .error overflowError := by
  induction bars generalizing groups with
  | nil => rfl
  | cons bar bars ih =>
    rw [List.foldlM_cons, List.foldl_cons]
    by_cases hbar : InKst bar.timestamp
    · have hstep : addToBucket minutes groups bar = .ok (groups.set (bucketOf minutes bar)
          (groups.getD (bucketOf minutes bar) [] ++ [bar])) := by
        rw [addToBucket, astimezone, if_pos hbar]
        rfl
      rw [hstep]
      refine (ih _).trans ?_
      simp only [List.forall_mem_cons, hbar, true_and]
    · have hstep : addToBucket minutes groups bar = .error overflowError := by
        rw [addToBucket, astimezone, if_neg hbar]
        rfl
      rw [hstep, if_neg fun hall => hbar (hall bar List.mem_cons_self)]
      rfl

theorem mem_byTimestamp {bar : MinuteBar} : bar ∈ byTimestamp bars ↔ bar ∈ bars :=
  (List.perm_insertionSort _ bars).mem_iff

theorem aggregateMinuteBars_eq (hminutes : 2 ≤ minutes) (bars : List MinuteBar) :
    aggregateMinuteBars bars minutes =
      if ∀ bar ∈ bars, InKst bar.timestamp then (bucketGroups minutes bars).mapM aggregateBucket
      else .error overflowError := by
  have hpositive : ¬minutes ≤ 0 := by omega
  have hmany : minutes ≠ 1 := by omega
  rw [aggregateMinuteBars, if_neg hpositive, if_neg hmany, foldlM_addToBucket]
  simp only [mem_byTimestamp]
  by_cases hall : ∀ bar ∈ bars, InKst bar.timestamp
  · rw [if_pos hall, if_pos hall]
    rfl
  · rw [if_neg hall, if_neg hall]
    rfl

theorem mem_of_group {group : Stamp × List MinuteBar} (h : group ∈ bucketGroups minutes bars)
    {bar : MinuteBar} (hbar : bar ∈ group.2) : bar ∈ bars := by
  rw [(bucketGroups_pieces minutes bars).eq_filter group h] at hbar
  exact mem_byTimestamp.mp (List.mem_of_mem_filter hbar)

theorem exists_mem_group {group : Stamp × List MinuteBar} (h : group ∈ bucketGroups minutes bars) :
    ∃ bar ∈ group.2, bucketOf minutes bar = group.1 := by
  have hpieces := bucketGroups_pieces minutes bars
  obtain ⟨bar, hbar⟩ := List.exists_mem_of_ne_nil _ (hpieces.nonempty group h)
  exact ⟨bar, hbar, hpieces.key_of_mem h hbar⟩

/-- The bar of each group has its merged values. -/
def Summaries (minutes : ℤ) (bars : List MinuteBar) (summary : Stamp × List MinuteBar → MinuteBar) :
    Prop := ∀ group ∈ bucketGroups minutes bars,
      merged group.1 group.2 = some (summary group).toMinuteBarValues

/-- Every group becomes a bar. -/
theorem aggregateMinuteBars_ok (hminutes : 2 ≤ minutes) (hone : OneInstrument bars)
    (hin : ∀ bar ∈ bars, InKst bar.timestamp) :
    ∃ summary, aggregateMinuteBars bars minutes = .ok ((bucketGroups minutes bars).map summary) ∧
      Summaries minutes bars summary := by
  have hgroup : ∀ group ∈ bucketGroups minutes bars, ∃ bar, aggregateBucket group = .ok bar ∧
      merged group.1 group.2 = some bar.toMinuteBarValues := by
    intro group hmem
    obtain ⟨bar, -, hbucket⟩ := exists_mem_group hmem
    have haware : group.1.offset.isSome := by rw [← hbucket, bucketOf_offset]; rfl
    exact aggregateBucket_ok ((bucketGroups_pieces minutes bars).nonempty group hmem) haware
      (hone.of_subset fun _ => mem_of_group hmem)
  choose! summary hsummary using hgroup
  refine ⟨summary, ?_, fun group hmem => (hsummary group hmem).2⟩
  rw [aggregateMinuteBars_eq hminutes, if_pos hin]
  exact mapM_ok_map fun group hmem => (hsummary group hmem).1

/-! ## What the bars say -/

/-- `o` sums up the bars. -/
structure Summarises (bars : List MinuteBar) (o : MinuteBar) : Prop where
  valid : o.toMinuteBarValues.Valid
  instrument : ∀ bar ∈ bars, o.symbol = bar.symbol ∧ o.currency = bar.currency
  earliest : ∃ bar ∈ bars, (∀ other ∈ bars, bar.timestamp.moment ≤ other.timestamp.moment) ∧
    o.open = bar.open ∧ o.source = bar.source
  latest : ∃ bar ∈ bars, (∀ other ∈ bars, other.timestamp.moment ≤ bar.timestamp.moment) ∧
    o.close = bar.close
  high : IsGreatest {price | ∃ bar ∈ bars, bar.high = price} o.high
  low : IsLeast {price | ∃ bar ∈ bars, bar.low = price} o.low
  volume : o.volume = (bars.map (·.volume)).sum
  asOf : IsGreatest {moment | ∃ bar ∈ bars, bar.asOf.moment = moment} o.asOf.moment

/-- The order of the bars says nothing. -/
theorem Summarises.of_perm {o : MinuteBar} (h : Summarises bars o) (hperm : bars.Perm bars') :
    Summarises bars' o where
  valid := h.valid
  instrument := fun bar hbar => h.instrument bar (hperm.mem_iff.mpr hbar)
  earliest := by simpa only [hperm.mem_iff] using h.earliest
  latest := by simpa only [hperm.mem_iff] using h.latest
  high := by simpa only [hperm.mem_iff] using h.high
  low := by simpa only [hperm.mem_iff] using h.low
  volume := h.volume.trans (hperm.map _).sum_eq
  asOf := by simpa only [hperm.mem_iff] using h.asOf

theorem isGreatest_foldl_max {β : Type*} [LinearOrder β] (f : MinuteBar → β) (first : MinuteBar)
    (rest : List MinuteBar) : IsGreatest {b | ∃ bar ∈ first :: rest, f bar = b}
      ((rest.map f).foldl max (f first)) := by
  have hmax : ((first :: rest).map f).max? = some ((rest.map f).foldl max (f first)) :=
    List.max?_cons'
  obtain ⟨hmem, hupper⟩ := List.max?_eq_some_iff.mp hmax
  refine ⟨List.mem_map.mp hmem, ?_⟩
  rintro b ⟨bar, hbar, rfl⟩
  exact hupper _ (List.mem_map_of_mem hbar)

theorem isLeast_foldl_min {β : Type*} [LinearOrder β] (f : MinuteBar → β) (first : MinuteBar)
    (rest : List MinuteBar) : IsLeast {b | ∃ bar ∈ first :: rest, f bar = b}
      ((rest.map f).foldl min (f first)) := by
  have hmin : ((first :: rest).map f).min? = some ((rest.map f).foldl min (f first)) :=
    List.min?_cons'
  obtain ⟨hmem, hlower⟩ := List.min?_eq_some_iff.mp hmin
  refine ⟨List.mem_map.mp hmem, ?_⟩
  rintro b ⟨bar, hbar, rfl⟩
  exact hlower _ (List.mem_map_of_mem hbar)

theorem moment_latest (first : Stamp) (rest : List Stamp) :
    (latest first rest).moment = (rest.map (·.moment)).foldl max first.moment := by
  induction rest generalizing first with
  | nil => rfl
  | cons s rest ih => rw [latest_cons, ih, moment_later, List.map_cons, List.foldl_cons]

theorem pairwise_getLast {R : MinuteBar → MinuteBar → Prop} (hrefl : ∀ bar : MinuteBar, R bar bar)
    (h : bars.Pairwise R) (hsome : bars ≠ []) : ∀ bar ∈ bars, R bar (bars.getLast hsome) := by
  intro bar hbar
  have hsplit := List.dropLast_append_getLast hsome
  rw [← hsplit] at h hbar
  rcases List.mem_append.mp hbar with hin | hlast
  · exact (List.pairwise_append.mp h).2.2 bar hin _ (List.mem_singleton_self _)
  · rw [List.mem_singleton.mp hlast]
    exact hrefl _

/-- The merged bars of a bucket. -/
theorem merged_summarises {bucket : Stamp} {o : MinuteBar}
    (h : merged bucket bars = some o.toMinuteBarValues) (hone : OneInstrument bars)
    (hsorted : bars.Pairwise fun a b => a.timestamp.moment ≤ b.timestamp.moment) :
    Summarises bars o := by
  obtain ⟨symbol, currency, hall⟩ := hone
  cases bars with
  | nil => cases h
  | cons first rest =>
    rw [merged_cons, Option.some.injEq] at h
    have hfirst := hall first List.mem_cons_self
    refine
      { valid := o.valid
        instrument := fun bar hbar => ?_
        earliest := ⟨first, List.mem_cons_self, ?_, ?_⟩
        latest := ⟨_, List.getLast_mem (List.cons_ne_nil first rest), ?_, ?_⟩
        high := ?_
        low := ?_
        volume := ?_
        asOf := ?_ }
    · rw [← h]
      exact ⟨hfirst.1.trans (hall bar hbar).1.symm, hfirst.2.trans (hall bar hbar).2.symm⟩
    · intro other hother
      rcases List.mem_cons.mp hother with rfl | hin
      · exact le_rfl
      · exact List.rel_of_pairwise_cons hsorted hin
    · rw [← h]
      exact ⟨rfl, rfl⟩
    · exact pairwise_getLast (fun bar => le_refl bar.timestamp.moment) hsorted
        (List.cons_ne_nil first rest)
    · rw [← h]
      rfl
    · rw [← h]
      exact isGreatest_foldl_max (·.high) first rest
    · rw [← h]
      exact isLeast_foldl_min (·.low) first rest
    · rw [← h]
      rfl
    · have hgreatest := isGreatest_foldl_max (·.asOf.moment) first rest
      rw [← h, bucketValues, moment_latest, List.map_map]
      exact hgreatest

/-- `out` has a bar for each bucket of the bars. -/
structure Aggregates (minutes : ℤ) (bars out : List MinuteBar) : Prop where
  increasing : out.Pairwise fun a b => a.timestamp.moment < b.timestamp.moment
  starts : ∀ o ∈ out, IsBucketStart minutes o.timestamp
  covers : ∀ bar ∈ bars, ∃! o, o ∈ out ∧ FallsIn minutes o.timestamp bar
  volume : (out.map (·.volume)).sum = (bars.map (·.volume)).sum
  summarises : ∀ o ∈ out, Summarises (bars.filter fun bar => FallsIn minutes o.timestamp bar) o

theorem timestamp_of_merged {bucket : Stamp} {o : MinuteBar}
    (h : merged bucket bars = some o.toMinuteBarValues) : o.timestamp = bucket := by
  cases bars with
  | nil => cases h
  | cons first rest =>
    rw [merged_cons, Option.some.injEq] at h
    rw [← h]
    rfl

theorem instrument_of_merged {bucket : Stamp} {o : MinuteBar}
    (h : merged bucket bars = some o.toMinuteBarValues) :
    ∃ bar ∈ bars, o.symbol = bar.symbol ∧ o.currency = bar.currency := by
  cases bars with
  | nil => cases h
  | cons first rest =>
    rw [merged_cons, Option.some.injEq] at h
    refine ⟨first, List.mem_cons_self, ?_⟩
    rw [← h]
    exact ⟨rfl, rfl⟩

theorem sorted_byTimestamp (bars : List MinuteBar) :
    (byTimestamp bars).Pairwise fun a b => a.timestamp.moment ≤ b.timestamp.moment :=
  List.pairwise_insertionSort (fun a b : MinuteBar => a.timestamp.moment ≤ b.timestamp.moment) bars

theorem isBucketStart_group (hpos : 0 < minutes) {group : Stamp × List MinuteBar}
    (h : group ∈ bucketGroups minutes bars) : IsBucketStart minutes group.1 := by
  obtain ⟨bar, -, hbucket⟩ := exists_mem_group h
  exact hbucket ▸ isBucketStart_bucketOf hpos bar

theorem group_perm (hpos : 0 < minutes) {group : Stamp × List MinuteBar}
    (h : group ∈ bucketGroups minutes bars) :
    group.2.Perm (bars.filter fun bar => FallsIn minutes group.1 bar) := by
  rw [(bucketGroups_pieces minutes bars).eq_filter group h]
  simp only [fallsIn_iff hpos (isBucketStart_group hpos h)]
  exact (List.perm_insertionSort _ bars).filter _

section Summaries

variable {summary : Stamp × List MinuteBar → MinuteBar}

theorem Summaries.timestamp (h : Summaries minutes bars summary) {group : Stamp × List MinuteBar}
    (hmem : group ∈ bucketGroups minutes bars) : (summary group).timestamp = group.1 :=
  timestamp_of_merged (h group hmem)

theorem Summaries.increasing (h : Summaries minutes bars summary) :
    ((bucketGroups minutes bars).map summary).Pairwise
      fun a b => a.timestamp.moment < b.timestamp.moment := by
  have hascending := (bucketGroups_pieces minutes bars).ascending
  refine List.pairwise_map.mpr (hascending.imp_of_mem fun hp hq hlt => ?_)
  rw [h.timestamp hp, h.timestamp hq]
  exact hlt

theorem aggregates_groups (hpos : 0 < minutes) (hone : OneInstrument bars)
    (hsummary : Summaries minutes bars summary) :
    Aggregates minutes bars ((bucketGroups minutes bars).map summary) := by
  have hpieces := bucketGroups_pieces minutes bars
  have hsums : ∀ group ∈ bucketGroups minutes bars, Summarises group.2 (summary group) := by
    intro group hmem
    refine merged_summarises (hsummary group hmem) (hone.of_subset fun _ => mem_of_group hmem) ?_
    rw [hpieces.eq_filter group hmem]
    exact (sorted_byTimestamp bars).filter _
  constructor
  case increasing => exact hsummary.increasing
  case starts =>
    simp only [List.forall_mem_map]
    intro group hmem
    rw [hsummary.timestamp hmem]
    exact isBucketStart_group hpos hmem
  case covers =>
    intro bar hbar
    obtain ⟨group, hmem, hkey⟩ := List.mem_map.mp (hpieces.covers bar (mem_byTimestamp.mpr hbar))
    refine ⟨summary group, ⟨List.mem_map_of_mem hmem, ?_⟩, ?_⟩
    · rw [hsummary.timestamp hmem]
      exact (fallsIn_iff hpos (isBucketStart_group hpos hmem)).mpr hkey.symm
    · rintro o ⟨ho, hfalls⟩
      obtain ⟨other, hother, rfl⟩ := List.mem_map.mp ho
      rw [hsummary.timestamp hother, fallsIn_iff hpos (isBucketStart_group hpos hother)] at hfalls
      rw [List.inj_on_of_nodup_map hpieces.keys_nodup hother hmem (hfalls.symm.trans hkey.symm)]
  case volume =>
    have hparts : ((bucketGroups minutes bars).map summary).map (·.volume) =
        (bucketGroups minutes bars).map fun group => (group.2.map (·.volume)).sum := by
      rw [List.map_map]
      exact List.map_congr_left fun group hmem => (hsums group hmem).volume
    rw [hparts, hpieces.sum_eq]
    exact ((List.perm_insertionSort _ bars).map _).sum_eq
  case summarises =>
    simp only [List.forall_mem_map]
    intro group hmem
    rw [hsummary.timestamp hmem]
    exact (hsums group hmem).of_perm (group_perm hpos hmem)

end Summaries

/-! ## The aggregation -/

/-- Distinct timestamps are distinct moments. -/
def DistinctTimes (bars : List MinuteBar) : Prop := (bars.map (·.timestamp.moment)).Nodup

instance (bars : List MinuteBar) : Decidable (DistinctTimes bars) := by
  unfold DistinctTimes
  infer_instance

theorem byTimestamp_strict (h : DistinctTimes bars) :
    (byTimestamp bars).Pairwise fun a b => a.timestamp.moment < b.timestamp.moment :=
  insertionSort_strict (fun bar : MinuteBar => bar.timestamp.moment) h

theorem byTimestamp_perm (h : DistinctTimes bars) (hperm : bars'.Perm bars) :
    byTimestamp bars' = byTimestamp bars := by
  have h' : DistinctTimes bars' := (hperm.map _).nodup_iff.mpr h
  refine eq_of_mem_iff (fun bar : MinuteBar => bar.timestamp.moment) (byTimestamp_strict h')
    (byTimestamp_strict h) fun bar => ?_
  rw [mem_byTimestamp, mem_byTimestamp, hperm.mem_iff]

theorem aggregateMinuteBars_perm (hminutes : 2 ≤ minutes) (h : DistinctTimes bars)
    (hperm : bars'.Perm bars) :
    aggregateMinuteBars bars' minutes = aggregateMinuteBars bars minutes := by
  rw [aggregateMinuteBars_eq hminutes, aggregateMinuteBars_eq hminutes, bucketGroups,
    byTimestamp_perm h hperm, ← bucketGroups]
  simp only [hperm.mem_iff]

/-- The session is conserved where the timestamps are datetimes in UTC and in Seoul. -/
theorem aggregation_conserves (hminutes : 2 ≤ minutes) (hone : OneInstrument bars)
    (hdistinct : DistinctTimes bars) (hin : ∀ bar ∈ bars, InKst bar.timestamp) :
    ∃ out, aggregateMinuteBars bars minutes = .ok out ∧ Aggregates minutes bars out ∧
      ∀ bars', bars'.Perm bars → aggregateMinuteBars bars' minutes = .ok out := by
  obtain ⟨summary, hrun, hsummary⟩ := aggregateMinuteBars_ok hminutes hone hin
  refine ⟨_, hrun, aggregates_groups (by omega) hone hsummary, fun bars' hperm => ?_⟩
  rw [aggregateMinuteBars_perm hminutes hdistinct hperm, hrun]

/-- Three bars in no order, of which two belong to one bucket. -/
def unsortedBars : List MinuteBar :=
  [ofTrade "005930" (3 * dayLength + 7 * minuteLength) 70100 3,
    ofTrade "005930" (3 * dayLength + 4 * minuteLength) 69900 1,
    ofTrade "005930" (3 * dayLength + 5 * minuteLength) 70300 2]

theorem aggregation_conserves_two :
    ∃ out, aggregateMinuteBars unsortedBars 5 = .ok out ∧
      out.map (fun bar => (bar.open, bar.high, bar.low, bar.close, bar.volume)) =
        [(69900, 69900, 69900, 69900, 1), (70300, 70300, 70100, 70100, 5)] ∧
      Aggregates 5 unsortedBars out ∧
      ∀ bars', bars'.Perm unsortedBars → aggregateMinuteBars bars' 5 = .ok out := by
  have hone : OneInstrument unsortedBars := ⟨"005930", "KRW", by simp [unsortedBars, ofTrade]⟩
  have hwidth : (2 : ℤ) ≤ 5 := by decide
  obtain ⟨out, hout, haggregates, hperm⟩ :=
    aggregation_conserves hwidth hone (by decide) (by decide)
  have hvalues : (aggregateMinuteBars unsortedBars 5).map (fun bars => bars.map fun bar =>
      (bar.open, bar.high, bar.low, bar.close, bar.volume)) =
      .ok [(69900, 69900, 69900, 69900, 1), (70300, 70300, 70100, 70100, 5)] := by
    decide +kernel
  rw [hout] at hvalues
  exact ⟨out, hout, Except.ok.inj hvalues, haggregates, hperm⟩

/-- The last hours of year 9999 in UTC are of no year in Seoul. -/
theorem aggregation_overflows :
    let bars := [ofTrade "005930" (3652060 * dayLength - hourLength) 70000 2]
    OneInstrument bars ∧ DistinctTimes bars ∧
      (∀ bar ∈ bars, Stamp.InYears bar.timestamp.wall) ∧
      aggregateMinuteBars bars 5 = .error overflowError := by
  refine ⟨⟨"005930", "KRW", by simp [ofTrade]⟩, by decide, by decide, ?_⟩
  rw [aggregateMinuteBars_eq (by decide), if_neg (by decide)]

end Screener.Market
