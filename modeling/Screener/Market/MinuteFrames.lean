import Screener.Market.MinuteAggregation

/-!
# Frames of minute bars

Bars of some minutes aggregate to bars of a multiple as the bars of one minute do: the
buckets of the multiple are made of whole buckets, and merging is associative.
-/

namespace Screener.Market

open Screener.Lib

variable {bars : List MinuteBar} {m n : ℤ} {summary : Stamp × List MinuteBar → MinuteBar}

/-- The buckets of some minutes by their bucket of more minutes. -/
def outerGroups (m n : ℤ) (bars : List MinuteBar) : List (Stamp × List (Stamp × List MinuteBar)) :=
  (collect (fun group : Stamp × List MinuteBar => bucketStart n (localTime group.1))
    (bucketGroups m bars)).entries.insertionSort fun a b => a.1.moment ≤ b.1.moment

theorem outerGroups_pieces (m n : ℤ) (bars : List MinuteBar) :
    OrderedPieces Stamp.moment
      (fun group : Stamp × List MinuteBar => bucketStart n (localTime group.1))
      (bucketGroups m bars) (outerGroups m n bars) :=
  (collect_pieces _ (bucketGroups m bars)).sorted fun _ _ _ _ => bucketStart_inj

theorem mem_of_outer {outer : Stamp × List (Stamp × List MinuteBar)}
    (h : outer ∈ outerGroups m n bars) {group : Stamp × List MinuteBar} (hgroup : group ∈ outer.2) :
    group ∈ bucketGroups m bars := by
  rw [(outerGroups_pieces m n bars).eq_filter outer h] at hgroup
  exact List.mem_of_mem_filter hgroup

theorem flatMap_bucketGroups (hm : 0 < m) (hdistinct : DistinctTimes bars) :
    (bucketGroups m bars).flatMap Prod.snd = byTimestamp bars :=
  (bucketGroups_pieces m bars).flatMap_eq (fun bar => bar.timestamp.moment)
    (byTimestamp_strict hdistinct) fun _ _ _ _ => moment_lt_of_bucket hm

/-- The groups of the bars, by way of their groups of fewer minutes. -/
theorem bucketGroups_of_outer (hm : 0 < m) (hdvd : m ∣ n) (hdistinct : DistinctTimes bars) :
    bucketGroups n bars = (outerGroups m n bars).map fun outer =>
      (outer.1, outer.2.flatMap Prod.snd) := by
  have hregrouped := (bucketGroups_pieces m bars).regroup
    (fun start => bucketStart n (localTime start))
    (flatMap_bucketGroups hm hdistinct) (outerGroups_pieces m n bars)
  refine (bucketGroups_pieces n bars).unique (hregrouped.congr fun bar _ => ?_)
  exact bucketOf_nested hm hdvd bar

/-- The groups of the aggregated bars. -/
theorem bucketGroups_summaries (hsummary : Summaries m bars summary) :
    bucketGroups n ((bucketGroups m bars).map summary) =
      (outerGroups m n bars).map fun outer => (outer.1, outer.2.map summary) := by
  have hsorted : byTimestamp ((bucketGroups m bars).map summary) =
      (bucketGroups m bars).map summary :=
    (hsummary.increasing.imp fun hlt => hlt.le).insertionSort_eq
  have hpieces := bucketGroups_pieces n ((bucketGroups m bars).map summary)
  rw [hsorted] at hpieces
  refine hpieces.unique (OrderedPieces.map summary ((outerGroups_pieces m n bars).congr ?_))
  intro group hmem
  rw [bucketOf, hsummary.timestamp hmem]

theorem oneInstrument_summaries (hone : OneInstrument bars) (hsummary : Summaries m bars summary) :
    OneInstrument ((bucketGroups m bars).map summary) := by
  obtain ⟨symbol, currency, hall⟩ := hone
  refine ⟨symbol, currency, List.forall_mem_map.mpr fun group hmem => ?_⟩
  obtain ⟨bar, hbar, hsymbol, hcurrency⟩ := instrument_of_merged (hsummary group hmem)
  rw [hsymbol, hcurrency]
  exact hall bar (mem_of_group hmem hbar)

/-- A bar of bars is the bar of all their bars. -/
theorem aggregateBucket_flatMap {outer : Stamp × List (Stamp × List MinuteBar)}
    (houter : outer ∈ outerGroups m n bars) (hone : OneInstrument bars)
    (hsummary : Summaries m bars summary) :
    aggregateBucket (outer.1, outer.2.map summary) =
      aggregateBucket (outer.1, outer.2.flatMap Prod.snd) := by
  have hmerged : merged outer.1 (outer.2.flatMap Prod.snd) = merged outer.1 (outer.2.map summary) :=
    merged_flatMap fun group hgroup => hsummary group (mem_of_outer houter hgroup)
  have hsome : outer.2.map (stamped outer.1 ∘ summary) ≠ [] := by
    simpa using (outerGroups_pieces m n bars).nonempty outer houter
  obtain ⟨v, hv⟩ := reduce_isSome merge hsome
  rw [← List.map_map] at hv
  have hdirect : OneInstrument (outer.2.flatMap Prod.snd) := by
    refine hone.of_subset fun bar hbar => ?_
    obtain ⟨group, hgroup, hin⟩ := List.mem_flatMap.mp hbar
    exact mem_of_group (mem_of_outer houter hgroup) hin
  have hagain : OneInstrument (outer.2.map summary) := by
    refine (oneInstrument_summaries hone hsummary).of_subset (List.map_subset summary ?_)
    exact fun group hgroup => mem_of_outer houter hgroup
  rw [aggregateBucket_eq hagain hv, aggregateBucket_eq hdirect (hmerged.trans hv)]

theorem aggregate_summaries (hm : 2 ≤ m) (hn : 2 ≤ n) (hdvd : m ∣ n) (hone : OneInstrument bars)
    (hdistinct : DistinctTimes bars) (hin : ∀ bar ∈ bars, InKst bar.timestamp)
    (hsummary : Summaries m bars summary) :
    aggregateMinuteBars ((bucketGroups m bars).map summary) n = aggregateMinuteBars bars n := by
  have hstamp : ∀ o ∈ (bucketGroups m bars).map summary, InKst o.timestamp := by
    refine List.forall_mem_map.mpr fun group hmem => ?_
    obtain ⟨bar, hbar, hbucket⟩ := exists_mem_group hmem
    rw [hsummary.timestamp hmem, ← hbucket]
    exact inKst_bucketOf (by omega) (hin bar (mem_of_group hmem hbar))
  rw [aggregateMinuteBars_eq hn, aggregateMinuteBars_eq hn, if_pos hstamp, if_pos hin,
    bucketGroups_summaries hsummary, bucketGroups_of_outer (by omega) hdvd hdistinct,
    List.mapM_map, List.mapM_map]
  exact mapM_congr fun outer houter => aggregateBucket_flatMap houter hone hsummary

/-- Aggregating again to a multiple of the minutes. -/
theorem aggregate_again (hm : 0 < m) (hn : 0 < n) (hdvd : m ∣ n) (hone : OneInstrument bars)
    (hdistinct : DistinctTimes bars) :
    (aggregateMinuteBars bars m >>= fun out => aggregateMinuteBars out n) =
      aggregateMinuteBars bars n := by
  by_cases hminute : m = 1
  · subst hminute
    rfl
  · have hmany : 2 ≤ m := by omega
    have hn2 : 2 ≤ n := hmany.trans (Int.le_of_dvd hn hdvd)
    by_cases hin : ∀ bar ∈ bars, InKst bar.timestamp
    · obtain ⟨summary, hrun, hsummary⟩ := aggregateMinuteBars_ok hmany hone hin
      rw [hrun]
      exact aggregate_summaries hmany hn2 hdvd hone hdistinct hin hsummary
    · rw [aggregateMinuteBars_eq hmany, aggregateMinuteBars_eq hn2, if_neg hin, if_neg hin]
      rfl

/-- Aggregation composes, and the frames beside each other agree. -/
theorem aggregation_composes (hone : OneInstrument bars) (hdistinct : DistinctTimes bars) :
    (∀ m n : ℤ, 0 < m → 0 < n → m ∣ n →
      (aggregateMinuteBars bars m >>= fun out => aggregateMinuteBars out n) =
        aggregateMinuteBars bars n) ∧
    ∀ frames, realtimeFrames bars = .ok frames →
      aggregateMinuteBars frames.fiveMinutes 10 = .ok frames.tenMinutes := by
  refine ⟨fun m n hm hn hdvd => aggregate_again hm hn hdvd hone hdistinct, fun frames hframes => ?_⟩
  obtain ⟨one, -, hframes⟩ := bind_ok.mp hframes
  obtain ⟨five, hfive, hframes⟩ := bind_ok.mp hframes
  obtain ⟨ten, hten, hframes⟩ := bind_ok.mp hframes
  have hagain := aggregate_again (m := 5) (n := 10) (by decide) (by decide) (by decide) hone
    hdistinct
  rw [hfive, hten] at hagain
  rw [← pure_ok.mp hframes]
  exact hagain

theorem aggregation_composes_two :
    let bars := [ofTrade "005930" (3 * dayLength + 7 * minuteLength) 70100 3,
      ofTrade "005930" (3 * dayLength + 4 * minuteLength) 70000 2]
    (∀ m n : ℤ, 0 < m → 0 < n → m ∣ n →
      (aggregateMinuteBars bars m >>= fun out => aggregateMinuteBars out n) =
        aggregateMinuteBars bars n) ∧
    ∀ frames, realtimeFrames bars = .ok frames →
      aggregateMinuteBars frames.fiveMinutes 10 = .ok frames.tenMinutes :=
  aggregation_composes ⟨"005930", "KRW", by simp [ofTrade]⟩ (by decide)

end Screener.Market
