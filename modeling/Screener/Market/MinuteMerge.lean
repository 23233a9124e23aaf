import Mathlib.Algebra.Order.Ring.Int
import Mathlib.Algebra.Order.Ring.Rat
import Mathlib.Data.List.Dedup
import Mathlib.Data.Nat.Cast.Order.Ring
import Screener.Lib.Regrouping
import Screener.Market.MinuteBars

/-!
# Merging minute bars

The bar of a bucket is its bars merged one after another. The operation is associative and
keeps bars valid, so it does not matter how the bars of a bucket were put together before.
-/

namespace Screener.Market

open Screener.Lib

namespace MinuteBarValues

def Valid (v : MinuteBarValues) : Prop := v.NonNegative ∧ v.Aware ∧ v.HighCovers ∧ v.LowCovers

theorem create_of_valid {v : MinuteBarValues} (h : v.Valid) :
    ∃ bar, v.create = .ok bar ∧ bar.toMinuteBarValues = v := by
  obtain ⟨hnonneg, haware, hhigh, hlow⟩ := h
  rw [create, dif_pos hnonneg, dif_pos haware, dif_pos hhigh, dif_pos hlow]
  exact ⟨_, rfl, rfl⟩

end MinuteBarValues

theorem MinuteBar.valid (bar : MinuteBar) : bar.toMinuteBarValues.Valid :=
  ⟨bar.nonNegative, bar.aware, bar.highCovers, bar.lowCovers⟩

/-- The bar of a single trade. -/
def ofTrade (symbol : Symbol) (timestamp : ℤ) (price volume : ℕ) : MinuteBar where
  symbol := symbol
  timestamp := ⟨timestamp, some 0⟩
  «open» := price
  high := price
  low := price
  close := price
  volume := volume
  currency := "KRW"
  source := "toss"
  asOf := ⟨timestamp, some 0⟩
  nonNegative := ⟨price.cast_nonneg, price.cast_nonneg, price.cast_nonneg, price.cast_nonneg,
    volume.cast_nonneg⟩
  aware := ⟨rfl, rfl⟩
  highCovers := by simp [MinuteBarValues.HighCovers]
  lowCovers := by simp [MinuteBarValues.LowCovers]

instance : Nonempty MinuteBar := ⟨ofTrade "" 0 0 0⟩

/-! ## The operation -/

/-- The later of two datetimes; the first where they are the same moment. -/
def later (a b : Stamp) : Stamp := if a.moment < b.moment then b else a

theorem moment_later (a b : Stamp) : (later a b).moment = max a.moment b.moment := by
  rw [later, apply_ite Stamp.moment, max_def_lt]

theorem later_assoc (a b c : Stamp) : later (later a b) c = later a (later b c) := by
  unfold later
  split_ifs <;> first | rfl | omega

/-- The values of a bar and of a later one together. -/
def merge (a b : MinuteBarValues) : MinuteBarValues :=
  { a with
    high := max a.high b.high
    low := min a.low b.low
    close := b.close
    volume := a.volume + b.volume
    asOf := later a.asOf b.asOf }

instance : Std.Associative merge where
  assoc a b c := by simp [merge, max_assoc, min_assoc, add_assoc, later_assoc]

theorem merge_valid (a b : MinuteBarValues) (ha : a.Valid) (hb : b.Valid) : (merge a b).Valid := by
  obtain ⟨⟨hopen, hhigh, hlow, -, hvolume⟩, ⟨hstamp, hasOf⟩, hcovers, hcovered⟩ := ha
  obtain ⟨⟨-, -, hlow', hclose', hvolume'⟩, ⟨-, hasOf'⟩, hcovers', hcovered'⟩ := hb
  simp only [MinuteBarValues.HighCovers, MinuteBarValues.LowCovers, max_le_iff, le_min_iff]
    at hcovers hcovered hcovers' hcovered'
  refine ⟨⟨hopen, le_max_of_le_left hhigh, le_min hlow hlow', hclose', add_nonneg hvolume hvolume'⟩,
    ⟨hstamp, ?_⟩, ?_, ?_⟩
  · simp only [merge, later]
    split
    · exact hasOf'
    · exact hasOf
  · refine max_le (le_max_of_le_left hcovers.1) (max_le (le_max_of_le_right hcovers'.2.1) ?_)
    exact (min_le_left _ _).trans (le_max_of_le_left hcovers.2.2)
  · refine le_min (min_le_of_left_le hcovered.1) (le_min (min_le_of_right_le hcovered'.2.1) ?_)
    exact (min_le_left _ _).trans (le_max_of_le_left hcovers.2.2)

/-- The values of the bar at the start of a bucket. -/
def stamped (bucket : Stamp) (bar : MinuteBar) : MinuteBarValues :=
  { bar.toMinuteBarValues with timestamp := bucket }

theorem stamped_valid {bucket : Stamp} (h : bucket.offset.isSome) (bar : MinuteBar) :
    (stamped bucket bar).Valid :=
  ⟨bar.nonNegative, ⟨h, bar.aware.2⟩, bar.highCovers, bar.lowCovers⟩

/-- The bars of a bucket, one after another. -/
def merged (bucket : Stamp) (bars : List MinuteBar) : Option MinuteBarValues :=
  reduce merge (bars.map (stamped bucket))

/-! ## The bar of a bucket -/

theorem latest_cons (first s : Stamp) (rest : List Stamp) :
    latest first (s :: rest) = latest (later first s) rest := rfl

theorem foldl_merge (bucket : Stamp) (v : MinuteBarValues) (rest : List MinuteBar) :
    (rest.map (stamped bucket)).foldl merge v =
      { v with
        high := (rest.map (·.high)).foldl max v.high
        low := (rest.map (·.low)).foldl min v.low
        close := (rest.getLast?.map (·.close)).getD v.close
        volume := v.volume + (rest.map (·.volume)).sum
        asOf := latest v.asOf (rest.map (·.asOf)) } := by
  induction rest generalizing v with
  | nil => simp [latest]
  | cons bar rest ih =>
    rw [List.map_cons, List.foldl_cons, ih]
    cases hlast : rest.getLast? with
    | none => simp [merge, stamped, latest_cons, List.getLast?_cons, hlast, add_assoc]
    | some last => simp [merge, stamped, latest_cons, List.getLast?_cons, hlast, add_assoc]

theorem merged_cons (bucket : Stamp) (first : MinuteBar) (rest : List MinuteBar) :
    merged bucket (first :: rest) = some (bucketValues bucket first rest) := by
  have hlast : (first :: rest).getLast (List.cons_ne_nil first rest) =
      rest.getLast?.getD first := by
    rw [← Option.some_inj, ← List.getLast?_eq_some_getLast, List.getLast?_cons]
  rw [merged, List.map_cons, reduce, foldl_merge, bucketValues, hlast]
  cases rest.getLast? with
  | none => rfl
  | some last => rfl

/-- One symbol and one currency. -/
def OneInstrument (bars : List MinuteBar) : Prop :=
  ∃ symbol currency, ∀ bar ∈ bars, bar.symbol = symbol ∧ bar.currency = currency

theorem OneInstrument.of_subset {bars bars' : List MinuteBar} (h : OneInstrument bars)
    (hsubset : bars' ⊆ bars) : OneInstrument bars' := by
  obtain ⟨symbol, currency, hall⟩ := h
  exact ⟨symbol, currency, fun bar hbar => hall bar (hsubset hbar)⟩

/-- A set of the same value only. -/
theorem length_dedup_of_const {β : Type*} [DecidableEq β] {f : MinuteBar → β} {c : β}
    {bars : List MinuteBar}
    (hsome : bars ≠ []) (h : ∀ bar ∈ bars, f bar = c) : (bars.map f).dedup.length = 1 := by
  rw [List.map_congr_left h, List.map_const', List.replicate_dedup]
  · rfl
  · exact List.length_eq_zero_iff.not.mpr hsome

theorem aggregateBucket_eq {bucket : Stamp} {bars : List MinuteBar} (hone : OneInstrument bars)
    {v : MinuteBarValues} (hv : merged bucket bars = some v) :
    aggregateBucket (bucket, bars) = v.create := by
  obtain ⟨symbol, currency, hall⟩ := hone
  cases bars with
  | nil => cases hv
  | cons first rest =>
    have hcurrencies := length_dedup_of_const (List.cons_ne_nil first rest) fun bar hbar =>
      (hall bar hbar).2
    have hsymbols := length_dedup_of_const (List.cons_ne_nil first rest) fun bar hbar =>
      (hall bar hbar).1
    rw [merged_cons, Option.some.injEq] at hv
    have hmixed : ¬(((first :: rest).map (·.currency)).dedup.length ≠ 1 ∨
        ((first :: rest).map (·.symbol)).dedup.length ≠ 1) := by
      rintro (hne | hne)
      · exact hne hcurrencies
      · exact hne hsymbols
    simp only [aggregateBucket]
    rw [if_neg hmixed, hv]

/-- The bar of a bucket passes the validation. -/
theorem aggregateBucket_ok {bucket : Stamp} {bars : List MinuteBar} (hsome : bars ≠ [])
    (haware : bucket.offset.isSome) (hone : OneInstrument bars) :
    ∃ bar, aggregateBucket (bucket, bars) = .ok bar ∧
      merged bucket bars = some bar.toMinuteBarValues := by
  have hstamped : bars.map (stamped bucket) ≠ [] := by simpa using hsome
  obtain ⟨v, hv⟩ := reduce_isSome merge hstamped
  have hvalid : v.Valid := by
    refine reduce_induction merge_valid ?_ hv
    simp only [List.mem_map, forall_exists_index, and_imp, forall_apply_eq_imp_iff₂]
    exact fun bar _ => stamped_valid haware bar
  obtain ⟨bar, hbar, hvalues⟩ := MinuteBarValues.create_of_valid hvalid
  exact ⟨bar, (aggregateBucket_eq hone hv).trans hbar, hvalues ▸ hv⟩

/-! ## Merging again -/

theorem merged_restamp {bucket bucket' : Stamp} {bars : List MinuteBar} {bar : MinuteBar}
    (h : merged bucket bars = some bar.toMinuteBarValues) :
    merged bucket' bars = some (stamped bucket' bar) := by
  let restamp (v : MinuteBarValues) : MinuteBarValues := { v with timestamp := bucket' }
  have hmap : reduce merge ((bars.map (stamped bucket)).map restamp) =
      (merged bucket bars).map restamp := reduce_map (fun _ _ => rfl) _
  rw [h, List.map_map] at hmap
  exact hmap

/-- The bars of buckets merged are the bars merged. -/
theorem merged_flatMap {bucket : Stamp} {groups : List (Stamp × List MinuteBar)}
    {f : Stamp × List MinuteBar → MinuteBar}
    (h : ∀ group ∈ groups, merged group.1 group.2 = some (f group).toMinuteBarValues) :
    merged bucket (groups.flatMap Prod.snd) = merged bucket (groups.map f) := by
  have hgroups : (groups.map fun group => group.2.map (stamped bucket)).filterMap (reduce merge) =
      (groups.map f).map (stamped bucket) := by
    rw [List.filterMap_map, List.map_map]
    refine Eq.trans ?_ (congrFun (List.filterMap_eq_map (f := stamped bucket ∘ f)) groups)
    exact List.filterMap_congr fun group hgroup => merged_restamp (h group hgroup)
  rw [merged, List.map_flatMap, List.flatMap_def, reduce_flatten, hgroups, merged]

end Screener.Market
