import Mathlib.Data.List.Dedup
import Mathlib.Data.Int.Order.Basic
import Mathlib.Tactic.Linarith
import Screener.Lib.Regrouping
import Screener.Market.MinuteBars

/-!
# Buckets of minutes

Where the bucket of a bar starts, and when: later buckets hold later bars, and the buckets
of an hour nest where their lengths divide each other.
-/

namespace Screener.Market

open Screener.Lib

/-! ## Where a bucket starts -/

/-- The start of the bucket of a time, for buckets of some width. -/
def bucketWall (width wall : ℤ) : ℤ :=
  wall / hourLength * hourLength + wall % hourLength / width * width

theorem hourLength_pos : 0 < hourLength := by decide

theorem minuteLength_pos : 0 < minuteLength := by decide

section BucketWall

variable {width : ℤ} (hwidth : 0 < width) (wall : ℤ)

include hwidth

theorem bucket_in_hour : 0 ≤ wall % hourLength / width * width ∧
    wall % hourLength / width * width ≤ wall % hourLength := by
  have hpast := Int.emod_nonneg wall hourLength_pos.ne'
  exact ⟨mul_nonneg (Int.ediv_nonneg hpast hwidth.le) hwidth.le,
    Int.ediv_mul_le _ hwidth.ne'⟩

theorem bucketWall_le : bucketWall width wall ≤ wall := by
  have hle := (bucket_in_hour hwidth wall).2
  have hsplit := Int.ediv_mul_add_emod wall hourLength
  unfold bucketWall
  omega

theorem bucketWall_hour : bucketWall width wall / hourLength = wall / hourLength := by
  obtain ⟨hnonneg, hle⟩ := bucket_in_hour hwidth wall
  have hlt := Int.emod_lt_of_pos wall hourLength_pos
  rw [bucketWall, add_comm, Int.add_mul_ediv_right _ _ hourLength_pos.ne',
    Int.ediv_eq_zero_of_lt hnonneg (hle.trans_lt hlt), zero_add]

theorem bucketWall_emod : bucketWall width wall % hourLength =
    wall % hourLength / width * width := by
  obtain ⟨hnonneg, hle⟩ := bucket_in_hour hwidth wall
  have hlt := Int.emod_lt_of_pos wall hourLength_pos
  rw [bucketWall, add_comm, Int.add_mul_emod_self_right,
    Int.emod_eq_of_lt hnonneg (hle.trans_lt hlt)]

end BucketWall

theorem bucketWall_mono {width : ℤ} (hwidth : 0 < width) {a b : ℤ} (hab : a ≤ b) :
    bucketWall width a ≤ bucketWall width b := by
  have hhour := Int.ediv_le_ediv hourLength_pos hab
  rcases hhour.lt_or_eq with hlt | heq
  · -- A later hour starts behind everything of an earlier one.
    have hstart := (bucket_in_hour hwidth b).1
    have hend := Int.emod_lt_of_pos a hourLength_pos
    have hle := (bucket_in_hour hwidth a).2
    have hhours := Int.mul_le_mul_of_nonneg_right (Int.add_one_le_of_lt hlt) hourLength_pos.le
    unfold bucketWall
    linarith
  · have hsplit := Int.ediv_mul_add_emod a hourLength
    have hsplit' := Int.ediv_mul_add_emod b hourLength
    rw [← heq] at hsplit'
    have hmod : a % hourLength ≤ b % hourLength := by omega
    have hquotient := Int.mul_le_mul_of_nonneg_right (Int.ediv_le_ediv hwidth hmod) hwidth.le
    unfold bucketWall
    rw [heq]
    omega

/-- The buckets of a multiple are made of whole buckets. -/
theorem bucketWall_nested {width width' : ℤ} (hwidth : 0 < width) (hdvd : width ∣ width')
    (wall : ℤ) :
    bucketWall width' (bucketWall width wall) = bucketWall width' wall := by
  obtain ⟨k, rfl⟩ := hdvd
  have hquotient : wall % hourLength / width * width / (width * k) =
      wall % hourLength / (width * k) := by
    rw [mul_comm (wall % hourLength / width), Int.mul_ediv_mul_of_pos _ _ hwidth,
      Int.ediv_ediv_of_nonneg hwidth.le]
  rw [bucketWall, bucketWall_hour hwidth, bucketWall_emod hwidth, hquotient, ← bucketWall]

/-! ## The bucket of a bar -/

/-- The bucket of a bar. -/
def bucketOf (minutes : ℤ) (bar : MinuteBar) : Stamp :=
  bucketStart minutes (localTime bar.timestamp)

theorem bucketStart_eq (minutes : ℤ) (time : Stamp) :
    bucketStart minutes time =
      { time with wall := bucketWall (minutes * minuteLength) time.wall } := by
  have hsplit := Int.ediv_mul_add_emod time.wall hourLength
  have hwhole : time.wall - time.wall % hourLength = time.wall / hourLength * hourLength := by omega
  have hquotient : time.wall % hourLength / minuteLength / minutes =
      time.wall % hourLength / (minutes * minuteLength) := by
    rw [Int.ediv_ediv_of_nonneg minuteLength_pos.le, mul_comm]
  rw [bucketStart, bucketWall, hwhole, hquotient, mul_assoc]

theorem width_pos {minutes : ℤ} (hpos : 0 < minutes) : 0 < minutes * minuteLength :=
  mul_pos hpos minuteLength_pos

@[simp] theorem localTime_wall (s : Stamp) : (localTime s).wall = s.moment + kst := rfl

@[simp] theorem bucketOf_offset (minutes : ℤ) (bar : MinuteBar) :
    (bucketOf minutes bar).offset = some kst := rfl

theorem bucketOf_wall (minutes : ℤ) (bar : MinuteBar) : (bucketOf minutes bar).wall =
    bucketWall (minutes * minuteLength) (bar.timestamp.moment + kst) := by
  rw [bucketOf, bucketStart_eq]
  rfl

/-- A datetime with the offset of Seoul is its own local time. -/
theorem localTime_of_kst {s : Stamp} (h : s.offset = some kst) : localTime s = s := by
  obtain ⟨wall, offset⟩ := s
  subst h
  simp [localTime, Stamp.moment]

theorem bucketOf_moment (minutes : ℤ) (bar : MinuteBar) :
    (bucketOf minutes bar).moment = (bucketOf minutes bar).wall - kst := rfl

/-- The moments of starts of buckets tell them apart. -/
theorem bucketStart_inj {minutes : ℤ} {s t : Stamp}
    (h : (bucketStart minutes (localTime s)).moment = (bucketStart minutes (localTime t)).moment) :
    bucketStart minutes (localTime s) = bucketStart minutes (localTime t) := by
  have hwall : (bucketStart minutes (localTime s)).wall =
      (bucketStart minutes (localTime t)).wall :=
    sub_left_inj.mp h
  rw [Stamp.mk.injEq]
  exact ⟨hwall, rfl⟩

/-- A later bucket has later bars. -/
theorem moment_lt_of_bucket {minutes : ℤ} (hpos : 0 < minutes) {a b : MinuteBar}
    (h : (bucketOf minutes a).moment < (bucketOf minutes b).moment) :
    a.timestamp.moment < b.timestamp.moment := by
  by_contra hnot
  have hwalls := bucketWall_mono (width_pos hpos)
    (add_le_add_left (not_lt.mp hnot) kst)
  rw [bucketOf_moment, bucketOf_moment, bucketOf_wall, bucketOf_wall] at h
  omega

theorem bucketOf_nested {m n : ℤ} (hm : 0 < m) (hdvd : m ∣ n) (bar : MinuteBar) :
    bucketStart n (localTime (bucketOf m bar)) = bucketOf n bar := by
  have hwidths : m * minuteLength ∣ n * minuteLength := Int.mul_dvd_mul_right _ hdvd
  rw [localTime_of_kst (bucketOf_offset m bar), bucketStart_eq, bucketOf_wall,
    bucketWall_nested (width_pos hm) hwidths, ← bucketOf_wall]
  rfl

/-- A bucket starts at a datetime, as its bars do. -/
theorem inKst_bucketOf {minutes : ℤ} (hpos : 0 < minutes) {bar : MinuteBar}
    (h : InKst bar.timestamp) : InKst (bucketOf minutes bar) := by
  obtain ⟨hutc, hlocal⟩ := h
  have hle := bucketWall_le (width_pos hpos) (bar.timestamp.moment + kst)
  have hstart := (bucket_in_hour (width_pos hpos) (bar.timestamp.moment + kst)).1
  rw [← bucketOf_wall] at hle
  have hwall : (bar.timestamp.moment + kst) / hourLength * hourLength ≤
      (bucketOf minutes bar).wall := by
    rw [bucketOf_wall, bucketWall]
    omega
  unfold InKst Stamp.InYears at *
  rw [bucketOf_moment]
  unfold hourLength minuteLength at hwall
  unfold kst hourLength minuteLength dayLength at *
  omega

/-! ## What a bucket holds -/

/-- The hour of the day in Seoul starts a whole number of buckets before. -/
def IsBucketStart (minutes : ℤ) (s : Stamp) : Prop :=
  s.offset = some kst ∧ minutes * minuteLength ∣ s.wall % hourLength

/-- The bar is in the bucket that starts then: in its hour, and before its end. -/
def FallsIn (minutes : ℤ) (s : Stamp) (bar : MinuteBar) : Prop :=
  let wall := (localTime bar.timestamp).wall
  wall / hourLength = s.wall / hourLength ∧ s.wall ≤ wall ∧ wall < s.wall + minutes * minuteLength

instance (minutes : ℤ) (s : Stamp) (bar : MinuteBar) : Decidable (FallsIn minutes s bar) := by
  unfold FallsIn
  infer_instance

theorem isBucketStart_bucketOf {minutes : ℤ} (hpos : 0 < minutes) (bar : MinuteBar) :
    IsBucketStart minutes (bucketOf minutes bar) := by
  refine ⟨rfl, ?_⟩
  rw [bucketOf_wall, bucketWall_emod (width_pos hpos)]
  exact dvd_mul_left _ _

/-- A bar is in the bucket that it is put into, and in no other. -/
theorem fallsIn_iff {minutes : ℤ} (hpos : 0 < minutes) {s : Stamp}
    (hstart : IsBucketStart minutes s)
    {bar : MinuteBar} : FallsIn minutes s bar ↔ bucketOf minutes bar = s := by
  have hwidth := width_pos hpos
  have hbucket := bucketOf_wall minutes bar
  have hsplit := Int.ediv_mul_add_emod (bar.timestamp.moment + kst) hourLength
  have hsplit' := Int.ediv_mul_add_emod s.wall hourLength
  obtain ⟨hoffset, k, hk⟩ := hstart
  simp only [FallsIn, localTime_wall]
  constructor
  · rintro ⟨hhour, hle, hlt⟩
    rw [hhour] at hsplit
    have hquotient : (bar.timestamp.moment + kst) % hourLength / (minutes * minuteLength) = k := by
      refine (Int.ediv_eq_iff_of_pos hwidth).mpr ⟨?_, ?_⟩
      · linarith
      · linarith
    have hwall : (bucketOf minutes bar).wall = s.wall := by
      rw [hbucket, bucketWall, hquotient, hhour]
      linarith
    calc bucketOf minutes bar = ⟨(bucketOf minutes bar).wall, some kst⟩ := rfl
      _ = s := by rw [hwall, ← hoffset]
  · rintro rfl
    have hend := Int.lt_ediv_add_one_mul_self ((bar.timestamp.moment + kst) % hourLength) hwidth
    refine ⟨?_, ?_, ?_⟩
    · rw [hbucket, bucketWall_hour hwidth]
    · rw [hbucket]
      exact bucketWall_le hwidth _
    · rw [hbucket, bucketWall]
      linarith

end Screener.Market
