import Mathlib.Data.List.Induction
import Mathlib.Data.List.Infix
import Mathlib.Order.Bounds.Defs
import Mathlib.Tactic.SplitIfs
import Screener.Lib.Sorted

/-!
# Streaks

The longest run of consecutive elements that pass a test, as a loop counts it. Elements
that are left out before the count matter only where they stand inside the longest runs. In
a strictly sorted list the length of the streak is told by sets of elements alone.
-/

namespace Screener.Lib

structure Streak where
  current : Nat
  longest : Nat
deriving DecidableEq, Repr

namespace Streak

variable {α : Type*}

def start : Streak := ⟨0, 0⟩

/-- One more element, which passes or breaks the streak. -/
def next (s : Streak) (passes : Bool) : Streak :=
  if passes then ⟨s.current + 1, max s.longest (s.current + 1)⟩ else ⟨0, s.longest⟩

/-- The streak after more elements. -/
def through (s : Streak) (p : α → Bool) (xs : List α) : Streak :=
  xs.foldl (fun s x => s.next (p x)) s

def of (p : α → Bool) (xs : List α) : Streak := start.through p xs

theorem through_cons (p : α → Bool) (s : Streak) (x : α) (xs : List α) :
    s.through p (x :: xs) = (s.next (p x)).through p xs := rfl

theorem of_map {β : Type*} (p : α → Bool) (f : β → α) (xs : List β) :
    of p (xs.map f) = of (fun x => p (f x)) xs := by
  rw [of, through, List.foldl_map]
  rfl

theorem of_concat (p : α → Bool) (xs : List α) (x : α) :
    of p (xs ++ [x]) = (of p xs).next (p x) := by
  rw [of, through, List.foldl_append]
  rfl

/-! ## Runs -/

/-- Consecutive elements that pass. -/
def IsRun (p : α → Bool) (xs block : List α) : Prop := block <:+: xs ∧ ∀ x ∈ block, p x = true

theorem exists_run (p : α → Bool) (xs : List α) :
    (∃ block, block <:+ xs ∧ (∀ x ∈ block, p x = true) ∧ block.length = (of p xs).current) ∧
      ∃ block, IsRun p xs block ∧ block.length = (of p xs).longest := by
  induction xs using List.reverseRecOn with
  | nil => exact ⟨⟨[], List.nil_suffix, by simp, rfl⟩, [], ⟨List.nil_infix, by simp⟩, rfl⟩
  | append_singleton xs y ih =>
    obtain ⟨⟨ending, hsuffix, hending, hcurrent⟩, block, hblock, hlongest⟩ := ih
    have hkept : IsRun p (xs ++ [y]) block :=
      ⟨List.infix_concat_iff.mpr (.inr hblock.1), hblock.2⟩
    rw [of_concat]
    cases hy : p y with
    | false => exact ⟨⟨[], List.nil_suffix, by simp, rfl⟩, block, hkept, hlongest⟩
    | true =>
      have hgrown : ending ++ [y] <:+ xs ++ [y] :=
        List.suffix_concat_iff.mpr (.inr ⟨ending, rfl, hsuffix⟩)
      have hall : ∀ x ∈ ending ++ [y], p x = true :=
        List.forall_mem_append.mpr ⟨hending, List.forall_mem_singleton.mpr hy⟩
      have hlength : (ending ++ [y]).length = (of p xs).current + 1 := by simp [hcurrent]
      refine ⟨⟨ending ++ [y], hgrown, hall, hlength⟩, ?_⟩
      rcases Nat.le_total (of p xs).longest ((of p xs).current + 1) with hle | hle
      · exact ⟨ending ++ [y], ⟨hgrown.isInfix, hall⟩, hlength.trans (max_eq_right hle).symm⟩
      · exact ⟨block, hkept, hlongest.trans (max_eq_left hle).symm⟩

theorem run_le (p : α → Bool) (xs : List α) :
    (∀ block, block <:+ xs → (∀ x ∈ block, p x = true) → block.length ≤ (of p xs).current) ∧
      ∀ block, IsRun p xs block → block.length ≤ (of p xs).longest := by
  induction xs using List.reverseRecOn with
  | nil =>
    constructor
    · intro block hblock _
      rw [List.suffix_nil.mp hblock]
      rfl
    · intro block hblock
      rw [List.infix_nil.mp hblock.1]
      rfl
  | append_singleton xs y ih =>
    obtain ⟨hcurrent, hlongest⟩ := ih
    have hsuffix : ∀ block, block <:+ xs ++ [y] → (∀ x ∈ block, p x = true) →
        block.length ≤ (of p (xs ++ [y])).current := by
      intro block hblock hall
      rcases List.suffix_concat_iff.mp hblock with rfl | ⟨ending, rfl, hending⟩
      · exact Nat.zero_le _
      · have hy : p y = true := hall y (by simp)
        have hle := hcurrent ending hending fun x hx => hall x (List.mem_append_left _ hx)
        rw [of_concat, next, hy, if_pos rfl, List.length_append]
        exact Nat.succ_le_succ hle
    refine ⟨hsuffix, fun block hblock => ?_⟩
    have hbound : (of p (xs ++ [y])).current ≤ (of p (xs ++ [y])).longest ∧
        (of p xs).longest ≤ (of p (xs ++ [y])).longest := by
      rw [of_concat, next]
      split_ifs
      · exact ⟨le_max_right _ _, le_max_left _ _⟩
      · exact ⟨Nat.zero_le _, le_rfl⟩
    rcases List.infix_concat_iff.mp hblock.1 with hend | hin
    · exact (hsuffix block hend hblock.2).trans hbound.1
    · exact (hlongest block ⟨hin, hblock.2⟩).trans hbound.2

/-- The longest streak is the length of a longest run. -/
theorem isGreatest_longest (p : α → Bool) (xs : List α) :
    IsGreatest {n | ∃ block, IsRun p xs block ∧ block.length = n} (of p xs).longest := by
  refine ⟨(exists_run p xs).2, ?_⟩
  rintro _ ⟨block, hblock, rfl⟩
  exact (run_le p xs).2 block hblock

/-! ## Sorted lists

In a list that a key sorts strictly, a run is a set of elements with nothing that breaks
the streak between two of them. -/

theorem filter_suffix {p : α → Bool} {xs : List α}
    (h : xs.Pairwise fun a b => p a = true → p b = true) : xs.filter p <:+ xs := by
  induction xs with
  | nil => exact List.suffix_rfl
  | cons a xs ih =>
    obtain ⟨hfirst, hrest⟩ := List.pairwise_cons.mp h
    cases ha : p a with
    | true =>
      have hall : ∀ b ∈ a :: xs, p b = true :=
        List.forall_mem_cons.mpr ⟨ha, fun b hb => hfirst b hb ha⟩
      rw [List.filter_eq_self.mpr hall]
    | false =>
      rw [List.filter_cons_of_neg (by simp [ha])]
      exact (ih hrest).trans (List.suffix_cons a xs)

section Together

variable {κ : Type*} [LinearOrder κ] {key : α → κ} {p gap : α → Bool} {xs streak : List α}

/-- Elements that all pass, and of those that neither pass nor are left out none has its
key between two of theirs. -/
structure Together (key : α → κ) (p gap : α → Bool) (xs streak : List α) : Prop where
  nodup : streak.Nodup
  subset : streak ⊆ xs
  passes : ∀ x ∈ streak, p x = true
  unbroken : ∀ x ∈ xs, p x = false → gap x = false → ∀ a ∈ streak, ∀ b ∈ streak,
    ¬ (key a < key x ∧ key x < key b)

theorem together_perm {ys : List α} (h : xs.Perm ys) :
    Together key p gap xs streak ↔ Together key p gap ys streak := by
  have hsubset : streak ⊆ xs ↔ streak ⊆ ys := by
    simp only [List.subset_def, h.mem_iff]
  constructor
  · rintro ⟨hnodup, hin, hpasses, hunbroken⟩
    exact ⟨hnodup, hsubset.mp hin, hpasses, fun x hx => hunbroken x (h.mem_iff.mpr hx)⟩
  · rintro ⟨hnodup, hin, hpasses, hunbroken⟩
    exact ⟨hnodup, hsubset.mpr hin, hpasses, fun x hx => hunbroken x (h.mem_iff.mp hx)⟩

/-- The elements from the first of `streak` to the last. -/
def hull (key : α → κ) (streak xs : List α) : List α :=
  (xs.filter fun x => ∃ a ∈ streak, key a ≤ key x).filter fun x => ∃ b ∈ streak, key x ≤ key b

theorem mem_hull {x : α} : x ∈ hull key streak xs ↔
    x ∈ xs ∧ (∃ a ∈ streak, key a ≤ key x) ∧ ∃ b ∈ streak, key x ≤ key b := by
  simp only [hull, List.mem_filter, decide_eq_true_iff, and_assoc]

theorem hull_block (hsorted : xs.Pairwise fun a b => key a < key b) :
    hull key streak xs <:+: xs := by
  have hfrom : (xs.filter fun x => ∃ a ∈ streak, key a ≤ key x) <:+ xs := by
    apply filter_suffix
    apply hsorted.imp
    intro x y hxy hx
    obtain ⟨a, ha, hax⟩ := of_decide_eq_true hx
    exact decide_eq_true ⟨a, ha, hax.trans hxy.le⟩
  have hupTo : hull key streak xs <+: xs.filter fun x => ∃ a ∈ streak, key a ≤ key x := by
    rw [hull, filter_eq_take]
    · exact List.take_prefix _ _
    · apply (hsorted.sublist List.filter_sublist).imp
      intro x y hxy hy
      obtain ⟨b, hb, hyb⟩ := of_decide_eq_true hy
      exact decide_eq_true ⟨b, hb, hxy.le.trans hyb⟩
  exact hupTo.isInfix.trans hfrom.isInfix

/-- Where nothing is left out, what lies between elements that stand together passes. -/
theorem Together.hull_run (hsorted : xs.Pairwise fun a b => key a < key b)
    (h : Together key p (fun _ => false) xs streak) : IsRun p xs (hull key streak xs) := by
  refine ⟨hull_block hsorted, fun x hx => ?_⟩
  obtain ⟨hmem, ⟨a, ha, hax⟩, b, hb, hxb⟩ := mem_hull.mp hx
  have hdistinct : (xs.map key).Nodup := List.pairwise_map.mpr (hsorted.imp fun hlt => hlt.ne)
  have hkeys : ∀ y ∈ streak, key y = key x → p x = true := by
    intro y hy heq
    have hsame : y = x := List.inj_on_of_nodup_map hdistinct (h.subset hy) hmem heq
    rw [← hsame]
    exact h.passes y hy
  rcases hax.eq_or_lt with heq | hlower
  · exact hkeys a ha heq
  rcases hxb.eq_or_lt with heq | hupper
  · exact hkeys b hb heq.symm
  by_contra hfails
  exact h.unbroken x hmem (by simpa using hfails) rfl a ha b hb ⟨hlower, hupper⟩

theorem Together.subset_hull (h : Together key p gap xs streak) : streak ⊆ hull key streak xs :=
  fun x hx => mem_hull.mpr ⟨h.subset hx, ⟨x, hx, le_rfl⟩, x, hx, le_rfl⟩

/-- Elements of a run stand together. -/
theorem IsRun.together {block : List α} (hsorted : xs.Pairwise fun a b => key a < key b)
    (h : IsRun p xs block) (n : Nat) :
    Together key p (fun _ => false) xs (block.take n) := by
  have hpart : block.take n ⊆ block := List.take_subset n block
  have hnodup : xs.Nodup := hsorted.imp fun hlt heq => absurd (congrArg key heq) hlt.ne
  constructor
  case nodup => exact ((hnodup.sublist h.1.sublist).sublist (List.take_sublist n block))
  case subset => exact fun x hx => h.1.subset (hpart hx)
  case passes => exact fun x hx => h.2 x (hpart hx)
  case unbroken =>
    rintro x hx hfails - a ha b hb ⟨hax, hxb⟩
    obtain ⟨before, after, rfl⟩ := h.1
    rw [List.append_assoc, List.pairwise_append, List.pairwise_append] at hsorted
    obtain ⟨-, ⟨-, -, hafter⟩, hbefore⟩ := hsorted
    rw [List.append_assoc, List.mem_append, List.mem_append] at hx
    rcases hx with hx | hx | hx
    · exact absurd hax (hbefore x hx a (List.mem_append_left _ (hpart ha))).asymm
    · rw [h.2 x hx] at hfails
      cases hfails
    · exact absurd hxb (hafter b (hpart hb) x hx).asymm

/-- Leaving elements out beforehand is not letting them break a streak. -/
theorem together_filter_iff (hgap : ∀ x, p x = true → gap x = false) :
    Together key p (fun _ => false) (xs.filter fun x => !gap x) streak ↔
      Together key p gap xs streak := by
  have hkept : ∀ x, x ∈ (xs.filter fun x => !gap x) ↔ x ∈ xs ∧ gap x = false := by
    intro x
    rw [List.mem_filter, Bool.not_eq_true']
  constructor
  · intro h
    constructor
    case nodup => exact h.nodup
    case subset => exact fun x hx => ((hkept x).mp (h.subset hx)).1
    case passes => exact h.passes
    case unbroken =>
      intro x hx hfails hin
      exact h.unbroken x ((hkept x).mpr ⟨hx, hin⟩) hfails rfl
  · intro h
    constructor
    case nodup => exact h.nodup
    case subset => exact fun x hx => (hkept x).mpr ⟨h.subset hx, hgap x (h.passes x hx)⟩
    case passes => exact h.passes
    case unbroken =>
      intro x hx hfails _
      exact h.unbroken x ((hkept x).mp hx).1 hfails ((hkept x).mp hx).2

/-- The streak is at least `n` long exactly where `n` elements stand together. -/
theorem le_longest_iff (hsorted : xs.Pairwise fun a b => key a < key b)
    (hgap : ∀ x, p x = true → gap x = false) {n : Nat} :
    n ≤ (of p (xs.filter fun x => !gap x)).longest ↔
      ∃ streak, Together key p gap xs streak ∧ streak.length = n := by
  have hkept := hsorted.sublist (List.filter_sublist (p := fun x => !gap x))
  obtain ⟨-, block, hblock, hlength⟩ := exists_run p (xs.filter fun x => !gap x)
  constructor
  · intro hn
    refine ⟨block.take n, (together_filter_iff hgap).mp (hblock.together hkept n), ?_⟩
    rw [List.length_take, hlength, min_eq_left hn]
  · rintro ⟨streak, hstreak, rfl⟩
    have htogether := (together_filter_iff hgap).mpr hstreak
    have hle := (List.subperm_of_subset htogether.nodup htogether.subset_hull).length_le
    exact hle.trans ((run_le p _).2 _ (htogether.hull_run hkept))

end Together

/-! ## Gaps -/

/-- Some run is as long as every run that leaves the gaps out. -/
def LongestUnbroken (p gap : α → Bool) (xs : List α) : Prop :=
  ∃ block, IsRun p xs block ∧
    ∀ other, IsRun p (xs.filter fun x => !gap x) other → other.length ≤ block.length

/-- Leaving the gaps out changes nothing exactly where some longest run has none inside. -/
theorem longest_filter_iff {p gap : α → Bool} (hgap : ∀ x, p x = true → gap x = false)
    {xs : List α} :
    (of p (xs.filter fun x => !gap x)).longest = (of p xs).longest ↔ LongestUnbroken p gap xs := by
  obtain ⟨-, longest, hlongest, hlength⟩ := exists_run p xs
  obtain ⟨-, dropped, hdropped, hdroppedLength⟩ := exists_run p (xs.filter fun x => !gap x)
  constructor
  · intro heq
    refine ⟨longest, hlongest, fun other hother => ?_⟩
    rw [hlength, ← heq]
    exact (run_le p _).2 other hother
  · rintro ⟨block, hblock, hothers⟩
    refine le_antisymm ?_ ?_
    · rw [← hdroppedLength]
      exact (hothers dropped hdropped).trans ((run_le p xs).2 block hblock)
    · -- A run has no gaps inside, so it is still there without them.
      have hfilter : (longest.filter fun x => !gap x) = longest :=
        List.filter_eq_self.mpr fun x hx => by simp [hgap x (hlongest.2 x hx)]
      rw [← hlength]
      refine (run_le p _).2 longest ⟨?_, hlongest.2⟩
      rw [← hfilter]
      exact hlongest.1.filter _

end Streak

end Screener.Lib
