import Mathlib.Data.List.Count
import Mathlib.Data.List.Sort
import Screener.Lib.Windows

/-!
# Sorted lists

A test that holds of an element whenever it holds of a later one keeps a prefix of
the list. In a list that is strictly sorted by a key, the last `n` elements are those
with fewer than `n` later ones, and the elements alone decide the list.
-/

namespace Screener.Lib

variable {α κ : Type*}

/-! ## Prefixes -/

theorem filter_eq_take {p : α → Bool} {xs : List α}
    (h : xs.Pairwise fun a b => p b = true → p a = true) : xs.filter p = xs.take (xs.countP p) := by
  induction xs with
  | nil => rfl
  | cons a xs ih =>
    obtain ⟨hfirst, hrest⟩ := List.pairwise_cons.mp h
    cases ha : p a with
    | true =>
      rw [List.filter_cons_of_pos ha, List.countP_cons_of_pos ha, List.take_succ_cons, ih hrest]
    | false =>
      have hnone : ∀ b ∈ xs, p b ≠ true := by
        intro b hb htrue
        rw [hfirst b hb htrue] at ha
        cases ha
      have hzero : (a :: xs).countP p = 0 := by
        rw [List.countP_eq_zero]
        exact List.forall_mem_cons.mpr ⟨by simp [ha], hnone⟩
      rw [hzero, List.take_zero, List.filter_eq_nil_iff]
      exact List.forall_mem_cons.mpr ⟨by simp [ha], hnone⟩

/-- What a prefix leaves out comes after all of it. -/
theorem mem_take_or_after {r : α → α → Prop} {n : Nat} {xs : List α} {a : α} (h : xs.Pairwise r)
    (ha : a ∈ xs) : a ∈ xs.take n ∨ (xs.take n).length = n ∧ ∀ b ∈ xs.take n, r b a := by
  rw [← List.take_append_drop n xs, List.mem_append] at ha
  rcases ha with hin | hout
  · exact .inl hin
  · have hlength : n < xs.length := by
      have hpos := List.length_pos_of_mem hout
      rw [List.length_drop] at hpos
      omega
    rw [← List.take_append_drop n xs, List.pairwise_append] at h
    refine .inr ⟨?_, fun b hb => h.2.2 b hb a hout⟩
    rw [List.length_take, min_eq_left hlength.le]

/-! ## Sorting again

A stable sort leaves the elements that it ties in the order of the sort before it. -/

section Stable

variable {r s : α → α → Prop} [DecidableRel r] [Std.Total r] [IsTrans α r]

theorem pairwise_orderedInsert_stable {a : α} {xs : List α} (ha : ∀ b ∈ xs, s a b)
    (h : xs.Pairwise fun x y => r x y ∧ (r y x → s x y)) :
    (xs.orderedInsert r a).Pairwise fun x y => r x y ∧ (r y x → s x y) := by
  induction xs with
  | nil => exact List.pairwise_singleton _ a
  | cons b xs ih =>
    obtain ⟨hb, hxs⟩ := List.pairwise_cons.mp h
    by_cases hab : r a b
    · rw [List.orderedInsert_cons, if_pos hab]
      refine List.pairwise_cons.mpr ⟨fun x hx => ⟨?_, fun _ => ha x hx⟩, h⟩
      rcases List.mem_cons.mp hx with rfl | hx
      · exact hab
      · exact IsTrans.trans a b x hab (hb x hx).1
    · rw [List.orderedInsert_cons, if_neg hab]
      have hba : r b a := (Std.Total.total a b).resolve_left hab
      refine List.pairwise_cons.mpr
        ⟨fun x hx => ?_, ih (fun x hx => ha x (List.mem_cons_of_mem b hx)) hxs⟩
      rcases List.mem_cons.mp ((List.perm_orderedInsert r a xs).mem_iff.mp hx) with rfl | hx
      · exact ⟨hba, fun h => absurd h hab⟩
      · exact hb x hx

theorem pairwise_insertionSort_stable {xs : List α} (h : xs.Pairwise s) :
    (xs.insertionSort r).Pairwise fun x y => r x y ∧ (r y x → s x y) := by
  induction xs with
  | nil => exact List.Pairwise.nil
  | cons a xs ih =>
    obtain ⟨ha, hxs⟩ := List.pairwise_cons.mp h
    refine pairwise_orderedInsert_stable (fun b hb => ha b ?_) (ih hxs)
    exact (List.perm_insertionSort r xs).mem_iff.mp hb

end Stable

/-! ## Strictly sorted lists -/

section Strict

variable [LinearOrder κ] {key : α → κ} {xs ys : List α}

theorem insertionSort_strict (key : α → κ) {zs : List α} (h : (zs.map key).Nodup) :
    (zs.insertionSort fun a b => key a ≤ key b).Pairwise fun a b => key a < key b := by
  have hsorted := List.pairwise_insertionSort (fun a b => key a ≤ key b) zs
  have hdistinct : (zs.insertionSort fun a b => key a ≤ key b).Pairwise fun a b =>
      key a ≠ key b := by
    have hperm := List.perm_insertionSort (fun a b => key a ≤ key b) zs
    exact List.pairwise_map.mp ((hperm.map key).nodup_iff.mpr h)
  exact (hsorted.and hdistinct).imp fun hab => lt_of_le_of_ne hab.1 hab.2

theorem mem_trailing {n : Nat} {a : α} (h : xs.Pairwise fun a b => key a < key b) :
    a ∈ trailing n xs ↔ a ∈ xs ∧ xs.countP (fun b => key a < key b) < n := by
  induction xs with
  | nil => simp [trailing]
  | cons x xs ih =>
    obtain ⟨hfirst, hrest⟩ := List.pairwise_cons.mp h
    by_cases hlength : (x :: xs).length ≤ n
    · rw [trailing_of_le hlength]
      refine (and_iff_left_of_imp fun ha => ?_).symm
      refine lt_of_lt_of_le ?_ hlength
      exact List.countP_lt_length_iff.mpr ⟨a, ha, by simp⟩
    · have hn : n ≤ xs.length := by
        rw [List.length_cons] at hlength
        omega
      have hdrop : trailing n (x :: xs) = trailing n xs := trailing_append_of_le [x] hn
      rw [hdrop, ih hrest, List.mem_cons]
      by_cases ha : a ∈ xs
      · have hcount : (x :: xs).countP (fun b => key a < key b) =
            xs.countP fun b => key a < key b :=
          List.countP_cons_of_neg (by simpa using (hfirst a ha).le)
        simp [ha, hcount]
      · simp only [ha, false_and, or_false, false_iff, not_and, not_lt]
        rintro rfl
        -- Every other element is later than the first.
        have hall : xs.countP (fun b => key a < key b) = xs.length :=
          List.countP_eq_length.mpr fun b hb => by simpa using hfirst b hb
        rw [List.countP_cons_of_neg (by simp), hall]
        exact hn

/-- An element is counted after those before it. -/
theorem countP_le_split {pre post : List α} {x : α}
    (h : (pre ++ x :: post).Pairwise fun a b => key a < key b) :
    (pre ++ x :: post).countP (fun a => key a ≤ key x) = pre.length + 1 := by
  obtain ⟨-, hpost, hacross⟩ := List.pairwise_append.mp h
  have hbefore : pre.countP (fun a => key a ≤ key x) = pre.length :=
    List.countP_eq_length.mpr fun a ha => by
      simpa using (hacross a ha x List.mem_cons_self).le
  have hafter : post.countP (fun a => key a ≤ key x) = 0 :=
    List.countP_eq_zero.mpr fun a ha => by
      simpa using List.rel_of_pairwise_cons hpost ha
  rw [List.countP_append, List.countP_cons_of_pos (by simp), hbefore, hafter, Nat.zero_add]

theorem eq_of_mem_iff (key : α → κ) (hxs : xs.Pairwise fun a b => key a < key b)
    (hys : ys.Pairwise fun a b => key a < key b) (h : ∀ a, a ∈ xs ↔ a ∈ ys) : xs = ys := by
  have hnodup : ∀ {zs : List α}, zs.Pairwise (fun a b => key a < key b) → zs.Nodup :=
    fun hzs => hzs.imp fun hlt heq => absurd (congrArg key heq) hlt.ne
  have hperm : xs.Perm ys := (List.perm_ext_iff_of_nodup (hnodup hxs) (hnodup hys)).mpr h
  refine hperm.eq_of_pairwise (fun a b _ _ hab hba => ?_) hxs hys
  exact absurd hab hba.asymm

end Strict

theorem length_le_of_strict {key : α → Nat} {xs : List α} {n : Nat}
    (h : xs.Pairwise fun a b => key a < key b) (hn : ∀ a ∈ xs, key a ≤ n) : xs.length ≤ n + 1 := by
  have hnodup : (xs.map key).Nodup := List.pairwise_map.mpr (h.imp fun hlt => hlt.ne)
  have hsubset : xs.map key ⊆ List.range (n + 1) := by
    intro k hk
    obtain ⟨a, ha, rfl⟩ := List.mem_map.mp hk
    exact List.mem_range.mpr (Nat.lt_succ_of_le (hn a ha))
  simpa using (List.subperm_of_subset hnodup hsubset).length_le

end Screener.Lib
