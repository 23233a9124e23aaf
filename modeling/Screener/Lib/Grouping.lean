import Mathlib.Data.List.Induction
import Screener.Lib.Dict

/-!
# Grouping a list by a key

The pieces of a list by a key: one for each value of the key that occurs, with exactly
the elements that have it. The pieces lose nothing and repeat nothing, so a sum over the
list is the sum over the pieces.
-/

namespace Screener.Lib

variable {α κ M : Type*}

/-- A sum over some of the elements, with a term for each. -/
theorem sum_map_filter [AddCommMonoid M] (p : α → Prop) [DecidablePred p] (f : α → M)
    (xs : List α) : ((xs.filter p).map f).sum = (xs.map fun a => if p a then f a else 0).sum := by
  rw [List.sum_map_ite, List.map_const', List.sum_replicate, nsmul_zero, add_zero]

/-! ## Pieces -/

variable [DecidableEq κ] {key : α → κ} {xs : List α}

structure Pieces (key : α → κ) (xs : List α) (pieces : List (κ × List α)) : Prop where
  keys_nodup : (pieces.map Prod.fst).Nodup
  eq_filter : ∀ p ∈ pieces, p.2 = xs.filter fun a => key a = p.1
  nonempty : ∀ p ∈ pieces, p.2 ≠ []
  covers : ∀ a ∈ xs, key a ∈ pieces.map Prod.fst

/-- The elements apart by their keys, for distinct keys that occur. -/
theorem flatMap_filter_perm {ks : List κ} (hks : ks.Nodup) (h : ∀ a ∈ xs, key a ∈ ks) :
    (ks.flatMap fun k => xs.filter fun a => key a = k).Perm xs := by
  induction ks generalizing xs with
  | nil =>
    have hnil : xs = [] := List.eq_nil_iff_forall_not_mem.mpr fun a ha => by simpa using h a ha
    simp [hnil]
  | cons k ks ih =>
    obtain ⟨hk, hks⟩ := List.nodup_cons.mp hks
    have hothers : (ks.flatMap fun k' => xs.filter fun a => key a = k') =
        ks.flatMap fun k' => (xs.filter fun a => !decide (key a = k)).filter fun a =>
          key a = k' := by
      refine List.flatMap_congr fun k' hk' => ?_
      rw [List.filter_filter]
      refine List.filter_congr fun a _ => ?_
      by_cases ha : key a = k'
      · have hne : k' ≠ k := fun heq => hk (heq ▸ hk')
        simp [ha, hne]
      · simp [ha]
    have hcovered : ∀ a ∈ xs.filter fun a => !decide (key a = k), key a ∈ ks := by
      intro a ha
      obtain ⟨hmem, hne⟩ := List.mem_filter.mp ha
      rcases List.mem_cons.mp (h a hmem) with heq | hin
      · simp [heq] at hne
      · exact hin
    have hrest := ih hks hcovered
    rw [List.flatMap_cons, hothers]
    exact (hrest.append_left _).trans (List.filter_append_perm _ xs)

namespace Pieces

variable {pieces : List (κ × List α)}

theorem flatMap_perm (h : Pieces key xs pieces) : (pieces.flatMap Prod.snd).Perm xs := by
  have heq : pieces.flatMap Prod.snd =
      (pieces.map Prod.fst).flatMap fun k => xs.filter fun a => key a = k := by
    rw [List.flatMap_map]
    exact List.flatMap_congr fun p hp => h.eq_filter p hp
  rw [heq]
  exact flatMap_filter_perm h.keys_nodup h.covers

/-- A sum over the list, piece by piece. -/
theorem sum_eq [AddCommMonoid M] (h : Pieces key xs pieces) (f : α → M) :
    (pieces.map fun p => (p.2.map f).sum).sum = (xs.map f).sum := by
  rw [← (h.flatMap_perm.map f).sum_eq]
  clear h
  induction pieces with
  | nil => rfl
  | cons p rest ih =>
    rw [List.map_cons, List.sum_cons, ih, List.flatMap_cons, List.map_append, List.sum_append]

theorem key_of_mem (h : Pieces key xs pieces) {p : κ × List α} (hp : p ∈ pieces) {a : α}
    (ha : a ∈ p.2) : key a = p.1 := by
  rw [h.eq_filter p hp] at ha
  simpa using (List.mem_filter.mp ha).2

end Pieces

/-! ## Collecting into a dictionary -/

/-- Every element is appended to the list of its key. -/
def collect (key : α → κ) (xs : List α) : Dict κ (List α) :=
  xs.foldl (fun output a => output.set (key a) (output.getD (key a) [] ++ [a])) Dict.empty

theorem collect_concat (key : α → κ) (xs : List α) (a : α) : collect key (xs ++ [a]) =
    (collect key xs).set (key a) ((collect key xs).getD (key a) [] ++ [a]) := by
  simp [collect]

theorem collect_get? (key : α → κ) (xs : List α) (k : κ) : (collect key xs).get? k =
    let group := xs.filter fun a => key a = k
    if group = [] then none else some group := by
  induction xs using List.reverseRecOn with
  | nil => rfl
  | append_singleton xs a ih =>
    rw [collect_concat, Dict.get?_set]
    by_cases hk : k = key a
    · subst hk
      have hbefore : (collect key xs).getD (key a) [] = xs.filter fun b => key b = key a := by
        rw [Dict.getD, ih]
        by_cases hnil : (xs.filter fun b => key b = key a) = []
        · simp only [hnil, if_true, Option.getD_none]
        · simp only [hnil, if_false, Option.getD_some]
      simp [hbefore]
    · simp [hk, Ne.symm hk, ih]

theorem collect_pieces (key : α → κ) (xs : List α) : Pieces key xs (collect key xs).entries := by
  have hentry : ∀ p ∈ (collect key xs).entries,
      p.2 ≠ [] ∧ p.2 = xs.filter fun a => key a = p.1 := by
    intro p hp
    have hget := Dict.get?_eq_some.mpr hp
    rw [collect_get?] at hget
    by_cases hnil : (xs.filter fun a => key a = p.1) = []
    · simp [hnil] at hget
    · simp only [hnil, if_false, Option.some.injEq] at hget
      exact ⟨hget ▸ hnil, hget.symm⟩
  refine
    { keys_nodup := (collect key xs).nodup
      eq_filter := fun p hp => (hentry p hp).2
      nonempty := fun p hp => (hentry p hp).1
      covers := fun a ha => ?_ }
  have hmem : a ∈ xs.filter fun b => key b = key a := by simp [ha]
  refine Dict.mem_keys.mpr ⟨xs.filter fun b => key b = key a, ?_⟩
  rw [collect_get?]
  exact if_neg (List.ne_nil_of_mem hmem)

/-- The groups in the order of a list of all keys. -/
theorem collect_pieces_of_all {ks : List κ} (hks : ks.Nodup) (hall : ∀ k, k ∈ ks) :
    Pieces key xs (ks.filterMap fun k => ((collect key xs).get? k).map fun group =>
      (k, group)) := by
  have hmem : ∀ p, p ∈ (ks.filterMap fun k =>
      ((collect key xs).get? k).map fun group => (k, group)) ↔
        p ∈ (collect key xs).entries := by
    intro p
    simp only [List.mem_filterMap, Option.map_eq_some_iff, Dict.get?_eq_some]
    constructor
    · rintro ⟨k, -, group, hin, rfl⟩
      exact hin
    · intro hin
      exact ⟨p.1, hall p.1, p.2, hin, rfl⟩
  have hkeys : (ks.filterMap fun k =>
      ((collect key xs).get? k).map fun group => (k, group)).map Prod.fst =
        ks.filter fun k => ((collect key xs).get? k).isSome := by
    rw [List.map_filterMap, ← List.filterMap_eq_filter]
    refine List.filterMap_congr fun k _ => ?_
    cases hk : (collect key xs).get? k with
    | none => simp [hk, Option.guard]
    | some group => simp [hk, Option.guard]
  have hpieces := collect_pieces key xs
  refine
    { keys_nodup := hkeys ▸ hks.filter _
      eq_filter := fun p hp => hpieces.eq_filter p ((hmem p).mp hp)
      nonempty := fun p hp => hpieces.nonempty p ((hmem p).mp hp)
      covers := fun a ha => ?_ }
  obtain ⟨p, hp, hpa⟩ := List.mem_map.mp (hpieces.covers a ha)
  exact List.mem_map.mpr ⟨p, (hmem p).mpr hp, hpa⟩

end Screener.Lib
