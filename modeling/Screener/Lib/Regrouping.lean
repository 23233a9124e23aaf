import Mathlib.Data.Option.Basic
import Mathlib.Order.Bounds.Basic
import Screener.Lib.Grouping
import Screener.Lib.Sorted

/-!
# Grouping in order, and grouping again

The pieces of a list in the order of their keys are determined by the list. Where the keys
follow the order of the list, the pieces put together are the list, and the pieces of
the pieces by a coarser key are the pieces of the list by that key. An associative
operation combines the elements of a list as it combines the results of its pieces.
-/

namespace Screener.Lib

variable {α β κ μ ι : Type*} [DecidableEq κ] [LinearOrder ι]

/-- Pieces in strictly ascending order of their keys. -/
structure OrderedPieces (rank : κ → ι) (key : α → κ) (xs : List α)
    (pieces : List (κ × List α)) : Prop extends Pieces key xs pieces where
  ascending : pieces.Pairwise fun p q => rank p.1 < rank q.1

/-- What it takes to be a piece. -/
theorem Pieces.mem_iff {key : α → κ} {xs : List α} {pieces : List (κ × List α)}
    (h : Pieces key xs pieces) {p : κ × List α} :
    p ∈ pieces ↔ p.2 = xs.filter (fun a => key a = p.1) ∧ p.2 ≠ [] := by
  constructor
  · exact fun hp => ⟨h.eq_filter p hp, h.nonempty p hp⟩
  · rintro ⟨hfilter, hsome⟩
    obtain ⟨a, ha⟩ := List.exists_mem_of_ne_nil _ hsome
    rw [hfilter] at ha
    obtain ⟨hmem, hkey⟩ := List.mem_filter.mp ha
    obtain ⟨q, hq, hfst⟩ := List.mem_map.mp (h.covers a hmem)
    have hsame : q.1 = p.1 := hfst.trans (of_decide_eq_true hkey)
    have hgroup : q.2 = p.2 := by rw [h.eq_filter q hq, hsame, hfilter]
    exact Prod.ext hsame hgroup ▸ hq

/-- Sorting pieces by the rank of their keys. -/
theorem Pieces.sorted {key : α → κ} {xs : List α} {pieces : List (κ × List α)}
    (h : Pieces key xs pieces) {rank : κ → ι}
    (hrank : ∀ a ∈ xs, ∀ b ∈ xs, rank (key a) = rank (key b) → key a = key b) :
    OrderedPieces rank key xs (pieces.insertionSort fun p q => rank p.1 ≤ rank q.1) := by
  have hperm := List.perm_insertionSort (fun p q : κ × List α => rank p.1 ≤ rank q.1) pieces
  have hkey : ∀ p ∈ pieces, ∃ a ∈ xs, key a = p.1 := by
    intro p hp
    obtain ⟨a, ha⟩ := List.exists_mem_of_ne_nil _ (h.nonempty p hp)
    exact ⟨a, List.mem_of_mem_filter (h.eq_filter p hp ▸ ha), h.key_of_mem hp ha⟩
  have hranks : (pieces.map fun p => rank p.1).Nodup := by
    have hcomp : (pieces.map fun p => rank p.1) = (pieces.map Prod.fst).map rank := by
      rw [List.map_map]
      rfl
    rw [hcomp]
    refine h.keys_nodup.map_on fun k hk k' hk' heq => ?_
    obtain ⟨p, hp, rfl⟩ := List.mem_map.mp hk
    obtain ⟨q, hq, rfl⟩ := List.mem_map.mp hk'
    obtain ⟨a, ha, hap⟩ := hkey p hp
    obtain ⟨b, hb, hbq⟩ := hkey q hq
    rw [← hap, ← hbq] at heq ⊢
    exact hrank a ha b hb heq
  exact
    { keys_nodup := (hperm.map Prod.fst).nodup_iff.mpr h.keys_nodup
      eq_filter := fun p hp => h.eq_filter p (hperm.mem_iff.mp hp)
      nonempty := fun p hp => h.nonempty p (hperm.mem_iff.mp hp)
      covers := fun a ha => (hperm.map Prod.fst).mem_iff.mpr (h.covers a ha)
      ascending := insertionSort_strict (fun p : κ × List α => rank p.1) hranks }

/-- Elements that are kept or left with their pieces. -/
theorem flatMap_filter {ps : List β} {f : β → List α} {p : β → Bool} {q : α → Bool}
    (h : ∀ b ∈ ps, ∀ a ∈ f b, q a = p b) : (ps.filter p).flatMap f = (ps.flatMap f).filter q := by
  induction ps with
  | nil => rfl
  | cons b ps ih =>
    obtain ⟨hb, hps⟩ := List.forall_mem_cons.mp h
    rw [List.flatMap_cons, List.filter_append, ← ih hps]
    cases hp : p b with
    | true =>
      have hall : (f b).filter q = f b := List.filter_eq_self.mpr fun a ha => (hb a ha).trans hp
      rw [List.filter_cons_of_pos hp, List.flatMap_cons, hall]
    | false =>
      have hnone : (f b).filter q = [] :=
        List.filter_eq_nil_iff.mpr fun a ha => by rw [hb a ha, hp]; exact Bool.false_ne_true
      rw [List.filter_cons_of_neg (by rw [hp]; exact Bool.false_ne_true), hnone, List.nil_append]

namespace OrderedPieces

variable {rank : κ → ι} {key key' : α → κ} {xs : List α} {pieces pieces' : List (κ × List α)}

theorem congr (h : OrderedPieces rank key xs pieces) (hkey : ∀ a ∈ xs, key a = key' a) :
    OrderedPieces rank key' xs pieces where
  keys_nodup := h.keys_nodup
  eq_filter := by
    intro p hp
    rw [h.eq_filter p hp]
    exact List.filter_congr fun a ha => by rw [hkey a ha]
  nonempty := h.nonempty
  covers := fun a ha => hkey a ha ▸ h.covers a ha
  ascending := h.ascending

theorem unique (h : OrderedPieces rank key xs pieces) (h' : OrderedPieces rank key xs pieces') :
    pieces = pieces' :=
  eq_of_mem_iff (fun p => rank p.1) h.ascending h'.ascending fun _ =>
    h.mem_iff.trans h'.mem_iff.symm

/-- The pieces of mapped elements. -/
theorem map (f : β → α) {ys : List β} {groups : List (κ × List β)}
    (h : OrderedPieces rank (fun b => key (f b)) ys groups) :
    OrderedPieces rank key (ys.map f) (groups.map fun p => (p.1, p.2.map f)) where
  keys_nodup := by
    rw [List.map_map]
    exact h.keys_nodup
  eq_filter := by
    rintro q hq
    obtain ⟨p, hp, rfl⟩ := List.mem_map.mp hq
    simp only [h.eq_filter p hp, List.filter_map]
    rfl
  nonempty := by
    rintro q hq
    obtain ⟨p, hp, rfl⟩ := List.mem_map.mp hq
    simpa using h.nonempty p hp
  covers := by
    rintro a ha
    obtain ⟨b, hb, rfl⟩ := List.mem_map.mp ha
    rw [List.map_map]
    exact h.covers b hb
  ascending := List.pairwise_map.mpr h.ascending

/-- Pieces whose keys follow the order of the list are the list. -/
theorem flatMap_eq {τ : Type*} [LinearOrder τ] (h : OrderedPieces rank key xs pieces) (time : α → τ)
    (hsorted : xs.Pairwise fun a b => time a < time b)
    (hfollows : ∀ a ∈ xs, ∀ b ∈ xs, rank (key a) < rank (key b) → time a < time b) :
    pieces.flatMap Prod.snd = xs := by
  have hmem : ∀ a, a ∈ pieces.flatMap Prod.snd ↔ a ∈ xs := fun a => h.flatMap_perm.mem_iff
  refine eq_of_mem_iff time ?_ hsorted hmem
  rw [List.pairwise_flatMap]
  constructor
  · intro p hp
    rw [h.eq_filter p hp]
    exact hsorted.filter _
  · refine h.ascending.imp_of_mem fun {p q} hp hq hlt a ha b hb => ?_
    have hin : ∀ r ∈ pieces, ∀ c ∈ r.2, c ∈ xs := fun r hr c hc =>
      List.mem_of_mem_filter (h.eq_filter r hr ▸ hc)
    rw [← h.key_of_mem hp ha, ← h.key_of_mem hq hb] at hlt
    exact hfollows a (hin p hp a ha) b (hin q hq b hb) hlt

/-- The pieces of the pieces by a coarser key. -/
theorem regroup [DecidableEq μ] {rank' : μ → ι} (coarse : κ → μ)
    {outer : List (μ × List (κ × List α))} (h : OrderedPieces rank key xs pieces)
    (hall : pieces.flatMap Prod.snd = xs)
    (houter : OrderedPieces rank' (fun p : κ × List α => coarse p.1) pieces outer) :
    OrderedPieces rank' (fun a => coarse (key a)) xs
      (outer.map fun p => (p.1, p.2.flatMap Prod.snd)) where
  keys_nodup := by
    rw [List.map_map]
    exact houter.keys_nodup
  eq_filter := by
    rintro q hq
    obtain ⟨p, hp, rfl⟩ := List.mem_map.mp hq
    simp only
    rw [houter.eq_filter p hp, ← hall]
    refine flatMap_filter fun r hr a ha => ?_
    rw [h.key_of_mem hr ha]
  nonempty := by
    rintro q hq
    obtain ⟨p, hp, rfl⟩ := List.mem_map.mp hq
    obtain ⟨r, hr⟩ := List.exists_mem_of_ne_nil _ (houter.nonempty p hp)
    have hin : r ∈ pieces := List.mem_of_mem_filter (houter.eq_filter p hp ▸ hr)
    intro hnil
    exact h.nonempty r hin (List.flatMap_eq_nil_iff.mp hnil r hr)
  covers := by
    intro a ha
    rw [List.map_map]
    obtain ⟨p, hp, hpa⟩ := List.mem_map.mp (h.covers a ha)
    have hcover := houter.covers p hp
    rw [hpa] at hcover
    exact hcover
  ascending := List.pairwise_map.mpr houter.ascending

end OrderedPieces

/-! ## Combining the elements -/

section Reduce

variable {op : β → β → β}

/-- The elements combined from the left; an empty list has nothing to combine. -/
def reduce (op : β → β → β) : List β → Option β
  | [] => none
  | b :: rest => some (rest.foldl op b)

theorem reduce_isSome (op : β → β → β) {bs : List β} (h : bs ≠ []) :
    ∃ b, reduce op bs = some b := by
  cases bs with
  | nil => exact absurd rfl h
  | cons b rest => exact ⟨_, rfl⟩

theorem reduce_append [Std.Associative op] (xs ys : List β) :
    reduce op (xs ++ ys) = (reduce op xs).merge op (reduce op ys) := by
  cases xs with
  | nil => simp [reduce]
  | cons x xs =>
    cases ys with
    | nil => simp [reduce]
    | cons y ys => simp [reduce, List.foldl_append, List.foldl_assoc]

/-- Combining piece by piece. -/
theorem reduce_flatten [Std.Associative op] (groups : List (List β)) :
    reduce op groups.flatten = reduce op (groups.filterMap (reduce op)) := by
  induction groups with
  | nil => rfl
  | cons group groups ih =>
    rw [List.flatten_cons, reduce_append, ih]
    cases hgroup : reduce op group with
    | none => rw [List.filterMap_cons_none hgroup, Option.merge_none_left]
    | some b =>
      rw [List.filterMap_cons_some hgroup, ← List.singleton_append, reduce_append]
      rfl

/-- What the elements have and `op` keeps, the result has. -/
theorem reduce_induction {P : β → Prop} (hop : ∀ a b, P a → P b → P (op a b)) {bs : List β}
    (h : ∀ b ∈ bs, P b) {b : β} (hb : reduce op bs = some b) : P b := by
  cases bs with
  | nil => cases hb
  | cons a rest =>
    obtain ⟨ha, hrest⟩ := List.forall_mem_cons.mp h
    rw [← Option.some.inj hb]
    clear hb h
    induction rest generalizing a with
    | nil => exact ha
    | cons c rest ih =>
      obtain ⟨hc, hrest⟩ := List.forall_mem_cons.mp hrest
      exact ih (op a c) (hop a c ha hc) hrest

/-- A part of the result that is combined from that part of the elements. -/
theorem reduce_map {γ : Type*} {op' : γ → γ → γ} {f : β → γ}
    (hf : ∀ a b, f (op a b) = op' (f a) (f b)) (bs : List β) :
    reduce op' (bs.map f) = (reduce op bs).map f := by
  cases bs with
  | nil => rfl
  | cons b rest =>
    rw [reduce, Option.map_some, List.map_cons, reduce, List.foldl_map, Option.some.injEq]
    exact List.foldl_hom f fun a c => (hf a c).symm

end Reduce

end Screener.Lib
