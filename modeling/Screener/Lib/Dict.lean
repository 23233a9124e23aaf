import Mathlib.Algebra.BigOperators.Group.List.Basic
import Mathlib.Algebra.Order.BigOperators.Group.List
import Mathlib.Data.List.Nodup

/-!
# Insertion-ordered dictionaries

A dictionary keeps its entries in the order in which their keys were first
assigned: assigning to a key that is present replaces the value in place, a new
key goes to the end. The keys are distinct by construction, so a lookup and a
membership are the same fact and a sum over the entries counts each key once.
-/

namespace Screener.Lib

structure Dict (κ ν : Type*) where
  entries : List (κ × ν)
  nodup : (entries.map Prod.fst).Nodup
deriving DecidableEq, Repr

namespace Dict

variable {κ ν M : Type*}

def empty : Dict κ ν := ⟨[], List.nodup_nil⟩

def keys (d : Dict κ ν) : List κ := d.entries.map Prod.fst

def values (d : Dict κ ν) : List ν := d.entries.map Prod.snd

def size (d : Dict κ ν) : Nat := d.entries.length

/-- The keys whose values satisfy `p`, in the order of their first assignment. -/
def keysWhere (p : ν → Bool) (d : Dict κ ν) : List κ := (d.entries.filter (p ·.2)).map Prod.fst

/-- Change every value in place; `f` also sees the key. -/
def mapValues (f : κ → ν → ν) (d : Dict κ ν) : Dict κ ν :=
  ⟨d.entries.map fun e => (e.1, f e.1 e.2), by
    rw [List.map_map]; exact d.nodup⟩

def sum [AddCommMonoid M] (f : κ → ν → M) (d : Dict κ ν) : M :=
  (d.entries.map fun e => f e.1 e.2).sum

@[simp] theorem keys_empty : (empty : Dict κ ν).keys = [] := rfl

@[simp] theorem sum_empty [AddCommMonoid M] (f : κ → ν → M) : (empty : Dict κ ν).sum f = 0 := rfl

theorem keys_nodup (d : Dict κ ν) : d.keys.Nodup := d.nodup

theorem eq_empty_of_keys {d : Dict κ ν} (h : d.keys = []) : d = empty := by
  obtain ⟨l, hl⟩ := d
  simp only [keys, List.map_eq_nil_iff] at h
  subst h
  rfl

@[simp] theorem keys_mapValues (f : κ → ν → ν) (d : Dict κ ν) : (d.mapValues f).keys = d.keys := by
  simp [keys, mapValues, List.map_map, Function.comp_def]

theorem sum_mapValues [AddCommMonoid M] (f : κ → ν → M) (g : κ → ν → ν) (d : Dict κ ν) :
    (d.mapValues g).sum f = d.sum fun k v => f k (g k v) := by
  simp [sum, mapValues, List.map_map, Function.comp_def]

theorem sum_sub {G : Type*} [AddCommGroup G] (f g : κ → ν → G) (d : Dict κ ν) :
    (d.sum fun k v => f k v - g k v) = d.sum f - d.sum g := by
  obtain ⟨l, hl⟩ := d
  simp only [sum]
  clear hl
  induction l with
  | nil => simp
  | cons e rest ih =>
    simp only [List.map_cons, List.sum_cons, ih]
    exact add_sub_add_comm _ _ _ _ |>.symm

section Lookup

variable [DecidableEq κ]

def get? (d : Dict κ ν) (k : κ) : Option ν := (d.entries.find? (·.1 = k)).map Prod.snd

def contains (d : Dict κ ν) (k : κ) : Bool := decide (k ∈ d.keys)

def getD (d : Dict κ ν) (k : κ) (v : ν) : ν := (d.get? k).getD v

/-- Replace the value of `k` where it stands, or append the pair. -/
def assign (k : κ) (v : ν) : List (κ × ν) → List (κ × ν)
  | [] => [(k, v)]
  | e :: rest => if e.1 = k then (k, v) :: rest else e :: assign k v rest

theorem assign_keys_mem (k : κ) (v : ν) (l : List (κ × ν)) (h : k ∈ l.map Prod.fst) :
    (assign k v l).map Prod.fst = l.map Prod.fst := by
  induction l with
  | nil => simp at h
  | cons e rest ih =>
    by_cases he : e.1 = k
    · simp [assign, he]
    · have hr : k ∈ rest.map Prod.fst := by
        rcases List.mem_cons.mp h with h | h
        · exact absurd h.symm he
        · exact h
      simp [assign, he, ih hr]

theorem assign_of_not_mem (k : κ) (v : ν) (l : List (κ × ν)) (h : k ∉ l.map Prod.fst) :
    assign k v l = l ++ [(k, v)] := by
  induction l with
  | nil => rfl
  | cons e rest ih =>
    simp only [List.map_cons, List.mem_cons, not_or] at h
    simp [assign, Ne.symm h.1, ih h.2]

theorem assign_nodup (k : κ) (v : ν) (l : List (κ × ν)) (h : (l.map Prod.fst).Nodup) :
    ((assign k v l).map Prod.fst).Nodup := by
  by_cases hk : k ∈ l.map Prod.fst
  · rw [assign_keys_mem k v l hk]; exact h
  · rw [assign_of_not_mem k v l hk, List.map_append, List.map_singleton, ← List.concat_eq_append,
      List.nodup_concat]
    exact ⟨hk, h⟩

def set (d : Dict κ ν) (k : κ) (v : ν) : Dict κ ν :=
  ⟨assign k v d.entries, assign_nodup k v d.entries d.nodup⟩

/-- Change the value of `k`, if there is one. -/
def modify (d : Dict κ ν) (k : κ) (f : ν → ν) : Dict κ ν :=
  match d.get? k with
  | some v => d.set k (f v)
  | none => d

def erase (d : Dict κ ν) (k : κ) : Dict κ ν :=
  ⟨d.entries.filter (·.1 ≠ k), d.nodup.sublist (List.filter_sublist.map Prod.fst)⟩

/-- The entries whose keys satisfy `p`. -/
def restrict (p : κ → Bool) (d : Dict κ ν) : Dict κ ν :=
  ⟨d.entries.filter (p ·.1), d.nodup.sublist (List.filter_sublist.map Prod.fst)⟩

/-! ## Lookups are memberships -/

theorem get?_eq_some {d : Dict κ ν} {k : κ} {v : ν} :
    d.get? k = some v ↔ (k, v) ∈ d.entries := by
  obtain ⟨l, hl⟩ := d
  simp only [get?]
  induction l with
  | nil => simp
  | cons e rest ih =>
    simp only [List.map_cons, List.nodup_cons] at hl
    by_cases he : e.1 = k
    · subst he
      simp only [List.find?_cons, decide_true, Option.map_some, Option.some.injEq, List.mem_cons]
      constructor
      · rintro rfl; exact .inl rfl
      · rintro (h | h)
        · exact (congrArg Prod.snd h).symm
        · exact absurd (List.mem_map_of_mem (f := Prod.fst) h) hl.1
    · have hne : (k, v) ≠ e := fun h => he (congrArg Prod.fst h).symm
      simpa [List.find?_cons, he, hne] using ih hl.2

theorem get?_eq_none {d : Dict κ ν} {k : κ} : d.get? k = none ↔ k ∉ d.keys := by
  simp only [get?, keys, Option.map_eq_none_iff, List.find?_eq_none, List.mem_map, not_exists,
    not_and, decide_eq_true_eq]

theorem mem_keys {d : Dict κ ν} {k : κ} : k ∈ d.keys ↔ ∃ v, d.get? k = some v := by
  rw [← Option.isSome_iff_exists, Option.isSome_iff_ne_none, Ne, get?_eq_none, not_not]

theorem mem_keys_of_get? {d : Dict κ ν} {k : κ} {v : ν} (h : d.get? k = some v) : k ∈ d.keys :=
  mem_keys.mpr ⟨v, h⟩

theorem mem_values {d : Dict κ ν} {v : ν} : v ∈ d.values ↔ ∃ k, d.get? k = some v := by
  simp only [values, List.mem_map, Prod.exists, get?_eq_some, exists_eq_right]

@[simp] theorem contains_eq_true {d : Dict κ ν} {k : κ} : d.contains k = true ↔ k ∈ d.keys := by
  simp [contains]

@[simp] theorem get?_empty (k : κ) : (empty : Dict κ ν).get? k = none := rfl

/-! ## What an assignment, a deletion and a map change -/

theorem mem_assign (k k' : κ) (v v' : ν) (l : List (κ × ν)) (hl : (l.map Prod.fst).Nodup) :
    (k', v') ∈ assign k v l ↔ (k' = k ∧ v' = v) ∨ (k' ≠ k ∧ (k', v') ∈ l) := by
  induction l with
  | nil => simp [assign]
  | cons e rest ih =>
    simp only [List.map_cons, List.nodup_cons] at hl
    by_cases he : e.1 = k
    · have hnot : ∀ w, (k, w) ∉ rest := fun w h =>
        hl.1 (he ▸ List.mem_map_of_mem (f := Prod.fst) h)
      by_cases hk : k' = k
      · subst hk; simp [assign, he, hnot]
      · have hne : (k', v') ≠ e := fun h => hk ((congrArg Prod.fst h).trans he)
        simp [assign, he, hk, hne]
    · by_cases hk : k' = k
      · subst hk
        have hne : (k', v') ≠ e := fun h => he (congrArg Prod.fst h).symm
        simp [assign, he, hne, ih hl.2]
      · simp [assign, he, hk, ih hl.2]

theorem get?_set (d : Dict κ ν) (k k' : κ) (v : ν) :
    (d.set k v).get? k' = if k' = k then some v else d.get? k' := by
  apply Option.ext
  intro w
  rw [get?_eq_some, set, mem_assign k k' v w d.entries d.nodup]
  by_cases hk : k' = k
  · simp [hk, eq_comm]
  · simp [hk, get?_eq_some]

theorem get?_erase (d : Dict κ ν) (k k' : κ) :
    (d.erase k).get? k' = if k' = k then none else d.get? k' := by
  apply Option.ext
  intro w
  rw [get?_eq_some, erase, List.mem_filter]
  by_cases hk : k' = k
  · simp [hk]
  · simp [hk, get?_eq_some]

theorem get?_restrict (p : κ → Bool) (d : Dict κ ν) (k : κ) :
    (d.restrict p).get? k = if p k then d.get? k else none := by
  apply Option.ext
  intro w
  rw [get?_eq_some, restrict, List.mem_filter]
  by_cases hk : p k = true
  · simp [hk, get?_eq_some]
  · simp [hk]

theorem get?_mapValues (f : κ → ν → ν) (d : Dict κ ν) (k : κ) :
    (d.mapValues f).get? k = (d.get? k).map (f k) := by
  apply Option.ext
  intro w
  rw [get?_eq_some, Option.map_eq_some_iff]
  simp only [mapValues, List.mem_map, Prod.mk.injEq, Prod.exists]
  constructor
  · rintro ⟨k', v, hm, rfl, rfl⟩; exact ⟨v, get?_eq_some.mpr hm, rfl⟩
  · rintro ⟨v, hv, rfl⟩; exact ⟨k, v, get?_eq_some.mp hv, rfl, rfl⟩

/-! What every entry has. -/

section Entries

variable {p : κ → ν → Prop} {d : Dict κ ν}

theorem forall_get?_set_iff {k : κ} {v : ν} :
    (∀ k' v', (d.set k v).get? k' = some v' → p k' v') ↔
      p k v ∧ ∀ k' v', k' ≠ k → d.get? k' = some v' → p k' v' := by
  simp only [get?_set]
  constructor
  · intro h
    refine ⟨h k v (if_pos rfl), fun k' v' hne hget => h k' v' ?_⟩
    rw [if_neg hne, hget]
  · rintro ⟨hv, hrest⟩ k' v' hget
    split at hget
    · rename_i heq
      rw [heq, ← Option.some.inj hget]
      exact hv
    · rename_i hne
      exact hrest k' v' hne hget

theorem forall_get?_erase_iff {k : κ} :
    (∀ k' v', (d.erase k).get? k' = some v' → p k' v') ↔
      ∀ k' v', k' ≠ k → d.get? k' = some v' → p k' v' := by
  simp only [get?_erase]
  constructor
  · intro h k' v' hne hget
    exact h k' v' (by rw [if_neg hne, hget])
  · intro h k' v' hget
    split at hget
    · cases hget
    · rename_i hne
      exact h k' v' hne hget

theorem forall_get?_set (h : ∀ k v, d.get? k = some v → p k v) {k : κ} {v : ν} (hv : p k v) :
    ∀ k' v', (d.set k v).get? k' = some v' → p k' v' :=
  forall_get?_set_iff.mpr ⟨hv, fun k' v' _ => h k' v'⟩

theorem forall_get?_erase (h : ∀ k v, d.get? k = some v → p k v) (k : κ) :
    ∀ k' v', (d.erase k).get? k' = some v' → p k' v' :=
  forall_get?_erase_iff.mpr fun k' v' _ => h k' v'

theorem forall_get?_mapValues_iff {f : κ → ν → ν} :
    (∀ k v, (d.mapValues f).get? k = some v → p k v) ↔
      ∀ k v, d.get? k = some v → p k (f k v) := by
  simp only [get?_mapValues, Option.map_eq_some_iff]
  constructor
  · intro h k v hget
    exact h k _ ⟨v, hget, rfl⟩
  · rintro h k _ ⟨v, hget, rfl⟩
    exact h k v hget

end Entries

theorem keys_set_of_mem {d : Dict κ ν} {k : κ} (h : k ∈ d.keys) (v : ν) :
    (d.set k v).keys = d.keys := assign_keys_mem k v d.entries h

theorem keys_set_of_not_mem {d : Dict κ ν} {k : κ} (h : k ∉ d.keys) (v : ν) :
    (d.set k v).keys = d.keys ++ [k] := by
  simp [keys, set, assign_of_not_mem k v d.entries h]

theorem size_set_of_not_mem {d : Dict κ ν} {k : κ} (h : k ∉ d.keys) (v : ν) :
    (d.set k v).size = d.size + 1 := by
  simp [size, set, assign_of_not_mem k v d.entries h]

theorem mapValues_congr {f g : κ → ν → ν} {d : Dict κ ν}
    (h : ∀ k v, d.get? k = some v → f k v = g k v) : d.mapValues f = d.mapValues g := by
  unfold mapValues
  congr 1
  refine List.map_congr_left fun e he => ?_
  rw [h e.1 e.2 (get?_eq_some.mpr he)]

theorem get?_modify (d : Dict κ ν) (k k' : κ) (f : ν → ν) :
    (d.modify k f).get? k' = if k' = k then (d.get? k).map f else d.get? k' := by
  unfold modify
  cases hk : d.get? k with
  | some v => simp [get?_set]
  | none =>
    by_cases hk' : k' = k
    · simp [hk', hk]
    · simp [hk']

theorem keys_modify (d : Dict κ ν) (k : κ) (f : ν → ν) : (d.modify k f).keys = d.keys := by
  unfold modify
  cases hk : d.get? k with
  | some v => exact keys_set_of_mem (mem_keys_of_get? hk) (f v)
  | none => rfl

omit [DecidableEq κ] in
/-- A key that occurs stands either in front or behind it, not in both. -/
theorem front_or_rest {k : κ} {v : ν} {e : κ × ν} {rest : List (κ × ν)}
    (hnew : e.1 ∉ rest.map Prod.fst) (h : (k, v) ∈ e :: rest) :
    e = (k, v) ∨ (e.1 ≠ k ∧ (k, v) ∈ rest) := by
  rcases List.mem_cons.mp h with h | h
  · exact .inl h.symm
  · exact .inr ⟨fun he => hnew (he ▸ List.mem_map_of_mem (f := Prod.fst) h), h⟩

theorem assign_of_mem (k : κ) (f : ν → ν) {v : ν} (l : List (κ × ν))
    (hl : (l.map Prod.fst).Nodup) (h : (k, v) ∈ l) :
    assign k (f v) l = l.map fun e => if e.1 = k then (e.1, f e.2) else e := by
  induction l with
  | nil => cases h
  | cons e rest ih =>
    simp only [List.map_cons, List.nodup_cons] at hl
    rcases front_or_rest hl.1 h with rfl | ⟨he, hrest⟩
    · have hothers : rest.map (fun e => if e.1 = k then (e.1, f e.2) else e) = rest := by
        refine (List.map_congr_left fun x hx => if_neg fun hxk => ?_).trans (List.map_id rest)
        exact hl.1 (List.mem_map.mpr ⟨x, hx, hxk⟩)
      rw [List.map_cons, hothers, assign, if_pos rfl, if_pos rfl]
    · rw [assign, if_neg he, List.map_cons, if_neg he, ih hl.2 hrest]

theorem entries_modify (d : Dict κ ν) (k : κ) (f : ν → ν) :
    (d.modify k f).entries = d.entries.map fun e => if e.1 = k then (e.1, f e.2) else e := by
  unfold modify
  cases hk : d.get? k with
  | some v => exact assign_of_mem k f d.entries d.nodup (get?_eq_some.mp hk)
  | none =>
    refine ((List.map_congr_left fun e he => if_neg fun hek => ?_).trans (List.map_id _)).symm
    exact get?_eq_none.mp hk (hek ▸ List.mem_map_of_mem (f := Prod.fst) he)

/-- A change of a value that is left out, before it and after it. -/
theorem filter_values_modify {d : Dict κ ν} {k : κ} {f : ν → ν} {p : ν → Bool}
    (hbefore : ∀ v, d.get? k = some v → p v = false) (hafter : ∀ v, p (f v) = false) :
    (d.modify k f).values.filter p = d.values.filter p := by
  have hin : ∀ e ∈ d.entries, e.1 = k → p e.2 = false := by
    intro e he hek
    exact hbefore e.2 (hek ▸ get?_eq_some.mpr he)
  rw [values, values, entries_modify]
  generalize d.entries = l at hin
  induction l with
  | nil => rfl
  | cons e rest ih =>
    have hrest := ih fun x hx => hin x (List.mem_cons_of_mem e hx)
    rw [List.map_cons, List.map_cons, List.filter_cons, hrest, List.map_cons, List.filter_cons]
    by_cases he : e.1 = k
    · rw [if_pos he, if_neg (by simp [hafter]), if_neg (by simp [hin e List.mem_cons_self he])]
    · rw [if_neg he]

theorem keys_erase (d : Dict κ ν) (k : κ) : (d.erase k).keys = d.keys.filter (· ≠ k) := by
  simp [keys, erase, List.filter_map, Function.comp_def]

theorem mem_keys_erase {d : Dict κ ν} {k k' : κ} :
    k' ∈ (d.erase k).keys ↔ k' ∈ d.keys ∧ k' ≠ k := by
  rw [keys_erase]; simp

theorem mem_keys_set {d : Dict κ ν} {k k' : κ} {v : ν} :
    k' ∈ (d.set k v).keys ↔ k' = k ∨ k' ∈ d.keys := by
  rw [mem_keys, mem_keys]
  simp only [get?_set]
  by_cases hk : k' = k <;> simp [hk]

/-! ## The keys of some of the values -/

theorem mem_keysWhere {d : Dict κ ν} {p : ν → Bool} {k : κ} :
    k ∈ d.keysWhere p ↔ ∃ v, d.get? k = some v ∧ p v = true := by
  simp [keysWhere, get?_eq_some]

theorem keysWhere_set_of_not_mem {d : Dict κ ν} {k : κ} (h : k ∉ d.keys) (p : ν → Bool) (v : ν) :
    (d.set k v).keysWhere p = d.keysWhere p ++ if p v then [k] else [] := by
  by_cases hp : p v <;> simp [keysWhere, set, assign_of_not_mem k v d.entries h, hp]

/-- A change that `p` does not see keeps the keys and their order. -/
theorem keysWhere_modify {p : ν → Bool} {f : ν → ν} (h : ∀ v, p (f v) = p v) (d : Dict κ ν)
    (k : κ) : (d.modify k f).keysWhere p = d.keysWhere p := by
  rw [keysWhere, keysWhere, entries_modify, List.filter_map, List.map_map]
  have hsame : ∀ e ∈ d.entries, ((fun e => p e.2) ∘ fun e : κ × ν =>
      if e.1 = k then (e.1, f e.2) else e) e = p e.2 := by
    intro e _
    by_cases he : e.1 = k
    · simp [he, h]
    · simp [he]
  rw [List.filter_congr hsame]
  refine List.map_congr_left fun e _ => ?_
  by_cases he : e.1 = k
  · simp [he]
  · simp [he]

/-! ## Sums over the entries -/

variable [AddCommMonoid M]

theorem sum_set_of_not_mem (f : κ → ν → M) {d : Dict κ ν} {k : κ} (h : k ∉ d.keys) (v : ν) :
    (d.set k v).sum f = d.sum f + f k v := by
  simp [sum, set, assign_of_not_mem k v d.entries h]

theorem sum_erase (f : κ → ν → M) {d : Dict κ ν} {k : κ} {v : ν} (h : d.get? k = some v) :
    (d.erase k).sum f + f k v = d.sum f := by
  obtain ⟨l, hl⟩ := d
  rw [get?_eq_some] at h
  simp only [sum, erase] at h ⊢
  induction l with
  | nil => simp at h
  | cons e rest ih =>
    simp only [List.map_cons, List.nodup_cons] at hl
    rcases front_or_rest hl.1 h with rfl | ⟨he, hr⟩
    · have hrest : rest.filter (·.1 ≠ k) = rest := by
        apply List.filter_eq_self.mpr
        intro x hx
        have hne : x.1 ≠ k := fun hxk => hl.1 (List.mem_map.mpr ⟨x, hx, hxk⟩)
        simpa using hne
      rw [List.filter_cons_of_neg (by simp), hrest]
      simp only [List.map_cons, List.sum_cons]
      exact add_comm _ _
    · rw [List.filter_cons_of_pos (by simpa using he)]
      simp only [List.map_cons, List.sum_cons, add_assoc]
      rw [ih hl.2 hr]

theorem sum_set_of_get? (f : κ → ν → M) {d : Dict κ ν} {k : κ} {v : ν} (h : d.get? k = some v)
    (w : ν) : (d.set k w).sum f + f k v = d.sum f + f k w := by
  obtain ⟨l, hl⟩ := d
  rw [get?_eq_some] at h
  simp only [sum, set] at h ⊢
  induction l with
  | nil => simp at h
  | cons e rest ih =>
    simp only [List.map_cons, List.nodup_cons] at hl
    rcases front_or_rest hl.1 h with rfl | ⟨he, hr⟩
    · simp only [assign, if_true, List.map_cons, List.sum_cons]
      rw [add_right_comm, add_comm (f k w), add_right_comm]
    · simp only [assign, he, if_false, List.map_cons, List.sum_cons, add_assoc]
      rw [ih hl.2 hr]

/-- What zero and sums have, a sum of terms that have it has. -/
theorem sum_induction {p : M → Prop} (hzero : p 0) (hadd : ∀ a b, p a → p b → p (a + b))
    {f : κ → ν → M} {d : Dict κ ν} (h : ∀ k v, d.get? k = some v → p (f k v)) : p (d.sum f) := by
  refine List.sum_induction p hadd hzero fun x hx => ?_
  obtain ⟨e, he, rfl⟩ := List.mem_map.mp hx
  exact h e.1 e.2 (get?_eq_some.mpr he)

theorem sum_nonneg [PartialOrder M] [IsOrderedAddMonoid M] {f : κ → ν → M} {d : Dict κ ν}
    (h : ∀ k v, d.get? k = some v → 0 ≤ f k v) : 0 ≤ d.sum f :=
  sum_induction le_rfl (fun _ _ => add_nonneg) h

end Lookup

end Dict

end Screener.Lib
