import Mathlib.Order.Defs.LinearOrder
import Screener.Lib.Dict
import Screener.Lib.Loop
import Screener.Lib.Sorted

/-!
# Intake by key

Values are taken into a dictionary one after another, each under its key. A second value
of a key must read like the one that is there. What is taken in is then one value for each
key, and it does not matter in which order the values came or how often.
-/

namespace Screener.Lib

variable {α β κ ε ρ : Type*}

section Intake

variable [DecidableEq κ] [DecidableEq β]

/-- `a` is kept under its key; a value there that reads differently is refused. -/
def takeIn (key : α → κ) (reading : α → β) (conflict : ε) (d : Dict κ α) (a : α) :
    Except ε (Dict κ α) :=
  if (d.get? (key a)).any fun old => reading old ≠ reading a then .error conflict
  else .ok (d.set (key a) a)

/-- A row is read first; one that cannot be read is refused in the same way. -/
def takeRow (read : ρ → Option α) (key : α → κ) (reading : α → β) (conflict : ε) (d : Dict κ α)
    (row : ρ) : Except ε (Dict κ α) :=
  match read row with
  | none => .error conflict
  | some a => takeIn key reading conflict d a

end Intake

/-- Values of one key read the same. -/
def Agreeing (key : α → κ) (reading : α → β) (xs : List α) : Prop :=
  ∀ a ∈ xs, ∀ b ∈ xs, key a = key b → reading a = reading b

section Taken

variable [DecidableEq κ]

/-- The dictionary has one value for each key of the list, which reads like all of them. -/
structure Taken (key : α → κ) (reading : α → β) (xs : List α) (d : Dict κ α) : Prop where
  sound : ∀ k a, d.get? k = some a → a ∈ xs ∧ key a = k
  complete : ∀ a ∈ xs, ∃ b, d.get? (key a) = some b ∧ reading b = reading a

variable {key : α → κ} {reading : α → β} {conflict : ε} {xs : List α} {d d' : Dict κ α} {a : α}

theorem taken_nil : Taken key reading [] (Dict.empty : Dict κ α) where
  sound := fun _ _ h => nomatch h
  complete := fun _ h => absurd h List.not_mem_nil

theorem Taken.agreeing (h : Taken key reading xs d) : Agreeing key reading xs := by
  intro a ha b hb hkey
  obtain ⟨c, hc, hca⟩ := h.complete a ha
  obtain ⟨c', hc', hcb⟩ := h.complete b hb
  rw [hkey, hc', Option.some.injEq] at hc
  rw [← hca, ← hcb, hc]

variable [DecidableEq β]

/-- What is there reads like `a` exactly when everything of its key does. -/
theorem Taken.takeIn_ok_iff (h : Taken key reading xs d) :
    takeIn key reading conflict d a = .ok d' ↔
      (∀ b ∈ xs, key b = key a → reading b = reading a) ∧ d' = d.set (key a) a := by
  have hall : ¬(d.get? (key a)).any (fun old => reading old ≠ reading a) = true ↔
      ∀ b ∈ xs, key b = key a → reading b = reading a := by
    cases hget : d.get? (key a) with
    | none =>
      simp only [Option.any_none, Bool.false_eq_true, not_false_eq_true, true_iff]
      intro b hb hkey
      obtain ⟨c, hc, -⟩ := h.complete b hb
      rw [hkey, hget] at hc
      cases hc
    | some old =>
      simp only [Option.any_some, ne_eq, decide_not, Bool.not_eq_true', decide_eq_false_iff_not,
        not_not]
      constructor
      · intro hold b hb hkey
        obtain ⟨c, hc, hread⟩ := h.complete b hb
        rw [hkey, hget, Option.some.injEq] at hc
        rw [← hread, ← hc, hold]
      · intro hsame
        obtain ⟨hmem, hkey⟩ := h.sound _ _ hget
        exact hsame old hmem hkey
  unfold takeIn
  rw [← hall]
  split_ifs with hconflict
  · exact ⟨fun h => (by cases h), fun h => absurd hconflict h.1⟩
  · rw [Except.ok.injEq]
    exact ⟨fun heq => ⟨hconflict, heq.symm⟩, fun h => h.2.symm⟩

theorem Taken.step (h : Taken key reading xs d) (hstep : takeIn key reading conflict d a = .ok d') :
    Taken key reading (xs ++ [a]) d' := by
  obtain ⟨hsame, rfl⟩ := h.takeIn_ok_iff.mp hstep
  constructor
  case sound =>
    intro k b hb
    rw [Dict.get?_set] at hb
    split_ifs at hb with hk
    · obtain rfl := Option.some.inj hb
      exact ⟨List.mem_append_right _ List.mem_cons_self, hk.symm⟩
    · obtain ⟨hmem, hkey⟩ := h.sound k b hb
      exact ⟨List.mem_append_left _ hmem, hkey⟩
  case complete =>
    refine forall_mem_concat (fun b hb => ?_) ?_
    · rw [Dict.get?_set]
      split_ifs with hk
      · exact ⟨a, rfl, (hsame b hb hk).symm⟩
      · exact h.complete b hb
    · exact ⟨a, by rw [Dict.get?_set, if_pos rfl], rfl⟩

/-- What some values are taken into, value by value. -/
theorem Taken.run {ys : List α} (h : Taken key reading xs d)
    (hrun : ys.foldlM (takeIn key reading conflict) d = .ok d') :
    Taken key reading (xs ++ ys) d' := by
  induction ys generalizing xs d with
  | nil =>
    rw [List.append_nil, ← foldlM_nil_ok.mp hrun]
    exact h
  | cons a ys ih =>
    obtain ⟨e, hstep, hrest⟩ := foldlM_cons_ok.mp hrun
    have hrun' := ih (h.step hstep) hrest
    rwa [List.append_assoc] at hrun'

theorem Taken.run_exists {ys : List α} (h : Taken key reading xs d)
    (hagree : Agreeing key reading (xs ++ ys)) :
    ∃ d', ys.foldlM (takeIn key reading conflict) d = .ok d' := by
  induction ys generalizing xs d with
  | nil => exact ⟨d, rfl⟩
  | cons a ys ih =>
    have hlast : a ∈ xs ++ a :: ys := List.mem_append_right _ List.mem_cons_self
    have hstep : takeIn key reading conflict d a = .ok (d.set (key a) a) :=
      h.takeIn_ok_iff.mpr ⟨fun b hb => hagree b (List.mem_append_left _ hb) a hlast, rfl⟩
    obtain ⟨d', hrest⟩ := ih (h.step hstep) (by rwa [List.append_assoc])
    exact ⟨d', foldlM_cons_ok.mpr ⟨_, hstep, hrest⟩⟩

theorem intake_ok_iff (conflict : ε) :
    (∃ d, xs.foldlM (takeIn key reading conflict) Dict.empty = .ok d) ↔
      Agreeing key reading xs := by
  constructor
  · rintro ⟨d, hrun⟩
    exact (taken_nil.run hrun).agreeing
  · exact taken_nil.run_exists

/-! ## Rows -/

variable {read : ρ → Option α} {rows : List ρ}

theorem takeRow_ok : rows.foldlM (takeRow read key reading conflict) d = .ok d' ↔
    (∀ row ∈ rows, (read row).isSome) ∧
      (rows.filterMap read).foldlM (takeIn key reading conflict) d = .ok d' := by
  induction rows generalizing d with
  | nil => simp
  | cons row rows ih =>
    rw [foldlM_cons_ok]
    cases hread : read row with
    | none => simp [takeRow, hread]
    | some a =>
      simp only [takeRow, hread, List.forall_mem_cons, Option.isSome_some, true_and,
        List.filterMap_cons_some hread, ih]
      rw [foldlM_cons_ok]
      constructor
      · rintro ⟨e, hstep, hall, hrest⟩
        exact ⟨hall, e, hstep, hrest⟩
      · rintro ⟨hall, e, hstep, hrest⟩
        exact ⟨e, hstep, hall, hrest⟩

end Taken

/-! ## In the order of the keys -/

section InOrder

variable [LinearOrder κ] {key : α → κ} {reading : α → β} {xs : List α} {d : Dict κ α} {a : α}

/-- `[d[k] for k in sorted(d)]`. -/
def inOrder (d : Dict κ α) : List α := (d.keys.insertionSort (· ≤ ·)).filterMap d.get?

theorem mem_inOrder : a ∈ inOrder d ↔ ∃ k, d.get? k = some a := by
  simp only [inOrder, List.mem_filterMap, List.mem_insertionSort]
  constructor
  · rintro ⟨k, -, hk⟩
    exact ⟨k, hk⟩
  · rintro ⟨k, hk⟩
    exact ⟨k, Dict.mem_keys_of_get? hk, hk⟩

theorem Taken.inOrder_strict (h : Taken key reading xs d) :
    (inOrder d).Pairwise fun a b => key a < key b := by
  have hkeys : (d.keys.insertionSort (· ≤ ·)).Pairwise (· < ·) := by
    have hnodup : (d.keys.map id).Nodup := by rw [List.map_id]; exact d.keys_nodup
    exact insertionSort_strict id hnodup
  refine List.pairwise_filterMap.mpr (hkeys.imp fun hlt a ha b hb => ?_)
  rw [(h.sound _ a ha).2, (h.sound _ b hb).2]
  exact hlt

end InOrder

end Screener.Lib
