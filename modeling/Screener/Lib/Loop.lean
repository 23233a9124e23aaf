import Mathlib.Data.List.Basic

/-!
# Loops that may fail

A `for` loop whose body may raise is `List.foldlM` in `Except`. The rules below
say what a completed loop gives: the iterations it is made of, what every
iteration keeps, and what two loops over one list keep between their states.
-/

namespace Screener.Lib

universe u

variable {σ τ : Type u} {α ε : Type*}

theorem bind_ok {x : Except ε σ} {f : σ → Except ε τ} {t : τ} :
    (x >>= f) = .ok t ↔ ∃ s, x = .ok s ∧ f s = .ok t := by
  cases x with
  | error e => simp [bind, Except.bind]
  | ok a => simp [bind, Except.bind]

@[simp] theorem pure_ok {s t : σ} : (pure s : Except ε σ) = .ok t ↔ s = t := by
  simp [pure, Except.pure]

theorem map_ok {x : Except ε σ} {f : σ → τ} {t : τ} :
    x.map f = .ok t ↔ ∃ s, x = .ok s ∧ f s = t := by
  cases x with
  | error e => simp [Except.map]
  | ok a => simp [Except.map]

/-- Two continuations that agree on all that is read of their results. -/
theorem bind_map_congr {x : Except ε σ} {g g' : σ → Except ε τ} {β : Type*} {f : τ → β}
    (h : ∀ s, (g s).map f = (g' s).map f) : (x >>= g).map f = (x >>= g').map f := by
  cases x with
  | error e => rfl
  | ok a => exact h a

theorem toOption_eq_some {x : Except ε α} {a : α} : x.toOption = some a ↔ x = .ok a := by
  cases x with
  | error e => simp [Except.toOption]
  | ok b => simp [Except.toOption]

theorem exists_ok {x : Except ε α} (h : x.toBool = true) : ∃ a, x = .ok a := by
  cases x with
  | error e => simp [Except.toBool] at h
  | ok a => exact ⟨a, rfl⟩

/-- What holds of a log holds of it after one more entry that it holds of. -/
theorem forall_mem_concat {p : α → Prop} {xs : List α} {a : α} (hxs : ∀ x ∈ xs, p x) (ha : p a) :
    ∀ x ∈ xs ++ [a], p x :=
  List.forall_mem_append.mpr ⟨hxs, List.forall_mem_singleton.mpr ha⟩

/-- What holds at each place of a log holds so after one more entry. -/
theorem forall_getElem?_concat {p : Nat → α → Prop} {xs : List α} {a : α}
    (hxs : ∀ k x, xs[k]? = some x → p k x) (ha : p xs.length a) :
    ∀ k x, (xs ++ [a])[k]? = some x → p k x := by
  intro k x hx
  rcases Nat.lt_trichotomy k xs.length with hk | rfl | hk
  · rw [List.getElem?_append_left hk] at hx
    exact hxs k x hx
  · rw [List.getElem?_concat_length, Option.some.injEq] at hx
    exact hx ▸ ha
  · rw [List.getElem?_eq_none (by rw [List.length_append, List.length_singleton]; omega)] at hx
    cases hx

@[simp] theorem foldlM_nil_ok {f : σ → α → Except ε σ} {s t : σ} :
    [].foldlM f s = .ok t ↔ s = t := pure_ok

theorem foldlM_cons_ok {f : σ → α → Except ε σ} {x : α} {xs : List α} {s t : σ} :
    (x :: xs).foldlM f s = .ok t ↔ ∃ u, f s x = .ok u ∧ xs.foldlM f u = .ok t := by
  rw [List.foldlM_cons, bind_ok]

theorem foldlM_append_ok {f : σ → α → Except ε σ} {xs ys : List α} {s t : σ} :
    (xs ++ ys).foldlM f s = .ok t ↔ ∃ u, xs.foldlM f s = .ok u ∧ ys.foldlM f u = .ok t := by
  rw [List.foldlM_append, bind_ok]

/-- A loop whose iterations compute `g` and raise where `P` fails. -/
theorem foldlM_guarded {f : σ → α → Except ε σ} {P : α → Prop} {g : σ → α → σ} {xs : List α}
    (h : ∀ x ∈ xs, ∀ s t, f s x = .ok t ↔ P x ∧ g s x = t) {s t : σ} :
    xs.foldlM f s = .ok t ↔ (∀ x ∈ xs, P x) ∧ xs.foldl g s = t := by
  induction xs generalizing s with
  | nil => simp
  | cons x xs ih =>
    have hrest := fun {u : σ} => ih (s := u) fun y hy => h y (List.mem_cons_of_mem x hy)
    rw [foldlM_cons_ok, List.forall_mem_cons, List.foldl_cons]
    constructor
    · rintro ⟨u, hu, hrun⟩
      obtain ⟨hx, rfl⟩ := (h x List.mem_cons_self s u).mp hu
      obtain ⟨hxs, ht⟩ := hrest.mp hrun
      exact ⟨⟨hx, hxs⟩, ht⟩
    · rintro ⟨⟨hx, hxs⟩, ht⟩
      exact ⟨g s x, (h x List.mem_cons_self s _).mpr ⟨hx, rfl⟩, hrest.mpr ⟨hxs, ht⟩⟩

/-- What the iterations keep, the loop keeps; `I` may speak of the elements
already consumed. -/
theorem foldlM_prefix_invariant {f : σ → α → Except ε σ} (I : List α → σ → Prop) (xs : List α)
    (hstep : ∀ pre x post s t, xs = pre ++ x :: post → I pre s → f s x = .ok t → I (pre ++ [x]) t)
    {s t : σ} (h : xs.foldlM f s = .ok t) (hs : I [] s) : I xs t := by
  suffices hgen : ∀ post pre s, xs = pre ++ post → I pre s → post.foldlM f s = .ok t → I xs t from
    hgen xs [] s rfl hs h
  intro post
  induction post with
  | nil =>
    intro pre s hxs hI hrun
    rw [foldlM_nil_ok] at hrun
    rw [hxs, List.append_nil, ← hrun]
    exact hI
  | cons x post ih =>
    intro pre s hxs hI hrun
    obtain ⟨u, hx, hrest⟩ := foldlM_cons_ok.mp hrun
    exact ih (pre ++ [x]) u (by simpa using hxs) (hstep pre x post s u hxs hI hx) hrest

theorem foldlM_invariant {f : σ → α → Except ε σ} (I : σ → Prop) {xs : List α}
    (hstep : ∀ x ∈ xs, ∀ s t, I s → f s x = .ok t → I t)
    {s t : σ} (h : xs.foldlM f s = .ok t) (hs : I s) : I t := by
  refine foldlM_prefix_invariant (fun _ => I) xs ?_ h hs
  intro pre x post s t hxs
  exact hstep x (by simp [hxs]) s t

/-- Two completed loops over one list keep a relation that one iteration of each
keeps; `R` may speak of the elements already consumed. -/
theorem foldlM_prefix_related {f : σ → α → Except ε σ} {g : τ → α → Except ε τ}
    (R : List α → σ → τ → Prop) (xs : List α)
    (hstep : ∀ pre x post s t s' t', xs = pre ++ x :: post → R pre s t → f s x = .ok s' →
      g t x = .ok t' → R (pre ++ [x]) s' t')
    {s s' : σ} {t t' : τ} (hf : xs.foldlM f s = .ok s') (hg : xs.foldlM g t = .ok t')
    (hR : R [] s t) : R xs s' t' := by
  suffices hgen : ∀ post pre s t, xs = pre ++ post → R pre s t → post.foldlM f s = .ok s' →
      post.foldlM g t = .ok t' → R xs s' t' from hgen xs [] s t rfl hR hf hg
  intro post
  induction post with
  | nil =>
    intro pre s t hxs hR hf hg
    rw [foldlM_nil_ok] at hf hg
    rw [hxs, List.append_nil, ← hf, ← hg]
    exact hR
  | cons x post ih =>
    intro pre s t hxs hR hf hg
    obtain ⟨u, hu, hf⟩ := foldlM_cons_ok.mp hf
    obtain ⟨v, hv, hg⟩ := foldlM_cons_ok.mp hg
    exact ih (pre ++ [x]) u v (by simpa using hxs) (hstep pre x post s t u v hxs hR hu hv) hf hg

theorem foldlM_related {f : σ → α → Except ε σ} {g : τ → α → Except ε τ} (R : σ → τ → Prop)
    {xs : List α}
    (hstep : ∀ x ∈ xs, ∀ s t s' t', R s t → f s x = .ok s' → g t x = .ok t' → R s' t')
    {s s' : σ} {t t' : τ} (hf : xs.foldlM f s = .ok s') (hg : xs.foldlM g t = .ok t')
    (hR : R s t) : R s' t' := by
  refine foldlM_prefix_related (fun _ => R) xs ?_ hf hg hR
  intro pre x post s t s' t' hxs
  exact hstep x (by simp [hxs]) s t s' t'

/-- A loop that carries more along completes where the plain one does, if each
iteration does. -/
theorem foldlM_lift {f : σ → α → Except ε σ} {g : σ × τ → α → Except ε (σ × τ)} {xs : List α}
    (hstep : ∀ x ∈ xs, ∀ s t w, f s x = .ok t → ∃ w', g (s, w) x = .ok (t, w'))
    {s t : σ} (w : τ) (h : xs.foldlM f s = .ok t) : ∃ w', xs.foldlM g (s, w) = .ok (t, w') := by
  induction xs generalizing s w with
  | nil =>
    rw [foldlM_nil_ok] at h
    exact ⟨w, foldlM_nil_ok.mpr (by rw [h])⟩
  | cons x xs ih =>
    obtain ⟨u, hu, hrest⟩ := foldlM_cons_ok.mp h
    obtain ⟨v, hv⟩ := hstep x List.mem_cons_self s u w hu
    obtain ⟨w', hw'⟩ := ih (fun y hy => hstep y (List.mem_cons_of_mem x hy)) v hrest
    exact ⟨w', foldlM_cons_ok.mpr ⟨(u, v), hv, hw'⟩⟩

theorem mapM_total {f : α → Except ε σ} {xs : List α} (h : ∀ x ∈ xs, ∃ s, f x = .ok s) :
    ∃ ys, xs.mapM f = .ok ys := by
  induction xs with
  | nil => exact ⟨[], rfl⟩
  | cons x xs ih =>
    obtain ⟨s, hs⟩ := h x List.mem_cons_self
    obtain ⟨ys, hys⟩ := ih fun y hy => h y (List.mem_cons_of_mem x hy)
    rw [List.mapM_cons]
    exact ⟨s :: ys, bind_ok.mpr ⟨s, hs, bind_ok.mpr ⟨ys, hys, rfl⟩⟩⟩

theorem mapM_ok_map {f : α → Except ε σ} {g : α → σ} {xs : List α} (h : ∀ x ∈ xs, f x = .ok (g x)) :
    xs.mapM f = .ok (xs.map g) := by
  induction xs with
  | nil => rfl
  | cons x xs ih =>
    rw [List.mapM_cons, h x List.mem_cons_self, ih fun y hy => h y (List.mem_cons_of_mem x hy)]
    rfl

theorem mapM_congr {f g : α → Except ε σ} {xs : List α} (h : ∀ x ∈ xs, f x = g x) :
    xs.mapM f = xs.mapM g := by
  induction xs with
  | nil => rfl
  | cons x xs ih =>
    rw [List.mapM_cons, List.mapM_cons, h x List.mem_cons_self,
      ih fun y hy => h y (List.mem_cons_of_mem x hy)]

/-- A map of what maps to itself. -/
theorem mapM_id {f : α → Except ε α} {xs : List α} (h : ∀ x ∈ xs, f x = .ok x) :
    xs.mapM f = .ok xs := by
  rw [mapM_ok_map h, List.map_id']

theorem mem_mapM_ok {f : α → Except ε σ} {xs : List α} {ys : List σ} (h : xs.mapM f = .ok ys)
    {y : σ} : y ∈ ys ↔ ∃ x ∈ xs, f x = .ok y := by
  induction xs generalizing ys with
  | nil =>
    rw [List.mapM_nil, pure_ok] at h
    simp [← h]
  | cons x xs ih =>
    rw [List.mapM_cons] at h
    obtain ⟨first, hfirst, h⟩ := bind_ok.mp h
    obtain ⟨rest, hrest, h⟩ := bind_ok.mp h
    rw [pure_ok] at h
    rw [← h, List.mem_cons, ih hrest]
    simp [hfirst, eq_comm]

theorem mapM_ok_of_mem {f : α → Except ε σ} {xs : List α} {ys : List σ}
    (h : xs.mapM f = .ok ys) {x : α} (hx : x ∈ xs) : ∃ y ∈ ys, f x = .ok y := by
  induction xs generalizing ys with
  | nil => cases hx
  | cons first xs ih =>
    rw [List.mapM_cons] at h
    obtain ⟨y, hy, h⟩ := bind_ok.mp h
    obtain ⟨rest, hrest, h⟩ := bind_ok.mp h
    rw [pure_ok] at h
    rw [← h]
    rcases List.mem_cons.mp hx with rfl | hx
    · exact ⟨y, List.mem_cons_self, hy⟩
    · obtain ⟨z, hz, hfz⟩ := ih hrest hx
      exact ⟨z, List.mem_cons_of_mem y hz, hfz⟩

theorem mapError_ok {ε' : Type*} {x : Except ε σ} {f : ε → ε'} {s : σ} :
    x.mapError f = .ok s ↔ x = .ok s := by
  cases x with
  | error e => simp [Except.mapError]
  | ok a => simp [Except.mapError]

/-! ## What a computation raises -/

/-- Every error that the computation raises is in `P`. -/
def OnlyRaises (P : ε → Prop) (x : Except ε σ) : Prop := ∀ e, x = .error e → P e

namespace OnlyRaises

variable {P : ε → Prop}

theorem ok (s : σ) : OnlyRaises P (.ok s) := fun _ h => nomatch h

theorem error {e : ε} (h : P e) : OnlyRaises P (.error e : Except ε σ) := by
  intro e' he
  rwa [← Except.error.inj he]

theorem bind {x : Except ε σ} {f : σ → Except ε τ} (hx : OnlyRaises P x)
    (hf : ∀ s, x = .ok s → OnlyRaises P (f s)) : OnlyRaises P (x >>= f) := by
  intro e he
  cases x with
  | ok s => exact hf s rfl e he
  | error e' =>
    obtain rfl : e' = e := Except.error.inj he
    exact hx e' rfl

theorem ite {c : Prop} [Decidable c] {x y : Except ε σ} (hx : OnlyRaises P x)
    (hy : OnlyRaises P y) : OnlyRaises P (if c then x else y) := by
  split
  · exact hx
  · exact hy

theorem foldlM {f : σ → α → Except ε σ} {xs : List α} (h : ∀ s, ∀ x ∈ xs, OnlyRaises P (f s x))
    (s : σ) : OnlyRaises P (xs.foldlM f s) := by
  induction xs generalizing s with
  | nil => exact ok s
  | cons x xs ih =>
    rw [List.foldlM_cons]
    exact (h s x List.mem_cons_self).bind fun t _ =>
      ih (fun u y hy => h u y (List.mem_cons_of_mem x hy)) t

theorem mapM {f : α → Except ε σ} {xs : List α} (h : ∀ x ∈ xs, OnlyRaises P (f x)) :
    OnlyRaises P (xs.mapM f) := by
  induction xs with
  | nil => exact ok []
  | cons x xs ih =>
    rw [List.mapM_cons]
    exact (h x List.mem_cons_self).bind fun _ _ =>
      (ih fun y hy => h y (List.mem_cons_of_mem x hy)).bind fun _ _ => ok _

theorem map {x : Except ε σ} {f : σ → τ} (h : OnlyRaises P x) : OnlyRaises P (x.map f) := by
  intro e he
  cases x with
  | ok s => cases he
  | error e' => exact h e (congrArg _ (Except.error.inj he))

end OnlyRaises

end Screener.Lib
