import Mathlib.Tactic.SplitIfs

/-!
# Stateful programs that may raise

`EStateM` keeps the state that an exception leaves behind. A triple speaks of
both ends of a program: of the states in which it returns and of the states in
which it raises.
-/

namespace Screener.Lib

variable {σ ε α β γ : Type}

/-- From a state in `P` the program returns into `Q` or raises into `E`. -/
def Triple (P : σ → Prop) (x : EStateM ε σ α) (Q : α → σ → Prop) (E : ε → σ → Prop) : Prop :=
  ∀ s, P s → match x.run s with
    | .ok a t => Q a t
    | .error e t => E e t

def raiseError : Except ε α → EStateM ε σ α
  | .ok a => pure a
  | .error e => throw e

/-! ## Runs -/

variable {s u : σ} {x : EStateM ε σ α} {f : α → EStateM ε σ β}

theorem run_pure (a : α) : (pure a : EStateM ε σ α).run s = .ok a s := rfl

theorem run_bind :
    (x >>= f).run s = match x.run s with
      | .ok a t => (f a).run t
      | .error e t => .error e t := by
  cases h : x s with
  | ok a t => simp only [EStateM.run, bind, EStateM.bind, h]
  | error e t => simp only [EStateM.run, bind, EStateM.bind, h]

theorem run_bind_of_ok {a : α} {t : σ} (h : x.run s = .ok a t) :
    (x >>= f).run s = (f a).run t := by
  rw [run_bind, h]

theorem run_bind_of_error {e : ε} {t : σ} (h : x.run s = .error e t) :
    (x >>= f).run s = .error e t := by
  rw [run_bind, h]

theorem run_bind_ok {b : β} :
    (x >>= f).run s = .ok b u ↔ ∃ a t, x.run s = .ok a t ∧ (f a).run t = .ok b u := by
  rw [run_bind]
  cases x.run s with
  | ok a t =>
    constructor
    · intro h
      exact ⟨a, t, rfl, h⟩
    · intro ⟨a', t', hrun, h⟩
      cases hrun
      exact h
  | error e t => simp

theorem run_bind_error {e : ε} :
    (x >>= f).run s = .error e u ↔
      x.run s = .error e u ∨ ∃ a t, x.run s = .ok a t ∧ (f a).run t = .error e u := by
  rw [run_bind]
  cases x.run s with
  | ok a t =>
    constructor
    · intro h
      exact .inr ⟨a, t, rfl, h⟩
    · intro h
      obtain h | ⟨a', t', hrun, h⟩ := h
      · cases h
      · cases hrun
        exact h
  | error e' t => simp

theorem run_tryCatch_of_ok {handler : ε → EStateM ε σ α} {a : α} {t : σ}
    (h : x.run s = .ok a t) : (tryCatch x handler).run s = .ok a t := by
  replace h : x s = .ok a t := h
  show EStateM.tryCatch x handler s = _
  simp only [EStateM.tryCatch, h]

theorem run_tryCatch_of_error {handler : ε → EStateM ε σ α} {e : ε} {t : σ}
    (h : x.run s = .error e t) : (tryCatch x handler).run s = (handler e).run t := by
  replace h : x s = .error e t := h
  show EStateM.tryCatch x handler s = _
  simp only [EStateM.tryCatch, h]
  rfl

theorem run_pure_ok {a b : α} : (pure a : EStateM ε σ α).run s = .ok b u ↔ a = b ∧ s = u := by
  rw [run_pure, EStateM.Result.ok.injEq]

theorem run_raiseError_ok {r : Except ε α} {a : α} :
    (raiseError r : EStateM ε σ α).run s = .ok a u ↔ r = .ok a ∧ s = u := by
  cases r with
  | ok b => simp [raiseError]
  | error e =>
    show (EStateM.Result.error e s : EStateM.Result ε σ α) = .ok a u ↔ _
    simp

theorem run_raiseError_error {r : Except ε α} {e : ε} :
    (raiseError r : EStateM ε σ α).run s = .error e u ↔ r = .error e ∧ s = u := by
  cases r with
  | ok b => simp [raiseError]
  | error e' =>
    show (EStateM.Result.error e' s : EStateM.Result ε σ α) = .error e u ↔ _
    simp

/-! ## Rules -/

namespace Triple

variable {P P' : σ → Prop} {Q Q' : α → σ → Prop} {E E' : ε → σ → Prop}

theorem pure {a : α} (h : ∀ s, P s → Q a s) : Triple P (pure a : EStateM ε σ α) Q E := h

theorem raiseError {r : Except ε α} (hok : ∀ a s, r = .ok a → P s → Q a s)
    (herror : ∀ e s, r = .error e → P s → E e s) :
    Triple P (raiseError r : EStateM ε σ α) Q E := by
  intro s hs
  cases r with
  | ok a => exact hok a s rfl hs
  | error e => exact herror e s rfl hs

theorem bind {R : β → σ → Prop} (hx : Triple P x Q E) (hf : ∀ a, Triple (Q a) (f a) R E) :
    Triple P (x >>= f) R E := by
  intro s hs
  have h := hx s hs
  rw [run_bind]
  cases hrun : x.run s with
  | ok a t =>
    rw [hrun] at h
    exact hf a t h
  | error e t =>
    rw [hrun] at h
    exact h

theorem conseq (h : Triple P x Q E) (hP : ∀ s, P' s → P s) (hQ : ∀ a s, Q a s → Q' a s)
    (hE : ∀ e s, E e s → E' e s) : Triple P' x Q' E' := by
  intro s hs
  have hx := h s (hP s hs)
  cases hrun : x.run s with
  | ok a t =>
    rw [hrun] at hx
    exact hQ a t hx
  | error e t =>
    rw [hrun] at hx
    exact hE e t hx

/-- What a precondition says beside the state. -/
theorem of_fact {fact : Prop} (h : fact → Triple P x Q E) :
    Triple (fun s => P s ∧ fact) x Q E := fun s hs => h hs.2 s hs.1

theorem ite {c : Prop} [Decidable c] {x y : EStateM ε σ α}
    (hx : c → Triple P x Q E) (hy : ¬ c → Triple P y Q E) :
    Triple P (if c then x else y) Q E := by
  split_ifs with h
  · exact hx h
  · exact hy h

theorem of_ok (h : Triple P x Q E) (hs : P s) {a : α} {t : σ} (hrun : x.run s = .ok a t) :
    Q a t := by
  have hx := h s hs
  rw [hrun] at hx
  exact hx

theorem of_error (h : Triple P x Q E) (hs : P s) {e : ε} {t : σ} (hrun : x.run s = .error e t) :
    E e t := by
  have hx := h s hs
  rw [hrun] at hx
  exact hx

/-- The loop rule; `I` may speak of the elements already consumed. -/
theorem foldlM {f : β → γ → EStateM ε σ β} (I : List γ → β → σ → Prop) (xs : List γ)
    (hstep : ∀ pre y post b, xs = pre ++ y :: post →
      Triple (I pre b) (f b y) (I (pre ++ [y])) E) (b : β) :
    Triple (I [] b) (xs.foldlM f b) (I xs) E := by
  suffices hgen : ∀ post pre b, xs = pre ++ post → Triple (I pre b) (post.foldlM f b) (I xs) E from
    hgen xs [] b rfl
  intro post
  induction post with
  | nil =>
    intro pre b hxs
    rw [List.append_nil] at hxs
    rw [List.foldlM_nil, hxs]
    exact Triple.pure fun _ h => h
  | cons y post ih =>
    intro pre b hxs
    rw [List.foldlM_cons]
    exact (hstep pre y post b hxs).bind fun c => ih (pre ++ [y]) c (by simpa using hxs)

end Triple

/-- A loop that raises has completed the elements before the one that raises. -/
theorem run_foldlM_error {f : β → γ → EStateM ε σ β} {xs : List γ} {b : β} {e : ε}
    (h : (xs.foldlM f b).run s = .error e u) :
    ∃ pre y post c t, xs = pre ++ y :: post ∧ (pre.foldlM f b).run s = .ok c t ∧
      (f c y).run t = .error e u := by
  induction xs generalizing b s with
  | nil => cases h
  | cons y xs ih =>
    rw [List.foldlM_cons, run_bind_error] at h
    rcases h with h | ⟨c, t, hy, h⟩
    · exact ⟨[], y, xs, b, s, rfl, rfl, h⟩
    · obtain ⟨pre, z, post, c', t', hxs, hpre, hz⟩ := ih h
      refine ⟨y :: pre, z, post, c', t', by rw [hxs]; rfl, ?_, hz⟩
      rw [List.foldlM_cons, run_bind_of_ok hy, hpre]

end Screener.Lib
