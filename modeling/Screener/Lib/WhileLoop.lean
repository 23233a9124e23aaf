import Mathlib.Data.Nat.Notation
import Mathlib.Tactic.Basic

/-!
# Loops without a bound

A `while` loop goes on from state to state until a step stops it with a result. A step
also sees the number of steps before it, by which it reads its input. `drive` takes at
most `fuel` steps; a loop ends when some fuel is enough.
-/

namespace Screener.Lib

variable {σ ρ : Type*} {step : Nat → σ → σ ⊕ ρ}

def drive (step : Nat → σ → σ ⊕ ρ) : Nat → Nat → σ → Option ρ
  | 0, _, _ => none
  | fuel + 1, n, s =>
    match step n s with
    | .inl t => drive step fuel (n + 1) t
    | .inr r => some r

/-- The loop that has made `n` steps and is in `s` ends with `r`. -/
def Ends (step : Nat → σ → σ ⊕ ρ) (n : Nat) (s : σ) (r : ρ) : Prop :=
  ∃ fuel, drive step fuel n s = some r

theorem drive_of_inl {n : Nat} {s t : σ} (h : step n s = .inl t) (fuel : Nat) :
    drive step (fuel + 1) n s = drive step fuel (n + 1) t := by
  rw [drive, h]

theorem drive_of_inr {n : Nat} {s : σ} {r : ρ} (h : step n s = .inr r) (fuel : Nat) :
    drive step (fuel + 1) n s = some r := by
  rw [drive, h]

theorem drive_mono {fuel fuel' n : Nat} {s : σ} {r : ρ} (h : drive step fuel n s = some r)
    (hle : fuel ≤ fuel') : drive step fuel' n s = some r := by
  induction fuel generalizing fuel' n s with
  | zero => cases h
  | succ fuel ih =>
    obtain ⟨more, rfl⟩ := Nat.exists_eq_add_of_le' hle
    rw [← Nat.add_assoc]
    cases hstep : step n s with
    | inl t =>
      rw [drive_of_inl hstep] at h ⊢
      exact ih h (Nat.le_add_left fuel more)
    | inr r' =>
      rw [drive_of_inr hstep] at h ⊢
      exact h

theorem Ends.unique {n : Nat} {s : σ} {r r' : ρ} (h : Ends step n s r) (h' : Ends step n s r') :
    r = r' := by
  obtain ⟨fuel, h⟩ := h
  obtain ⟨fuel', h'⟩ := h'
  rcases Nat.le_total fuel fuel' with hle | hle
  · exact Option.some.inj ((drive_mono h hle).symm.trans h')
  · exact Option.some.inj (h.symm.trans (drive_mono h' hle))

/-- The rule for partial correctness: steps keep an invariant, and a result of a state that
has it is as it should be. -/
theorem drive_result (I : σ → Prop) {Q : ρ → Prop} (hstep : ∀ n s t, I s → step n s = .inl t → I t)
    (hstop : ∀ n s r, I s → step n s = .inr r → Q r) {fuel n : Nat} {s : σ} {r : ρ} (hs : I s)
    (h : drive step fuel n s = some r) : Q r := by
  induction fuel generalizing n s with
  | zero => cases h
  | succ fuel ih =>
    cases hnext : step n s with
    | inl t =>
      rw [drive_of_inl hnext] at h
      exact ih (hstep n s t hs hnext) h
    | inr r' =>
      rw [drive_of_inr hnext] at h
      exact hstop n s r hs (Option.some.inj h ▸ hnext)

/-- The variant rule: steps that keep an invariant and lower a measure come to an end. -/
theorem drive_of_measure (I : Nat → σ → Prop) (measure : Nat → σ → Nat) {Q : ρ → Prop}
    (h : ∀ n s, I n s →
      (∃ t, step n s = .inl t ∧ I (n + 1) t ∧ measure (n + 1) t < measure n s) ∨
        ∃ r, step n s = .inr r ∧ Q r)
    {n : Nat} {s : σ} (hs : I n s) {fuel : Nat} (hfuel : measure n s < fuel) :
    ∃ r, drive step fuel n s = some r ∧ Q r := by
  induction fuel generalizing n s with
  | zero => exact absurd hfuel (Nat.not_lt_zero _)
  | succ fuel ih =>
    rcases h n s hs with ⟨t, hstep, ht, hless⟩ | ⟨r, hstep, hr⟩
    · obtain ⟨r, hrun, hr⟩ := ih ht (by omega)
      exact ⟨r, (drive_of_inl hstep fuel).trans hrun, hr⟩
    · exact ⟨r, drive_of_inr hstep fuel, hr⟩

theorem ends_of_measure (I : Nat → σ → Prop) (measure : Nat → σ → Nat) {Q : ρ → Prop}
    (h : ∀ n s, I n s →
      (∃ t, step n s = .inl t ∧ I (n + 1) t ∧ measure (n + 1) t < measure n s) ∨
        ∃ r, step n s = .inr r ∧ Q r)
    {n : Nat} {s : σ} (hs : I n s) : ∃ r, Ends step n s r ∧ Q r := by
  obtain ⟨r, hrun, hr⟩ := drive_of_measure I measure h hs (Nat.lt_succ_self _)
  exact ⟨r, ⟨_, hrun⟩, hr⟩

/-- Steps that always lead on never come to an end. -/
theorem drive_eq_none (I : Nat → σ → Prop)
    (h : ∀ n s, I n s → ∃ t, step n s = .inl t ∧ I (n + 1) t) (fuel : Nat) {n : Nat} {s : σ}
    (hs : I n s) : drive step fuel n s = none := by
  induction fuel generalizing n s with
  | zero => rfl
  | succ fuel ih =>
    obtain ⟨t, hstep, ht⟩ := h n s hs
    rw [drive_of_inl hstep]
    exact ih ht

end Screener.Lib
