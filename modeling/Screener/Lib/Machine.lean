import Mathlib.Data.List.Induction
import Mathlib.Logic.Relation

/-!
# Labelled transition systems

A system is given by its initial states and its labelled steps. `Reachable` is
closed under steps in any order, so an invariant proved of it holds at every
point of every interleaving. `restrict` keeps the steps that meet a condition:
what is reachable there is what the runs all of whose steps meet it reach.
`follow` takes given steps in order, for runs that are computed.
-/

namespace Screener.Lib

structure Machine (σ α : Type*) where
  init : σ → Prop
  step : σ → α → σ → Prop

namespace Machine

variable {σ α : Type*} (M : Machine σ α)

inductive Reachable : σ → Prop
  | init {s : σ} : M.init s → Reachable s
  | step {s t : σ} {a : α} : Reachable s → M.step s a t → Reachable t

/-- A run from `s` to `t`, with its steps in order. -/
inductive Run : σ → List (σ × α × σ) → σ → Prop
  | nil (s : σ) : Run s [] s
  | snoc {s t u : σ} {a : α} {steps : List (σ × α × σ)} :
      Run s steps t → M.step t a u → Run s (steps ++ [(t, a, u)]) u

/-- Take steps in the given order, if none of them is refused. -/
def follow (next : σ → α → Option σ) : σ → List α → Option σ
  | s, [] => some s
  | s, a :: rest => (next s a).bind fun t => follow next t rest

def restrict (cond : σ → α → Prop) : Machine σ α where
  init := M.init
  step s a t := cond s a ∧ M.step s a t

variable {M}

/-- The invariant rule: true at the start, kept by each step. -/
theorem Reachable.invariant {I : σ → Prop} (hinit : ∀ s, M.init s → I s)
    (hstep : ∀ s a t, M.Reachable s → I s → M.step s a t → I t) {s : σ} (h : M.Reachable s) :
    I s := by
  induction h with
  | init hs => exact hinit _ hs
  | step hs hst ih => exact hstep _ _ _ hs ih hst

theorem Reachable.of_restrict {cond : σ → α → Prop} {s : σ} (h : (M.restrict cond).Reachable s) :
    M.Reachable s := by
  induction h with
  | init hs => exact .init hs
  | step _ hst ih => exact .step ih hst.2

theorem Run.reachable {s t : σ} {steps : List (σ × α × σ)} (h : M.Run s steps t)
    (hs : M.Reachable s) : M.Reachable t := by
  induction h with
  | nil => exact hs
  | snoc _ hst ih => exact .step ih hst

theorem Run.reachable_of_mem {s t : σ} {steps : List (σ × α × σ)} (h : M.Run s steps t)
    (hs : M.Reachable s) {x : σ × α × σ} (hx : x ∈ steps) :
    M.Reachable x.1 ∧ M.step x.1 x.2.1 x.2.2 := by
  induction h with
  | nil => simp at hx
  | snoc hr hst ih =>
    rcases List.mem_append.mp hx with hx | hx
    · exact ih hx
    · rw [List.mem_singleton] at hx
      subst hx
      exact ⟨hr.reachable hs, hst⟩

/-! ### Runs taken apart -/

theorem Run.of_snoc {s u : σ} {steps : List (σ × α × σ)} {x : σ × α × σ}
    (h : M.Run s (steps ++ [x]) u) : M.Run s steps x.1 ∧ M.step x.1 x.2.1 x.2.2 ∧ x.2.2 = u := by
  generalize hall : steps ++ [x] = all at h
  cases h with
  | nil => simp at hall
  | snoc hr hst =>
    obtain ⟨rfl, hx⟩ := List.append_inj' hall rfl
    obtain rfl := List.singleton_inj.mp hx
    exact ⟨hr, hst, rfl⟩

theorem Run.split {s u : σ} {before after : List (σ × α × σ)} (h : M.Run s (before ++ after) u) :
    ∃ t, M.Run s before t ∧ M.Run t after u := by
  induction after using List.reverseRecOn generalizing u with
  | nil => exact ⟨u, by rwa [List.append_nil] at h, .nil u⟩
  | append_singleton after x ih =>
    rw [← List.append_assoc] at h
    obtain ⟨hr, hst, rfl⟩ := h.of_snoc
    obtain ⟨t, hbefore, hafter⟩ := ih hr
    exact ⟨t, hbefore, hafter.snoc hst⟩

theorem Run.head {s u : σ} {x : σ × α × σ} {after : List (σ × α × σ)}
    (h : M.Run s (x :: after) u) : x.1 = s ∧ M.step x.1 x.2.1 x.2.2 ∧ M.Run x.2.2 after u := by
  obtain ⟨t, hfirst, hafter⟩ := (show M.Run s ([x] ++ after) u from h).split
  obtain ⟨hnil, hst, rfl⟩ := (show M.Run s ([] ++ [x]) t from hfirst).of_snoc
  generalize hempty : ([] : List (σ × α × σ)) = steps at hnil
  cases hnil with
  | nil => exact ⟨rfl, hst, hafter⟩
  | snoc => simp at hempty

/-- What every step that meets a condition keeps, a run of such steps keeps all along. -/
theorem Run.kept {I : σ → Prop} (cond : σ × α × σ → Prop)
    (hstep : ∀ s a t, M.Reachable s → I s → cond (s, a, t) → M.step s a t → I t)
    {s t : σ} {steps : List (σ × α × σ)} (h : M.Run s steps t) (hs : M.Reachable s) (hI : I s)
    (hcond : ∀ x ∈ steps, cond x) : (∀ x ∈ steps, I x.2.2) ∧ I t := by
  induction h with
  | nil => exact ⟨by simp, hI⟩
  | @snoc t u a steps hr hst ih =>
    rw [List.forall_mem_append, List.forall_mem_singleton] at hcond
    obtain ⟨hall, hend⟩ := ih hcond.1
    have hnext : I u := hstep t a u (hr.reachable hs) hend hcond.2 hst
    exact ⟨List.forall_mem_append.mpr ⟨hall, List.forall_mem_singleton.mpr hnext⟩, hnext⟩

/-- The rule for what holds after every step exactly when a condition holds before
every step: an invariant, kept while the condition holds, decides each step. -/
theorem Run.forall_iff {good : σ → Prop} {cond : σ → α → Prop} {I : σ → Prop}
    (hstep : ∀ s a t, M.Reachable s → I s → M.step s a t →
      (good t ↔ cond s a) ∧ (cond s a → I t))
    {s t : σ} {steps : List (σ × α × σ)} (h : M.Run s steps t) (hs : M.Reachable s) (hI : I s) :
    (∀ x ∈ steps, good x.2.2) ↔ ∀ x ∈ steps, cond x.1 x.2.1 := by
  have hboth : ((∀ x ∈ steps, good x.2.2) ↔ ∀ x ∈ steps, cond x.1 x.2.1) ∧
      ((∀ x ∈ steps, cond x.1 x.2.1) → I t) := by
    induction h with
    | nil => exact ⟨by simp, fun _ => hI⟩
    | @snoc t u a steps hr hst ih =>
      obtain ⟨hiff, hkeeps⟩ := ih
      simp only [List.forall_mem_append, List.forall_mem_singleton]
      constructor
      · constructor
        · intro ⟨hfirst, hlast⟩
          have hcond := hiff.mp hfirst
          exact ⟨hcond, (hstep t a u (hr.reachable hs) (hkeeps hcond) hst).1.mp hlast⟩
        · intro ⟨hfirst, hlast⟩
          exact ⟨hiff.mpr hfirst, (hstep t a u (hr.reachable hs) (hkeeps hfirst) hst).1.mpr hlast⟩
      · intro ⟨hfirst, hlast⟩
        exact (hstep t a u (hr.reachable hs) (hkeeps hfirst) hst).2 hlast
  exact hboth.1

theorem follow_append (next : σ → α → Option σ) (s : σ) (before after : List α) :
    follow next s (before ++ after) = (follow next s before).bind fun t => follow next t after := by
  induction before generalizing s with
  | nil => rfl
  | cons a rest ih =>
    rw [List.cons_append, follow, follow, Option.bind_assoc]
    exact Option.bind_congr fun t _ => ih t

/-- The steps that `follow` takes. -/
def trace (next : σ → α → Option σ) : σ → List α → List (σ × α × σ)
  | _, [] => []
  | s, a :: rest =>
    match next s a with
    | some t => (s, a, t) :: trace next t rest
    | none => []

/-- Steps taken in a given order are a run. -/
theorem run_trace {next : σ → α → Option σ} (hnext : ∀ s a t, next s a = some t → M.step s a t)
    {s t : σ} {actions : List α} (h : follow next s actions = some t) :
    M.Run s (trace next s actions) t := by
  suffices hfrom : ∀ (start : σ) (steps : List (σ × α × σ)), M.Run start steps s →
      M.Run start (steps ++ trace next s actions) t from hfrom s [] (.nil s)
  induction actions generalizing s with
  | nil =>
    intro start steps hrun
    rw [follow, Option.some.injEq] at h
    rw [trace, List.append_nil]
    exact h ▸ hrun
  | cons a rest ih =>
    intro start steps hrun
    obtain ⟨u, hu, hrest⟩ := Option.bind_eq_some_iff.mp h
    have hcons : steps ++ trace next s (a :: rest) =
        (steps ++ [(s, a, u)]) ++ trace next u rest := by
      simp [trace, hu]
    rw [hcons]
    exact ih hrest start _ (hrun.snoc (hnext s a u hu))

theorem run_of_follow {next : σ → α → Option σ} (hnext : ∀ s a t, next s a = some t → M.step s a t)
    {s t : σ} {actions : List α} (h : follow next s actions = some t) :
    ∃ steps, M.Run s steps t := ⟨_, run_trace hnext h⟩

theorem reachable_of_follow {next : σ → α → Option σ}
    (hnext : ∀ s a t, next s a = some t → M.step s a t) {s t : σ} {actions : List α}
    (hs : M.init s) (h : follow next s actions = some t) : M.Reachable t := by
  obtain ⟨steps, hrun⟩ := run_of_follow hnext h
  exact hrun.reachable (.init hs)

/-- A test of the state that given steps end in. -/
theorem exists_reachable_of_follow {next : σ → α → Option σ}
    (hnext : ∀ s a t, next s a = some t → M.step s a t) {s : σ} {actions : List α} (hs : M.init s)
    {P : σ → Prop} [DecidablePred P] (h : (follow next s actions).any (P ·) = true) :
    ∃ t, M.Reachable t ∧ P t := by
  obtain ⟨t, ht, hP⟩ := (Option.any_eq_true _ _).mp h
  exact ⟨t, reachable_of_follow hnext hs ht, of_decide_eq_true hP⟩

/-- Steps taken in a given order, each of which is allowed in every state. -/
theorem reachable_of_follow_allowed {next : σ → α → Option σ}
    (hnext : ∀ s a t, next s a = some t → M.step s a t) {allowed : σ → α → Prop} {s t : σ}
    {actions : List α} (hallowed : ∀ a ∈ actions, ∀ s, allowed s a)
    (hs : (M.restrict allowed).Reachable s) (h : follow next s actions = some t) :
    (M.restrict allowed).Reachable t := by
  induction actions generalizing s with
  | nil => exact Option.some.inj h ▸ hs
  | cons a rest ih =>
    obtain ⟨ha, hrest⟩ := List.forall_mem_cons.mp hallowed
    obtain ⟨u, hu, h⟩ := Option.bind_eq_some_iff.mp h
    exact ih hrest (hs.step ⟨ha s, hnext s a u hu⟩) h

end Machine

end Screener.Lib
