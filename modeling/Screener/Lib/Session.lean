import Mathlib.Tactic.SplitIfs

/-!
# Database sessions with savepoints

A session keeps what other transactions see beside what its own transaction has
reached. A statement that is rejected outside a savepoint rolls the transaction
back, and the session then refuses every statement until it is rolled back. A
savepoint confines a failure to its own writes.
-/

namespace Screener.Lib

/-- What a transaction raises: an exception of its caller, or one of the session. -/
inductive Raised (ε : Type) where
  | app (error : ε)
  | rejected (message : String)
  | pendingRollback
deriving DecidableEq, Repr

structure Session (δ : Type) where
  committed : δ
  working : δ
  failed : Bool

def Session.begin {δ : Type} (d : δ) : Session δ := ⟨d, d, false⟩

/-- A computation on a session; the session survives an exception. -/
def Transaction (δ ε α : Type) : Type := Session δ → Except (Raised ε) α × Session δ

namespace Transaction

variable {δ ε α β : Type}

instance : Monad (Transaction δ ε) where
  pure a := fun s => (.ok a, s)
  bind x f := fun s =>
    match x s with
    | (.ok a, t) => f a t
    | (.error e, t) => (.error e, t)

def raise (error : ε) : Transaction δ ε α := fun s => (.error (.app error), s)

def lift : Except ε α → Transaction δ ε α
  | .ok a => pure a
  | .error e => raise e

/-- Read what the transaction has reached. -/
def read (f : δ → Except ε α) : Transaction δ ε α := fun s =>
  if s.failed then (.error .pendingRollback, s)
  else match f s.working with
    | .ok a => (.ok a, s)
    | .error e => (.error (.app e), s)

/-- Write the pending changes; `write` names the reason of a rejection. -/
def flush (write : δ → Except String δ) : Transaction δ ε Unit := fun s =>
  if s.failed then (.error .pendingRollback, s)
  else match write s.working with
    | .ok d => (.ok (), { s with working := d })
    | .error message => (.error (.rejected message),
      { s with working := s.committed, failed := true })

/-- Run `body` in a savepoint. -/
def nested (body : Transaction δ ε α) : Transaction δ ε α := fun s =>
  if s.failed then (.error .pendingRollback, s)
  else match body s with
    | (.ok a, t) => (.ok a, t)
    | (.error e, t) => (.error e, { t with working := s.working, failed := false })

/-- Catch every exception of `body`. -/
def attempt (body : Transaction δ ε α) : Transaction δ ε (Except (Raised ε) α) := fun s =>
  match body s with
  | (result, t) => (.ok result, t)

/-- A session of its own: commit where `body` returns, roll back where it raises. -/
def request (body : Transaction δ ε α) (d : δ) : Except (Raised ε) α × δ :=
  match body (Session.begin d) with
  | (.error e, t) => (.error e, t.committed)
  | (.ok a, t) => if t.failed then (.error .pendingRollback, t.committed) else (.ok a, t.working)

/-! ## Running -/

variable {s t u : Session δ}

theorem pure_run (a : α) : (pure a : Transaction δ ε α) s = (.ok a, s) := rfl

theorem bind_ok_run {x : Transaction δ ε α} {f : α → Transaction δ ε β} {a : α}
    (h : x s = (.ok a, t)) : (x >>= f) s = f a t := by
  show (match x s with | (.ok a, t) => f a t | (.error e, t) => (.error e, t)) = _
  rw [h]

theorem bind_error_run {x : Transaction δ ε α} {f : α → Transaction δ ε β} {e : Raised ε}
    (h : x s = (.error e, t)) : (x >>= f) s = (.error e, t) := by
  show (match x s with | (.ok a, t) => f a t | (.error e, t) => (.error e, t)) = _
  rw [h]

theorem lift_ok_run {x : Except ε α} {a : α} (h : x = .ok a) :
    (lift x : Transaction δ ε α) s = (.ok a, s) := by
  rw [h]
  rfl

theorem lift_error_run {x : Except ε α} {e : ε} (h : x = .error e) :
    (lift x : Transaction δ ε α) s = (.error (.app e), s) := by
  rw [h]
  rfl

theorem attempt_run {body : Transaction δ ε α} {result : Except (Raised ε) α}
    (h : body s = (result, t)) : attempt body s = (.ok result, t) := by
  rw [attempt, h]

/-! ## Statements -/

theorem flush_ok_run {write : δ → Except String δ} {d : δ} (hopen : s.failed = false)
    (h : write s.working = .ok d) :
    (flush write : Transaction δ ε Unit) s = (.ok (), { s with working := d }) := by
  simp [flush, hopen, h]

theorem flush_rejected_run {write : δ → Except String δ} {message : String}
    (hopen : s.failed = false) (h : write s.working = .error message) :
    (flush write : Transaction δ ε Unit) s =
      (.error (.rejected message), { s with working := s.committed, failed := true }) := by
  simp [flush, hopen, h]

/-- A failed session refuses every statement. -/
theorem flush_failed_run {write : δ → Except String δ} (hfailed : s.failed = true) :
    (flush write : Transaction δ ε Unit) s = (.error .pendingRollback, s) := by
  simp [flush, hfailed]

theorem nested_ok_run {body : Transaction δ ε α} {a : α} (hopen : s.failed = false)
    (h : body s = (.ok a, t)) : nested body s = (.ok a, t) := by
  simp [nested, hopen, h]

/-- A savepoint whose body raises leaves the transaction as it found it. -/
theorem nested_error_run {body : Transaction δ ε α} {e : Raised ε} (hopen : s.failed = false)
    (h : body s = (.error e, t)) (hcommitted : t.committed = s.committed) :
    nested body s = (.error e, s) := by
  simp only [nested, hopen, Bool.false_eq_true, if_false, h, hcommitted]
  rw [← hopen]

/-! ## What a transaction that returns has done -/

theorem bind_returns {x : Transaction δ ε α} {f : α → Transaction δ ε β} {b : β} :
    (x >>= f) s = (.ok b, u) ↔ ∃ a t, x s = (.ok a, t) ∧ f a t = (.ok b, u) := by
  show (match x s with | (.ok a, t) => f a t | (.error e, t) => (.error e, t)) = _ ↔ _
  obtain ⟨result, t⟩ := x s
  cases result with
  | ok a =>
    constructor
    · intro h
      exact ⟨a, t, rfl, h⟩
    · intro ⟨a', t', hx, h⟩
      cases hx
      exact h
  | error e => simp

theorem pure_returns {a b : α} : (pure a : Transaction δ ε α) s = (.ok b, t) ↔ a = b ∧ s = t := by
  rw [pure_run, Prod.mk.injEq, Except.ok.injEq]

theorem lift_returns {x : Except ε α} {a : α} :
    (lift x : Transaction δ ε α) s = (.ok a, t) ↔ x = .ok a ∧ s = t := by
  cases x with
  | ok b => simp [lift, pure_run]
  | error e => simp [lift, raise]

theorem read_returns {f : δ → Except ε α} {a : α} :
    read f s = (.ok a, t) ↔ s.failed = false ∧ f s.working = .ok a ∧ s = t := by
  cases hfailed : s.failed with
  | true => simp [read, hfailed]
  | false => cases hf : f s.working <;> simp [read, hfailed, hf]

theorem flush_returns {write : δ → Except String δ} {a : Unit} :
    (flush write : Transaction δ ε Unit) s = (.ok a, t) ↔
      s.failed = false ∧ ∃ d, write s.working = .ok d ∧ { s with working := d } = t := by
  cases hfailed : s.failed with
  | true => simp [flush, hfailed]
  | false => cases hwrite : write s.working <;> simp [flush, hfailed, hwrite]

theorem nested_returns {body : Transaction δ ε α} {a : α} :
    nested body s = (.ok a, t) ↔ s.failed = false ∧ body s = (.ok a, t) := by
  cases hfailed : s.failed with
  | true => simp [nested, hfailed]
  | false =>
    rcases hbody : body s with ⟨result, u⟩
    cases result <;> simp [nested, hfailed, hbody]

/-! ## Nothing is committed on the way -/

def Uncommitted (body : Transaction δ ε α) : Prop := ∀ s, (body s).2.committed = s.committed

theorem Uncommitted.pure (a : α) : Uncommitted (pure a : Transaction δ ε α) := fun _ => rfl

theorem Uncommitted.bind {x : Transaction δ ε α} {f : α → Transaction δ ε β} (hx : Uncommitted x)
    (hf : ∀ a, Uncommitted (f a)) : Uncommitted (x >>= f) := by
  intro s
  show (match x s with | (.ok a, t) => f a t | (.error e, t) => (.error e, t)).2.committed = _
  have hcommitted := hx s
  rcases hrun : x s with ⟨result, t⟩
  rw [hrun] at hcommitted
  cases result with
  | ok a => exact (hf a t).trans hcommitted
  | error e => exact hcommitted

theorem Uncommitted.lift (x : Except ε α) : Uncommitted (lift x : Transaction δ ε α) := by
  intro s
  cases x with
  | ok a => rfl
  | error e => rfl

theorem Uncommitted.read (f : δ → Except ε α) : Uncommitted (read f) := by
  intro s
  unfold Transaction.read
  split_ifs
  · rfl
  · cases f s.working with
    | ok a => rfl
    | error e => rfl

theorem Uncommitted.flush (write : δ → Except String δ) :
    Uncommitted (flush write : Transaction δ ε Unit) := by
  intro s
  unfold Transaction.flush
  split_ifs
  · rfl
  · cases write s.working with
    | ok d => rfl
    | error message => rfl

theorem Uncommitted.nested {body : Transaction δ ε α} (h : Uncommitted body) :
    Uncommitted (nested body) := by
  intro s
  unfold Transaction.nested
  split_ifs
  · rfl
  · have hcommitted := h s
    rcases hrun : body s with ⟨result, t⟩
    rw [hrun] at hcommitted
    cases result with
    | ok a => exact hcommitted
    | error e => exact hcommitted

/-! ## What a transaction raises -/

def OnlyRaises (P : Raised ε → Prop) (body : Transaction δ ε α) : Prop :=
  ∀ s e t, body s = (.error e, t) → P e

namespace OnlyRaises

variable {P : Raised ε → Prop}

theorem bind {x : Transaction δ ε α} {f : α → Transaction δ ε β} (hx : OnlyRaises P x)
    (hf : ∀ a, OnlyRaises P (f a)) : OnlyRaises P (x >>= f) := by
  intro s e u h
  rcases hrun : x s with ⟨result, t⟩
  cases result with
  | ok a =>
    rw [bind_ok_run hrun] at h
    exact hf a t e u h
  | error e' =>
    rw [bind_error_run hrun] at h
    obtain ⟨he, -⟩ := Prod.mk.inj h
    rw [← Except.error.inj he]
    exact hx s e' t hrun

theorem lift {x : Except ε α} (h : ∀ e, x = .error e → P (.app e)) :
    OnlyRaises P (lift x : Transaction δ ε α) := by
  intro s e t hrun
  cases x with
  | ok a => cases (Prod.mk.inj hrun).1
  | error e' =>
    obtain ⟨he, -⟩ := Prod.mk.inj hrun
    rw [← Except.error.inj he]
    exact h e' rfl

theorem flush {write : δ → Except String δ} (hrejected : ∀ message, P (.rejected message))
    (hpending : P .pendingRollback) : OnlyRaises P (flush write : Transaction δ ε Unit) := by
  intro s e t hrun
  unfold Transaction.flush at hrun
  split_ifs at hrun
  · rw [← Except.error.inj (Prod.mk.inj hrun).1]
    exact hpending
  · cases hwrite : write s.working with
    | ok d =>
      rw [hwrite] at hrun
      cases (Prod.mk.inj hrun).1
    | error message =>
      rw [hwrite] at hrun
      rw [← Except.error.inj (Prod.mk.inj hrun).1]
      exact hrejected message

theorem nested {body : Transaction δ ε α} (h : OnlyRaises P body) (hpending : P .pendingRollback) :
    OnlyRaises P (nested body) := by
  intro s e t hrun
  unfold Transaction.nested at hrun
  split_ifs at hrun
  · rw [← Except.error.inj (Prod.mk.inj hrun).1]
    exact hpending
  · rcases hbody : body s with ⟨result, u⟩
    rw [hbody] at hrun
    cases result with
    | ok a => cases (Prod.mk.inj hrun).1
    | error e' =>
      rw [← Except.error.inj (Prod.mk.inj hrun).1]
      exact h s e' u hbody

end OnlyRaises

/-! ## Whole requests -/

/-- A request that raises leaves the database as it was. -/
theorem Uncommitted.request_error {body : Transaction δ ε α} (h : Uncommitted body) {d d' : δ}
    {e : Raised ε} (hrun : request body d = (.error e, d')) : d' = d := by
  have hcommitted := h (Session.begin d)
  unfold request at hrun
  rcases hbody : body (Session.begin d) with ⟨result, t⟩
  rw [hbody] at hrun hcommitted
  change t.committed = d at hcommitted
  cases result with
  | ok a =>
    simp only at hrun
    split_ifs at hrun
    · rw [← hcommitted, (Prod.mk.inj hrun).2]
    · cases (Prod.mk.inj hrun).1
  | error e => rw [← hcommitted, (Prod.mk.inj hrun).2]

/-- A request that raises leaves no trace. -/
theorem request_error {body : Transaction δ ε α} {d : δ} {e : Raised ε}
    (h : body (Session.begin d) = (.error e, t)) (hcommitted : t.committed = d) :
    request body d = (.error e, d) := by
  simp only [request, h, hcommitted]

theorem request_ok {body : Transaction δ ε α} {d : δ} {a : α}
    (h : body (Session.begin d) = (.ok a, t)) (hopen : t.failed = false) :
    request body d = (.ok a, t.working) := by
  simp [request, h, hopen]

theorem request_returns {body : Transaction δ ε α} {d d' : δ} {a : α} :
    request body d = (.ok a, d') ↔
      ∃ t, body (Session.begin d) = (.ok a, t) ∧ t.failed = false ∧ t.working = d' := by
  constructor
  · intro h
    unfold request at h
    rcases hbody : body (Session.begin d) with ⟨result, t⟩
    rw [hbody] at h
    cases result with
    | error e => cases (Prod.mk.inj h).1
    | ok b =>
      simp only at h
      split_ifs at h with hfailed
      · cases (Prod.mk.inj h).1
      · obtain ⟨hb, hworking⟩ := Prod.mk.inj h
        exact ⟨t, by rw [Except.ok.inj hb], Bool.not_eq_true _ ▸ hfailed, hworking⟩
  · intro ⟨t, hbody, hfailed, hworking⟩
    rw [request_ok hbody hfailed, hworking]

end Transaction

end Screener.Lib
