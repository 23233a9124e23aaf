import Screener.Lib.Program

/-!
# Units of work

A session works in a transaction that its first statement begins, also where
that statement fails. A commit makes the writes visible to others and keeps what
is loaded; a rollback drops them and expires every loaded object. Where no
transaction is open neither of them does anything.
-/

namespace Screener.Lib

structure UnitOfWork (δ : Type) where
  committed : δ
  working : δ
  begun : Bool
  expired : Bool

abbrev Work (δ ε : Type) := EStateM ε (UnitOfWork δ)

def UnitOfWork.start {δ : Type} (d : δ) : UnitOfWork δ := ⟨d, d, false, false⟩

namespace Work

variable {δ ε α : Type}

/-- A statement that reads; it raises where there is a fault. -/
def query (fault : Option ε) (f : δ → α) : Work δ ε α := fun s =>
  match fault with
  | some e => .error e { s with begun := true }
  | none => .ok (f s.working) { s with begun := true }

/-- A statement that writes. -/
def write (fault : Option ε) (f : δ → δ) : Work δ ε Unit := fun s =>
  match fault with
  | some e => .error e { s with begun := true }
  | none => .ok () { s with working := f s.working, begun := true }

/-- A commit that fails leaves its transaction open. -/
def commit (fault : Option ε) : Work δ ε Unit := fun s =>
  if s.begun then match fault with
    | some e => .error e s
    | none => .ok () { s with committed := s.working, begun := false }
  else .ok () s

def rollback : Work δ ε Unit := fun s =>
  if s.begun then .ok () { s with working := s.committed, begun := false, expired := true }
  else .ok () s

/-- Read an attribute of an object loaded before; `unavailable` is raised where
it has expired. -/
def loaded (unavailable : ε) (a : α) : Work δ ε α := fun s =>
  if s.expired then .error unavailable s else .ok a s

/-! ## Runs -/

variable {s t : UnitOfWork δ} {fault : Option ε} {e : ε}

theorem run_query_ok {f : δ → α} {a : α} :
    (query fault f).run s = .ok a t ↔
      fault = none ∧ f s.working = a ∧ { s with begun := true } = t := by
  cases fault with
  | none => simp [query, EStateM.run]
  | some e => simp [query, EStateM.run]

theorem run_query_error {f : δ → α} :
    (query fault f).run s = .error e t ↔ fault = some e ∧ { s with begun := true } = t := by
  cases fault with
  | none => simp [query, EStateM.run]
  | some e => simp [query, EStateM.run]

theorem run_write_ok {f : δ → δ} {a : Unit} :
    (write fault f).run s = .ok a t ↔
      fault = none ∧ { s with working := f s.working, begun := true } = t := by
  cases fault with
  | none => simp [write, EStateM.run]
  | some e => simp [write, EStateM.run]

theorem run_write_error {f : δ → δ} :
    (write fault f).run s = .error e t ↔ fault = some e ∧ { s with begun := true } = t := by
  cases fault with
  | none => simp [write, EStateM.run]
  | some e => simp [write, EStateM.run]

theorem run_commit_none :
    (commit none : Work δ ε Unit).run s =
      .ok () (if s.begun then { s with committed := s.working, begun := false } else s) := by
  by_cases h : s.begun = true
  · simp [commit, EStateM.run, h]
  · simp [commit, EStateM.run, h]

theorem run_commit_ok {a : Unit} (h : (commit fault).run s = .ok a t) :
    t = if s.begun then { s with committed := s.working, begun := false } else s := by
  simp only [commit, EStateM.run] at h
  split_ifs at h with hbegun
  · cases fault with
    | none =>
      cases h
      rw [if_pos hbegun]
    | some e => cases h
  · cases h
    rw [if_neg hbegun]

theorem run_commit_error (h : (commit fault).run s = .error e t) : s.begun = true ∧ t = s := by
  simp only [commit, EStateM.run] at h
  split_ifs at h with hbegun
  cases fault with
  | none => cases h
  | some e =>
    cases h
    exact ⟨hbegun, rfl⟩

/-! ## What a part of the store keeps -/

/-- The part of the store that `part` sees is `value`, for others and for the
session; without a transaction the session sees what others see. -/
structure Steady {γ : Type} (part : δ → γ) (value : γ) (s : UnitOfWork δ) : Prop where
  committed : part s.committed = value
  working : part s.working = value
  idle : s.begun = false → s.working = s.committed
  fresh : s.expired = false

variable {γ : Type} {part : δ → γ} {value : γ}

theorem steady_start {d : δ} (h : part d = value) : Steady part value (UnitOfWork.start d) :=
  ⟨h, h, fun _ => rfl, rfl⟩

theorem Steady.snd {γ' : Type} {part' : δ → γ'} {value' : γ'}
    (h : Steady (fun d => (part d, part' d)) (value, value') s) : Steady part' value' s :=
  ⟨congrArg Prod.snd h.committed, congrArg Prod.snd h.working, h.idle, h.fresh⟩

theorem query_steady (f : δ → α) :
    Triple (Steady part value) (query fault f) (fun _ => Steady part value)
      (fun _ => Steady part value) := by
  intro s hs
  have hopen : Steady part value { s with begun := true } :=
    ⟨hs.committed, hs.working, fun h => absurd h Bool.true_eq_false.mp, hs.fresh⟩
  cases fault with
  | none => exact hopen
  | some e => exact hopen

theorem commit_steady :
    Triple (Steady part value) (commit fault) (fun _ => Steady part value)
      (fun _ => Steady part value) := by
  intro s hs
  cases hrun : (commit fault).run s with
  | ok a t =>
    rw [run_commit_ok hrun]
    split_ifs with hbegun
    · exact ⟨hs.working, hs.working, fun _ => rfl, hs.fresh⟩
    · exact hs
  | error e t =>
    rw [(run_commit_error hrun).2]
    exact hs

end Work

end Screener.Lib
