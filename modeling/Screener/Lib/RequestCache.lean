import Mathlib.Data.List.Nodup
import Mathlib.Logic.Function.Basic
import Screener.Lib.Machine

/-!
# A cache of requests

Results are kept by their key, and so are the requests under way, so that all who ask for a
key while it is fetched wait for one request. An answer that is refused counts as a failure,
and a request is forgotten once it has ended. Fetches are asked, answered and forgotten in any
order; the cache may be cleared at any time.
-/

namespace Screener.Lib

variable {κ ρ φ : Type*}

/-- A request for a key, with what became of it once it is answered. -/
structure Fetch (κ ρ φ : Type*) where
  id : Nat
  key : κ
  outcome : Option (Except φ ρ) := none

/-- `landed` are the requests that ended since the last clearing, `received` the outcomes of all
that were ever answered. -/
structure RequestCache (κ ρ φ : Type*) where
  results : κ → Option ρ := fun _ => none
  requests : κ → Option Nat := fun _ => none
  started : Nat := 0
  flying : List (Fetch κ ρ φ) := []
  landed : List (Fetch κ ρ φ) := []
  received : List (κ × Except φ ρ) := []

inductive CacheEvent (κ ρ φ : Type*) where
  | load (key : κ)
  | answer (id : Nat) (body : Except φ ρ)
  | finish (id : Nat)
  | clear

/-- What a cache accepts, and how it fails where it refuses an answer. -/
structure Acceptance (ρ φ : Type*) where
  valid : ρ → Bool
  refused : φ

namespace Acceptance

variable (A : Acceptance ρ φ)

def settle : Except φ ρ → Except φ ρ
  | .ok value => if A.valid value then .ok value else .error A.refused
  | .error failure => .error failure

theorem valid_of_settle {body : Except φ ρ} {value : ρ} (h : A.settle body = .ok value) :
    A.valid value = true := by
  cases body with
  | error failure => cases h
  | ok v =>
    by_cases hv : A.valid v = true
    · rw [settle, if_pos hv] at h
      exact Except.ok.inj h ▸ hv
    · rw [settle, if_neg hv] at h
      cases h

end Acceptance

namespace RequestCache

variable [DecidableEq κ]

/-- A new request. -/
def opened (key : κ) (s : RequestCache κ ρ φ) : RequestCache κ ρ φ :=
  { s with
    requests := Function.update s.requests key (some s.started)
    started := s.started + 1
    flying := s.flying ++ [⟨s.started, key, none⟩] }

/-- The request to wait for, if the result is not there. -/
def load (key : κ) (s : RequestCache κ ρ φ) : RequestCache κ ρ φ × Option Nat :=
  if (s.results key).isSome then (s, none)
  else match s.requests key with
    | some id => (s, some id)
    | none => (s.opened key, some s.started)

/-- An accepted answer becomes the result of its key. -/
def settled (fetch : Fetch κ ρ φ) (outcome : Except φ ρ) (s : RequestCache κ ρ φ) :
    RequestCache κ ρ φ :=
  { s with
    results := match outcome with
      | .ok value => Function.update s.results fetch.key (some value)
      | .error _ => s.results
    flying := s.flying.map fun other =>
      if other.id = fetch.id then { other with outcome := some outcome } else other
    received := s.received ++ [(fetch.key, outcome)] }

/-- The end of a request removes whatever request its key has. -/
def finished (fetch : Fetch κ ρ φ) (s : RequestCache κ ρ φ) : RequestCache κ ρ φ :=
  { s with
    requests := Function.update s.requests fetch.key none
    flying := s.flying.filter (·.id ≠ fetch.id)
    landed := s.landed ++ [fetch] }

def cleared (s : RequestCache κ ρ φ) : RequestCache κ ρ φ :=
  { s with results := fun _ => none, requests := fun _ => none, landed := [] }

def next (A : Acceptance ρ φ) (s : RequestCache κ ρ φ) :
    CacheEvent κ ρ φ → Option (RequestCache κ ρ φ)
  | .load key => some (s.load key).1
  | .answer id body =>
    (s.flying.find? fun fetch => fetch.id = id && fetch.outcome.isNone).map fun fetch =>
      s.settled fetch (A.settle body)
  | .finish id =>
    (s.flying.find? fun fetch => fetch.id = id && fetch.outcome.isSome).map s.finished
  | .clear => some s.cleared

def machine (A : Acceptance ρ φ) : Machine (RequestCache κ ρ φ) (CacheEvent κ ρ φ) where
  init s := s = {}
  step s event t := s.next A event = some t

variable {A : Acceptance ρ φ} {s t : RequestCache κ ρ φ}

/-- What an event can do. -/
theorem next_cases {event : CacheEvent κ ρ φ} (h : s.next A event = some t) :
    (∃ key, event = .load key ∧ t = (s.load key).1) ∨
    (∃ fetch ∈ s.flying, ∃ body, event = .answer fetch.id body ∧ fetch.outcome = none ∧
      t = s.settled fetch (A.settle body)) ∨
    (∃ fetch ∈ s.flying, ∃ outcome, event = .finish fetch.id ∧ fetch.outcome = some outcome ∧
      t = s.finished fetch) ∨
    (event = .clear ∧ t = s.cleared) := by
  cases event with
  | load key => exact .inl ⟨key, rfl, (Option.some.inj h).symm⟩
  | answer id body =>
    obtain ⟨fetch, hfind, rfl⟩ := Option.map_eq_some_iff.mp h
    have hmatch := List.find?_some hfind
    rw [Bool.and_eq_true, decide_eq_true_eq, Option.isNone_iff_eq_none] at hmatch
    exact .inr (.inl ⟨fetch, List.mem_of_find?_eq_some hfind, body, by rw [hmatch.1], hmatch.2,
      rfl⟩)
  | finish id =>
    obtain ⟨fetch, hfind, rfl⟩ := Option.map_eq_some_iff.mp h
    have hmatch := List.find?_some hfind
    rw [Bool.and_eq_true, decide_eq_true_eq, Option.isSome_iff_exists] at hmatch
    obtain ⟨rfl, outcome, houtcome⟩ := hmatch
    exact .inr (.inr (.inl ⟨fetch, List.mem_of_find?_eq_some hfind, outcome, rfl, houtcome, rfl⟩))
  | clear => exact .inr (.inr (.inr ⟨rfl, (Option.some.inj h).symm⟩))

/-- What `load` can do. -/
theorem load_cases (key : κ) (s : RequestCache κ ρ φ) :
    (∃ value, s.results key = some value ∧ s.load key = (s, none)) ∨
    (∃ id, s.results key = none ∧ s.requests key = some id ∧ s.load key = (s, some id)) ∨
    (s.results key = none ∧ s.requests key = none ∧
      s.load key = (s.opened key, some s.started)) := by
  unfold load
  cases hresult : s.results key with
  | some value => exact .inl ⟨value, rfl, rfl⟩
  | none =>
    cases hrequest : s.requests key with
    | some id => exact .inr (.inl ⟨id, rfl, rfl, rfl⟩)
    | none => exact .inr (.inr ⟨rfl, rfl, rfl⟩)

end RequestCache

namespace RequestCache

/-! ## Every run -/

/-- What holds of the cache however it is used: no key has a request that has ended, and every
result was accepted for its key. -/
structure Kept (A : Acceptance ρ φ) (s : RequestCache κ ρ φ) : Prop where
  below : ∀ fetch ∈ s.flying ++ s.landed, fetch.id < s.started
  nodup : ((s.flying ++ s.landed).map Fetch.id).Nodup
  ended : ∀ fetch ∈ s.landed, fetch.outcome ≠ none
  registered : ∀ key id, s.requests key = some id →
    ∃ fetch ∈ s.flying, fetch.id = id ∧ fetch.key = key
  cached : ∀ key value, s.results key = some value → (key, .ok value) ∈ s.received
  answered : ∀ fetch ∈ s.flying, ∀ outcome, fetch.outcome = some outcome →
    (fetch.key, outcome) ∈ s.received
  valid : ∀ key value, (key, .ok value) ∈ s.received → A.valid value = true

section Kept

variable {A : Acceptance ρ φ} {s : RequestCache κ ρ φ}

theorem kept_start : Kept A ({} : RequestCache κ ρ φ) where
  below := by simp
  nodup := by simp
  ended := by simp
  registered := by simp
  cached := by simp
  answered := by simp
  valid := by simp

theorem Kept.flying_nodup (h : Kept A s) : (s.flying.map Fetch.id).Nodup := by
  have hnodup := h.nodup
  rw [List.map_append] at hnodup
  exact (List.nodup_append.mp hnodup).1

theorem Kept.eq_of_id (h : Kept A s) {a b : Fetch κ ρ φ} (ha : a ∈ s.flying ++ s.landed)
    (hb : b ∈ s.flying ++ s.landed) (hid : a.id = b.id) : a = b :=
  List.inj_on_of_nodup_map h.nodup ha hb hid

theorem Kept.cleared (h : Kept A s) : Kept A s.cleared where
  below := fun fetch hfetch =>
    h.below fetch (List.mem_append_left _ ((List.append_nil s.flying) ▸ hfetch))
  nodup := by
    rw [RequestCache.cleared, List.append_nil]
    exact h.flying_nodup
  ended := fun _ hfetch => absurd hfetch List.not_mem_nil
  registered := fun _ _ hid => nomatch hid
  cached := fun _ _ hvalue => nomatch hvalue
  answered := h.answered
  valid := h.valid

end Kept

section Coalesced

variable {s : RequestCache κ ρ φ}

/-- No clearing while a request is under way. -/
def ClearsIdle (s : RequestCache κ ρ φ) (event : CacheEvent κ ρ φ) : Prop :=
  event = .clear → s.flying = []

/-- Until the next clearing each key is fetched again only after its request has failed. -/
structure Coalesced (s : RequestCache κ ρ φ) : Prop where
  current : ∀ fetch ∈ s.flying, s.requests fetch.key = some fetch.id
  stored : ∀ fetch ∈ s.flying ++ s.landed, ∀ value, fetch.outcome = some (.ok value) →
    s.results fetch.key = some value
  ordered : ∀ first ∈ s.flying ++ s.landed, ∀ second ∈ s.flying ++ s.landed,
    first.key = second.key → first.id < second.id →
      first ∈ s.landed ∧ ∃ failure, first.outcome = some (.error failure)

theorem Coalesced.cleared (hidle : s.flying = []) : Coalesced s.cleared where
  current := by simp [RequestCache.cleared, hidle]
  stored := by simp [RequestCache.cleared, hidle]
  ordered := by simp [RequestCache.cleared, hidle]

end Coalesced

section Steps

variable [DecidableEq κ] {A : Acceptance ρ φ} {s : RequestCache κ ρ φ} {fetch : Fetch κ ρ φ}

theorem flying_settled (fetch : Fetch κ ρ φ) (outcome : Except φ ρ) (s : RequestCache κ ρ φ) :
    (s.settled fetch outcome).flying = s.flying.map fun other =>
      if other.id = fetch.id then { other with outcome := some outcome } else other := rfl

theorem settled_ids (fetch : Fetch κ ρ φ) (outcome : Except φ ρ) (s : RequestCache κ ρ φ) :
    (s.settled fetch outcome).flying.map Fetch.id = s.flying.map Fetch.id := by
  rw [flying_settled, List.map_map]
  refine List.map_congr_left fun other _ => ?_
  by_cases hid : other.id = fetch.id
  · simp [hid]
  · simp [hid]

/-- A request that is under way after an answer was so before, or is the one answered. -/
theorem Kept.mem_settled (h : Kept A s) (hfetch : fetch ∈ s.flying)
    {outcome : Except φ ρ} {other : Fetch κ ρ φ} :
    other ∈ (s.settled fetch outcome).flying ↔
      (other ∈ s.flying ∧ other.id ≠ fetch.id) ∨
        other = { fetch with outcome := some outcome } := by
  rw [flying_settled, List.mem_map]
  constructor
  · rintro ⟨before, hbefore, rfl⟩
    by_cases hid : before.id = fetch.id
    · rw [if_pos hid, h.eq_of_id (List.mem_append_left _ hbefore) (List.mem_append_left _ hfetch)
        hid]
      exact .inr rfl
    · rw [if_neg hid]
      exact .inl ⟨hbefore, hid⟩
  · rintro (⟨hother, hid⟩ | rfl)
    · exact ⟨other, hother, if_neg hid⟩
    · exact ⟨fetch, hfetch, if_pos rfl⟩

theorem Kept.opened (h : Kept A s) (key : κ) : Kept A (s.opened key) := by
  have hperm : ((s.opened key).flying ++ s.landed).Perm
      (⟨s.started, key, none⟩ :: (s.flying ++ s.landed)) := by
    rw [RequestCache.opened, List.append_assoc, List.singleton_append]
    exact List.perm_middle
  constructor
  case below =>
    intro fetch hfetch
    rcases List.mem_cons.mp (hperm.mem_iff.mp hfetch) with rfl | hold
    · exact Nat.lt_succ_self _
    · exact Nat.lt_succ_of_lt (h.below fetch hold)
  case nodup =>
    refine ((hperm.map Fetch.id).nodup_iff).mpr (List.nodup_cons.mpr ⟨fun hin => ?_, h.nodup⟩)
    obtain ⟨fetch, hfetch, hid⟩ := List.mem_map.mp hin
    exact Nat.ne_of_lt (h.below fetch hfetch) hid
  case ended => exact h.ended
  case registered =>
    intro key' id hid
    change Function.update s.requests key (some s.started) key' = some id at hid
    by_cases hkey : key' = key
    · subst hkey
      rw [Function.update_self, Option.some.injEq] at hid
      exact ⟨_, List.mem_append_right _ (List.mem_singleton_self _), hid, rfl⟩
    · rw [Function.update_of_ne hkey] at hid
      obtain ⟨fetch, hfetch, hboth⟩ := h.registered key' id hid
      exact ⟨fetch, List.mem_append_left _ hfetch, hboth⟩
  case cached => exact h.cached
  case answered =>
    intro fetch hfetch value hvalue
    rcases List.mem_append.mp hfetch with hold | hnew
    · exact h.answered fetch hold value hvalue
    · rw [List.mem_singleton.mp hnew] at hvalue
      cases hvalue
  case valid => exact h.valid

/-- The request that `load` waits for is under way; without one the result is there. -/
theorem Kept.load_promise (h : Kept A s) (key : κ) :
    (∃ value, s.results key = some value ∧ (s.load key).2 = none) ∨
    ∃ id, s.results key = none ∧ (s.load key).2 = some id ∧
      ∃ fetch ∈ (s.load key).1.flying, fetch.id = id ∧ fetch.key = key := by
  obtain ⟨value, hvalue, hload⟩ | ⟨id, hresult, hrequest, hload⟩ | ⟨hresult, -, hload⟩ :=
    load_cases key s
  · exact .inl ⟨value, hvalue, by rw [hload]⟩
  · exact .inr ⟨id, hresult, by rw [hload], by rw [hload]; exact h.registered key id hrequest⟩
  · refine .inr ⟨s.started, hresult, by rw [hload], ⟨s.started, key, none⟩, ?_, rfl, rfl⟩
    rw [hload]
    exact List.mem_append_right _ (List.mem_singleton_self _)

theorem Kept.load (h : Kept A s) (key : κ) : Kept A (s.load key).1 := by
  obtain ⟨value, -, hload⟩ | ⟨id, -, -, hload⟩ | ⟨-, -, hload⟩ := load_cases key s
  · rw [hload]
    exact h
  · rw [hload]
    exact h
  · rw [hload]
    exact h.opened key

theorem Kept.settled (h : Kept A s) (hfetch : fetch ∈ s.flying)
    (body : Except φ ρ) : Kept A (s.settled fetch (A.settle body)) := by
  have hids : ((s.settled fetch (A.settle body)).flying ++
      (s.settled fetch (A.settle body)).landed).map
      Fetch.id = (s.flying ++ s.landed).map Fetch.id := by
    rw [List.map_append, settled_ids, List.map_append]
    rfl
  constructor
  case below =>
    intro other hother
    have hin : other.id ∈ (s.flying ++ s.landed).map Fetch.id := hids ▸ List.mem_map_of_mem hother
    obtain ⟨before, hbefore, hid⟩ := List.mem_map.mp hin
    exact hid ▸ h.below before hbefore
  case nodup =>
    rw [hids]
    exact h.nodup
  case ended => exact h.ended
  case registered =>
    intro key id hid
    obtain ⟨other, hother, rfl, rfl⟩ := h.registered key id hid
    by_cases hsame : other.id = fetch.id
    · have heq := h.eq_of_id (List.mem_append_left _ hother) (List.mem_append_left _ hfetch) hsame
      exact ⟨_, (h.mem_settled hfetch).mpr (.inr rfl), hsame.symm, by rw [heq]⟩
    · exact ⟨other, (h.mem_settled hfetch).mpr (.inl ⟨hother, hsame⟩), rfl, rfl⟩
  case cached =>
    intro key value hvalue
    cases hsettle : A.settle body with
    | error failure =>
      rw [hsettle] at hvalue
      exact List.mem_append_left _ (h.cached key value hvalue)
    | ok accepted =>
      rw [hsettle] at hvalue
      change Function.update s.results fetch.key (some accepted) key = some value at hvalue
      by_cases hkey : key = fetch.key
      · subst hkey
        rw [Function.update_self, Option.some.injEq] at hvalue
        rw [hvalue]
        exact List.mem_append_right _ (List.mem_singleton_self _)
      · rw [Function.update_of_ne hkey] at hvalue
        exact List.mem_append_left _ (h.cached key value hvalue)
  case answered =>
    intro other hother outcome houtcome
    rcases (h.mem_settled hfetch).mp hother with ⟨hold, -⟩ | rfl
    · exact List.mem_append_left _ (h.answered other hold outcome houtcome)
    · rw [← Option.some.inj houtcome]
      exact List.mem_append_right _ (List.mem_singleton_self _)
  case valid =>
    intro key value hin
    rcases List.mem_append.mp hin with hold | hnew
    · exact h.valid key value hold
    · have hsettle := congrArg Prod.snd (List.mem_singleton.mp hnew)
      exact A.valid_of_settle hsettle.symm

theorem Kept.finished (h : Kept A s) (hfetch : fetch ∈ s.flying) (hended : fetch.outcome ≠ none) :
    Kept A (s.finished fetch) := by
  have hperm : ((s.finished fetch).flying ++ (s.finished fetch).landed).Perm
      (fetch :: (s.flying.filter (·.id ≠ fetch.id) ++ s.landed)) := by
    rw [RequestCache.finished, ← List.append_assoc]
    exact List.perm_append_singleton _ _
  have hless : ∀ other ∈ s.flying.filter (·.id ≠ fetch.id) ++ s.landed,
      other ∈ s.flying ++ s.landed ∧ other.id ≠ fetch.id := by
    intro other hother
    rcases List.mem_append.mp hother with hfly | hland
    · obtain ⟨hmem, hne⟩ := List.mem_filter.mp hfly
      exact ⟨List.mem_append_left _ hmem, of_decide_eq_true hne⟩
    · refine ⟨List.mem_append_right _ hland, fun hid => ?_⟩
      have hnodup := h.nodup
      rw [List.map_append] at hnodup
      exact (List.nodup_append.mp hnodup).2.2 _ (List.mem_map_of_mem hfetch) _
        (List.mem_map_of_mem hland) hid.symm
  constructor
  case below =>
    intro other hother
    rcases List.mem_cons.mp (hperm.mem_iff.mp hother) with rfl | hold
    · exact h.below _ (List.mem_append_left _ hfetch)
    · exact h.below other (hless other hold).1
  case nodup =>
    refine ((hperm.map Fetch.id).nodup_iff).mpr (List.nodup_cons.mpr ⟨fun hin => ?_, ?_⟩)
    · obtain ⟨other, hother, hid⟩ := List.mem_map.mp hin
      exact (hless other hother).2 hid
    · exact h.nodup.sublist ((List.filter_sublist.append_right _).map Fetch.id)
  case ended => exact List.forall_mem_append.mpr ⟨h.ended, List.forall_mem_singleton.mpr hended⟩
  case registered =>
    intro key id hid
    change Function.update s.requests fetch.key none key = some id at hid
    by_cases hkey : key = fetch.key
    · subst hkey
      rw [Function.update_self] at hid
      cases hid
    · rw [Function.update_of_ne hkey] at hid
      obtain ⟨other, hother, rfl, rfl⟩ := h.registered key id hid
      refine ⟨other, List.mem_filter.mpr ⟨hother, decide_eq_true fun hsame => hkey ?_⟩, rfl, rfl⟩
      rw [h.eq_of_id (List.mem_append_left _ hother) (List.mem_append_left _ hfetch) hsame]
  case cached => exact h.cached
  case answered => exact fun other hother => h.answered other (List.mem_of_mem_filter hother)
  case valid => exact h.valid

/-- Only its end takes a request away, and no outcome is forgotten. -/
theorem Kept.next_keeps (h : Kept A s) {event : CacheEvent κ ρ φ} {t : RequestCache κ ρ φ}
    (hnext : s.next A event = some t) : s.received ⊆ t.received ∧
      ∀ fetch ∈ s.flying, event ≠ .finish fetch.id →
        ∃ later ∈ t.flying, later.id = fetch.id ∧ later.key = fetch.key := by
  obtain ⟨key, -, rfl⟩ | ⟨answered, hanswered, body, -, -, rfl⟩ |
    ⟨ended, hended, outcome, hevent, -, rfl⟩ | ⟨-, rfl⟩ := next_cases hnext
  · obtain ⟨value, -, hload⟩ | ⟨id, -, -, hload⟩ | ⟨-, -, hload⟩ := load_cases key s
    · rw [hload]
      exact ⟨fun _ => id, fun fetch hfetch _ => ⟨fetch, hfetch, rfl, rfl⟩⟩
    · rw [hload]
      exact ⟨fun _ => fun h => h, fun fetch hfetch _ => ⟨fetch, hfetch, rfl, rfl⟩⟩
    · rw [hload]
      exact ⟨fun _ => id, fun fetch hfetch _ => ⟨fetch, List.mem_append_left _ hfetch, rfl, rfl⟩⟩
  · refine ⟨fun _ => List.mem_append_left _, fun fetch hfetch _ => ?_⟩
    by_cases hid : fetch.id = answered.id
    · have heq := h.eq_of_id (List.mem_append_left _ hfetch) (List.mem_append_left _ hanswered) hid
      exact ⟨_, (h.mem_settled hanswered).mpr (.inr rfl), hid.symm, by rw [heq]⟩
    · exact ⟨fetch, (h.mem_settled hanswered).mpr (.inl ⟨hfetch, hid⟩), rfl, rfl⟩
  · refine ⟨fun _ => id, fun fetch hfetch hne => ⟨fetch, ?_, rfl, rfl⟩⟩
    refine List.mem_filter.mpr ⟨hfetch, decide_eq_true fun hid => hne ?_⟩
    rw [hevent, hid]
  · exact ⟨fun _ => id, fun fetch hfetch _ => ⟨fetch, hfetch, rfl, rfl⟩⟩

theorem Kept.next (h : Kept A s) {event : CacheEvent κ ρ φ} {t : RequestCache κ ρ φ}
    (hnext : s.next A event = some t) : Kept A t := by
  obtain ⟨key, -, rfl⟩ | ⟨fetch, hfetch, body, -, -, rfl⟩ |
    ⟨fetch, hfetch, outcome, -, houtcome, rfl⟩ | ⟨-, rfl⟩ := next_cases hnext
  · exact h.load key
  · exact h.settled hfetch body
  · exact h.finished hfetch (by rw [houtcome]; exact Option.some_ne_none outcome)
  · exact h.cleared

theorem kept (h : (machine A).Reachable s) : Kept A s := by
  refine h.invariant ?_ ?_
  · rintro s rfl
    exact kept_start
  · intro s event t _ hs hstep
    exact hs.next hstep

/-! ## Runs that clear the cache only while nothing is fetched -/

theorem Coalesced.opened (h : Coalesced s) (hkept : Kept A s) {key : κ}
    (hresult : s.results key = none) (hrequest : s.requests key = none) :
    Coalesced (s.opened key) := by
  have hmem : ∀ other, other ∈ (s.opened key).flying ++ s.landed ↔
      other = ⟨s.started, key, none⟩ ∨ other ∈ s.flying ++ s.landed := by
    intro other
    simp only [RequestCache.opened, List.mem_append, List.mem_singleton]
    tauto
  have hbefore : ∀ other ∈ s.flying, other.key ≠ key := by
    rintro other hother rfl
    rw [h.current other hother] at hrequest
    cases hrequest
  constructor
  case current =>
    intro other hother
    change Function.update s.requests key (some s.started) other.key = some other.id
    rcases List.mem_append.mp hother with hold | hnew
    · rw [Function.update_of_ne (hbefore other hold)]
      exact h.current other hold
    · rw [List.mem_singleton.mp hnew]
      exact Function.update_self _ _ _
  case stored =>
    intro other hother value hvalue
    rcases (hmem other).mp hother with rfl | hold
    · cases hvalue
    · exact h.stored other hold value hvalue
  case ordered =>
    intro first hfirst second hsecond hkey hlt
    rcases (hmem first).mp hfirst with rfl | hold
    · -- The new request is the last one.
      rcases (hmem second).mp hsecond with rfl | hother
      · exact absurd hlt (Nat.lt_irrefl _)
      · exact absurd hlt (Nat.lt_asymm (hkept.below second hother))
    · rcases (hmem second).mp hsecond with rfl | hother
      · rcases List.mem_append.mp hold with hfly | hland
        · exact absurd hkey (hbefore first hfly)
        · refine ⟨hland, ?_⟩
          cases houtcome : first.outcome with
          | none => exact absurd houtcome (hkept.ended first hland)
          | some outcome =>
            cases outcome with
            | error failure => exact ⟨failure, rfl⟩
            | ok value =>
              have hstored := h.stored first hold value houtcome
              rw [hkey, hresult] at hstored
              cases hstored
      · exact h.ordered first hold second hother hkey hlt

theorem Coalesced.settled (h : Coalesced s) (hkept : Kept A s) (hfetch : fetch ∈ s.flying)
    (hwaits : fetch.outcome = none) (outcome : Except φ ρ) :
    Coalesced (s.settled fetch outcome) := by
  -- The request that is answered is alone with its key among those that did not fail.
  have halone : ∀ other ∈ s.flying ++ s.landed, other.key = fetch.key → other.id ≠ fetch.id →
      other.id < fetch.id := by
    intro other hother hkey hne
    by_contra hlt
    have hfailed := (h.ordered fetch (List.mem_append_left _ hfetch) other hother hkey.symm
      (by omega)).2
    rw [hwaits] at hfailed
    obtain ⟨failure, hfailure⟩ := hfailed
    cases hfailure
  have hmem : ∀ other, other ∈ (s.settled fetch outcome).flying ++ s.landed →
      (other ∈ s.flying ++ s.landed ∧ other.id ≠ fetch.id) ∨
        other = { fetch with outcome := some outcome } := by
    intro other hother
    rcases List.mem_append.mp hother with hfly | hland
    · exact ((hkept.mem_settled hfetch).mp hfly).imp_left fun h => ⟨List.mem_append_left _ h.1, h.2⟩
    · refine .inl ⟨List.mem_append_right _ hland, fun hid => ?_⟩
      have heq := hkept.eq_of_id (List.mem_append_right _ hland) (List.mem_append_left _ hfetch) hid
      exact hkept.ended other hland (heq ▸ hwaits)
  constructor
  case current =>
    intro other hother
    rcases (hkept.mem_settled hfetch).mp hother with ⟨hold, -⟩ | rfl
    · exact h.current other hold
    · exact h.current fetch hfetch
  case stored =>
    intro other hother value hvalue
    rcases hmem other hother with ⟨hold, hne⟩ | rfl
    · have hstored := h.stored other hold value hvalue
      cases outcome with
      | error failure => exact hstored
      | ok accepted =>
        have hkey : other.key ≠ fetch.key := by
          intro hkey
          have hfailed := (h.ordered other hold fetch (List.mem_append_left _ hfetch) hkey
            (halone other hold hkey hne)).2
          rw [hvalue] at hfailed
          obtain ⟨failure, hfailure⟩ := hfailed
          cases hfailure
        exact (Function.update_of_ne hkey _ _).trans hstored
    · cases outcome with
      | error failure => cases hvalue
      | ok accepted =>
        cases hvalue
        exact Function.update_self _ _ _
  case ordered =>
    intro first hfirst second hsecond hkey hlt
    rcases hmem first hfirst with ⟨hold, hne⟩ | rfl
    · rcases hmem second hsecond with ⟨hother, -⟩ | rfl
      · exact h.ordered first hold second hother hkey hlt
      · exact h.ordered first hold fetch (List.mem_append_left _ hfetch) hkey hlt
    · rcases hmem second hsecond with ⟨hother, hne⟩ | rfl
      · exact absurd hlt (Nat.lt_asymm (halone second hother hkey.symm hne))
      · exact absurd hlt (Nat.lt_irrefl _)

theorem Coalesced.finished (h : Coalesced s) (hfetch : fetch ∈ s.flying) :
    Coalesced (s.finished fetch) := by
  have hmem : ∀ other, other ∈ (s.finished fetch).flying ++ (s.finished fetch).landed →
      other ∈ s.flying ++ s.landed := by
    intro other hother
    rcases List.mem_append.mp hother with hfly | hland
    · exact List.mem_append_left _ (List.mem_of_mem_filter hfly)
    · rcases List.mem_append.mp hland with hold | hnew
      · exact List.mem_append_right _ hold
      · rw [List.mem_singleton.mp hnew]
        exact List.mem_append_left _ hfetch
  constructor
  case current =>
    intro other hother
    obtain ⟨hold, hne⟩ := List.mem_filter.mp hother
    change Function.update s.requests fetch.key none other.key = some other.id
    have hkey : other.key ≠ fetch.key := by
      intro hkey
      have hsame := (h.current other hold).symm.trans (hkey ▸ h.current fetch hfetch)
      exact of_decide_eq_true hne (Option.some.inj hsame)
    rw [Function.update_of_ne hkey]
    exact h.current other hold
  case stored => exact fun other hother => h.stored other (hmem other hother)
  case ordered =>
    intro first hfirst second hsecond hkey hlt
    obtain ⟨hland, hfailed⟩ :=
      h.ordered first (hmem first hfirst) second (hmem second hsecond) hkey hlt
    exact ⟨List.mem_append_left _ hland, hfailed⟩

theorem coalesced (h : ((machine A).restrict ClearsIdle).Reachable s) : Coalesced s := by
  refine h.invariant ?_ ?_
  · rintro s rfl
    exact ⟨by simp, by simp, by simp⟩
  · rintro s event t hreach hs ⟨hcond, hstep⟩
    have hkept := kept hreach.of_restrict
    obtain ⟨key, -, rfl⟩ | ⟨fetch, hfetch, body, -, hwaits, rfl⟩ |
      ⟨fetch, hfetch, outcome, -, -, rfl⟩ | ⟨hclear, rfl⟩ := next_cases hstep
    · obtain ⟨value, -, hload⟩ | ⟨id, -, -, hload⟩ | ⟨hresult, hrequest, hload⟩ := load_cases key s
      · rw [hload]
        exact hs
      · rw [hload]
        exact hs
      · rw [hload]
        exact hs.opened hkept hresult hrequest
    · exact hs.settled hkept hfetch hwaits _
    · exact hs.finished hfetch
    · exact Coalesced.cleared (hcond hclear)

end Steps

end RequestCache

end Screener.Lib
