import Screener.Lib.WhileLoop
import Screener.Market.DailyRunSafety

/-!
# Notifications of a run

A run that has ended with a success or a failure is announced: every provider posts the message
until an answer accepts it, and the result of the run stays what it was. A message says what the
database shows by then.
-/

namespace Screener.Market

open Screener.Lib

/-! ## The message -/

inductive NotificationEventType where
  | watchlistPublished
  | watchlistFailed
deriving DecidableEq, Repr

structure NotificationEvent where
  type : NotificationEventType
  tradingDate : Date
  executionId : Option ExecutionId := none
  candidateCount : Option Nat := none
  errorCode : Option String := none
deriving DecidableEq, Repr

/-- `_text`; an empty code is no code either. -/
def NotificationEvent.text (event : NotificationEvent) : String :=
  match event.type with
  | .watchlistPublished => "Watchlist published for " ++ CivilDate.isoformat event.tradingDate ++
      ": " ++ toString (event.candidateCount.getD 0) ++ " candidates"
  | .watchlistFailed => "Watchlist pipeline failed for " ++
      CivilDate.isoformat event.tradingDate ++ ": " ++
        (event.errorCode.filter (· ≠ "")).getD "unknown"

theorem text_failed (target : Date) (id : Option ExecutionId) (count : Option Nat) {code : String}
    (h : code ≠ "") : NotificationEvent.text ⟨.watchlistFailed, target, id, count, some code⟩ =
      "Watchlist pipeline failed for " ++ CivilDate.isoformat target ++ ": " ++ code := by
  have hcode : (some code).filter (· ≠ "") = some code := Option.filter_eq_some_iff.mpr
    ⟨rfl, decide_eq_true h⟩
  rw [NotificationEvent.text]
  dsimp only
  rw [hcode]
  rfl

/-! ## One provider -/

/-- How a POST ends: a response, or an exception of the client. -/
inductive PostOutcome where
  | response (status : Nat)
  | timeout
  | networkError
  | otherError (name : String)
deriving DecidableEq, Repr

/-- `raise_for_status` returns for these only. -/
def PostOutcome.accepted : PostOutcome → Bool
  | .response status => 200 ≤ status ∧ status < 300
  | _ => false

/-- The outcomes after which the next attempt is made, where there is one. -/
def PostOutcome.retried : PostOutcome → Bool
  | .response status => ¬(200 ≤ status ∧ status < 300) ∧
      ¬(400 ≤ status ∧ status < 500 ∧ status ≠ 429)
  | .timeout => true
  | .networkError => true
  | .otherError _ => false

/-- What a delivery has posted, the seconds that it has slept, and what it raises. -/
structure Delivery where
  posts : List (String × PostOutcome) := []
  slept : List ℚ := []
  error : Option PostOutcome := none
deriving DecidableEq, Repr

/-- The settings allow five retries. -/
structure SlackNotificationProvider where
  maxRetries : Nat := 2
  allowed : maxRetries ≤ 5 := by decide

namespace SlackNotificationProvider

variable (provider : SlackNotificationProvider) (answers : Nat → PostOutcome) (text : String)

/-- The end of a failed attempt: the last one raises. -/
def retry (outcome : PostOutcome) (attempt : Nat) (d : Delivery) : Delivery ⊕ Delivery :=
  if attempt = provider.maxRetries then .inr { d with error := some outcome }
  else .inl { d with slept := d.slept ++ [1 / 4 * 2 ^ attempt] }

/-- One pass of `for attempt in range(self.max_retries + 1)`. -/
def postStep (attempt : Nat) (d : Delivery) : Delivery ⊕ Delivery :=
  let outcome := answers attempt
  let d := { d with posts := d.posts ++ [(text, outcome)] }
  match outcome with
  | .response status =>
    if 200 ≤ status ∧ status < 300 then .inr d
    else if 400 ≤ status ∧ status < 500 ∧ status ≠ 429 then .inr { d with error := some outcome }
    else provider.retry outcome attempt d
  | .timeout => provider.retry outcome attempt d
  | .networkError => provider.retry outcome attempt d
  | .otherError _ => .inr { d with error := some outcome }

/-- `publish`; none where the loop runs out of attempts. -/
def publish (event : NotificationEvent) : Option Delivery :=
  drive (provider.postStep answers event.text) (provider.maxRetries + 1) 0 {}

/-- The loop before attempt `n`. -/
structure Posting (n : Nat) (d : Delivery) : Prop where
  within : n ≤ provider.maxRetries
  retried : ∀ k < n, (answers k).retried = true
  posts : d.posts = (List.range n).map fun k => (text, answers k)
  slept : d.slept = (List.range n).map fun k => 1 / 4 * 2 ^ k
  error : d.error = none

/-- The delivery ends with attempt `last`: the first one that is not retried, or the last of all.
It raises where that one is not accepted. -/
structure PostedUntil (last : Nat) (d : Delivery) : Prop where
  within : last ≤ provider.maxRetries
  retried : ∀ k < last, (answers k).retried = true
  ends : (answers last).retried = false ∨ last = provider.maxRetries
  posts : d.posts = (List.range (last + 1)).map fun k => (text, answers k)
  slept : d.slept = (List.range last).map fun k => 1 / 4 * 2 ^ k
  error : d.error = if (answers last).accepted then none else some (answers last)

variable {provider answers text} {n : Nat} {d : Delivery}

theorem Posting.posts_concat (h : Posting provider answers text n d) :
    d.posts ++ [(text, answers n)] = (List.range (n + 1)).map fun k => (text, answers k) := by
  rw [h.posts, List.range_succ, List.map_append, List.map_singleton]

/-- What is neither accepted nor retried is raised. -/
theorem Posting.stop (h : Posting provider answers text n d)
    (hends : (answers n).retried = false ∨ n = provider.maxRetries) :
    PostedUntil provider answers text n { d with
      posts := d.posts ++ [(text, answers n)]
      error := if (answers n).accepted then none else some (answers n) } :=
  ⟨h.within, h.retried, hends, h.posts_concat, h.slept, rfl⟩

theorem Posting.accept (h : Posting provider answers text n d)
    (haccepted : (answers n).accepted = true) (hretried : (answers n).retried = false) :
    PostedUntil provider answers text n { d with posts := d.posts ++ [(text, answers n)] } := by
  refine ⟨h.within, h.retried, .inl hretried, h.posts_concat, h.slept, ?_⟩
  rw [if_pos haccepted]
  exact h.error

/-- A failed attempt that may be repeated is, but for the last one. -/
theorem Posting.retry (h : Posting provider answers text n d)
    (hrefused : (answers n).accepted = false) (hretried : (answers n).retried = true) :
    let d' := { d with posts := d.posts ++ [(text, answers n)] }
    (∃ t, provider.retry (answers n) n d' = .inl t ∧ Posting provider answers text (n + 1) t ∧
      provider.maxRetries - (n + 1) < provider.maxRetries - n) ∨
    ∃ r, provider.retry (answers n) n d' = .inr r ∧
      ∃ last, PostedUntil provider answers text last r := by
  by_cases hlast : n = provider.maxRetries
  · refine .inr ⟨_, if_pos hlast, n, ?_⟩
    have hstop := h.stop (.inr hlast)
    rw [hrefused] at hstop
    exact hstop
  · have hlt : n < provider.maxRetries := lt_of_le_of_ne h.within hlast
    refine .inl ⟨_, if_neg hlast, ⟨hlt, ?_, h.posts_concat, ?_, h.error⟩, by omega⟩
    · intro k hk
      rcases Nat.lt_succ_iff_lt_or_eq.mp hk with hk | rfl
      · exact h.retried k hk
      · exact hretried
    · show d.slept ++ _ = _
      rw [h.slept, List.range_succ, List.map_append, List.map_singleton]

theorem Posting.step (h : Posting provider answers text n d) :
    (∃ t, provider.postStep answers text n d = .inl t ∧ Posting provider answers text (n + 1) t ∧
      provider.maxRetries - (n + 1) < provider.maxRetries - n) ∨
    ∃ r, provider.postStep answers text n d = .inr r ∧
      ∃ last, PostedUntil provider answers text last r := by
  have hstop := h.stop
  have haccept := h.accept
  have hretry := h.retry
  simp only [postStep]
  cases houtcome : answers n with
  | response status =>
    rw [houtcome] at hstop haccept hretry
    dsimp only
    by_cases hok : 200 ≤ status ∧ status < 300
    · rw [if_pos hok]
      refine .inr ⟨_, rfl, n, haccept (decide_eq_true hok) ?_⟩
      exact decide_eq_false fun hboth => hboth.1 hok
    · have hrefused : (PostOutcome.response status).accepted = false := decide_eq_false hok
      rw [if_neg hok]
      by_cases hfinal : 400 ≤ status ∧ status < 500 ∧ status ≠ 429
      · rw [if_pos hfinal]
        rw [hrefused] at hstop
        exact .inr ⟨_, rfl, n, hstop (.inl (decide_eq_false fun hboth => hboth.2 hfinal))⟩
      · rw [if_neg hfinal]
        exact hretry hrefused (decide_eq_true ⟨hok, hfinal⟩)
  | timeout =>
    rw [houtcome] at hretry
    exact hretry rfl rfl
  | networkError =>
    rw [houtcome] at hretry
    exact hretry rfl rfl
  | otherError name =>
    rw [houtcome] at hstop
    exact .inr ⟨_, rfl, n, hstop (.inl rfl)⟩

/-- The loop ends with an attempt, and never runs out of them. -/
theorem publish_posted (provider : SlackNotificationProvider) (answers : Nat → PostOutcome)
    (event : NotificationEvent) :
    ∃ d, provider.publish answers event = some d ∧
      ∃ last, PostedUntil provider answers event.text last d := by
  refine drive_of_measure (fun n d => Posting provider answers event.text n d)
    (fun n _ => provider.maxRetries - n) (fun n d h => h.step) ?_ ?_
  · exact ⟨Nat.zero_le _, fun k hk => absurd hk (Nat.not_lt_zero k), rfl, rfl, rfl⟩
  · omega

end SlackNotificationProvider

end Screener.Market
