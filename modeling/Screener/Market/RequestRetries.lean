import Screener.Lib.Loop
import Screener.Market.ProviderRequests

/-!
# A request is retried boundedly

Two budgets bound the loop: one 401 and the attempts. Every step that goes on spends one
of them, and a step that stops turns the outcome it stops on into the response or into
the error of its class. The one exception is the delay before an attempt: it is computed
from a power of two that a float cannot hold from the 1024th attempt on.
-/

namespace Screener.Market

open Screener.Lib

/-! ## Outcomes -/

namespace TransportOutcome

def unauthorized : TransportOutcome → Bool
  | failed => false
  | answered response => response.status = 401

/-- Retried after a delay that grows with the attempt. -/
def backsOff : TransportOutcome → Bool
  | failed => true
  | answered response => 500 ≤ response.status && response.status < 600

/-- Retried while attempts are left. -/
def retryable : TransportOutcome → Bool
  | failed => true
  | answered response =>
    response.status = 429 || (500 ≤ response.status && response.status < 600)

/-- The class of the error that the outcome stands for. -/
def errorClass : TransportOutcome → ProviderErrorClass
  | failed => .unavailable
  | answered response =>
    if response.status = 400 then .validation
    else if response.status = 401 then .authentication
    else if response.status = 403 then .forbidden
    else if response.status = 404 then .notFound
    else if response.status = 429 then .rateLimit
    else if response.status < 500 then .validation
    else .unavailable

section Answered

variable {response : Response}

@[simp] theorem unauthorized_answered :
    (answered response).unauthorized = true ↔ response.status = 401 := decide_eq_true_iff

@[simp] theorem backsOff_answered : (answered response).backsOff = true ↔
    500 ≤ response.status ∧ response.status < 600 := by
  simp [backsOff]

@[simp] theorem retryable_answered : (answered response).retryable = true ↔
    response.status = 429 ∨ 500 ≤ response.status ∧ response.status < 600 := by
  simp [retryable]

end Answered

theorem retryable_of_backsOff {o : TransportOutcome} (h : o.backsOff = true) :
    o.retryable = true := by
  cases o with
  | failed => rfl
  | answered response => exact retryable_answered.mpr (.inr (backsOff_answered.mp h))

theorem not_retryable_of_unauthorized {o : TransportOutcome} (h : o.unauthorized = true) :
    o.retryable = false := by
  cases o with
  | failed => cases h
  | answered response =>
    have hstatus := unauthorized_answered.mp h
    rw [← Bool.not_eq_true, retryable_answered]
    omega

/-- The result is the outcome's: its response, or an error of its class. -/
def Concludes (o : TransportOutcome) : Except RequestExc Response → Prop
  | .ok response => o = .answered response ∧ response.status < 400
  | .error (.provider error) =>
    (∀ response, o = .answered response → 400 ≤ response.status) ∧ error.errorClass = o.errorClass
  | .error .overflow => False

end TransportOutcome

theorem responseError_class (readers : HeaderReaders) (response : Response) :
    (responseError readers response).errorClass =
      (TransportOutcome.answered response).errorClass := by
  simp only [responseError, TransportOutcome.errorClass]
  split_ifs <;> first | rfl | omega

/-! ## One step -/

/-- What a step may do. -/
inductive RequestStepped (env : RequestEnv) (n : Nat) (s : RequestState) :
    RequestState ⊕ CompletedCall → Prop
  | renew (hauth : (env.outcome n).unauthorized = true) (hfirst : s.authRetried = false) :
      RequestStepped env n s (.inl { s with
        authRetried := true
        rounds := s.rounds ++ [⟨env.token n, env.outcome n, .invalidate (env.token n)⟩] })
  | retry (seconds : ℚ) (hretry : (env.outcome n).retryable = true)
      (hleft : s.attempt < env.maxRetries)
      (hsmall : (env.outcome n).backsOff = true → s.attempt < 1023) :
      RequestStepped env n s (.inl { s with
        attempt := s.attempt + 1
        rounds := s.rounds ++ [⟨env.token n, env.outcome n, .wait seconds⟩] })
  | overflow (hback : (env.outcome n).backsOff = true) (hleft : s.attempt < env.maxRetries)
      (hlarge : 1023 ≤ s.attempt) :
      RequestStepped env n s
        (.inr ⟨.error .overflow, s.rounds ++ [⟨env.token n, env.outcome n, .stop⟩]⟩)
  | final (result : Except RequestExc Response) (hresult : (env.outcome n).Concludes result)
      (hauth : (env.outcome n).unauthorized = true → s.authRetried = true)
      (hretry : (env.outcome n).retryable = true → env.maxRetries ≤ s.attempt) :
      RequestStepped env n s (.inr ⟨result, s.rounds ++ [⟨env.token n, env.outcome n, .stop⟩]⟩)

section Step

variable {env : RequestEnv} {n : Nat} {s : RequestState}

theorem stepped_backoff (base : ℚ) (hback : (env.outcome n).backsOff = true)
    (hleft : s.attempt < env.maxRetries) : RequestStepped env n s
      (retryWith s (Round.mk (env.token n) (env.outcome n)) (backoff base (s.attempt + 1))) := by
  unfold backoff
  split_ifs with hlarge
  · exact .overflow hback hleft (by omega)
  · exact .retry _ (TransportOutcome.retryable_of_backsOff hback) hleft fun _ => by omega

theorem requestStep_stepped (env : RequestEnv) (n : Nat) (s : RequestState) :
    RequestStepped env n s (requestStep env n s) := by
  unfold requestStep
  cases houtcome : env.outcome n with
  | failed =>
    simp only
    split_ifs with hspent
    · rw [← houtcome]
      refine .final _ ⟨fun response h => ?_, ?_⟩ (fun h => ?_) fun _ => hspent
      · rw [houtcome] at h
        cases h
      · rw [houtcome]
        rfl
      · rw [houtcome] at h
        cases h
    · rw [← houtcome]
      exact stepped_backoff _ (by rw [houtcome]; rfl) (not_le.mp hspent)
  | answered response =>
    simp only
    rw [← houtcome]
    generalize (if env.chart = true then (2 : ℚ) / 10 else 1 / 10) = base
    split_ifs with hauth hok hlimit hserver
    · refine .renew ?_ hauth.2
      rw [houtcome, TransportOutcome.unauthorized_answered]
      exact hauth.1
    · refine .final _ ⟨houtcome, hok⟩ (fun h => ?_) fun h => ?_
      · rw [houtcome, TransportOutcome.unauthorized_answered] at h
        omega
      · rw [houtcome, TransportOutcome.retryable_answered] at h
        omega
    · refine .retry _ ?_ hlimit.2 fun h => ?_
      · rw [houtcome, TransportOutcome.retryable_answered]
        exact .inl hlimit.1
      · rw [houtcome, TransportOutcome.backsOff_answered] at h
        omega
    · apply stepped_backoff base _ hserver.2
      rw [houtcome, TransportOutcome.backsOff_answered]
      exact hserver.1
    · refine .final (.error (.provider (responseError env.readers response)))
        ⟨fun r hr => ?_, ?_⟩ (fun h => ?_) fun h => ?_
      · rw [houtcome, TransportOutcome.answered.injEq] at hr
        exact hr ▸ not_lt.mp hok
      · rw [houtcome]
        exact responseError_class env.readers response
      · rw [houtcome, TransportOutcome.unauthorized_answered] at h
        simpa [h] using hauth
      · rw [houtcome, TransportOutcome.retryable_answered] at h
        rcases h with h | h
        · exact not_lt.mp fun hleft => hlimit ⟨h, hleft⟩
        · exact not_lt.mp fun hleft => hserver ⟨h, hleft⟩

end Step

/-! ## The run of the loop -/

/-- The attempts that the first `n` outcomes have used. -/
def attemptsBefore (env : RequestEnv) (n : Nat) : Nat :=
  (List.range n).countP fun m => (env.outcome m).retryable

def unauthorizedBefore (env : RequestEnv) (n : Nat) : Nat :=
  (List.range n).countP fun m => (env.outcome m).unauthorized

theorem attemptsBefore_succ (env : RequestEnv) (n : Nat) : attemptsBefore env (n + 1) =
    attemptsBefore env n + if (env.outcome n).retryable then 1 else 0 := by
  simp [attemptsBefore, List.range_succ, List.countP_append, List.countP_cons]

theorem unauthorizedBefore_succ (env : RequestEnv) (n : Nat) : unauthorizedBefore env (n + 1) =
    unauthorizedBefore env n + if (env.outcome n).unauthorized then 1 else 0 := by
  simp [unauthorizedBefore, List.range_succ, List.countP_append, List.countP_cons]

/-- The requests of some rounds are the first ones of the call, in order. -/
def SentInOrder (env : RequestEnv) (rounds : List Round) : Prop :=
  rounds.map (fun r => (r.token, r.outcome)) =
    (List.range rounds.length).map fun n => (env.token n, env.outcome n)

theorem SentInOrder.concat {env : RequestEnv} {rounds : List Round} (h : SentInOrder env rounds)
    (reaction : Reaction) :
    SentInOrder env
      (rounds ++ [⟨env.token rounds.length, env.outcome rounds.length, reaction⟩]) := by
  unfold SentInOrder at h ⊢
  rw [List.map_append, h, List.length_append, List.length_singleton, List.range_succ,
    List.map_append]
  rfl

/-- The loop after `n` requests, none of which has stopped it. -/
structure RequestInv (env : RequestEnv) (n : Nat) (s : RequestState) : Prop where
  length : s.rounds.length = n
  sent : SentInOrder env s.rounds
  attempts : s.attempt = attemptsBefore env n
  left : s.attempt ≤ env.maxRetries
  auths : unauthorizedBefore env n = if s.authRetried then 1 else 0
  spent : n = s.attempt + if s.authRetried then 1 else 0
  going : ∀ m < n, (env.outcome m).retryable = true ∨ (env.outcome m).unauthorized = true
  renewed : ∀ r ∈ s.rounds, r.outcome.unauthorized = true → r.reaction = .invalidate r.token

theorem requestInv_start (env : RequestEnv) : RequestInv env 0 .start where
  length := rfl
  sent := rfl
  attempts := rfl
  left := Nat.zero_le _
  auths := rfl
  spent := rfl
  going m h := absurd h (Nat.not_lt_zero m)
  renewed _ h := absurd h List.not_mem_nil

section Inv

variable {env : RequestEnv} {n : Nat} {s : RequestState}

theorem RequestInv.going_succ (h : RequestInv env n s)
    (hn : (env.outcome n).retryable = true ∨ (env.outcome n).unauthorized = true) :
    ∀ m < n + 1, (env.outcome m).retryable = true ∨ (env.outcome m).unauthorized = true := by
  intro m hm
  rcases Nat.lt_succ_iff_lt_or_eq.mp hm with hm | rfl
  · exact h.going m hm
  · exact hn

theorem RequestInv.sent_concat (h : RequestInv env n s) (reaction : Reaction) :
    SentInOrder env (s.rounds ++ [⟨env.token n, env.outcome n, reaction⟩]) := by
  have hconcat := h.sent.concat reaction
  rwa [h.length] at hconcat

theorem RequestInv.renew (h : RequestInv env n s)
    (hauth : (env.outcome n).unauthorized = true) (hfirst : s.authRetried = false) :
    RequestInv env (n + 1) { s with
      authRetried := true
      rounds := s.rounds ++ [⟨env.token n, env.outcome n, .invalidate (env.token n)⟩] } := by
  have hspent := h.spent
  have hauths := h.auths
  rw [hfirst] at hspent hauths
  constructor
  case length => simp [h.length]
  case sent => exact h.sent_concat _
  case attempts =>
    rw [attemptsBefore_succ, TransportOutcome.not_retryable_of_unauthorized hauth]
    exact h.attempts
  case left => exact h.left
  case auths => rw [unauthorizedBefore_succ, hauths, hauth]; rfl
  case spent => simp only [Bool.false_eq_true, if_false, if_true] at hspent ⊢; omega
  case going => exact h.going_succ (.inr hauth)
  case renewed => exact forall_mem_concat h.renewed fun _ => rfl

theorem RequestInv.retry (h : RequestInv env n s) {seconds : ℚ}
    (hretry : (env.outcome n).retryable = true) (hleft : s.attempt < env.maxRetries) :
    RequestInv env (n + 1) { s with
      attempt := s.attempt + 1
      rounds := s.rounds ++ [⟨env.token n, env.outcome n, .wait seconds⟩] } := by
  have hspent := h.spent
  have hauth : (env.outcome n).unauthorized = false := by
    rw [Bool.eq_false_iff]
    intro hauth
    rw [TransportOutcome.not_retryable_of_unauthorized hauth] at hretry
    cases hretry
  constructor
  case length => simp [h.length]
  case sent => exact h.sent_concat _
  case attempts => rw [attemptsBefore_succ, hretry, h.attempts]; rfl
  case left => exact hleft
  case auths => rw [unauthorizedBefore_succ, hauth]; exact h.auths
  case spent => simp only; omega
  case going => exact h.going_succ (.inl hretry)
  case renewed =>
    refine forall_mem_concat h.renewed fun hbad => ?_
    rw [hauth] at hbad
    cases hbad

/-- What is left of the two budgets. -/
def RequestState.budget (env : RequestEnv) (s : RequestState) : Nat :=
  env.maxRetries - s.attempt + if s.authRetried then 0 else 1

/-- A step that goes on keeps the invariant and spends a budget; a step that stops
overflows or concludes. -/
theorem RequestInv.step (h : RequestInv env n s) :
    (∃ t, requestStep env n s = .inl t ∧ RequestInv env (n + 1) t ∧ t.budget env < s.budget env) ∨
    (requestStep env n s =
        .inr ⟨.error .overflow, s.rounds ++ [⟨env.token n, env.outcome n, .stop⟩]⟩ ∧
      (env.outcome n).backsOff = true ∧ s.attempt < env.maxRetries ∧ 1023 ≤ s.attempt) ∨
    ∃ result, requestStep env n s =
        .inr ⟨result, s.rounds ++ [⟨env.token n, env.outcome n, .stop⟩]⟩ ∧
      (env.outcome n).Concludes result ∧
      ((env.outcome n).unauthorized = true → s.authRetried = true) ∧
      ((env.outcome n).retryable = true → env.maxRetries ≤ s.attempt) := by
  have hstep := requestStep_stepped env n s
  generalize requestStep env n s = next at hstep
  cases hstep with
  | renew hauth hfirst =>
    refine .inl ⟨_, rfl, h.renew hauth hfirst, ?_⟩
    simp only [RequestState.budget, hfirst, if_true, Bool.false_eq_true, if_false]
    omega
  | retry seconds hretry hleft hsmall =>
    refine .inl ⟨_, rfl, h.retry hretry hleft, ?_⟩
    simp only [RequestState.budget]
    omega
  | overflow hback hleft hlarge => exact .inr (.inl ⟨rfl, hback, hleft, hlarge⟩)
  | final result hresult hauth hretry => exact .inr (.inr ⟨result, rfl, hresult, hauth, hretry⟩)

end Inv

/-! ## What a call comes to -/

/-- The call has sent few requests, in order, and its result is that of the last one; at
most one 401 was followed by another request, and then its token was invalidated. -/
structure Classified (env : RequestEnv) (done : CompletedCall) : Prop where
  bounded : done.rounds.length ≤ env.maxRetries + 2
  sent : SentInOrder env done.rounds
  concluded : ∃ earlier last, done.rounds = earlier ++ [last] ∧
    last.outcome.Concludes done.result ∧
    (earlier.countP fun r => r.outcome.unauthorized) ≤ 1 ∧
    ∀ r ∈ earlier, r.outcome.unauthorized = true → r.reaction = .invalidate r.token

theorem Classified.result_ne_overflow {env : RequestEnv} {done : CompletedCall}
    (h : Classified env done) : done.result ≠ .error .overflow := by
  intro hresult
  obtain ⟨earlier, last, -, hconcludes, -⟩ := h.concluded
  rw [hresult] at hconcludes
  exact hconcludes

/-- The delay after outcome `n` is the one that overflows: all outcomes before it were
retried, and they used 1023 attempts or more of a larger budget. -/
structure OverflowsAt (env : RequestEnv) (n : Nat) : Prop where
  going : ∀ m < n, (env.outcome m).retryable = true ∨ (env.outcome m).unauthorized = true
  auths : unauthorizedBefore env n ≤ 1
  backsOff : (env.outcome n).backsOff = true
  large : 1023 ≤ attemptsBefore env n
  left : attemptsBefore env n < env.maxRetries

/-- No budget of at most 1023 attempts overflows; the settings allow 5. -/
theorem not_overflowsAt_of_le {env : RequestEnv} (h : env.maxRetries ≤ 1023) (n : Nat) :
    ¬OverflowsAt env n := by
  intro hover
  have hlarge := hover.large
  have hleft := hover.left
  omega

theorem attemptsBefore_mono (env : RequestEnv) {n m : Nat} (h : n ≤ m) :
    attemptsBefore env n ≤ attemptsBefore env m :=
  (List.range_sublist.mpr h).countP_le

theorem unauthorizedBefore_mono (env : RequestEnv) {n m : Nat} (h : n ≤ m) :
    unauthorizedBefore env n ≤ unauthorizedBefore env m :=
  (List.range_sublist.mpr h).countP_le

/-- The 401s of the rounds are those of the outcomes. -/
theorem SentInOrder.countP_unauthorized {env : RequestEnv} {rounds : List Round}
    (h : SentInOrder env rounds) : (rounds.countP fun r => r.outcome.unauthorized) =
      unauthorizedBefore env rounds.length := by
  have hcount := congrArg (List.countP fun p : String × TransportOutcome => p.2.unauthorized) h
  rw [List.countP_map, List.countP_map] at hcount
  exact hcount

section Call

variable {env : RequestEnv} {n : Nat} {s : RequestState}

theorem RequestInv.classified (h : RequestInv env n s) {result : Except RequestExc Response}
    (hresult : (env.outcome n).Concludes result) :
    Classified env ⟨result, s.rounds ++ [⟨env.token n, env.outcome n, .stop⟩]⟩ := by
  have hlength := h.length
  have hspent := h.spent
  have hleft := h.left
  constructor
  case bounded =>
    simp only [List.length_append, List.length_singleton]
    split_ifs at hspent <;> omega
  case sent => exact h.sent_concat .stop
  case concluded =>
    refine ⟨s.rounds, _, rfl, hresult, ?_, h.renewed⟩
    rw [h.sent.countP_unauthorized, hlength, h.auths]
    split_ifs <;> omega

/-- Unless some delay overflows, the call ends and is classified. -/
theorem request_classified (hover : ∀ n, ¬OverflowsAt env n) :
    ∃ done, request env (env.maxRetries + 2) = some done ∧ Classified env done := by
  refine drive_of_measure (RequestInv env) (fun _ => RequestState.budget env) ?_
    (requestInv_start env) (by simp [RequestState.budget, RequestState.start])
  intro n s h
  rcases h.step with hgo | ⟨-, hback, hleft, hlarge⟩ | ⟨result, hstop, hresult, -⟩
  · exact .inl hgo
  · rw [h.attempts] at hleft hlarge
    have hauths : unauthorizedBefore env n ≤ 1 := by
      rw [h.auths]
      split_ifs <;> omega
    exact absurd ⟨h.going, hauths, hback, hlarge, hleft⟩ (hover n)
  · exact .inr ⟨_, hstop, h.classified hresult⟩

/-- No outcome before the overflow ends the loop in an orderly way. -/
theorem RequestInv.not_final {last : Nat} (h : RequestInv env n s)
    (hover : OverflowsAt env last) (hn : n ≤ last)
    (hauth : (env.outcome n).unauthorized = true → s.authRetried = true)
    (hretry : (env.outcome n).retryable = true → env.maxRetries ≤ s.attempt) : False := by
  have hleft := hover.left
  have hattempts := attemptsBefore_mono env hn
  rw [← h.attempts] at hattempts
  have hone : (env.outcome n).retryable = true ∨
      n < last ∧ (env.outcome n).unauthorized = true := by
    rcases Nat.lt_or_eq_of_le hn with hlt | rfl
    · exact (hover.going n hlt).imp_right fun hun => ⟨hlt, hun⟩
    · exact .inl (TransportOutcome.retryable_of_backsOff hover.backsOff)
  rcases hone with hr | ⟨hlt, hun⟩
  · have hspent := hretry hr
    omega
  · -- a second 401 among the outcomes before the overflow
    have hauths := h.auths
    have hmono := unauthorizedBefore_mono env (Nat.succ_le_of_lt hlt)
    rw [Nat.succ_eq_add_one, unauthorizedBefore_succ, hauths, hauth hun, hun] at hmono
    have hfew := hover.auths
    simp only [if_true] at hmono
    omega

/-- A call with an overflowing delay ends with the overflow. -/
theorem request_overflow {last : Nat} (hover : OverflowsAt env last) :
    ∃ done, request env (env.maxRetries + 2) = some done ∧ done.result = .error .overflow := by
  refine drive_of_measure (fun n s => RequestInv env n s ∧ n ≤ last)
    (fun _ => RequestState.budget env) ?_ ⟨requestInv_start env, Nat.zero_le _⟩
    (by simp [RequestState.budget, RequestState.start])
  rintro n s ⟨h, hn⟩
  rcases h.step with ⟨t, hgo, ht, hless⟩ | ⟨hstop, -⟩ | ⟨result, -, -, hauth, hretry⟩
  · refine .inl ⟨t, hgo, ⟨ht, ?_⟩, hless⟩
    rcases Nat.lt_or_eq_of_le hn with hlt | rfl
    · exact hlt
    · -- the loop does not go on from the overflow itself
      have hstep := requestStep_stepped env n s
      rw [hgo] at hstep
      have hback := hover.backsOff
      have hlarge := hover.large
      rw [← h.attempts] at hlarge
      cases hstep with
      | renew hun hfirst =>
        have hnot := TransportOutcome.not_retryable_of_unauthorized hun
        rw [TransportOutcome.retryable_of_backsOff hback] at hnot
        cases hnot
      | retry seconds hretry hleft hsmall =>
        have hlt := hsmall hback
        omega
  · exact .inr ⟨_, hstop, rfl⟩
  · exact (h.not_final hover hn hauth hretry).elim

end Call

/-- A call ends with a classified result, whatever the fuel, exactly when none of its
delays overflows. -/
theorem request_classified_iff (env : RequestEnv) :
    (∃ done, (∀ fuel, env.maxRetries + 2 ≤ fuel → request env fuel = some done) ∧
      Classified env done) ↔ ∀ n, ¬OverflowsAt env n := by
  constructor
  · rintro ⟨done, hrun, hdone⟩ n hover
    obtain ⟨done', hrun', hresult⟩ := request_overflow hover
    obtain rfl : done = done' := Option.some.inj ((hrun _ (Nat.le_refl _)).symm.trans hrun')
    exact hdone.result_ne_overflow hresult
  · intro hover
    obtain ⟨done, hrun, hdone⟩ := request_classified hover
    exact ⟨done, fun fuel hfuel => drive_mono hrun hfuel, hdone⟩

/-- A provider with 1024 retries that never answers. -/
def longOutage : RequestEnv where
  maxRetries := 1024
  chart := false
  token _ := "token"
  outcome _ := .failed
  readers := ⟨fun _ => none, fun _ => none, 0⟩

theorem overflowsAt_longOutage : OverflowsAt longOutage 1023 := by
  have hall : attemptsBefore longOutage 1023 = 1023 := by
    have h : attemptsBefore longOutage 1023 = (List.range 1023).length :=
      List.countP_eq_length.mpr fun _ _ => rfl
    rw [h, List.length_range]
  constructor
  case going => exact fun _ _ => .inl rfl
  case auths =>
    have hnone : unauthorizedBefore longOutage 1023 = 0 :=
      List.countP_eq_zero.mpr fun _ _ => Bool.false_ne_true
    omega
  case backsOff => rfl
  case large => omega
  case left =>
    have hmax : longOutage.maxRetries = 1024 := rfl
    omega

/-- The 1024th delay of the outage is an `OverflowError`, not the provider's error. -/
theorem longOutage_overflows :
    ∃ done, request longOutage 1026 = some done ∧ done.result = .error .overflow ∧
      ¬Classified longOutage done := by
  obtain ⟨done, hrun, hresult⟩ := request_overflow overflowsAt_longOutage
  exact ⟨done, hrun, hresult, fun hdone => hdone.result_ne_overflow hresult⟩

end Screener.Market
