import Mathlib.Algebra.Order.Ring.Rat
import Mathlib.Tactic.NormNum
import Screener.Lib.DecimalText
import Screener.Lib.WhileLoop

/-!
# Requests to the provider

`TossMarketDataProvider._request` sends a request until an outcome is final. One 401 is
answered with a new token; transport failures, rate limits and server errors are retried
while attempts are left; any other status of 400 and above is turned into the error of
its class.
-/

namespace Screener.Market

open Screener.Lib

/-! ## Errors -/

/-- The subclasses of `ProviderError`. -/
inductive ProviderErrorClass where
  | authentication
  | forbidden
  | notFound
  | validation
  | rateLimit
  | unavailable
  | malformedResponse
deriving DecidableEq, Repr

structure ProviderError where
  errorClass : ProviderErrorClass
  message : String
  provider : String := "toss"
  retryable : Bool := false
  providerCode : Option String := none
  requestId : Option String := none
  retryAfter : Option ℚ := none
  providerMessage : Option String := none
deriving DecidableEq, Repr

/-- What a call raises: a provider error, or the `OverflowError` of a float. -/
inductive RequestExc where
  | provider (error : ProviderError)
  | overflow
deriving DecidableEq, Repr

/-! ## Responses -/

/-- What `_error_details` reads of a body; nothing where the body is not an error envelope. -/
structure ErrorDetails where
  code : Option String := none
  requestId : Option String := none
  message : Option String := none
deriving DecidableEq, Repr

structure Response where
  status : Nat
  headers : List (String × String) := []
  details : ErrorDetails := {}
deriving DecidableEq, Repr

/-- Header names are matched without their case; several values of one name are joined. -/
def Response.header (response : Response) (name : String) : Option String :=
  match (response.headers.filter fun header => header.1.toLower = name.toLower).map (·.2) with
  | [] => none
  | values => some (", ".intercalate values)

/-- How header texts are read: as a float, as a date in seconds from now, and the clock. -/
structure HeaderReaders where
  float : String → Option Dec
  secondsUntil : String → Option ℚ
  timestamp : ℚ

/-- `max(0.0, min(number, 30.0))`; a NaN loses the outer comparison. -/
def clampWait : Dec → ℚ
  | .finite number => max 0 (min number 30)
  | .infinite negative => if negative then 0 else 30
  | .nan => 0

/-- `number -= timestamp`. -/
def sinceTimestamp (timestamp : ℚ) : Dec → Dec
  | .finite number => .finite (number - timestamp)
  | other => other

/-- `_retry_after`. -/
def retryAfter (readers : HeaderReaders) (value reset : Option String) : ℚ :=
  match value.or reset with
  | none => 1 / 10
  | some candidate =>
    match readers.float candidate with
    | some number =>
      clampWait (if value.isNone then sinceTimestamp readers.timestamp number else number)
    | none =>
      match readers.secondsUntil candidate with
      | some seconds => clampWait (.finite seconds)
      | none => 1 / 10

def Response.retryAfter (readers : HeaderReaders) (response : Response) : ℚ :=
  Market.retryAfter readers (response.header "Retry-After") (response.header "X-RateLimit-Reset")

theorem clampWait_bounds (number : Dec) : 0 ≤ clampWait number ∧ clampWait number ≤ 30 := by
  cases number with
  | finite value => exact ⟨le_max_left 0 _, max_le (by norm_num) (min_le_right _ _)⟩
  | infinite negative => cases negative <;> simp [clampWait]
  | nan => simp [clampWait]

/-- Whatever the headers are, the wait is one that a sleep accepts. -/
theorem retryAfter_bounds (readers : HeaderReaders) (value reset : Option String) :
    0 ≤ retryAfter readers value reset ∧ retryAfter readers value reset ≤ 30 := by
  unfold retryAfter
  cases value.or reset with
  | none => norm_num
  | some candidate =>
    simp only
    cases readers.float candidate with
    | some number => exact clampWait_bounds _
    | none =>
      cases readers.secondsUntil candidate with
      | some seconds => exact clampWait_bounds _
      | none => norm_num

/-- `_raise_response_error`. -/
def responseError (readers : HeaderReaders) (response : Response) : ProviderError :=
  let common (errorClass : ProviderErrorClass) (message : String) : ProviderError :=
    { errorClass, message
      providerCode := response.details.code
      requestId := (response.details.requestId.filter (· ≠ "")).or (response.header "X-Request-ID")
      providerMessage := response.details.message }
  if response.status = 400 then common .validation "Provider rejected the request"
  else if response.status = 401 then common .authentication "Provider authentication failed"
  else if response.status = 403 then common .forbidden "Provider access is forbidden"
  else if response.status = 404 then common .notFound "Provider resource not found"
  else if response.status = 429 then
    { common .rateLimit "Provider rate limit exceeded" with
      retryable := true
      retryAfter := some (response.retryAfter readers) }
  else if 500 ≤ response.status then
    { common .unavailable "Provider is unavailable" with retryable := true }
  else common .validation "Provider rejected the request"

/-! ## The loop -/

/-- What the transport makes of a request. -/
inductive TransportOutcome where
  | failed
  | answered (response : Response)
deriving DecidableEq, Repr

/-- What the loop does after an outcome. -/
inductive Reaction where
  | invalidate (token : String)
  | wait (seconds : ℚ)
  | stop
deriving DecidableEq, Repr

structure Round where
  token : String
  outcome : TransportOutcome
  reaction : Reaction
deriving DecidableEq, Repr

/-- What a call meets: the tokens that `get` returns and the outcomes, in their order. -/
structure RequestEnv where
  maxRetries : Nat
  chart : Bool
  token : Nat → String
  outcome : Nat → TransportOutcome
  readers : HeaderReaders

structure RequestState where
  authRetried : Bool
  attempt : Nat
  rounds : List Round
deriving DecidableEq, Repr

structure CompletedCall where
  result : Except RequestExc Response
  rounds : List Round

def RequestState.start : RequestState := ⟨false, 0, []⟩

/-- `min(base * 2**attempt, 2)`: from `2**1024` on the power does not fit a float. -/
def backoff (base : ℚ) (attempt : Nat) : Except RequestExc ℚ :=
  if 1024 ≤ attempt then .error .overflow else .ok (min (base * 2 ^ attempt) 2)

def requestFailed : ProviderError :=
  { errorClass := .unavailable, message := "Provider request failed", retryable := true }

section Loop

variable (env : RequestEnv)

/-- Wait and go on with one attempt more. -/
def retryWith (s : RequestState) (round : Reaction → Round) (seconds : Except RequestExc ℚ) :
    RequestState ⊕ CompletedCall :=
  match seconds with
  | .ok seconds =>
    .inl { s with attempt := s.attempt + 1, rounds := s.rounds ++ [round (.wait seconds)] }
  | .error exc => .inr ⟨.error exc, s.rounds ++ [round .stop]⟩

/-- One pass of `while True`. -/
def requestStep (n : Nat) (s : RequestState) : RequestState ⊕ CompletedCall :=
  let token := env.token n
  let round : Reaction → Round := Round.mk token (env.outcome n)
  match env.outcome n with
  | .failed =>
    if env.maxRetries ≤ s.attempt then
      .inr ⟨.error (.provider requestFailed), s.rounds ++ [round .stop]⟩
    else retryWith s round (backoff (1 / 10) (s.attempt + 1))
  | .answered response =>
    if response.status = 401 ∧ s.authRetried = false then
      .inl { s with authRetried := true, rounds := s.rounds ++ [round (.invalidate token)] }
    else if response.status < 400 then .inr ⟨.ok response, s.rounds ++ [round .stop]⟩
    else if response.status = 429 ∧ s.attempt < env.maxRetries then
      retryWith s round (.ok (response.retryAfter env.readers))
    else if (500 ≤ response.status ∧ response.status < 600) ∧ s.attempt < env.maxRetries then
      retryWith s round (backoff (if env.chart then 2 / 10 else 1 / 10) (s.attempt + 1))
    else
      .inr ⟨.error (.provider (responseError env.readers response)), s.rounds ++ [round .stop]⟩

/-- `_request`. -/
def request (fuel : Nat) : Option CompletedCall := drive (requestStep env) fuel 0 .start

end Loop

end Screener.Market
