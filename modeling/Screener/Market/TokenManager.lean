import Screener.Lib.DecimalText
import Screener.Lib.Dict
import Screener.Lib.Machine
import Screener.Market.DailyBars

/-!
# The token cache

Any number of tasks call `get` and `invalidate` of one `TokenManager`. A call runs up to
its `async with self._lock` or its return; whenever the lock is free it goes to any task
that waits for it, and a `get` that finds no valid token keeps it until the issuer has
answered. The clock does not go back, and the issuer fails or answers with a token that
it has not issued before and that lasts longer than the skew.
-/

namespace Screener.Market

open Screener.Lib

abbrev TaskId := Nat

/-- A token that has passed its validators. -/
structure IssuedToken where
  accessToken : String
  expiresIn : Nat
  notBlank : DecimalText.strip accessToken.toList ≠ []
  positive : 0 < expiresIn
deriving DecidableEq

/-- `timedelta(seconds=issued.expires_in)`. -/
def IssuedToken.lifetime (issued : IssuedToken) : Instant := issued.expiresIn * 1000000

/-- `datetime.min.replace(tzinfo=UTC)`. -/
def datetimeMin : Instant := -62135596800000000

structure TokenManager where
  token : Option String
  expiresAt : Instant
  lock : Option TaskId
deriving DecidableEq, Repr

namespace TokenManager

def new : TokenManager := ⟨none, datetimeMin, none⟩

/-- `_valid`, read at `now`. -/
def valid (m : TokenManager) (skew now : Instant) : Bool :=
  m.token.isSome && decide (now + skew < m.expiresAt)

/-- The cached token, as a valid `get` returns it. -/
def cached (m : TokenManager) : String := m.token.getD ""

def store (m : TokenManager) (issued : IssuedToken) (now : Instant) : TokenManager :=
  { m with token := some issued.accessToken, expiresAt := now + issued.lifetime }

/-- The body of `invalidate`. -/
def discard (m : TokenManager) (rejectedToken : String) : TokenManager :=
  if m.token = some rejectedToken then { m with token := none, expiresAt := datetimeMin } else m

end TokenManager

/-! ## Tasks -/

/-- Where a task is suspended; a task without a call is not listed. -/
inductive TokenCall where
  | gettingLock
  | issuing
  | invalidating (rejectedToken : String)
deriving DecidableEq, Repr

inductive TokenAction where
  | get (task : TaskId) (now : Instant)
  | getLocked (task : TaskId) (now : Instant)
  | issued (task : TaskId) (issued : IssuedToken) (now : Instant)
  | issuerFailed (task : TaskId)
  | invalidate (task : TaskId) (rejectedToken : String)
  | invalidateLocked (task : TaskId)
deriving DecidableEq

def TokenAction.task : TokenAction → TaskId
  | .get task _ | .getLocked task _ | .issued task _ _ | .issuerFailed task | .invalidate task _
  | .invalidateLocked task => task

/-- The manager and the tasks. No step reads the last three: the tokens issued so far,
the calls of the issuer and the last token that each task got. -/
structure TokenSystem where
  manager : TokenManager
  tasks : Dict TaskId TokenCall
  clock : Instant
  issued : List String
  issuerCalls : Nat
  received : Dict TaskId String
deriving DecidableEq, Repr

namespace TokenSystem

variable (s : TokenSystem)

def valid (skew : Instant) : Bool := s.manager.valid skew s.clock

/-- The call of the task returns the token. -/
def answer (task : TaskId) (token : String) : TokenSystem :=
  { s with tasks := s.tasks.erase task, received := s.received.set task token }

def suspend (task : TaskId) (call : TokenCall) : TokenSystem :=
  { s with tasks := s.tasks.set task call }

def tick (now : Instant) : TokenSystem := { s with clock := now }

variable (skew : Instant)

/-- Up to the lock. -/
def get (task : TaskId) : TokenSystem :=
  if s.valid skew then s.answer task s.manager.cached else s.suspend task .gettingLock

/-- From the lock to the call of the issuer. -/
def getLocked (task : TaskId) : TokenSystem :=
  if s.valid skew then s.answer task s.manager.cached
  else { s.suspend task .issuing with
    manager := { s.manager with lock := some task }
    issuerCalls := s.issuerCalls + 1 }

/-- The issuer has answered: the token is stored and the lock released. -/
def storeIssued (task : TaskId) (issued : IssuedToken) : TokenSystem :=
  { s.answer task issued.accessToken with
    manager := { s.manager.store issued s.clock with lock := none }
    issued := s.issued ++ [issued.accessToken] }

/-- The issuer has raised. -/
def release (task : TaskId) : TokenSystem :=
  { s with tasks := s.tasks.erase task, manager := { s.manager with lock := none } }

def discard (task : TaskId) (rejectedToken : String) : TokenSystem :=
  { s with tasks := s.tasks.erase task, manager := s.manager.discard rejectedToken }

def step : TokenAction → Option TokenSystem
  | .get task now =>
    if s.tasks.get? task = none ∧ s.clock ≤ now then some ((s.tick now).get skew task) else none
  | .getLocked task now =>
    if s.tasks.get? task = some .gettingLock ∧ s.manager.lock = none ∧ s.clock ≤ now then
      some ((s.tick now).getLocked skew task)
    else none
  | .issued task issued now =>
    if s.tasks.get? task = some .issuing ∧ s.clock ≤ now ∧ issued.accessToken ∉ s.issued ∧
        skew < issued.lifetime then
      some ((s.tick now).storeIssued task issued)
    else none
  | .issuerFailed task =>
    if s.tasks.get? task = some .issuing then some (s.release task) else none
  | .invalidate task rejectedToken =>
    if s.tasks.get? task = none then some (s.suspend task (.invalidating rejectedToken)) else none
  | .invalidateLocked task =>
    match s.tasks.get? task with
    | some (.invalidating rejectedToken) =>
      if s.manager.lock = none then some (s.discard task rejectedToken) else none
    | _ => none

/-- A manager that no task has called. -/
def Initial : Prop :=
  s.manager = .new ∧ s.tasks = Dict.empty ∧ s.issued = [] ∧ s.issuerCalls = 0 ∧
    s.received = Dict.empty

end TokenSystem

def tokens (skew : Instant) : Machine TokenSystem TokenAction where
  init := TokenSystem.Initial
  step s a t := s.step skew a = some t

end Screener.Market
