import Screener.Backtest.ServiceAtomicity

/-!
# Requests for a backtest

`BacktestCreateRequest` validates its parameters under the request's execution mode,
`create_backtest` passes the parameters on, and the executor selects its mode from
what it is given. The three agree unless the mode is left out and the parameters
carry one of their own.
-/

namespace Screener.Backtest

open Screener.Lib
open Screener.Market (Date Symbol DailyBarRecord)

/-! ## The request -/

inductive ExecutionMode where
  | independent
  | portfolio
deriving DecidableEq, Repr

def ExecutionMode.value : ExecutionMode → String
  | .independent => "independent"
  | .portfolio => "portfolio"

/-- The literal types of the name and of the version admit nothing else. A field that
was not set is `none`. -/
structure BacktestCreateRequest where
  strategyName : String
  strategyVersion : Option String
  parameters : Dict String Value
  startDate : Date
  endDate : Date
  executionMode? : Option ExecutionMode
  named : strategyName = "watchlist_entry"
  versioned : strategyVersion = none ∨ strategyVersion = some "1"

namespace BacktestCreateRequest

variable (request : BacktestCreateRequest)

def executionMode : ExecutionMode := request.executionMode?.getD .independent

/-- `{**self.parameters, "execution_mode": self.execution_mode}`. -/
def values : Dict String Value :=
  request.parameters.set "execution_mode" (.str request.executionMode.value)

def validateModeParameters : Except ExecutionError Unit :=
  match request.executionMode with
  | .portfolio => do
    let _ ← PortfolioParameters.parse request.values
    return ()
  | .independent => do
    if (portfolioOnly.filter fun key => request.values.contains key) ≠ [] then
      throw (.valueError "portfolio parameters are incompatible with independent mode")
    let _ ← BacktestParameters.parse request.values
    return ()

/-- The parameters that `create_backtest` passes to the service. -/
def passedParameters : Dict String Value :=
  match request.executionMode? with
  | some mode => request.parameters.set "execution_mode" (.str mode.value)
  | none => request.parameters

/-- The call of the service. -/
def createBacktest : CreateRequest :=
  ⟨request.strategyName, request.startDate, request.endDate, request.strategyVersion,
    request.passedParameters⟩

/-- The run that the service hands to the executor. -/
def run (id : UUID) : BacktestRun where
  id := id
  strategyName := request.strategyName
  startDate := request.startDate
  endDate := request.endDate
  status := .running
  strategyVersion := some "1"
  parameters := request.passedParameters
  result := none
  failureCode := none
  failureMessage := none

end BacktestCreateRequest

/-! ## The mode is no trading parameter -/

section Mode

variable (supplied : Dict String Value) (mode : Value)

theorem getD_set_mode {name : String} (hname : name ≠ "execution_mode") (default : Value) :
    (supplied.set "execution_mode" mode).getD name default = supplied.getD name default := by
  rw [Dict.getD, Dict.getD, Dict.get?_set, if_neg hname]

theorem decimalValue_set_mode {name : String} (hname : name ≠ "execution_mode") (default : ℚ) :
    BacktestParameters.decimalValue (supplied.set "execution_mode" mode) name default =
      BacktestParameters.decimalValue supplied name default := by
  rw [BacktestParameters.decimalValue, BacktestParameters.decimalValue,
    getD_set_mode supplied mode hname]

theorem parse_set_mode :
    BacktestParameters.parse (supplied.set "execution_mode" mode) =
      BacktestParameters.parse supplied := by
  have hread : BacktestParameters.read (supplied.set "execution_mode" mode) =
      BacktestParameters.read supplied := by
    simp (disch := decide) only [BacktestParameters.read, BacktestParameters.holdingDays,
      getD_set_mode, decimalValue_set_mode]
  rw [BacktestParameters.parse, BacktestParameters.parse, hread]

theorem contains_set_mode {name : String} (hname : name ≠ "execution_mode") :
    (supplied.set "execution_mode" mode).contains name = supplied.contains name := by
  rw [Dict.contains, Dict.contains]
  exact decide_eq_decide.mpr (Dict.mem_keys_set.trans (or_iff_right hname))

theorem portfolioOnly_set_mode :
    (portfolioOnly.filter fun key => (supplied.set "execution_mode" mode).contains key) =
      portfolioOnly.filter fun key => supplied.contains key := by
  refine List.filter_congr fun key hkey => contains_set_mode supplied mode ?_
  rintro rfl
  exact absurd hkey (by decide)

end Mode

/-! ## Past its parameters an executor never raises `InvalidBacktestParameters` -/

def ExecutionError.IsInvalid : ExecutionError → Prop
  | .invalidParameters _ => True
  | _ => False

section Valid

variable {run : RunRequest} {generated : List BacktestSignal} {dailyBars : List DailyBarRecord}
  {uuid4 : Nat → UUID}

abbrev NeverInvalid {α : Type} (x : Except ExecutionError α) : Prop :=
  OnlyRaises (fun error => ¬ error.IsInvalid) x

theorem divide_valid (d : DecimalContext) (a b : ℚ) : NeverInvalid (d.divide a b) := by
  refine OnlyRaises.map ?_
  unfold divide
  split_ifs
  · exact OnlyRaises.error id
  · exact OnlyRaises.error id
  · exact OnlyRaises.ok _

theorem quantize_valid (d : DecimalContext) (q : ℚ) : NeverInvalid (d.quantize q) :=
  OnlyRaises.ite (OnlyRaises.ok _) (OnlyRaises.error id)

theorem simulateSignal_valid (d : DecimalContext) (signal : BacktestSignal) (bars : List DailyBar)
    (p : BacktestParameters) (id : UUID) :
    NeverInvalid (d.simulateSignal run signal bars p id) := by
  unfold DecimalContext.simulateSignal
  cases eligibleBars run signal bars with
  | nil => exact OnlyRaises.ok _
  | cons entryBar later =>
    exact (divide_valid d _ _).bind fun _ _ =>
      OnlyRaises.ite (OnlyRaises.ok _)
        (OnlyRaises.ite (OnlyRaises.ok _) (OnlyRaises.error fun h => h))

theorem simulateNext_valid (d : DecimalContext) (p : BacktestParameters)
    (bars : Symbol → List DailyBar) (trades : List BacktestTrade) (signal : BacktestSignal) :
    NeverInvalid (d.simulateNext run p bars uuid4 trades signal) := by
  refine (simulateSignal_valid d _ _ _ _).bind fun outcome _ => ?_
  cases outcome with
  | trade trade => exact OnlyRaises.ok _
  | skipped reason => exact OnlyRaises.ok _

theorem addSymbolBar_valid (index : Dict Symbol (List DailyBar) × List (Symbol × Date))
    (row : DailyBar) : NeverInvalid (addSymbolBar index row) :=
  OnlyRaises.ite (OnlyRaises.error id) (OnlyRaises.ok _)

theorem executeIndependent_valid (d : DecimalContext) {p : BacktestParameters}
    (hkeys : (portfolioOnly.filter fun key => run.parameters.contains key) = [])
    (hparse : BacktestParameters.parse run.parameters = .ok p) :
    NeverInvalid (d.executeIndependent run generated dailyBars uuid4) := by
  unfold DecimalContext.executeIndependent
  rw [hparse]
  refine OnlyRaises.bind ?_ fun _ _ => (OnlyRaises.ok p).bind fun q _ => ?_
  · rw [show require _ _ = .ok () from require_ok.mpr hkeys]
    exact OnlyRaises.ok ()
  refine (OnlyRaises.foldlM (fun index row _ => addSymbolBar_valid index row) _).bind fun index _ =>
    ?_
  exact (OnlyRaises.foldlM (fun trades signal _ => simulateNext_valid d q _ trades signal) _).bind
    fun _ _ => OnlyRaises.ok _

theorem findEntryDate_valid (byDate : Dict Date (Dict Symbol DailyBar)) (signal : BacktestSignal)
    (dates : List Date) : NeverInvalid (findEntryDate byDate signal dates) := by
  induction dates with
  | nil => exact OnlyRaises.ok _
  | cons day rest ih =>
    unfold findEntryDate
    refine OnlyRaises.ite ?_ ih
    cases byDate.get? day with
    | none => exact OnlyRaises.error id
    | some bars => exact OnlyRaises.ite (OnlyRaises.ok _) ih

theorem scheduleOne_valid (dates : List Date) (byDate : Dict Date (Dict Symbol DailyBar))
    (schedule : Schedule) (signal : BacktestSignal) :
    NeverInvalid (scheduleOne dates byDate schedule signal) := by
  refine (findEntryDate_valid byDate signal dates).bind fun found _ => ?_
  cases found with
  | none => exact OnlyRaises.ok _
  | some day => exact OnlyRaises.ok _

theorem closePosition_valid (d : DecimalContext) (c : Context) (ledger : Ledger) (symbol : Symbol)
    (position : OpenPosition) (day : Date) (raw : ℚ) (reason : BacktestExitReason) :
    NeverInvalid (d.closePosition c ledger symbol position day raw reason) :=
  OnlyRaises.ite (OnlyRaises.ok _) (OnlyRaises.error id)

theorem exitOne_valid (d : DecimalContext) (c : Context) (day : Date) (ledger : Ledger)
    (symbol : Symbol) : NeverInvalid
      (d.exitOne c day (c.bars day) (c.final day) ledger symbol) := by
  unfold DecimalContext.exitOne
  split
  · exact OnlyRaises.error id
  · split
    · exact OnlyRaises.ok _
    · dsimp only
      split
      · exact OnlyRaises.ok _
      · exact closePosition_valid d c _ symbol _ day _ _

theorem enterOne_valid (d : DecimalContext) (c : Context) (day : Date) (ledger : Ledger)
    (signal : BacktestSignal) : NeverInvalid (d.enterOne c day (c.bars day) ledger signal) := by
  unfold DecimalContext.enterOne
  split
  · exact OnlyRaises.error id
  · split
    · exact OnlyRaises.ok _
    · exact OnlyRaises.ite (OnlyRaises.ok _) (OnlyRaises.ok _)

theorem liquidateOne_valid (d : DecimalContext) (c : Context) (day : Date) (ledger : Ledger)
    (symbol : Symbol) : NeverInvalid (d.liquidateOne c day (c.bars day) ledger symbol) := by
  unfold DecimalContext.liquidateOne
  split
  · exact OnlyRaises.error id
  · refine OnlyRaises.ite ?_ (OnlyRaises.ok _)
    split
    · exact OnlyRaises.error id
    · exact closePosition_valid d c _ symbol _ day _ _

theorem runDay_valid (d : DecimalContext) (c : Context) (ledger : Ledger) (day : Date) :
    NeverInvalid (d.runDay c ledger day) := by
  refine (OnlyRaises.foldlM (fun ledger symbol _ => exitOne_valid d c day ledger symbol)
    ledger).bind
    fun ledger _ => ?_
  refine (OnlyRaises.foldlM (fun ledger signal _ => enterOne_valid d c day ledger signal)
    ledger).bind fun ledger _ => ?_
  refine OnlyRaises.bind ?_ fun _ _ => OnlyRaises.ite (OnlyRaises.ok _) (OnlyRaises.error id)
  exact OnlyRaises.ite
    (OnlyRaises.foldlM (fun ledger symbol _ => liquidateOne_valid d c day ledger symbol) ledger)
    (OnlyRaises.ok _)

theorem executePortfolio_valid (d : DecimalContext) {p : PortfolioParameters}
    (hparse : PortfolioParameters.parse run.parameters = .ok p) :
    NeverInvalid (d.executePortfolio run generated dailyBars uuid4) := by
  have hadd : ∀ index row, NeverInvalid (addBar index row) := fun index row =>
    OnlyRaises.ite (OnlyRaises.error id) (OnlyRaises.ok _)
  have hcreate : NeverInvalid (PortfolioState.create p.initialCapital) :=
    OnlyRaises.ite (OnlyRaises.error id) (OnlyRaises.ok _)
  have hindex : ∀ rows, NeverInvalid (indexBars rows) := fun rows =>
    (OnlyRaises.foldlM (fun index row _ => hadd index row) _).bind fun _ _ => OnlyRaises.ok _
  unfold DecimalContext.executePortfolio
  rw [hparse]
  refine (OnlyRaises.ok p).bind fun q hq => ?_
  obtain rfl := Except.ok.inj hq
  refine (hindex _).bind fun byDate _ => ?_
  refine (OnlyRaises.foldlM (fun schedule signal _ => scheduleOne_valid _ _ schedule signal) _).bind
    fun schedule _ => ?_
  refine hcreate.bind fun state _ => ?_
  exact (OnlyRaises.foldlM (fun ledger day _ => runDay_valid d _ ledger day) _).bind
    fun _ _ => OnlyRaises.ok _

end Valid

theorem profitFactor_valid (d : DecimalContext) (profit loss : ℚ) :
    NeverInvalid (d.profitFactor profit loss) := by
  unfold DecimalContext.profitFactor
  exact OnlyRaises.ite (OnlyRaises.ok _) ((divide_valid d _ _).bind fun _ _ =>
    (quantize_valid d _).bind fun _ _ => OnlyRaises.ok _)

theorem calculateMetrics_valid (d : DecimalContext) (trades : List BacktestTrade)
    (totalSignals : Nat) (p : BacktestParameters) :
    NeverInvalid (d.calculateMetrics trades totalSignals p) := by
  have hquantize : ∀ q : ℚ, NeverInvalid (d.quantize q) := quantize_valid d
  have hreturns : NeverInvalid (trades.mapM fun t =>
      d.divide t.netPnl (d.round (t.entryPrice * t.quantity))) :=
    OnlyRaises.mapM fun t _ => divide_valid d _ _
  unfold DecimalContext.calculateMetrics
  refine (hquantize _).bind fun _ _ => (hquantize _).bind fun _ _ => (hquantize _).bind fun _ _ =>
    (hquantize _).bind fun _ _ => (hquantize _).bind fun _ _ => ?_
  refine (divide_valid d _ _).bind fun _ _ => (hquantize _).bind fun _ _ => ?_
  refine hreturns.bind fun _ _ => (hquantize _).bind fun _ _ => (hquantize _).bind fun _ _ => ?_
  exact (profitFactor_valid d _ _).bind fun _ _ => (hquantize _).bind fun _ _ => OnlyRaises.ok _

/-! ## Agreement -/

variable {request : BacktestCreateRequest} {env : Environment} {id : UUID}

theorem contract_request :
    validateStrategyContract request.strategyName request.strategyVersion =
      .ok ("watchlist_entry", "1") := by
  rw [request.named]
  rcases request.versioned with hversion | hversion
  · rw [hversion]
    decide +kernel
  · rw [hversion]
    decide +kernel

/-- The service executes this run wherever it accepts the range of the dates. -/
theorem newRun_run {maxRangeDays : ℤ} {created : BacktestRun}
    (h : newRun maxRangeDays id request.createBacktest = .ok created) :
    created.running = request.run id := by
  have hstrip : stripText "watchlist_entry" = "watchlist_entry" := by decide +kernel
  have hversion : ((some "1").map stripText).filter (· ≠ "") = some "1" := by decide +kernel
  obtain ⟨contract, hcontract, h⟩ := bind_ok.mp h
  rw [mapError_ok, BacktestCreateRequest.createBacktest, contract_request] at hcontract
  obtain rfl := Except.ok.inj hcontract
  split at h
  · simp [throw, throwThe, MonadExceptOf.throw, bind, Except.bind] at h
  · simp only [BacktestRun.create, hstrip, hversion] at h
    split_ifs at h
    rw [← Except.ok.inj h, BacktestRun.running, BacktestCreateRequest.run, request.named]
    rfl

/-- The executor gets past its parameters and selects the mode of the request. -/
structure Executable (request : BacktestCreateRequest) : Prop where
  mode : ∀ id, executionMode (request.run id) = .str request.executionMode.value
  parameters : ∀ env id session error after,
    execute env (request.run id) session = (.error (.app (.execution error)), after) →
      ¬ error.IsInvalid

/-- The mode was given, or the parameters have no other one. -/
def BacktestCreateRequest.OwnMode (request : BacktestCreateRequest) : Prop :=
  request.executionMode? ≠ none ∨
    request.parameters.getD "execution_mode" (.str "independent") = .str "independent"

theorem executionMode_run :
    executionMode (request.run id) = .str request.executionMode.value ↔ request.OwnMode := by
  obtain ⟨name, version, parameters, startDate, endDate, mode?, named, versioned⟩ := request
  cases mode? with
  | some mode =>
    refine iff_of_true ?_ (.inl (Option.some_ne_none mode))
    show (parameters.set "execution_mode" (.str mode.value)).getD "execution_mode" _ = _
    rw [Dict.getD, Dict.get?_set, if_pos rfl]
    rfl
  | none =>
    exact (or_iff_right fun h => h rfl).symm

theorem passedParameters_portfolio (h : request.executionMode = .portfolio) :
    request.values = request.passedParameters := by
  obtain ⟨name, version, parameters, startDate, endDate, mode?, named, versioned⟩ := request
  cases mode? with
  | some mode => rfl
  | none => cases h

/-- Passed on with the mode or without it, the other parameters are the same. -/
theorem passedParameters_eq (request : BacktestCreateRequest) :
    request.passedParameters = request.parameters ∨
      ∃ mode, request.passedParameters = request.parameters.set "execution_mode" mode := by
  unfold BacktestCreateRequest.passedParameters
  cases request.executionMode? with
  | some mode => exact .inr ⟨_, rfl⟩
  | none => exact .inl rfl

theorem parse_passed :
    BacktestParameters.parse request.passedParameters =
      BacktestParameters.parse request.parameters := by
  rcases passedParameters_eq request with h | ⟨mode, h⟩
  · rw [h]
  · rw [h, parse_set_mode]

theorem portfolioOnly_passed :
    (portfolioOnly.filter fun key => request.passedParameters.contains key) =
      portfolioOnly.filter fun key => request.parameters.contains key := by
  rcases passedParameters_eq request with h | ⟨mode, h⟩
  · rw [h]
  · rw [h, portfolioOnly_set_mode]

/-- What the validation accepts is accepted by the executor that is selected. -/
theorem plan_valid (hvalid : request.validateModeParameters = .ok ()) (hmode : request.OwnMode) :
    NeverInvalid (plan env (request.run id)) := by
  have hselected : executionMode (request.run id) = .str request.executionMode.value :=
    executionMode_run.mpr hmode
  have hcontract : validateStrategyContract (request.run id).strategyName
      (request.run id).strategyVersion = .ok ("watchlist_entry", "1") := by
    show validateStrategyContract request.strategyName (some "1") = _
    rw [request.named]
    decide +kernel
  unfold plan
  rw [hcontract, hselected]
  unfold BacktestCreateRequest.validateModeParameters at hvalid
  refine (OnlyRaises.ok _).bind fun requested hrequested => ?_
  obtain rfl := Except.ok.inj hrequested
  cases hrequest : request.executionMode with
  | portfolio =>
    rw [hrequest] at hvalid
    obtain ⟨p, hparse, -⟩ := bind_ok.mp hvalid
    rw [passedParameters_portfolio hrequest] at hparse
    have hrun : PortfolioParameters.parse (request.run id).request.parameters = .ok p := hparse
    exact (executePortfolio_valid _ hrun).bind fun _ _ => OnlyRaises.ok _
  | independent =>
    rw [hrequest] at hvalid
    dsimp only at hvalid
    split at hvalid
    · cases hvalid
    · rename_i hkeys
      obtain ⟨p, hparse, -⟩ := bind_ok.mp hvalid
      rw [BacktestCreateRequest.values, parse_set_mode] at hparse
      rw [BacktestCreateRequest.values, portfolioOnly_set_mode] at hkeys
      rw [← parse_passed] at hparse
      rw [← portfolioOnly_passed] at hkeys
      have hrun : BacktestParameters.parse (request.run id).request.parameters = .ok p := hparse
      have hnone : (portfolioOnly.filter fun key =>
          (request.run id).request.parameters.contains key) = [] := not_not.mp hkeys
      exact (executeIndependent_valid _ hnone hrun).bind fun _ _ => OnlyRaises.ok _

theorem result_valid {run : BacktestRun} {planned : Plan} (h : plan env run = .ok planned) :
    NeverInvalid planned.result := by
  rcases plan_cases h with ⟨-, e, -, rfl⟩ | ⟨-, x, -, rfl⟩
  · exact OnlyRaises.map (OnlyRaises.ite (OnlyRaises.ok _) (OnlyRaises.error id))
  · exact (calculateMetrics_valid _ _ _ _).map

/-- What a service call raises is not `InvalidBacktestParameters` of an executor. -/
def NotInvalid (raised : Raised ServiceError) : Prop :=
  ∀ error, raised = .app (.execution error) → ¬ error.IsInvalid

theorem liftExecution_valid {α : Type} {x : Except ExecutionError α} (h : NeverInvalid x) :
    Transaction.OnlyRaises NotInvalid (liftExecution x) := by
  refine Transaction.OnlyRaises.lift fun e he error heq => ?_
  obtain rfl := Raised.app.inj heq
  cases x with
  | ok a => cases he
  | error e' => exact h error (congrArg _ (ServiceError.execution.inj (Except.error.inj he)))

/-- The write of an executor raises only what the session raises. -/
theorem execute_valid {run : BacktestRun} (hplan : NeverInvalid (plan env run)) :
    Transaction.OnlyRaises NotInvalid (execute env run) := by
  intro session raised after hrun
  cases hplanned : plan env run with
  | error e =>
    rw [execute_fails hplanned] at hrun
    rw [← Except.error.inj (Prod.mk.inj hrun).1]
    intro error heq
    rw [← ServiceError.execution.inj (Raised.app.inj heq)]
    exact hplan e hplanned
  | ok planned =>
    have hwrite : Transaction.OnlyRaises NotInvalid (Transaction.flush fun tables : Tables =>
        tables.insertRows env planned.trades planned.snapshots) :=
      Transaction.OnlyRaises.flush (fun _ _ h => nomatch h) fun _ h => nomatch h
    have hresult := liftExecution_valid (result_valid hplanned)
    rw [execute_planned hplanned] at hrun
    split at hrun
    · exact hwrite.bind (fun _ => hresult) session raised after hrun
    · exact (hwrite.nested fun _ h => nomatch h).bind (fun _ => hresult) session raised after hrun

/-- **Validation and execution.** A request that the validation accepts is executed in
its mode and never refused for its parameters, exactly when the mode was given or the
parameters carry no other one. -/
theorem validation_agrees_iff (hvalid : request.validateModeParameters = .ok ()) :
    Executable request ↔ request.OwnMode := by
  constructor
  · exact fun h => executionMode_run.mp (h.mode 0)
  · intro hmode
    refine ⟨fun id => executionMode_run.mpr hmode, ?_⟩
    intro env id session error after hrun
    exact execute_valid (plan_valid hvalid hmode) session _ after hrun error rfl

def requestOf (parameters : Dict String Value) (mode? : Option ExecutionMode) :
    BacktestCreateRequest :=
  ⟨"watchlist_entry", some "1", parameters, 1, 3, mode?, rfl, .inr rfl⟩

/-- Portfolio mode is given beside parameters that name the other one. -/
def overriddenRequest : BacktestCreateRequest :=
  requestOf ⟨[("execution_mode", .str "independent"), ("initial_capital", .str "1000000"),
    ("max_open_positions", .int 1), ("position_sizing_mode", .str "fixed_fraction"),
    ("position_size_pct", .str "0.5"), ("minimum_cash_buffer_pct", .int 0)], by decide⟩
    (some .portfolio)

theorem validation_agrees_sample : Executable overriddenRequest := by
  have hvalid : overriddenRequest.validateModeParameters = .ok () := by decide +kernel
  exact (validation_agrees_iff hvalid).mpr (.inl (Option.some_ne_none _))

/-- Portfolio mode is named by the parameters alone. -/
def smuggledRequest : BacktestCreateRequest :=
  requestOf ⟨[("execution_mode", .str "portfolio")], by decide⟩ none

/-- The validation reads independent mode, the executor portfolio mode, whose
parameters are missing. -/
theorem smuggled_mode_refused :
    smuggledRequest.validateModeParameters = .ok () ∧
      executionMode (smuggledRequest.run 7) = .str "portfolio" ∧
      (execute (twoDays []) (smuggledRequest.run 7) (Session.begin Tables.empty)).1 =
        .error (.app (.execution (.invalidParameters ("portfolio mode requires: " ++
          "initial_capital, max_open_positions, position_sizing_mode, position_size_pct, " ++
          "minimum_cash_buffer_pct")))) ∧
      ¬ Executable smuggledRequest := by
  have hmode : executionMode (smuggledRequest.run 7) = .str "portfolio" := by decide +kernel
  refine ⟨by decide +kernel, hmode, by decide +kernel, fun hexecutable => ?_⟩
  have hown := hexecutable.mode 7
  rw [hmode] at hown
  exact absurd hown (by decide +kernel)

end Screener.Backtest
