import KiteAlgo.LiveOrders

/-!
# KiteAlgo.Baskets

Live basket executions (`orders/basket_execution.py`): one row for each basket, one for
each of its legs, and the statements that the submitting thread and the order event
processor run on them.

An update of an order finds its leg through `live_order_intents`; it overwrites the leg
row and then recomputes the aggregate of the basket from all its legs.  The marks of the
submitting thread change leg rows only, and `finalizeSubmission` recomputes the
aggregate once more.  The worker timeline, request texts and timestamps are left out.
-/

namespace KiteAlgo.Baskets

/-! ## legs -/

inductive LegStatus where
  | pendingSubmit
  | working
  | submitFailed
  | filled
  | cancelled
  | rejected
  | partialTerminal
  deriving DecidableEq, Repr

/-- `TERMINAL_LEG_STATES`. -/
def LegStatus.terminal : LegStatus → Bool
  | .submitFailed | .filled | .cancelled | .rejected | .partialTerminal => true
  | .pendingSubmit | .working => false

def normalizeLegState (brokerStatus : String) (filledQuantity requestedQuantity : Int) :
    LegStatus :=
  let status := Text.upper brokerStatus
  let filled := max 0 filledQuantity
  let requested := max 0 requestedQuantity
  let terminal := decide (status ∈ terminalOrderStatuses)
  if terminal && decide (0 < requested) && decide (requested ≤ filled) then .filled
  else if terminal && decide (filled = 0) && decide (status = "REJECTED") then .rejected
  else if terminal && decide (filled = 0) && decide (status ∈ ["CANCELLED", "LAPSED"]) then
    .cancelled
  else if terminal && decide (0 < filled) && decide (filled < requested) then .partialTerminal
  else .working

/-- A row of `basket_execution_legs`; `submitError` is the entry of `request_json`. -/
structure Leg where
  basketExecutionId : String
  legIndex : Nat
  status : LegStatus := .pendingSubmit
  requestedQuantity : Int := 0
  brokerOrderId : Option String := none
  clientOrderRef : Option String := none
  latestBrokerStatus : Option String := none
  lastSeenFilledQuantity : Int := 0
  averagePrice : Option ℚ := none
  submitError : Option String := none
  deriving DecidableEq

namespace Leg

def key (leg : Leg) : String × Nat := (leg.basketExecutionId, leg.legIndex)

/-- The row `mark_leg_submit_failed` writes. -/
def submitFailed (errorMessage : Option String) (leg : Leg) : Leg :=
  { leg with
    status := .submitFailed
    latestBrokerStatus := some "SUBMIT_FAILED"
    submitError := errorMessage.orElse fun _ => leg.submitError }

/-- The row `mark_leg_working` writes. -/
def working (brokerOrderId : String) (clientOrderRef : Option String) (leg : Leg) : Leg :=
  { leg with
    status := .working
    brokerOrderId := some brokerOrderId
    clientOrderRef := clientOrderRef.orElse fun _ => leg.clientOrderRef
    latestBrokerStatus := some "OPEN" }

def updated (event : OrderEvent) (leg : Leg) : Leg :=
  { leg with
    status := normalizeLegState event.status event.filled leg.requestedQuantity
    latestBrokerStatus := some event.status
    lastSeenFilledQuantity := event.filled
    averagePrice := event.averagePrice }

@[simp] theorem key_submitFailed (e : Option String) (leg : Leg) : (leg.submitFailed e).key = leg.key :=
  rfl

@[simp] theorem key_working (o : String) (r : Option String) (leg : Leg) :
    (leg.working o r).key = leg.key := rfl

@[simp] theorem key_updated (event : OrderEvent) (leg : Leg) : (leg.updated event).key = leg.key := rfl

/-- Has the whole requested quantity been filled? -/
def complete (leg : Leg) : Bool :=
  decide (0 < max 0 leg.requestedQuantity) &&
    decide (max 0 leg.requestedQuantity ≤ max 0 leg.lastSeenFilledQuantity)

/-- Is the leg still to be submitted, or at the broker? -/
def live (leg : Leg) : Bool := !leg.status.terminal

end Leg

/-! ## baskets -/

/-- The states of a basket; `partlyFilled` is the text `partial`. -/
inductive BasketStatus where
  | submitting
  | active
  | completed
  | failed
  | partlyFilled
  deriving DecidableEq, Repr

/-- What `recompute_basket_status` returns. -/
structure Summary where
  status : BasketStatus
  requestedLegCount : Nat
  completedLegCount : Nat
  terminalLegCount : Nat
  totalRequestedQuantity : Int
  totalFilledQuantity : Int
  deriving DecidableEq, Repr

def totalFilled (legs : List Leg) : Int :=
  (legs.map fun leg => max 0 leg.lastSeenFilledQuantity).sum

def recomputeBasketStatus (legs : List Leg) : Summary :=
  let requestedLegCount := legs.length
  let completedLegCount := legs.countP Leg.complete
  let terminalLegCount := legs.countP fun leg => leg.status.terminal
  { status :=
      if legs.any fun leg => decide (leg.status = .working) then .active
      else if 0 < requestedLegCount ∧ completedLegCount = requestedLegCount then .completed
      else if 0 < requestedLegCount ∧ terminalLegCount = requestedLegCount ∧
          totalFilled legs = 0 then .failed
      else .partlyFilled
    requestedLegCount
    completedLegCount
    terminalLegCount
    totalRequestedQuantity := (legs.map fun leg => max 0 leg.requestedQuantity).sum
    totalFilledQuantity := totalFilled legs }

/-- The outcome of a rollback; `none` is the text `none`. -/
inductive RollbackStatus where
  | none
  | completed
  | failed
  deriving DecidableEq, Repr

/-- A row of `basket_executions`. -/
structure Basket where
  basketExecutionId : String
  strategyRunId : String
  accountId : String
  status : BasketStatus := .submitting
  allOrNone : Bool := false
  actionRequired : Bool := false
  actionReason : Option String := none
  rollbackStatus : RollbackStatus := .none
  requestedLegCount : Nat := 0
  completedLegCount : Nat := 0
  terminalLegCount : Nat := 0
  totalRequestedQuantity : Int := 0
  totalFilledQuantity : Int := 0
  deriving DecidableEq, Repr

namespace Basket

/-- The row `_recompute_and_update` writes. -/
def recomputed (summary : Summary) (basket : Basket) : Basket :=
  { basket with
    status := summary.status
    requestedLegCount := summary.requestedLegCount
    completedLegCount := summary.completedLegCount
    terminalLegCount := summary.terminalLegCount
    totalRequestedQuantity := summary.totalRequestedQuantity
    totalFilledQuantity := summary.totalFilledQuantity }

/-- The row `finalize_submission` writes after the recomputation. -/
def finalized (status : BasketStatus) (rollbackStatus : RollbackStatus) (actionRequired : Bool)
    (actionReason : Option String) (basket : Basket) : Basket :=
  { basket with
    status
    rollbackStatus
    actionRequired
    actionReason }

/-- The row `mark_projection_inconsistent_if_linked` writes. -/
def inconsistent (basket : Basket) : Basket :=
  { basket with
    actionRequired := true
    actionReason := some "projection_inconsistent" }

/-- `status IN ('submitting', 'active')`. -/
def reported (basket : Basket) : Bool :=
  decide (basket.status = .submitting) || decide (basket.status = .active)

@[simp] theorem id_recomputed (summary : Summary) (basket : Basket) :
    (basket.recomputed summary).basketExecutionId = basket.basketExecutionId := rfl

@[simp] theorem id_finalized (status : BasketStatus) (rollback : RollbackStatus) (required : Bool)
    (reason : Option String) (basket : Basket) :
    (basket.finalized status rollback required reason).basketExecutionId = basket.basketExecutionId := rfl

@[simp] theorem id_inconsistent (basket : Basket) :
    basket.inconsistent.basketExecutionId = basket.basketExecutionId := rfl

end Basket

/-! ## statements -/

/-- The tables; leg rows are in order of their index within a basket. -/
structure Tables where
  intents : List LiveOrderIntent
  baskets : Keyed Basket.basketExecutionId
  legs : Keyed Leg.key

namespace Tables

/-- `SELECT … FROM basket_execution_legs WHERE basket_execution_id = b ORDER BY leg_index`. -/
def legsOf (t : Tables) (basketExecutionId : String) : List Leg :=
  t.legs.rows.filter fun leg => leg.basketExecutionId = basketExecutionId

/-- The leg rows `create_live_basket_execution` inserts from position `i` on. -/
def newLegs (basketExecutionId : String) : Nat → List Int → List Leg
  | _, [] => []
  | i, quantity :: quantities =>
    { basketExecutionId, legIndex := i, requestedQuantity := quantity } ::
      newLegs basketExecutionId (i + 1) quantities

/-- `create_live_basket_execution` for orders of the given quantities; `none` when the id
is taken. -/
def createLiveBasketExecution (basketExecutionId strategyRunId accountId : String)
    (allOrNone : Bool) (quantities : List Int) (t : Tables) : Option Tables :=
  if (t.baskets.get? basketExecutionId).isSome then none
  else
    let legs := newLegs basketExecutionId 0 quantities
    let aggregate := recomputeBasketStatus legs
    let basket : Basket :=
      { basketExecutionId, strategyRunId, accountId, allOrNone
        requestedLegCount := aggregate.requestedLegCount
        completedLegCount := aggregate.completedLegCount
        terminalLegCount := aggregate.terminalLegCount
        totalRequestedQuantity := aggregate.totalRequestedQuantity
        totalFilledQuantity := aggregate.totalFilledQuantity }
    some
      { t with
        baskets := t.baskets.upsert basket
        legs := legs.foldl Keyed.upsert t.legs }

def markLegSubmitFailed (basketExecutionId : String) (legIndex : Nat)
    (errorMessage : Option String) (t : Tables) : Tables :=
  { t with
    legs := t.legs.modify (basketExecutionId, legIndex) (Leg.submitFailed errorMessage)
      (Leg.key_submitFailed errorMessage) }

def markLegWorking (basketExecutionId : String) (legIndex : Nat) (brokerOrderId : String)
    (clientOrderRef : Option String) (t : Tables) : Tables :=
  { t with
    legs := t.legs.modify (basketExecutionId, legIndex) (Leg.working brokerOrderId clientOrderRef)
      (Leg.key_working brokerOrderId clientOrderRef) }

def recomputeAndUpdate (basketExecutionId : String) (t : Tables) : Tables :=
  { t with
    baskets := t.baskets.modify basketExecutionId
      (Basket.recomputed (recomputeBasketStatus (t.legsOf basketExecutionId)))
      (Basket.id_recomputed _) }

/-- The status `finalize_submission` stores for the recomputed one. -/
def finalStatus : BasketStatus → BasketStatus
  | .partlyFilled => .active
  | status => status

def finalizeSubmission (basketExecutionId : String) (rollbackStatus : RollbackStatus)
    (actionRequired : Bool) (actionReason : Option String) (t : Tables) : Tables :=
  let status := finalStatus (recomputeBasketStatus (t.legsOf basketExecutionId)).status
  let t := t.recomputeAndUpdate basketExecutionId
  { t with
    baskets := t.baskets.modify basketExecutionId
      (Basket.finalized status rollbackStatus actionRequired actionReason)
      (Basket.id_finalized status rollbackStatus actionRequired actionReason) }

/-- The leg an order update is about: the latest intent of its order names it. -/
def linkedLeg (t : Tables) (event : OrderEvent) : Option (String × Nat) :=
  if event.accountId = "" ∨ event.orderId = "" then none
  else
    (latestIntent (fun _ => true) event t.intents).bind fun intent =>
      intent.basketExecutionId.bind fun basketExecutionId =>
        intent.basketLegIndex.map fun legIndex => (basketExecutionId, legIndex)

def applyOrderEvent (event : OrderEvent) (t : Tables) : Tables :=
  match t.linkedLeg event with
  | none => t
  | some k =>
    if (t.legs.get? k).isSome then
      recomputeAndUpdate k.1
        { t with legs := t.legs.modify k (Leg.updated event) (Leg.key_updated event) }
    else t

/-- `mark_projection_inconsistent_if_linked`. -/
def markProjectionInconsistent (event : OrderEvent) (t : Tables) : Tables :=
  if event.accountId = "" ∨ event.orderId = "" then t
  else
    match (latestIntent (fun intent => intent.basketExecutionId.isSome) event t.intents).bind
        LiveOrderIntent.basketExecutionId with
    | none => t
    | some basketExecutionId =>
      { t with
        baskets := t.baskets.modify basketExecutionId Basket.inconsistent
          Basket.id_inconsistent }

/-- The baskets of a run that the activity query selects. -/
def activeBaskets (t : Tables) (strategyRunId : String) : List Basket :=
  t.baskets.rows.filter fun basket =>
    decide (basket.strategyRunId = strategyRunId) && basket.reported

def hasActiveBasketExecution (t : Tables) (strategyRunId : String) : Bool :=
  !(t.activeBaskets strategyRunId).isEmpty

end Tables

/-- What the submitting thread and the event processor do to the tables. -/
inductive Op where
  | createLiveOrderIntent (intent : LiveOrderIntent)
  | markLiveOrderIntentPlaced (clientOrderRef brokerOrderId : String)
  | markLegWorking (basketExecutionId : String) (legIndex : Nat) (brokerOrderId : String)
      (clientOrderRef : Option String)
  | markLegSubmitFailed (basketExecutionId : String) (legIndex : Nat)
      (errorMessage : Option String)
  | finalizeSubmission (basketExecutionId : String) (rollbackStatus : RollbackStatus)
      (actionRequired : Bool) (actionReason : Option String)
  | applyOrderEvent (event : OrderEvent)
  | markProjectionInconsistent (event : OrderEvent)
  deriving DecidableEq

def step : Op → Tables → Tables
  | .createLiveOrderIntent intent, t => { t with intents := t.intents ++ [intent] }
  | .markLiveOrderIntentPlaced clientOrderRef brokerOrderId, t =>
    { t with intents := markLiveOrderIntentPlaced clientOrderRef brokerOrderId t.intents }
  | .markLegWorking b i brokerOrderId clientOrderRef, t =>
    t.markLegWorking b i brokerOrderId clientOrderRef
  | .markLegSubmitFailed b i errorMessage, t => t.markLegSubmitFailed b i errorMessage
  | .finalizeSubmission b rollbackStatus actionRequired actionReason, t =>
    t.finalizeSubmission b rollbackStatus actionRequired actionReason
  | .applyOrderEvent event, t => t.applyOrderEvent event
  | .markProjectionInconsistent event, t => t.markProjectionInconsistent event

def run : List Op → Tables → Tables
  | [], t => t
  | op :: ops, t => run ops (step op t)

theorem run_append (ops ops' : List Op) (t : Tables) :
    run (ops ++ ops') t = run ops' (run ops t) := by
  induction ops generalizing t with
  | nil => rfl
  | cons op ops ih => exact ih (step op t)

end KiteAlgo.Baskets
