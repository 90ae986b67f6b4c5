import KiteAlgo.LiveOrders

/-!
# KiteAlgo.Brackets

Live brackets (`orders/bracket_runtime.py`): an entry order and, once it has filled, a
stop-loss and a target.  Order updates move the bracket and enqueue actions; an executor
claims the actions, calls the broker and commits the result, or retries.

The state is that of one bracket: its row, its actions in order of creation, the order
intents its updates are linked by, and what the broker has of it.  An execution is cut at
the calls of the broker, so that anything may happen between a placement and the commit of
its result; each database session is one step.  The stop-loss and the target are handled
by the same code with other names, and are told apart by an `Exit`.
-/

namespace KiteAlgo.Brackets

/-! ## rows -/

/-- `BRACKET_STATES`; `partlyFilled` is the text `partial`. -/
inductive BracketStatus where
  | entrySubmitting
  | entryWorking
  | armingExits
  | armed
  | cancelling
  | completed
  | partlyFilled
  | failed
  deriving DecidableEq, Repr

/-- `BRACKET_ACTIVE_STATES`. -/
def BracketStatus.active : BracketStatus → Bool
  | .entrySubmitting | .entryWorking | .armingExits | .armed | .cancelling => true
  | .completed | .partlyFilled | .failed => false

/-- The states in which an entry that filled does not arm the exits. -/
def BracketStatus.guarded : BracketStatus → Bool
  | .armingExits | .armed | .completed | .partlyFilled | .failed => true
  | .entrySubmitting | .entryWorking | .cancelling => false

inductive Exit where
  | stoploss
  | target
  deriving DecidableEq, Repr

/-- The exit that is cancelled when this one completes. -/
def Exit.other : Exit → Exit
  | .stoploss => .target
  | .target => .stoploss

def Exit.suffix : Exit → String
  | .stoploss => "stoploss"
  | .target => "target"

/-- The dictionary of an order in `config_json`. -/
structure OrderSpec where
  parameters : Dict String String := []
  brokerOrderId : Option String := none
  deriving DecidableEq

/-- `bool(spec)`. -/
def OrderSpec.truthy (spec : OrderSpec) : Bool := !spec.parameters.isEmpty || spec.brokerOrderId.isSome

/-- `config_json`. -/
structure Config where
  entryQuantity : Int
  entryOrderId : Option String := none
  stoploss : OrderSpec := {}
  target : OrderSpec := {}
  deriving DecidableEq

namespace Config

def exit (config : Config) : Exit → OrderSpec
  | .stoploss => config.stoploss
  | .target => config.target

/-- `cfg.setdefault(exit, {})["broker_order_id"] = order_id`. -/
def withOrderId (config : Config) (e : Exit) (orderId : String) : Config :=
  match e with
  | .stoploss => { config with stoploss := { config.stoploss with brokerOrderId := some orderId } }
  | .target => { config with target := { config.target with brokerOrderId := some orderId } }

end Config

/-- A row of `bracket_intents`. -/
structure BracketIntent where
  bracketIntentId : String
  strategyRunId : String
  accountId : String
  status : BracketStatus := .entrySubmitting
  actionRequired : Bool := false
  actionReason : Option String := none
  config : Config
  deriving DecidableEq

/-- `action_type` with its payload. -/
inductive ActionKind where
  | place (exit : Exit) (payload : OrderSpec)
  | cancel (exit : Exit) (orderId : String)
  | cancelBracket
  deriving DecidableEq

/-- Is this `place_stoploss` or `place_target`? -/
def ActionKind.places : ActionKind → Bool
  | .place _ _ => true
  | _ => false

def ActionKind.placesExit (e : Exit) : ActionKind → Bool
  | .place e' _ => decide (e' = e)
  | _ => false

inductive ActionStatus where
  | pending
  | claimed
  | succeeded
  | failed
  deriving DecidableEq, Repr

/-- `status IN ('pending', 'claimed')`. -/
def ActionStatus.unfinished : ActionStatus → Bool
  | .pending | .claimed => true
  | .succeeded | .failed => false

/-- A row of `bracket_actions`; its id is its position. -/
structure Action where
  kind : ActionKind
  status : ActionStatus := .pending
  attemptCount : Nat := 0
  error : Option String := none
  deriving DecidableEq

namespace Action

/-- The row `claim_pending_actions` writes. -/
def claimed (action : Action) : Action := { action with status := .claimed }

/-- The row `mark_action_succeeded` writes. -/
def succeeded (action : Action) : Action := { action with status := .succeeded }

/-- The row `mark_action_retry` writes. -/
def retried (error : String) (action : Action) : Action :=
  { action with
    status := .pending
    attemptCount := action.attemptCount + 1
    error := some error }

/-- The row `mark_action_failed` writes. -/
def failed (error : String) (action : Action) : Action :=
  { action with
    status := .failed
    attemptCount := action.attemptCount + 1
    error := some error }

end Action

/-- An order the broker created for an idempotency key. -/
structure BrokerOrder where
  key : String
  exit : Exit
  orderId : String
  deriving DecidableEq

/-- An execution after its call of the broker, before its session is committed. -/
inductive Phase where
  | placed (orderId : String)
  | cancelled
  | raised (error : String)
  deriving DecidableEq

structure State where
  intent : BracketIntent
  actions : List Action := []
  /-- `live_order_intents`, in order of creation. -/
  links : List LiveOrderIntent := []
  /-- The orders placed for the exits: at most one for a key. -/
  orders : Keyed BrokerOrder.key := Keyed.empty
  /-- The order ids passed to `cancel_order_fn`. -/
  cancels : List String := []
  running : Dict Nat Phase := []

namespace State

/-! ## statements -/

def updateBracketStatus (status : BracketStatus) (actionRequired : Option Bool)
    (actionReason : Option String) (s : State) : State :=
  { s with
    intent := { s.intent with
      status
      actionRequired := actionRequired.getD s.intent.actionRequired
      actionReason } }

def enqueueAction (kind : ActionKind) (s : State) : State :=
  { s with actions := s.actions ++ [{ kind }] }

/-- An `UPDATE` of one action row. -/
def updateAction (i : Nat) (f : Action → Action) (s : State) : State :=
  { s with actions := s.actions.modify i f }

/-- `claim_pending_actions`, for the actions it selects. -/
def claimPendingActions (ids : List Nat) (s : State) : State :=
  { s with
    actions := s.actions.mapIdx fun i action =>
      if i ∈ ids ∧ action.status = .pending then action.claimed else action }

/-- The latest intent of the order names this bracket. -/
def linked (s : State) (event : OrderEvent) : Bool :=
  decide (event.accountId ≠ "") && decide (event.orderId ≠ "") &&
    match latestIntent (fun intent => intent.bracketIntentId.isSome) event s.links with
    | none => false
    | some intent => decide (intent.bracketIntentId = some s.intent.bracketIntentId) &&
        decide (intent.strategyRunId ≠ "")

def onEntry (s : State) (event : OrderEvent) : Bool :=
  decide (s.intent.config.entryOrderId = some event.orderId)

/-- The update reports the whole quantity of the entry. -/
def fillsEntry (s : State) (event : OrderEvent) : Bool :=
  decide (0 < event.filled) && decide (0 < s.intent.config.entryQuantity) &&
    decide (s.intent.config.entryQuantity ≤ event.filled)

/-- The update says that the order is over without a complete fill. -/
def endsEarly (event : OrderEvent) : Bool := decide (event.word ∈ ["REJECTED", "CANCELLED", "LAPSED"])

/-- Enqueue the placement of an exit that is configured. -/
def placeExit (e : Exit) (s : State) : State :=
  if (s.intent.config.exit e).truthy then s.enqueueAction (.place e (s.intent.config.exit e)) else s

/-- The entry part of `apply_order_event_observation`. -/
def observeEntry (event : OrderEvent) (s : State) : State :=
  if s.onEntry event then
    if endsEarly event && decide (event.filled = 0) then
      s.updateBracketStatus .failed (some false) (some "entry_terminal")
    else if s.fillsEntry event then
      if s.intent.status.guarded then s
      else ((s.updateBracketStatus .armingExits (some false) none).placeExit .stoploss).placeExit .target
    else if endsEarly event && decide (0 < event.filled) &&
        decide (event.filled < s.intent.config.entryQuantity) then
      s.updateBracketStatus .partlyFilled (some true) (some "entry_partial_terminal")
    else s
  else s

/-- The update says that the order of this exit is complete; `config` was read before. -/
def completesExit (config : Config) (e : Exit) (event : OrderEvent) : Bool :=
  decide ((config.exit e).brokerOrderId = some event.orderId) && decide (event.word = "COMPLETE")

/-- The exit part of `apply_order_event_observation`, for one exit. -/
def observeExit (config : Config) (e : Exit) (event : OrderEvent) (s : State) : State :=
  if completesExit config e event then
    let s := s.updateBracketStatus .cancelling none none
    match (config.exit e.other).brokerOrderId with
    | some orderId => s.enqueueAction (.cancel e.other orderId)
    | none => s
  else s

def applyOrderEventObservation (event : OrderEvent) (s : State) : State :=
  if s.linked event then
    let config := s.intent.config
    ((s.observeEntry event).observeExit config .stoploss event).observeExit config .target event
  else s

def requestCancelBracket (s : State) : State :=
  (s.updateBracketStatus .cancelling (some false) none).enqueueAction .cancelBracket

/-- `mark_projection_inconsistent_if_linked`. -/
def markProjectionInconsistent (event : OrderEvent) (s : State) : State :=
  if s.linked event then
    s.updateBracketStatus .armingExits (some true) (some "projection_inconsistent")
  else s

def markActionFailed (i : Nat) (error : String) (s : State) : State :=
  (s.updateAction i (Action.failed error)).updateBracketStatus .armingExits (some true)
    (some "exit_placement_failed")

def markActionRetry (i : Nat) (error : String) (s : State) : State :=
  s.updateAction i (Action.retried error)

def markActionSucceeded (i : Nat) (s : State) : State :=
  s.updateAction i Action.succeeded

/-! ## execute_bracket_action_once -/

/-- The key of an attempt: `bracket:{id}:{suffix}:{attempt}`. -/
def idempotencyKey (bracketIntentId : String) (e : Exit) (attempt : Nat) : String :=
  "bracket:" ++ bracketIntentId ++ ":" ++ e.suffix ++ ":" ++ toString attempt

/-- The call of `place_order_fn`: what the execution goes on with, and the orders after it.
An order is created at most once for a key. -/
def callPlaceOrder (key : String) (e : Exit) (placement : Placement) (orders : Keyed BrokerOrder.key) :
    Phase × Keyed BrokerOrder.key :=
  match orders.get? key, placement with
  | some order, .returned _ => (.placed order.orderId, orders)
  | some _, .lost _ error => (.raised error, orders)
  | _, .refused error => (.raised error, orders)
  | none, .returned orderId => (.placed orderId, orders.upsert ⟨key, e, orderId⟩)
  | none, .lost orderId error => (.raised error, orders.upsert ⟨key, e, orderId⟩)

/-- The orders `cancel_bracket` cancels. -/
def bracketOrders (config : Config) : List String :=
  [config.entryOrderId, config.stoploss.brokerOrderId, config.target.brokerOrderId].filterMap id

/-- The action is claimed and its execution has not called the broker. -/
def ready (s : State) (i : Nat) : Option Action :=
  if s.running.get? i = none then
    (s.actions[i]?).bind fun action => if action.status = .claimed then some action else none
  else none

/-- The placement of an exit, up to the return of the call. -/
def execPlace (i : Nat) (placement : Placement) (s : State) : State :=
  match s.ready i with
  | some { kind := .place e _, attemptCount := n, .. } =>
    let key := idempotencyKey s.intent.bracketIntentId e (n + 1)
    let (phase, orders) := callPlaceOrder key e placement s.orders
    { s with orders, running := s.running.set i phase }
  | _ => s

/-- The cancellations of an action: `error` is raised by the call after the first `done`
ones that went through, or by none of them. -/
def execCancel (i : Nat) (error : Option (Nat × String)) (s : State) : State :=
  match s.ready i with
  | some { kind := .cancel _ orderId, .. } =>
    { s with
      cancels := s.cancels ++ [orderId]
      running := s.running.set i (match error with
        | none => .cancelled
        | some (_, error) => .raised error) }
  | some { kind := .cancelBracket, .. } =>
    match error with
    | none =>
      { s with
        cancels := s.cancels ++ bracketOrders s.intent.config
        running := s.running.set i .cancelled }
    | some (done, error) =>
      { s with
        cancels := s.cancels ++ (bracketOrders s.intent.config).take (done + 1)
        running := s.running.set i (.raised error) }
  | _ => s

/-- Is a placement of the bracket still unfinished? -/
def placementPending (s : State) : Bool :=
  s.actions.any fun action => action.kind.places && action.status.unfinished

/-- The `UPDATE` of `config_json` with the order of an exit. -/
def storeOrderId (e : Exit) (orderId : String) (s : State) : State :=
  { s with intent := { s.intent with config := s.intent.config.withOrderId e orderId } }

/-- The session after a placement: the result, the config and the status. -/
def commitPlace (i : Nat) (e : Exit) (orderId : String) (s : State) : State :=
  let s := (s.markActionSucceeded i).storeOrderId e orderId
  if s.placementPending then s else s.updateBracketStatus .armed (some false) none

/-- The session of an execution is committed. -/
def execCommit (i : Nat) (s : State) : State :=
  match s.running.get? i, s.actions[i]? with
  | some (.placed orderId), some { kind := .place e _, .. } =>
    { s.commitPlace i e orderId with running := s.running.erase i }
  | some .cancelled, some _ =>
    { (s.markActionSucceeded i).updateBracketStatus .completed none none with
      running := s.running.erase i }
  | _, _ => s

/-- A statement of the session or its commit raises, and the session is rolled back. -/
def execRollback (i : Nat) (error : String) (s : State) : State :=
  match s.running.get? i with
  | some (.placed _) | some .cancelled => { s with running := s.running.set i (.raised error) }
  | _ => s

/-- The `except` branch: another attempt, or the end. -/
def execRecover (maxAttempts i : Nat) (s : State) : State :=
  match s.running.get? i, s.actions[i]? with
  | some (.raised error), some action =>
    let s := { s with running := s.running.erase i }
    if maxAttempts ≤ action.attemptCount + 1 then s.markActionFailed i error
    else s.markActionRetry i error
  | _, _ => s

end State

/-! ## runs -/

inductive Step where
  | observe (event : OrderEvent)
  | requestCancel
  | markInconsistent (event : OrderEvent)
  | link (intent : LiveOrderIntent)
  | claim (ids : List Nat)
  | place (action : Nat) (placement : Placement)
  | cancel (action : Nat) (error : Option (Nat × String))
  | commit (action : Nat)
  | rollback (action : Nat) (error : String)
  | recover (action : Nat)
  deriving DecidableEq

def maxAttempts : Nat := 3

def step : Step → State → State
  | .observe event, s => s.applyOrderEventObservation event
  | .requestCancel, s => s.requestCancelBracket
  | .markInconsistent event, s => s.markProjectionInconsistent event
  | .link intent, s => { s with links := s.links ++ [intent] }
  | .claim ids, s => s.claimPendingActions ids
  | .place i placement, s => s.execPlace i placement
  | .cancel i error, s => s.execCancel i error
  | .commit i, s => s.execCommit i
  | .rollback i error, s => s.execRollback i error
  | .recover i, s => s.execRecover maxAttempts i

def run : List Step → State → State
  | [], s => s
  | st :: steps, s => run steps (step st s)

theorem run_append (steps steps' : List Step) (s : State) :
    run (steps ++ steps') s = run steps' (run steps s) := by
  induction steps generalizing s with
  | nil => rfl
  | cons st steps ih => exact ih (step st s)

theorem run_concat (steps : List Step) (st : Step) (s : State) :
    run (steps ++ [st]) s = step st (run steps s) := by
  rw [run_append]
  rfl

end KiteAlgo.Brackets
