import KiteAlgo.Lib.Keyed
import KiteAlgo.Value
import Mathlib.Data.Rat.Init
import Mathlib.Order.Lattice

/-!
# KiteAlgo.LiveOrders

What basket and bracket executions share of the live order runtime: the rows of
`live_order_intents` that link a broker order to the execution it was placed for
(`live_order_intents.py`), the canonical order updates, and the projection that
`order_runtime.py` keeps of each order.

The same update may arrive twice, by websocket and by postback, and updates may arrive
in any order.  `OrderState.upsert` is written for that: the filled quantity is a maximum
and the terminal flag a disjunction, so both depend on the set of updates only
(`OrderState.replay_of_same`).
-/

namespace KiteAlgo

/-! ## updates -/

/-- A row of `canonical_order_events`, as far as the executions read it. -/
structure OrderEvent where
  accountId : String
  orderId : String
  status : String
  filledQuantity : Option Int := none
  averagePrice : Option ℚ := none
  eventTimestamp : Int := 0
  deriving DecidableEq

namespace OrderEvent

/-- `_to_int(event.get("filled_quantity"))`. -/
def filled (event : OrderEvent) : Int := event.filledQuantity.getD 0

/-- `str(event.get("status") or "").upper()`. -/
def word (event : OrderEvent) : String := Text.upper event.status

end OrderEvent

def terminalOrderStatuses : List String := ["COMPLETE", "CANCELLED", "REJECTED", "LAPSED"]

/-- Is this the status of an order that is over? -/
def OrderEvent.terminal (event : OrderEvent) : Bool := event.word ∈ terminalOrderStatuses

/-- A row of `live_order_intents`. -/
structure LiveOrderIntent where
  clientOrderRef : String
  accountId : String
  strategyRunId : String
  brokerOrderId : Option String := none
  basketExecutionId : Option String := none
  basketLegIndex : Option Nat := none
  bracketIntentId : Option String := none
  deriving DecidableEq, Repr

def markLiveOrderIntentPlaced (clientOrderRef brokerOrderId : String)
    (intents : List LiveOrderIntent) : List LiveOrderIntent :=
  intents.map fun intent =>
    if intent.clientOrderRef = clientOrderRef then
      { intent with brokerOrderId := some brokerOrderId }
    else intent

/-- The latest intent of a broker order that meets `p`; rows are in order of creation. -/
def latestIntent (p : LiveOrderIntent → Bool) (event : OrderEvent)
    (intents : List LiveOrderIntent) : Option LiveOrderIntent :=
  intents.reverse.find? fun intent =>
    intent.accountId = event.accountId && intent.brokerOrderId = some event.orderId && p intent

/-- The answer of `place_order`: `lost` is an order the broker accepted although the call
raised. -/
inductive Placement where
  | refused (error : String)
  | lost (orderId error : String)
  | returned (orderId : String)
  deriving DecidableEq

/-- A row of `order_state_projection`. -/
structure OrderState where
  latestStatus : String
  latestEventTimestamp : Int
  lastSeenFilledQuantity : Int
  dirtyForTradeSync : Bool
  needsReconcile : Bool
  terminal : Bool
  deriving DecidableEq

namespace OrderState

def ofEvent (event : OrderEvent) : OrderState where
  latestStatus := event.status
  latestEventTimestamp := event.eventTimestamp
  lastSeenFilledQuantity := event.filled
  dirtyForTradeSync := decide (0 < event.filled) || event.terminal
  needsReconcile := false
  terminal := event.terminal

/-- `_upsert_projection_from_event`. -/
def upsert (existing : Option OrderState) (event : OrderEvent) : OrderState :=
  match existing with
  | none => ofEvent event
  | some row =>
    let isLatest := decide (row.latestEventTimestamp ≤ event.eventTimestamp)
    { latestStatus := if isLatest then event.status else row.latestStatus
      latestEventTimestamp :=
        if isLatest then event.eventTimestamp else row.latestEventTimestamp
      lastSeenFilledQuantity := max row.lastSeenFilledQuantity event.filled
      dirtyForTradeSync := row.dirtyForTradeSync ||
        decide (row.lastSeenFilledQuantity < event.filled) || event.terminal
      needsReconcile := row.needsReconcile || decide (event.filled < row.lastSeenFilledQuantity)
      terminal := row.terminal || event.terminal }

end OrderState

end KiteAlgo
