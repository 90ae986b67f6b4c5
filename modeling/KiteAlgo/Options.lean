import KiteAlgo.Value
import Mathlib.Algebra.Order.Ring.Abs

/-!
# KiteAlgo.Options

The exits of an option run.  Three functions read its open position: the exit preview
(`execution/previews.py`), the exit orders of its protection (`protection/runtime.py`) and the
open quantity that the protection rules see (`protection/metrics.py`).

An empty text stands for a missing one; `some ""` for a key without a value.
-/

namespace KiteAlgo.Options

structure Leg where
  legId : String := ""
  exchange : String := ""
  tradingsymbol : Option String := none
  transactionType : String := ""
  quantity : Int := 0
  entrySide : Option String := none
  instrumentType : String := ""
  ltp : Option ℚ := none
  lastPrice : Option ℚ := none
  exitOrderType : String := ""
  exitPrice : Option ℚ := none
  limitPrice : Option ℚ := none
  exitVariety : String := ""
  marketProtection : Option Int := none
  deriving DecidableEq

structure Trade where
  legId : String
  exchange : String := ""
  tradingsymbol : String := ""
  transactionType : String
  quantity : Int
  entrySide : String := ""
  deriving DecidableEq

structure OptionRunState where
  product : Option String := none
  legs : List Leg := []
  completedLegs : List String := []
  trades : List Trade := []

/-- `value or default`. -/
def orText (value default : String) : String := if value = "" then default else value

def signedBy (side : String) (quantity : Int) : Int :=
  if Text.upper side = "BUY" then quantity
  else if Text.upper side = "SELL" then -quantity
  else 0

/-- `net_by_leg[leg_id] += quantity` or `-=`, by the side of the trade. -/
def Trade.addTo (trade : Trade) (net : Dict String Int) : Dict String Int :=
  let side := Text.upper trade.transactionType
  if side = "BUY" then
    net.set trade.legId ((net.get? trade.legId).getD 0 + trade.quantity)
  else if side = "SELL" then
    net.set trade.legId ((net.get? trade.legId).getD 0 - trade.quantity)
  else net

structure ExitOrder where
  exchange : String
  tradingsymbol : String
  quantity : Int
  transactionType : String
  variety : String
  orderType : String
  product : Option String
  price : Option ℚ := none
  marketProtection : Option Int := none
  deriving DecidableEq

/-! ## `execution/previews.py` -/

/-- What `_derive_open_exit_legs` returns for a leg. -/
structure OpenLeg where
  legId : String
  exchange : String
  tradingsymbol : String
  entrySide : String
  openQuantity : Int
  instrumentType : String
  ltp : Option ℚ
  lastPrice : Option ℚ
  exitOrderType : String
  exitPrice : Option ℚ
  limitPrice : Option ℚ
  exitVariety : String
  marketProtection : Option Int

/-- The entry of a leg in the list, with what its `meta` holds. -/
def Leg.opened (leg : Leg) (legId entrySide : String) (openQuantity : Int) : OpenLeg where
  legId := legId
  exchange := orText leg.exchange "NFO"
  tradingsymbol := leg.tradingsymbol.getD ""
  entrySide := entrySide
  openQuantity := openQuantity
  instrumentType := leg.instrumentType
  ltp := leg.ltp
  lastPrice := leg.lastPrice
  exitOrderType := leg.exitOrderType
  exitPrice := leg.exitPrice
  limitPrice := leg.limitPrice
  exitVariety := leg.exitVariety
  marketProtection := leg.marketProtection

/-- An item of the order plan: an order with its leg. -/
structure PlanItem extends ExitOrder where
  legId : String
  deriving DecidableEq

def buildExitOrderPlanItem (leg : OpenLeg) (product : Option String) : PlanItem :=
  let orderType := Text.upper (orText leg.exitOrderType "MARKET")
  { legId := leg.legId
    exchange := orText leg.exchange "NFO"
    tradingsymbol := leg.tradingsymbol
    quantity := leg.openQuantity
    transactionType := if leg.entrySide = "BUY" then "SELL" else "BUY"
    variety := orText leg.exitVariety "regular"
    orderType := orderType
    product := product
    price := if orderType = "LIMIT" then leg.exitPrice.or leg.limitPrice else none
    marketProtection := if orderType = "MARKET" then leg.marketProtection else none }

/-- `{leg_id: leg for leg in legs if leg_id}`. -/
def metaByLeg (legs : List Leg) : Dict String Leg :=
  legs.foldl (fun byLeg leg => if leg.legId = "" then byLeg else byLeg.set leg.legId leg) []

/-- What the trades say of the legs: `signed_qty_by_leg` and `meta_by_leg`. -/
structure TradeState where
  signed : Dict String Int := []
  byLeg : Dict String Leg

/-- The loop over the trades in `_derive_open_exit_legs`.  The default of a side is looked up
even when it is not needed. -/
def TradeState.add (s : TradeState) (trade : Trade) : TradeState :=
  if trade.legId = "" then s
  else
    let signed := trade.addTo s.signed
    let leg := (s.byLeg.get? trade.legId).getD {}
    let side :=
      orText trade.entrySide (if 0 ≤ (signed.get? trade.legId).getD 0 then "BUY" else "SELL")
    { signed := if trade.entrySide = "" then signed.setDefault trade.legId 0 else signed
      byLeg := s.byLeg.set trade.legId
        { leg with
          tradingsymbol := leg.tradingsymbol.or (some trade.tradingsymbol)
          entrySide := leg.entrySide.or (some side) } }

def deriveOpenExitLegs (run : OptionRunState) : List OpenLeg :=
  if run.trades ≠ [] then
    let s := run.trades.foldl TradeState.add { byLeg := metaByLeg run.legs }
    s.signed.filterMap fun (legId, net) =>
      if net = 0 then none
      else
        let leg := (s.byLeg.get? legId).getD {}
        let entrySide := if 0 < net then "BUY" else "SELL"
        some (leg.opened legId (orText (leg.entrySide.getD "") entrySide) |net|)
  else
    let legs :=
      if run.completedLegs = [] then []
      else run.legs.filter fun leg => leg.legId ∈ run.completedLegs
    legs.zipIdx.filterMap fun (leg, index) =>
      let transactionType := Text.upper leg.transactionType
      if leg.quantity ≤ 0 then none
      else if transactionType ≠ "BUY" ∧ transactionType ≠ "SELL" then none
      else
        some (leg.opened (orText leg.legId ("leg_" ++ toString (index + 1))) transactionType
          leg.quantity)

def sortOrdersBuyFirst (orders : List PlanItem) : List PlanItem :=
  orders.filter (fun order => Text.upper order.transactionType = "BUY") ++
    orders.filter (fun order => Text.upper order.transactionType = "SELL") ++ orders.filter fun order =>
      !(Text.upper order.transactionType = "BUY" ∨ Text.upper order.transactionType = "SELL" : Bool)

/-- The `order_plan` of `build_exit_preview_packet`. -/
def exitOrderPlan (run : OptionRunState) : List PlanItem :=
  sortOrdersBuyFirst (((deriveOpenExitLegs run).filter fun leg => 0 < leg.openQuantity).map
    fun leg => buildExitOrderPlanItem leg run.product)

/-! ## `protection/runtime.py` -/

/-- A position that `_build_run_exit_orders` passes on. -/
structure Position where
  exchange : String
  tradingsymbol : String
  netQuantity : Int
  product : Option String
  exitOrderType : String
  exitPrice : Option ℚ
  limitPrice : Option ℚ
  exitVariety : String
  marketProtection : Option Int

/-- The position of a leg; the trade stands in for what the leg does not say. -/
def Leg.position (leg : Leg) (trade : Option Trade) (netQuantity : Int)
    (product : Option String) : Position where
  exchange := orText leg.exchange (orText ((trade.map Trade.exchange).getD "") "NFO")
  tradingsymbol := orText (leg.tradingsymbol.getD "") ((trade.map Trade.tradingsymbol).getD "")
  netQuantity := netQuantity
  product := product
  exitOrderType := leg.exitOrderType
  exitPrice := leg.exitPrice
  limitPrice := leg.limitPrice
  exitVariety := leg.exitVariety
  marketProtection := leg.marketProtection

/-- `build_grouped_exit_orders`, with `apply_market_protection`. -/
def buildGroupedExitOrders (positions : List Position) (productOverride : Option String) :
    List ExitOrder :=
  positions.filterMap fun position =>
    if |position.netQuantity| = 0 ∨ position.tradingsymbol = "" then none
    else
      let orderType := Text.upper (orText position.exitOrderType "MARKET")
      some
        { exchange := position.exchange
          tradingsymbol := position.tradingsymbol
          transactionType := if (0 : Int) < position.netQuantity then "SELL" else "BUY"
          variety := orText position.exitVariety "regular"
          product := productOverride.or position.product
          orderType := orderType
          quantity := |position.netQuantity|
          price := if orderType = "LIMIT" then position.exitPrice.or position.limitPrice else none
          marketProtection :=
            if orderType = "MARKET" then some (position.marketProtection.getD (-1)) else none }

/-- `net_by_leg` of `_build_run_exit_orders` and `derive_open_quantity`. -/
def netByLeg (trades : List Trade) : Dict String Int :=
  trades.foldl (fun net trade => if trade.legId = "" then net else trade.addTo net) []

def buildRunExitOrders (run : OptionRunState) : List ExitOrder :=
  let positions :=
    if run.trades ≠ [] then
      (netByLeg run.trades).filterMap fun (legId, net) =>
        if net = 0 then none
        else
          some ((((metaByLeg run.legs).get? legId).getD {}).position
            (run.trades.find? fun trade => trade.legId = legId) net run.product)
    else
      let legs := run.legs.filter fun leg =>
        run.completedLegs = [] ∨ leg.legId ∈ run.completedLegs
      legs.filterMap fun leg =>
        let side := Text.upper leg.transactionType
        if leg.quantity ≤ 0 then none
        else if side = "BUY" then some (leg.position none leg.quantity run.product)
        else if side = "SELL" then some (leg.position none (-leg.quantity) run.product)
        else none
  buildGroupedExitOrders positions run.product

def deriveOpenQuantity (run : OptionRunState) : Int :=
  let openQty := ((netByLeg run.trades).values.map fun net => |net|).sum
  if run.trades ≠ [] ∧ 0 < openQty then openQty else run.completedLegs.length

end KiteAlgo.Options
