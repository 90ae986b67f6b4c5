import KiteAlgo.Paper.Service

/-!
# KiteAlgo.Paper.RunState

The open legs of a strategy run (`run_state.py`), `exit_strategy`, which sells or buys them back
in one all-or-none basket, and `reset_account`.

Up to its basket an exit only reads: the run's trades, the open positions that belong to the
strategy without them, and the lots behind both.  When orders were updated is not kept, so where
the newest of several rows is asked for, `newest` says which one it is.
-/

namespace KiteAlgo.Paper

namespace Store

/-- `list_orders`, last placed first. -/
def listOrders (s : Store) (scope : Scope) (limit : Nat) : List Order :=
  (s.orders.rows.filter fun order => order.scope = scope).reverse.take limit

/-- `list_trades`, last traded first. -/
def listTrades (s : Store) (scope : Scope) (limit : Nat) : List Trade :=
  (s.trades.filter fun trade => trade.scope = scope).reverse.take limit

/-- `list_positions`, last updated first. -/
def listPositions (s : Store) (scope : Scope) (onlyOpen : Bool) : List Position :=
  sortBy (fun a b => b.updatedAt ≤ a.updatedAt)
    (s.positions.rows.filter fun position =>
      position.scope = scope && (!onlyOpen || position.netQuantity ≠ 0))

def clearAccountScope (s : Store) (scope : Scope) : Store :=
  { s with
    lots := s.lots.filter fun lot => lot.scope ≠ scope
    trades := s.trades.filter fun trade => trade.scope ≠ scope
    orders := s.orders.filter fun order => order.scope ≠ scope
    positions := s.positions.filter fun position => position.scope ≠ scope
    ledger := s.ledger.filter fun entry => entry.scope ≠ scope }

end Store

namespace Repository

def listOrders (scope : Scope) (limit : Nat) : Task (List Order) :=
  .read .plain fun s => s.listOrders scope limit

def listTrades (scope : Scope) (limit : Nat) : Task (List Trade) :=
  .read .plain fun s => s.listTrades scope limit

def listPositions (scope : Scope) (onlyOpen : Bool) : Task (List Position) :=
  .read .plain fun s => s.listPositions scope onlyOpen

def clearAccountScope (scope : Scope) : Task Unit :=
  .call .plain fun s => ((), s.clearAccountScope scope)

end Repository

/-! ## the state of a run -/

/-- `_LegState`; a missing exchange or symbol is empty. -/
structure LegState where
  instrumentToken : Int
  product : String
  exchange : String
  tradingsymbol : String
  netQuantity : Int := 0
  deriving DecidableEq

/-- What a trade makes of the quantity of a leg. -/
def LegState.trade (leg : LegState) (side : Side) (quantity : Int) : LegState :=
  { leg with
    netQuantity :=
      if leg.netQuantity = 0 ∨ (0 < leg.netQuantity ∧ side = .buy) ∨
          (leg.netQuantity < 0 ∧ side = .sell) then
        leg.netQuantity + (if side = .buy then quantity else -quantity)
      else
        let closing := min |leg.netQuantity| quantity
        let remainingExisting := |leg.netQuantity| - closing
        let remainingIncoming := quantity - closing
        if 0 < remainingExisting then
          if 0 < leg.netQuantity then remainingExisting else -remainingExisting
        else if 0 < remainingIncoming then
          if side = .buy then remainingIncoming else -remainingIncoming
        else 0 }

/-- The legs of a run after its trades, oldest first. -/
def legStates (orders : List Order) (trades : List Trade) : Dict (Int × String) LegState :=
  (sortBy (fun a b => a.tradeId ≤ b.tradeId) trades).foldl
    (fun legs trade =>
      let order := orders.find? fun order => order.orderId = trade.orderId
      let product := (order.map Order.product).getD trade.product
      let fresh : LegState :=
        { instrumentToken := trade.instrumentToken
          product := product
          exchange := (order.map Order.exchange).getD trade.exchange
          tradingsymbol := (order.map Order.tradingsymbol).getD trade.tradingsymbol }
      let leg := (legs.get? (trade.instrumentToken, product)).getD fresh
      legs.set (trade.instrumentToken, product) (leg.trade trade.side trade.quantity)) []

def presentValues (metadata : Attribution) : Attribution := metadata.filter fun entry => entry.2 ≠ ""

def latestMetadata (orders : List Order) (trades : List Trade) : Attribution :=
  orders.foldl (fun latest order => latest.update (presentValues order.attribution))
    ((sortBy (fun a b => a.tradeId ≤ b.tradeId) trades).foldl
      (fun latest trade => latest.update (presentValues trade.attribution)) [])

/-- A position to exit, as `exit_strategy` reads it. -/
structure ExitPosition where
  instrumentToken : Int
  exchange : Option String
  tradingsymbol : Option String
  product : String
  netQuantity : Int
  deriving DecidableEq

/-- `value or fallback` of a text. -/
def textOr (value : String) (fallback : Option String) : Option String :=
  if value = "" then fallback else some value

/-- The entry of a leg in the `positions` of its run. -/
def LegState.exitPosition (leg : LegState) (position : Option Position) : ExitPosition where
  instrumentToken := leg.instrumentToken
  exchange := textOr leg.exchange (position.map Position.exchange)
  tradingsymbol := textOr leg.tradingsymbol (position.map Position.tradingsymbol)
  product := leg.product
  netQuantity := leg.netQuantity

/-- Why a leg does not reconcile with the account's position. -/
def LegState.staleReason (leg : LegState) (position : Option Position) : Option String :=
  if leg.netQuantity = 0 then none
  else
    let held := (position.map Position.netQuantity).getD 0
    if held = 0 then
      some ("missing_account_position:" ++ toString leg.instrumentToken ++ ":" ++ leg.product)
    else if (0 < leg.netQuantity ∧ held < 0) ∨ (leg.netQuantity < 0 ∧ 0 < held) then
      some ("sign_mismatch:" ++ toString leg.instrumentToken ++ ":" ++ leg.product)
    else none

/-- What `exit_strategy` reads of `get_run_state`. -/
structure RunState where
  positions : List ExitPosition
  strategyTag : Option String
  algoInstanceId : Option String
  staleReasons : List String
  deriving DecidableEq

/-- `get_run_state` of what it lists. -/
def runState (strategy : String) (orders : List Order) (trades : List Trade)
    (positions : List Position) : Option RunState :=
  let relevantOrders := orders.filter fun order => strategyIdentity order.attribution = some strategy
  let relevantTrades := trades.filter fun trade => strategyIdentity trade.attribution = some strategy
  if relevantOrders = [] ∧ relevantTrades = [] then none
  else
    let legs := (legStates orders relevantTrades).values
    let mark (leg : LegState) := positions.find? fun position =>
      position.instrumentToken = leg.instrumentToken && position.product = leg.product
    let latest := latestMetadata relevantOrders relevantTrades
    some
      { positions := legs.map fun leg => leg.exitPosition (mark leg)
        strategyTag := textOr ((latest.get? "strategy_tag").getD "") none
        algoInstanceId := textOr ((latest.get? "algo_instance_id").getD "") none
        staleReasons := legs.filterMap fun leg => leg.staleReason (mark leg) }

/-! ## the strategy of a position -/

def strategyKeys : List String :=
  ["strategy_run_id", "option_strategy_id", "strategy_id", "algo_instance_id", "strategy_tag"]

def hasStrategyKey (metadata : Attribution) : Bool :=
  strategyKeys.any fun key => !missing (metadata.get? key)

def positionStrategyMetadata (newest : List Attribution → Nat) (position : Position)
    (orders : List Order) (trades : List Trade) : Attribution :=
  if hasStrategyKey position.attribution then position.attribution
  else
    let candidates :=
      ((orders.filter fun order =>
          order.instrumentToken = position.instrumentToken && order.product = position.product).map
        Order.attribution ++
      (trades.filter fun trade => trade.instrumentToken = position.instrumentToken).map
        Trade.attribution).filter hasStrategyKey
    match candidates[newest candidates]? with
    | some inferred => inferred.update position.attribution
    | none => position.attribution

/-- The group of a position that several strategies share. -/
def unsupportedGroup (position : Position) : Attribution :=
  [("_group_strategy_id", "unsupported:" ++ toString position.instrumentToken ++ ":" ++ position.product)]

/-- The group of a position without a strategy. -/
def manualGroup (position : Position) : Attribution :=
  [("_group_strategy_id", "manual:" ++ toString position.instrumentToken ++ ":" ++ position.product)]

/-- The identities of lots, each with the metadata of its newest lot. -/
def lotIdentities (lots : List Lot) : Dict String Attribution :=
  lots.foldl
    (fun identities lot =>
      match strategyIdentity lot.attribution with
      | some identity => identities.set identity lot.attribution
      | none => identities) []

/-- `_resolve_open_position_lot_grouping`, without its texts for the page. -/
def resolveOpenPositionLotGrouping (position : Position) (lots : List Lot) : Option Attribution :=
  let missingIdentity := lots.any fun lot => strategyIdentity lot.attribution = none
  match lotIdentities lots with
  | [] => if missingIdentity then some (manualGroup position) else none
  | [(_, metadata)] => if missingIdentity then some (manualGroup position) else some metadata
  | _ => some (unsupportedGroup position)

/-- `_strategy_group_metadata_for_position`, given its lots. -/
def strategyGroupMetadata (newest : List Attribution → Nat) (position : Position) (lots : List Lot)
    (orders : List Order) (trades : List Trade) : Attribution :=
  match resolveOpenPositionLotGrouping position lots with
  | some resolved => resolved.mergeDefaults (presentValues position.attribution)
  | none =>
    let inferred := positionStrategyMetadata newest position orders trades
    if hasStrategyKey inferred then inferred else inferred.update (manualGroup position)

/-- `metadata.get("_group_strategy_id") or self._strategy_identity(metadata)`. -/
def groupStrategy (metadata : Attribution) : Option String :=
  match metadata.get? "_group_strategy_id" with
  | some group => if group = "" then strategyIdentity metadata else some group
  | none => strategyIdentity metadata

/-! ## the lots of an exit -/

def lotQuantities (lots : List Lot) : Dict (Option String) Int :=
  lots.foldl
    (fun quantities lot =>
      let identity := strategyIdentity lot.attribution
      quantities.set identity ((quantities.get? identity).getD 0 + lot.remainingQuantity)) []

/-- The reasons that `_resolve_strategy_exit_lot_ambiguity` finds for a position. -/
def lotAmbiguity (strategy : String) (position : ExitPosition) (lots : List Lot) : List String :=
  if lots = [] then []
  else
    let quantities := lotQuantities lots
    let matching := (quantities.get? (some strategy)).getD 0
    let unknown := (quantities.get? none).getD 0
    let foreign := quantities.keys.filterMap fun identity =>
      identity.filter fun other => other ≠ strategy
    let requested := |position.netQuantity|
    let subject := ":" ++ toString position.instrumentToken ++ ":" ++ position.product
    (if 0 < unknown then
        ["unresolved_lots" ++ subject ++ ":missing_strategy_identity_qty=" ++ toString unknown]
      else []) ++
    (if foreign ≠ [] ∧ matching < requested then
        ["ambiguous_lots" ++ subject ++ ":foreign_strategies=" ++
          String.intercalate "," (sortBy Text.le foreign)]
      else []) ++
    if matching < requested then
      ["insufficient_attributed_lots" ++ subject ++ ":needed=" ++ toString requested ++
        ":matched=" ++ toString matching]
    else []

/-- All open lots of the position are the strategy's, as `legacy_override_safe` asks. -/
def lotsOnlyOf (strategy : String) (lots : List Lot) : Bool :=
  lots ≠ [] && (lotIdentities lots).keys = [strategy]

/-- The position that the account holds, to exit it. -/
def Position.exitPosition (position : Position) : ExitPosition where
  instrumentToken := position.instrumentToken
  exchange := some position.exchange
  tradingsymbol := some position.tradingsymbol
  product := position.product
  netQuantity := position.netQuantity

abbrev ExitPositions := Dict (Int × String) ExitPosition

/-- One legacy position of the loop over `exit_position_map`. -/
def addLegacyPosition (strategy : String) (position : Position) (lots : List Lot)
    (positions : ExitPositions) : ExitPositions :=
  let key := (position.instrumentToken, position.product)
  match positions.get? key with
  | none => positions.set key position.exitPosition
  | some current =>
    if lotsOnlyOf strategy lots ∧ |current.netQuantity| < |position.netQuantity| then
      positions.set key position.exitPosition
    else positions

/-! ## the basket of an exit -/

/-- The entries of a dictionary that have a value. -/
def attributionOf (entries : List (String × Option String)) : Attribution :=
  entries.filterMap fun entry => entry.2.map fun value => (entry.1, value)

def ExitPosition.orderPayload (position : ExitPosition) (strategy : String)
    (strategyTag algoInstanceId : Option String) : OrderPayload where
  exchange := position.exchange
  tradingsymbol := position.tradingsymbol
  product := some position.product
  transactionType := some (if position.netQuantity < 0 then "BUY" else "SELL")
  orderType := some "MARKET"
  quantity := some |position.netQuantity|
  metadata := attributionOf
    [("strategy_run_id", some strategy), ("option_strategy_id", some strategy),
      ("algo_instance_id", algoInstanceId), ("strategy_tag", strategyTag), ("exit_for", some strategy)]

def exitAttribution (strategy : String) (strategyTag algoInstanceId : Option String) : Attribution :=
  attributionOf
    [("source", some "paper-page-exit"), ("strategy_tag", strategyTag), ("strategy_run_id", some strategy),
      ("option_strategy_id", some strategy), ("algo_instance_id", algoInstanceId),
      ("notes", some ("exit-strategy:" ++ strategy))]

/-- What `exit_strategy` places. -/
structure ExitPlan where
  orders : List OrderPayload
  attribution : Attribution

/-- What `exit_strategy` returns. -/
inductive ExitReply where
  | blocked (message : String) (staleReasons : List String)
  | noop (message : String)
  | placed (result : BasketResult)
  deriving DecidableEq

/-- The reply when there is nothing to exit. -/
def ExitReply.nothing : ExitReply := .noop "No open paper positions found for strategy"

namespace Service

open Repository

variable (svc : Service)

def getRunState (scope : Scope) (strategy : String) : Task (Option RunState) := do
  let orders ← listOrders scope 50000
  let trades ← listTrades scope 50000
  let positions ← listPositions scope false
  return runState strategy orders trades positions

/-- The positions among the open ones that belong to the strategy as the page groups them. -/
def legacyPositions (newest : List Attribution → Nat) (strategy : String) (orders : List Order)
    (trades : List Trade) : List Position → Task (List Position)
  | [] => return []
  | position :: positions => do
    let lots ← listOpenPositionLots position.key
    let rest ← legacyPositions newest strategy orders trades positions
    if groupStrategy (strategyGroupMetadata newest position lots orders trades) = some strategy then
      return position :: rest
    else return rest

def resolveStrategyExitLotAmbiguity (scope : Scope) (strategy : String) :
    List ExitPosition → Task (List String)
  | [] => return []
  | position :: positions =>
    if position.instrumentToken ≤ 0 ∨ position.product = "" then
      resolveStrategyExitLotAmbiguity scope strategy positions
    else do
      let lots ← listOpenPositionLots ⟨scope, position.instrumentToken, position.product⟩
      let reasons ← resolveStrategyExitLotAmbiguity scope strategy positions
      return lotAmbiguity strategy position lots ++ reasons

def addLegacyPositions (scope : Scope) (strategy : String) :
    List Position → ExitPositions → Task ExitPositions
  | [], positions => return positions
  | position :: legacy, positions => do
    let lots ← listOpenPositionLots ⟨scope, position.instrumentToken, position.product⟩
    addLegacyPositions scope strategy legacy (addLegacyPosition strategy position lots positions)

/-- `exit_strategy` up to the basket. -/
def planExit (scope : Scope) (strategy : String) (newest : List Attribution → Nat) :
    Task (Except ExitReply ExitPlan) := do
  let state ← getRunState scope strategy
  let linked := ((state.map RunState.positions).getD []).filter fun position =>
    position.netQuantity ≠ 0
  let openPositions ← listPositions scope true
  let orders ← listOrders scope 1000
  let trades ← listTrades scope 2000
  let legacy ← legacyPositions newest strategy orders trades openPositions
  let staleReasons := (state.map RunState.staleReasons).getD []
  if linked = [] ∧ legacy = [] then return .error .nothing
  else if staleReasons ≠ [] then
    return .error (.blocked ("Strategy-level exit is blocked because the paper run exposure no " ++
      "longer reconciles cleanly with account-level positions") staleReasons)
  else do
    let reasons ← resolveStrategyExitLotAmbiguity scope strategy linked
    if reasons ≠ [] then
      return .error (.blocked ("Strategy-level exit is blocked because open lots cannot be " ++
        "safely attributed for this strategy") reasons)
    else do
      let positions ← addLegacyPositions scope strategy legacy
        (linked.foldl (fun (positions : ExitPositions) position =>
          positions.set (position.instrumentToken, position.product) position) [])
      let exiting := positions.values.filter fun position => position.netQuantity ≠ 0
      let strategyTag := state.bind RunState.strategyTag
      let algoInstanceId := state.bind RunState.algoInstanceId
      if exiting = [] then return .error .nothing
      else
        return .ok
          { orders := exiting.map fun position => position.orderPayload strategy strategyTag algoInstanceId
            attribution := exitAttribution strategy strategyTag algoInstanceId }

def exitStrategy (scope : Scope) (strategyId : String) (newest : List Attribution → Nat)
    (market : Nat → Int → Snapshot) : Task (Except Failure ExitReply) :=
  let strategy := Text.strip strategyId
  if strategy = "" then return .error (.valueError "strategy_id is required")
  else if Text.startsWith strategy "manual:" then
    return .ok (.blocked "Strategy-level exit is unavailable for manual paper activity" [])
  else if Text.startsWith strategy "unsupported:" then
    return .ok (.blocked ("Strategy-level exit is disabled because the open position attribution " ++
      "is ambiguous") [])
  else do
    match ← planExit scope strategy newest with
    | .error reply => return .ok reply
    | .ok plan =>
      let result ← svc.placeBasket scope { orders := plan.orders, allOrNone := true }
        plan.attribution market
      return result.map ExitReply.placed

def resetAccount (scope : Scope) (startingBalance : Option ℚ) : Task Account := do
  let balance := startingBalance.getD svc.defaultStartingBalance
  clearAccountScope scope
  upsertAccount
    { scope := scope
      startingBalance := balance
      availableFunds := balance
      blockedFunds := 0
      realizedPnl := 0 }

end Service

end KiteAlgo.Paper
