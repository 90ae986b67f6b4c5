import KiteAlgo.Lib.Interleaving
import KiteAlgo.Paper.Store

/-!
# KiteAlgo.Paper.Service

`PaperTradingService`: placing an order, placing a basket and processing a tick, as
programs over the repository.

Every repository call is one operation, so another call may run at each `await`
between two of them; `async with self._account_lock(...)` takes the lock of an account.
Catalog lookups and market snapshots do not touch the repository and are not
operations.  The unit of work of an all-or-none basket contains no `await`: it is a
function of the store (the `…Uow` definitions), committed or rolled back in one
operation.  Journal and event publication are left out.
-/

namespace KiteAlgo.Paper

/-! ## the repository -/

/-- What an operation is about, where that matters to another call. -/
inductive Label where
  | plain
  /-- A tick writes the stop state of an order it has listed. -/
  | stopState (order : Order)
  /-- A tick reads the position under the lock, to fill an order it has listed. -/
  | fillListed (order : Order)
  /-- A trade is inserted. -/
  | trade (order : Order)
  /-- A tick writes back a position it has listed. -/
  | mark (position : Position)

abbrev Task := Prog Scope Label Store

namespace Repository

def getAccount (scope : Scope) : Task (Option Account) :=
  .read .plain fun s => s.accounts.get? scope

def upsertAccount (account : Account) : Task Account :=
  .call .plain fun s => (account, s.upsertAccount account)

def insertOrder (order : Order) : Task Order :=
  .call .plain fun s => s.insertOrder order

def updateOrder (label : Label) (order : Order) : Task Order :=
  .call label fun s => (order, s.updateOrder order)

def listPendingOrdersForInstrument (token : Int) : Task (List Order) :=
  .read .plain fun s => s.listPendingOrdersForInstrument token

def insertTrade (label : Label) (trade : Trade) : Task Trade :=
  .call label fun s => s.insertTrade trade

def getPosition (label : Label) (key : PositionKey) : Task (Option Position) :=
  .read label fun s => s.getPosition key

def upsertPosition (label : Label) (position : Position) : Task Position :=
  .call label fun s => ({ position with updatedAt := s.clock }, s.upsertPosition position)

def listOpenPositionsForInstrument (token : Int) : Task (List Position) :=
  .read .plain fun s => s.listOpenPositionsForInstrument token

def insertLot (lot : Lot) : Task Unit :=
  .call .plain fun s => ((), s.insertLot lot)

def updateLot (lot : Lot) : Task Unit :=
  .call .plain fun s => ((), s.updateLot lot)

def listOpenPositionLots (key : PositionKey) : Task (List Lot) :=
  .read .plain fun s => s.listOpenPositionLots key

def appendFundLedgerEntry (entry : LedgerEntry) : Task Unit :=
  .call .plain fun s => ((), s.appendFundLedgerEntry entry)

end Repository

/-! ## results -/

inductive Placed where
  | accepted (order : Order)
  | filled (order : Order) (trade : Trade) (position : Position)
  | rejected (reason : String) (order : Order)
  deriving DecidableEq

/-- `result.get("status") == "rejected"`. -/
def Placed.isRejected : Placed → Bool
  | .rejected _ _ => true
  | _ => false

/-- The status of a basket; `mixed` is `"partial"`. -/
inductive BasketStatus where
  | success
  | mixed
  | failed
  deriving DecidableEq, Repr

structure BasketResult where
  status : BasketStatus
  results : List Placed
  errors : List Placed
  deriving DecidableEq

structure BasketPayload where
  orders : List OrderPayload
  allOrNone : Bool := false
  metadata : Attribution := []

structure Tick where
  instrumentToken : Int
  snapshot : Snapshot

/-! ## shared pieces of the two paths -/

/-- The reserve delta of `_apply_account_delta`. -/
def Account.reserve (account : Account) (delta : ℚ) : Account :=
  { account with
    availableFunds := account.availableFunds - delta
    blockedFunds := account.blockedFunds + delta }

/-- The ledger entry of `_apply_account_delta`. -/
def Account.reserveEntry (account : Account) (delta : ℚ) (orderId : Nat) : LedgerEntry :=
  { scope := account.scope
    entryType := if 0 < delta then .reserve else .release
    amount := |delta|
    balanceAfter := (account.reserve delta).availableFunds
    referenceId := orderId
    notes := "paper_margin_adjustment" }

/-- The cash delta of `_apply_cash_delta`. -/
def Account.credit (account : Account) (delta : ℚ) : Account :=
  { account with availableFunds := account.availableFunds + delta }

/-- The ledger entry of `_apply_cash_delta`. -/
def Account.cashEntry (account : Account) (delta : ℚ) (entryType : EntryType) (orderId : Nat)
    (notes : String) : LedgerEntry :=
  { scope := account.scope
    entryType := entryType
    amount := |delta|
    balanceAfter := (account.credit delta).availableFunds
    referenceId := orderId
    notes := notes }

/-- `PaperOrder(...)` of a request: the sides and types that the enumerations know. -/
def paperOrder (scope : Scope) (token : Int) (request : Request) (status : OrderStatus)
    (attribution : Attribution) : Except Failure Order :=
  match sideOf? request.transactionType, orderTypeOf? request.orderType with
  | some side, some orderType =>
    .ok
      { scope := scope
        orderId := 0
        instrumentToken := token
        exchange := request.exchange
        tradingsymbol := request.tradingsymbol
        product := request.product
        side := side
        orderType := orderType
        quantity := request.quantity
        quantity_pos := request.quantity_pos
        status := status
        attribution := attribution }
  | _, _ => .error .validationError

/-- The order of `_reject_order` and of `_build_rejected_result`. -/
def rejectedOrder (scope : Scope) (request : Request) (attribution : Attribution)
    (reason : String) : Except Failure Order :=
  (paperOrder scope 0 request .rejected attribution).map fun order =>
    { order with rejectionReason := some reason }

/-- The order that `_place_order_locked` inserts. -/
def acceptedOrder (scope : Scope) (request : Request) (instrument : Instrument)
    (attribution : Attribution) (reservedMargin estimatedCharges : ℚ) : Except Failure Order :=
  (paperOrder scope instrument.instrumentToken request .pending attribution).map fun order =>
    { order with
      price := request.price
      triggerPrice := request.triggerPrice
      reservedMargin := reservedMargin
      estimatedCharges := estimatedCharges
      instrumentType := instrument.kind }

/-- The order `_fill_order` completes. -/
def Order.completed (order : Order) (fillPrice : ℚ) : Order :=
  { order with
    status := .filled
    filledQuantity := order.quantity
    pendingQuantity := 0
    averagePrice := some fillPrice }

/-- Why `_fill_order` rejects. -/
def fillRejection : String := "Insufficient funds for fill-time margin adjustment"

/-- The order `_fill_order` rejects. -/
def Order.refused (order : Order) : Order :=
  { order with status := .rejected, rejectionReason := some fillRejection }

def Order.trade (order : Order) (fillPrice : ℚ) : Trade :=
  { scope := order.scope
    tradeId := 0
    orderId := order.orderId
    instrumentToken := order.instrumentToken
    side := order.side
    quantity := order.quantity
    price := fillPrice
    attribution := order.attribution
    estimatedCharges := order.estimatedCharges
    exchange := order.exchange
    tradingsymbol := order.tradingsymbol
    product := order.product }

def Order.lot (order : Order) (tradeId : Nat) (fillPrice : ℚ) : Lot :=
  { scope := order.scope
    lotId := 0
    instrumentToken := order.instrumentToken
    product := order.product
    sourceTradeId := tradeId
    sourceOrderId := order.orderId
    openQuantity := order.quantity
    remainingQuantity := order.quantity
    entryPrice := fillPrice
    attribution := order.attribution }

def orderedLotsForConsumption (lots : List Lot) (preferred : Option String) (strict : Bool) :
    List Lot :=
  match preferred with
  | none => lots
  | some strategy =>
    let own := lots.filter fun lot => strategyIdentity lot.attribution = some strategy
    let others := lots.filter fun lot => strategyIdentity lot.attribution ≠ some strategy
    if strict then own else own ++ others

/-- What is written back of a lot and what remains to be consumed. -/
def Lot.consume (lot : Lot) (remaining : Int) : Lot × Int :=
  let consumed := min lot.remainingQuantity remaining
  ({ lot with remainingQuantity := lot.remainingQuantity - consumed }, remaining - consumed)

/-- The position that `_fill_order` writes. -/
def Position.settled (position : Position) (order : Order) (margin fillPrice : ℚ) : Position :=
  { position with
    scope := order.scope
    marginInUse := some margin
    lastPrice := some fillPrice
    attribution := adoptAttribution position.attribution order.attribution }

/-- The position that `_mark_to_market` writes. -/
def Position.marked (position : Position) (lastPrice : ℚ) : Position :=
  { position with
    unrealizedPnl := unrealizedOf position.netQuantity position.averagePrice lastPrice
    lastPrice := some lastPrice }

/-- The service: its catalog, its text functions and its default balance. -/
structure Service where
  getInstrument : String → String → Option Instrument
  upper : String → String
  defaultStartingBalance : ℚ

structure Terms where
  reference : ℚ
  margin : ℚ
  charges : ℚ

/-- What a fill works out before it writes anything. -/
structure FillPlan where
  position : Position
  margin : ℚ
  adjustment : ℚ
  realizedDelta : ℚ

namespace Service

variable (svc : Service)

/-- The account `ensure_account` creates. -/
def freshAccount (scope : Scope) : Account :=
  { scope := scope
    startingBalance := svc.defaultStartingBalance
    availableFunds := svc.defaultStartingBalance
    blockedFunds := 0
    realizedPnl := 0 }

/-- `incremental_margin`: what the order adds to the margin of the position. -/
def incrementalMargin (scope : Scope) (existing : Option Position) (request : Request)
    (instrument : Instrument) (reference : ℚ) : ℚ :=
  let oldMargin := positionMargin svc.upper existing instrument.instrumentType reference
  let hypothetical := applyFillToPosition scope existing request reference instrument
  let newMargin := positionMargin svc.upper (some hypothetical) instrument.instrumentType reference
  max (newMargin - oldMargin) 0

/-- The checks that `_place_order_locked` and `_place_order_locked_uow` make on a request
before they accept it: the reason for a rejection, or the terms of the order. -/
def screenOrder (scope : Scope) (account : Account) (request : Request) (instrument : Instrument)
    (snapshot : Snapshot) (existing : Option Position) : Except String Terms :=
  let reference := referencePrice request instrument snapshot
  if reference ≤ 0 then .error "No reference price available for paper execution"
  else if 1 < instrument.lots ∧ request.quantity % instrument.lots ≠ 0 then
    .error ("Quantity must be a multiple of lot size " ++ toString instrument.lots)
  else
    let margin := svc.incrementalMargin scope existing request instrument reference
    let charges := estimateCharges svc.upper reference request.quantity
      instrument.instrumentType request.exchange
    if account.availableFunds < margin + charges then .error "Insufficient paper funds or margin"
    else .ok { reference := reference, margin := margin, charges := charges }

/-- The new position, its margin, and what they change on the account. -/
def fillPlan (order : Order) (request : Request) (instrument : Instrument) (fillPrice : ℚ)
    (existing : Option Position) : FillPlan :=
  let oldMargin := positionMarginInUse svc.upper existing instrument.instrumentType fillPrice
  let position :=
    { applyFillToPosition order.scope existing request fillPrice instrument with
      scope := order.scope }
  let margin := positionMargin svc.upper (some position) instrument.instrumentType fillPrice
  { position := position
    margin := margin
    adjustment := margin - (oldMargin + order.reservedMargin)
    realizedDelta := position.realizedPnl - (existing.map Position.realizedPnl).getD 0 }

/-! ## the asynchronous path -/

open Repository

def ensureAccount (scope : Scope) : Task Account := do
  match ← getAccount scope with
  | some account => return account
  | none => upsertAccount (svc.freshAccount scope)

def rejectOrder (scope : Scope) (request : Request) (attribution : Attribution) (reason : String) :
    Task (Except Failure Placed) :=
  match rejectedOrder scope request attribution reason with
  | .error failure => return .error failure
  | .ok order => do
    let order ← insertOrder order
    return .ok (.rejected reason order)

def applyAccountDelta (account : Account) (delta : ℚ) (orderId : Nat) : Task Account :=
  if delta = 0 then return account
  else do
    let updated ← upsertAccount (account.reserve delta)
    appendFundLedgerEntry (account.reserveEntry delta orderId)
    return updated

def applyCashDelta (account : Account) (delta : ℚ) (entryType : EntryType) (orderId : Nat)
    (notes : String) : Task Account :=
  if delta = 0 then return account
  else do
    let updated ← upsertAccount (account.credit delta)
    appendFundLedgerEntry (account.cashEntry delta entryType orderId notes)
    return updated

/-- The loop of `_consume_position_lots`. -/
def consumeLots : List Lot → Int → Task Unit
  | [], _ => return ()
  | lot :: lots, remaining =>
    if remaining ≤ 0 then return ()
    else if lot.remainingQuantity ≤ 0 then consumeLots lots remaining
    else do
      updateLot (lot.consume remaining).1
      consumeLots lots (lot.consume remaining).2

def consumePositionLots (key : PositionKey) (quantity : Int) (preferred : Option String)
    (strict : Bool) : Task Unit :=
  if max 0 quantity ≤ 0 then return ()
  else do
    let lots ← listOpenPositionLots key
    consumeLots (orderedLotsForConsumption lots preferred strict) (max 0 quantity)

def persistStopLimitTriggerState (label : Label) (order : Order) (request : Request)
    (snapshot : Snapshot) : Task Order :=
  if order.orderType ≠ .sl then return order
  else if order.stopTriggered then return order
  else if ¬ stopLimitTriggerReached request snapshot then return order
  else updateOrder label order.stopped

/-- The margin of a fill differs from what was reserved and in use. -/
def applyMarginAdjustment (account : Account) (adjustment : ℚ) (orderId : Nat) : Task Account :=
  if adjustment ≠ 0 then applyAccountDelta account adjustment orderId
  else return account

/-- The realized profit of a fill goes to the account. -/
def applyRealizedDelta (account : Account) (delta : ℚ) (orderId : Nat) : Task Account :=
  if delta ≠ 0 then do
    let account ← applyCashDelta account delta (if 0 < delta then .credit else .debit) orderId
      "paper_realized_pnl"
    upsertAccount { account with realizedPnl := account.realizedPnl + delta }
  else return account

/-- The lots of a fill: a buy opens one, a sell consumes. -/
def attributeLots (order : Order) (tradeId : Nat) (fillPrice : ℚ) : Task Unit :=
  let exitStrategyId := textAt order.attribution "exit_for"
  match order.side with
  | .buy => insertLot (order.lot tradeId fillPrice)
  | .sell => consumePositionLots order.key order.quantity exitStrategyId exitStrategyId.isSome

/-- The account's part of a fill: margin, charges and realized profit. -/
def settleFunds (order : Order) (account : Account) (plan : FillPlan) : Task Account := do
  let account ← applyMarginAdjustment account plan.adjustment order.orderId
  let account ← applyCashDelta account (-order.estimatedCharges) .debit order.orderId
    "paper_trade_charges"
  applyRealizedDelta account plan.realizedDelta order.orderId

/-- The books' part of a fill: the order, the trade, the lots and the position. -/
def recordFill (order : Order) (fillPrice : ℚ) (plan : FillPlan) : Task Placed := do
  let completed ← updateOrder .plain (order.completed fillPrice)
  let trade ← insertTrade (.trade order) (order.trade fillPrice)
  attributeLots order trade.tradeId fillPrice
  let position ← upsertPosition .plain (plan.position.settled order plan.margin fillPrice)
  return .filled completed trade position

def fillOrder (order : Order) (account : Account) (request : Request) (instrument : Instrument)
    (fillPrice : ℚ) (existing : Option Position) : Task Placed :=
  let plan := svc.fillPlan order request instrument fillPrice existing
  if account.availableFunds - plan.adjustment - order.estimatedCharges < 0 then do
    let rejected ← updateOrder .plain order.refused
    let _ ← applyAccountDelta account (-order.reservedMargin) rejected.orderId
    return .rejected fillRejection rejected
  else do
    let _ ← settleFunds order account plan
    recordFill order fillPrice plan

/-- `_place_order_locked` from the accepted order on. -/
def bookOrder (order : Order) (account : Account) (request : Request) (instrument : Instrument)
    (snapshot : Snapshot) (existing : Option Position) (reference : ℚ) : Task Placed := do
  let order ← insertOrder order
  let account ← applyAccountDelta account order.reservedMargin order.orderId
  let order ← persistStopLimitTriggerState .plain order request snapshot
  if shouldFillImmediately request snapshot then
    svc.fillOrder order account request instrument (fillPrice order snapshot reference) existing
  else
    let pendingOrder ← updateOrder .plain order.opened
    return .accepted pendingOrder

/-- `_place_order_locked` for a normalized request. -/
def placeRequest (scope : Scope) (request : Request) (attribution : Attribution)
    (market : Int → Snapshot) : Task (Except Failure Placed) := do
  let account ← svc.ensureAccount scope
  match svc.getInstrument request.exchange request.tradingsymbol with
  | none =>
    rejectOrder scope request attribution
      ("Instrument not found for " ++ request.exchange ++ ":" ++ request.tradingsymbol)
  | some instrument =>
    let existing ← getPosition .plain ⟨scope, instrument.instrumentToken, request.product⟩
    let snapshot := market instrument.instrumentToken
    match svc.screenOrder scope account request instrument snapshot existing with
    | .error reason => rejectOrder scope request attribution reason
    | .ok terms =>
      match acceptedOrder scope request instrument attribution terms.margin terms.charges with
      | .error failure => return .error failure
      | .ok order => do
        let placed ← svc.bookOrder order account request instrument snapshot existing
          terms.reference
        return .ok placed

def placeOrderLocked (scope : Scope) (payload : OrderPayload) (attribution : Attribution)
    (market : Int → Snapshot) : Task (Except Failure Placed) :=
  match normalizeOrderRequest svc.upper payload with
  | .error failure => return .error failure
  | .ok request =>
    svc.placeRequest scope request (mergedAttribution attribution payload.metadata) market

def placeOrder (scope : Scope) (payload : OrderPayload) (attribution : Attribution)
    (market : Int → Snapshot) : Task (Except Failure Placed) :=
  .withLock scope (svc.placeOrderLocked scope payload attribution market)

/-- The orders of a basket one after another; `index` counts them. -/
def placeSequence (scope : Scope) (attribution : Attribution) (market : Nat → Int → Snapshot) :
    Nat → List OrderPayload → Task (Except Failure (List Placed))
  | _, [] => return .ok []
  | index, payload :: payloads => do
    match ← svc.placeOrderLocked scope payload
        (mergedAttribution attribution payload.metadata) (market index) with
    | .error failure => return .error failure
    | .ok placed =>
      match ← placeSequence scope attribution market (index + 1) payloads with
      | .error failure => return .error failure
      | .ok results => return .ok (placed :: results)

/-- The result of a basket whose orders were placed one after another. -/
def basketResult (results : List Placed) : BasketResult :=
  let failures := results.filter Placed.isRejected
  { status :=
      if failures = [] then .success
      else if failures.length = results.length then .failed
      else .mixed
    results := results
    errors := failures }

/-! ## the unit of work -/

def applyAccountDeltaUow (account : Account) (delta : ℚ) (orderId : Nat) (s : Store) :
    Account × Store :=
  if delta = 0 then (account, s)
  else
    let updated := account.reserve delta
    (updated, (s.upsertAccount updated).appendFundLedgerEntry (account.reserveEntry delta orderId))

def applyCashDeltaUow (account : Account) (delta : ℚ) (entryType : EntryType) (orderId : Nat)
    (notes : String) (s : Store) : Account × Store :=
  if delta = 0 then (account, s)
  else
    let updated := account.credit delta
    (updated, (s.upsertAccount updated).appendFundLedgerEntry
      (account.cashEntry delta entryType orderId notes))

/-- The loop of `_consume_position_lots_uow`. -/
def consumeLotsUow : List Lot → Int → Store → Store
  | [], _, s => s
  | lot :: lots, remaining, s =>
    if remaining ≤ 0 then s
    else if lot.remainingQuantity ≤ 0 then consumeLotsUow lots remaining s
    else consumeLotsUow lots (lot.consume remaining).2 (s.updateLot (lot.consume remaining).1)

def consumePositionLotsUow (key : PositionKey) (quantity : Int) (preferred : Option String)
    (strict : Bool) (s : Store) : Store :=
  if max 0 quantity ≤ 0 then s
  else
    let lots := s.listOpenPositionLots key
    consumeLotsUow (orderedLotsForConsumption lots preferred strict) (max 0 quantity) s

def persistStopLimitTriggerStateUow (order : Order) (request : Request) (snapshot : Snapshot)
    (s : Store) : Order × Store :=
  if order.orderType ≠ .sl then (order, s)
  else if order.stopTriggered then (order, s)
  else if ¬ stopLimitTriggerReached request snapshot then (order, s)
  else
    (order.stopped, s.updateOrder order.stopped)

def buildRejectedResult (scope : Scope) (request : Request) (attribution : Attribution)
    (reason : String) : Except Failure Placed :=
  (rejectedOrder scope request attribution reason).map fun order => .rejected reason order

/-- The account's part of `_fill_order_uow`. -/
def settleFundsUow (order : Order) (account : Account) (plan : FillPlan) (s : Store) :
    Account × Store :=
  let (account, s) :=
    if plan.adjustment ≠ 0 then applyAccountDeltaUow account plan.adjustment order.orderId s
    else (account, s)
  let (account, s) := applyCashDeltaUow account (-order.estimatedCharges) .debit order.orderId
    "paper_trade_charges" s
  if plan.realizedDelta ≠ 0 then
    let (account, s) := applyCashDeltaUow account plan.realizedDelta
      (if 0 < plan.realizedDelta then .credit else .debit) order.orderId "paper_realized_pnl" s
    let account := { account with realizedPnl := account.realizedPnl + plan.realizedDelta }
    (account, s.upsertAccount account)
  else (account, s)

/-- The lots of `_fill_order_uow`. -/
def attributeLotsUow (order : Order) (tradeId : Nat) (fillPrice : ℚ) (s : Store) : Store :=
  let exitStrategyId := textAt order.attribution "exit_for"
  match order.side with
  | .buy => s.insertLot (order.lot tradeId fillPrice)
  | .sell =>
    consumePositionLotsUow order.key order.quantity exitStrategyId exitStrategyId.isSome s

/-- The books' part of `_fill_order_uow`. -/
def recordFillUow (order : Order) (fillPrice : ℚ) (plan : FillPlan) (s : Store) : Placed × Store :=
  let completed := order.completed fillPrice
  let s := s.updateOrder completed
  let (trade, s) := s.insertTrade (order.trade fillPrice)
  let s := attributeLotsUow order trade.tradeId fillPrice s
  let position := plan.position.settled order plan.margin fillPrice
  (.filled completed trade { position with updatedAt := s.clock }, s.upsertPosition position)

def fillOrderUow (order : Order) (account : Account) (request : Request) (instrument : Instrument)
    (fillPrice : ℚ) (existing : Option Position) (s : Store) :
    Except Failure ((Placed × Account) × Store) :=
  let plan := svc.fillPlan order request instrument fillPrice existing
  if account.availableFunds - plan.adjustment - order.estimatedCharges < 0 then
    (buildRejectedResult order.scope request order.attribution fillRejection).map fun result =>
      ((result, account), s)
  else
    let (account, s) := settleFundsUow order account plan s
    let (placed, s) := recordFillUow order fillPrice plan s
    .ok ((placed, account), s)

/-- An order of an all-or-none basket with what was looked up for it. -/
structure Leg where
  request : Request
  instrument : Instrument
  snapshot : Snapshot
  attribution : Attribution

/-- `_place_order_locked_uow` from the accepted order on. -/
def bookOrderUow (order : Order) (account : Account) (leg : Leg) (existing : Option Position)
    (reference : ℚ) (s : Store) : Except Failure ((Placed × Account) × Store) :=
  let (order, s) := s.insertOrder order
  let (account, s) := applyAccountDeltaUow account order.reservedMargin order.orderId s
  let (order, s) := persistStopLimitTriggerStateUow order leg.request leg.snapshot s
  if ¬ shouldFillImmediately leg.request leg.snapshot then
    .ok ((.accepted order.opened, account), s.updateOrder order.opened)
  else
    svc.fillOrderUow order account leg.request leg.instrument
      (fillPrice order leg.snapshot reference) existing s

def placeOrderLockedUow (scope : Scope) (account : Account) (leg : Leg) (s : Store) :
    Except Failure ((Placed × Account) × Store) :=
  let existing := s.getPosition ⟨scope, leg.instrument.instrumentToken, leg.request.product⟩
  match svc.screenOrder scope account leg.request leg.instrument leg.snapshot existing with
  | .error reason =>
    (buildRejectedResult scope leg.request leg.attribution reason).map fun result =>
      ((result, account), s)
  | .ok terms =>
    match acceptedOrder scope leg.request leg.instrument leg.attribution terms.margin
        terms.charges with
    | .error failure => .error failure
    | .ok order => svc.bookOrderUow order account leg existing terms.reference s

/-- Why the unit of work of a basket is left: `_AtomicBasketRejected` or an error. -/
inductive Abort where
  | rejected (result : Placed)
  | raised (failure : Failure)
  deriving DecidableEq

def Abort.reply : Abort → Except Failure BasketResult
  | .rejected result => .ok { status := .failed, results := [], errors := [result] }
  | .raised failure => .error failure

/-- The preparation of an all-or-none basket, up to the first unknown instrument. -/
def prepareLegs (scope : Scope) (attribution : Attribution) (market : Nat → Int → Snapshot) :
    Nat → List OrderPayload → Except Abort (List Leg)
  | _, [] => .ok []
  | index, payload :: payloads =>
    match normalizeOrderRequest svc.upper payload with
    | .error failure => .error (.raised failure)
    | .ok request =>
      match svc.getInstrument request.exchange request.tradingsymbol with
      | none =>
        match buildRejectedResult scope request attribution
          ("Instrument not found for " ++ request.exchange ++ ":" ++ request.tradingsymbol) with
        | .error failure => .error (.raised failure)
        | .ok result => .error (.rejected result)
      | some instrument =>
        (prepareLegs scope attribution market (index + 1) payloads).map fun legs =>
          { request := request
            instrument := instrument
            snapshot := market index instrument.instrumentToken
            attribution := mergedAttribution attribution payload.metadata } :: legs

def placeLegsUow (scope : Scope) : List Leg → Account → Store → Except Abort (List Placed × Store)
  | [], _, s => .ok ([], s)
  | leg :: legs, account, s =>
    match svc.placeOrderLockedUow scope account leg s with
    | .error failure => .error (.raised failure)
    | .ok ((result, account), s) =>
      if result.isRejected then .error (.rejected result)
      else (placeLegsUow scope legs account s).map fun rest => (result :: rest.1, rest.2)

def basketUow (scope : Scope) (legs : List Leg) (s : Store) : Except Abort (List Placed × Store) :=
  match s.accounts.get? scope with
  | some account => svc.placeLegsUow scope legs account s
  | none =>
    let account := svc.freshAccount scope
    svc.placeLegsUow scope legs account (s.upsertAccount account)

/-- `SqlAlchemyPaperRepository.unit_of_work`: commit, or roll back and raise. -/
def unitOfWork {ε α : Type} (body : Store → Except ε (α × Store)) (s : Store) :
    Except ε α × Store :=
  match body s with
  | .ok (a, s') => (.ok a, s')
  | .error e => (.error e, s)

def placeBasketAllOrNoneAtomic (scope : Scope) (orders : List OrderPayload)
    (attribution : Attribution) (market : Nat → Int → Snapshot) :
    Task (Except Failure BasketResult) :=
  match svc.prepareLegs scope attribution market 0 orders with
  | .error abort => return abort.reply
  | .ok legs => do
    match ← .call .plain (unitOfWork (svc.basketUow scope legs)) with
    | .ok results => return .ok { status := .success, results := results, errors := [] }
    | .error abort => return abort.reply

/-! ## baskets and ticks -/

def placeBasketLocked (scope : Scope) (basket : BasketPayload) (attribution : Attribution)
    (market : Nat → Int → Snapshot) : Task (Except Failure BasketResult) :=
  let attribution := mergedAttribution attribution basket.metadata
  if basket.allOrNone then
    svc.placeBasketAllOrNoneAtomic scope basket.orders attribution market
  else do
    let results ← svc.placeSequence scope attribution market 0 basket.orders
    return results.map basketResult

def placeBasket (scope : Scope) (basket : BasketPayload) (attribution : Attribution)
    (market : Nat → Int → Snapshot) : Task (Except Failure BasketResult) :=
  .withLock scope (svc.placeBasketLocked scope basket attribution market)

/-- The part of `process_tick` under the lock of an order's account. -/
def fillListed (tick : Tick) (order : Order) : Task Unit := do
  let account ← svc.ensureAccount order.scope
  let existing ← getPosition (.fillListed order) order.key
  match svc.getInstrument order.exchange order.tradingsymbol with
  | none => return ()
  | some instrument => do
    let price := fillPrice order tick.snapshot tick.snapshot.last
    let _ ← svc.fillOrder order account (requestFromPaperOrder order) instrument price existing
    return ()

/-- One listed order of `process_tick`. -/
def tickOrder (tick : Tick) (order : Order) : Task Unit := do
  let request := requestFromPaperOrder order
  let order ← persistStopLimitTriggerState (.stopState order) order request tick.snapshot
  if orderShouldTrigger (some order) request tick.snapshot then
    .withLock order.scope (svc.fillListed tick order)
  else return ()

/-- The orders of `process_tick`. -/
def tickOrders (tick : Tick) : List Order → Task Unit
  | [] => return ()
  | order :: orders => do
    svc.tickOrder tick order
    tickOrders tick orders

def markToMarket (tick : Tick) (position : Position) : Task Unit :=
  if tick.snapshot.last ≤ 0 then return ()
  else do
    let _ ← upsertPosition (.mark position) (position.marked tick.snapshot.last)
    return ()

/-- The positions of `process_tick`. -/
def markPositions (tick : Tick) : List Position → Task Unit
  | [] => return ()
  | position :: positions => do
    .withLock position.scope (markToMarket tick position)
    markPositions tick positions

def processTick (tick : Tick) : Task Unit :=
  if tick.instrumentToken ≤ 0 then return ()
  else do
    let orders ← listPendingOrdersForInstrument tick.instrumentToken
    svc.tickOrders tick orders
    let positions ← listOpenPositionsForInstrument tick.instrumentToken
    markPositions tick positions

end Service

/-- A call of the service, with the market data it is given. -/
inductive Call where
  | placeOrder (scope : Scope) (payload : OrderPayload) (attribution : Attribution)
      (market : Int → Snapshot)
  | placeBasket (scope : Scope) (basket : BasketPayload) (attribution : Attribution)
      (market : Nat → Int → Snapshot)
  | processTick (tick : Tick)

inductive Reply where
  | placed (result : Except Failure Placed)
  | basket (result : Except Failure BasketResult)
  | ticked

def Service.program (svc : Service) : Call → Task Reply
  | .placeOrder scope payload attribution market => do
    return .placed (← svc.placeOrder scope payload attribution market)
  | .placeBasket scope basket attribution market => do
    return .basket (← svc.placeBasket scope basket attribution market)
  | .processTick tick => do
    svc.processTick tick
    return .ticked

/-- The store after calls that run one after another. -/
def Service.serial (svc : Service) (calls : List Call) (s : Store) : Store :=
  calls.foldl (fun s call => ((svc.program call).run s).2) s

/-! ## a small market -/

/-- One account, one instrument and the prices it trades at. -/
def demoScope : Scope := ⟨"paper:demo", by decide +kernel⟩

def demoService : Service where
  getInstrument exchange symbol :=
    if exchange = "NSE" ∧ symbol = "INFY" then some { instrumentToken := 408065 } else none
  upper := Text.upper
  defaultStartingBalance := 1000000

/-- An order for `NSE:INFY`, at market unless it has a price. -/
def demoOrder (side : String) (quantity : Int) (price : Option ℚ := none)
    (metadata : Attribution := []) : OrderPayload :=
  { exchange := some "NSE"
    tradingsymbol := some "INFY"
    transactionType := some side
    product := some "MIS"
    orderType := some (if price = none then "MARKET" else "LIMIT")
    quantity := some quantity
    price := price
    metadata := metadata }

def demoMarket (price : ℚ) : Int → Snapshot := fun _ => { lastPrice := some price }

/-- The store of the account before it trades. -/
def demoStore : Store := { accounts := Keyed.empty.upsert (demoService.freshAccount demoScope) }

theorem fresh_demoStore : demoStore.Fresh where
  accounts := by
    intro scope account hget
    rw [demoStore, Keyed.get?_upsert] at hget
    split at hget
    · cases hget
      exact ⟨rfl, rfl, rfl⟩
    · simp at hget
  orders := rfl
  trades := rfl
  positions := rfl
  lots := rfl

end KiteAlgo.Paper
