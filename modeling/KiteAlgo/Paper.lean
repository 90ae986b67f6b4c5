import KiteAlgo.Value
import Mathlib

/-!
# KiteAlgo.Paper

Paper trading (`backend/paper_runtime`): the rows of its tables, the margin and
charges engines, and the pure part of `PaperTradingService` — how a request is
normalized, priced and triggered, and what a fill makes of a position.

Amounts are exact rationals.  Identifiers and instants are drawn from one counter of
the store, so a later row has a larger one; times that no modelled function reads are
left out.  The values of an attribution are texts.  `str.upper` is a parameter and
the tables of instruments and market data are too.
-/

namespace KiteAlgo.Paper

open List
/-! ## rows -/

/-- `PaperOrderSide`. -/
inductive Side where
  | buy
  | sell
  deriving DecidableEq, Repr

/-- `PaperOrderType`. -/
inductive OrderType where
  | market
  | limit
  | sl
  | slM
  deriving DecidableEq, Repr

/-- `PaperOrderStatus`. -/
inductive OrderStatus where
  | pending
  | open
  | partiallyFilled
  | filled
  | cancelled
  | rejected
  | expired
  deriving DecidableEq, Repr

/-- `FundLedgerEntryType`. -/
inductive EntryType where
  | credit
  | debit
  | reserve
  | release
  | adjustment
  deriving DecidableEq, Repr

/-- An account scope as `PaperScopedModel` keeps it: stripped and not empty. -/
@[ext] structure Scope where
  text : String
  cleaned : Text.strip text = text ∧ text ≠ ""

instance : DecidableEq Scope := fun _ _ => decidable_of_iff _ Scope.ext_iff.symm

abbrev Attribution := Dict String String

/-- `PaperAccount`. -/
structure Account where
  scope : Scope
  startingBalance : ℚ
  availableFunds : ℚ
  blockedFunds : ℚ
  realizedPnl : ℚ
  deriving DecidableEq

/-- `PaperOrder`, with the keys of its metadata that are read. -/
structure Order where
  scope : Scope
  orderId : Nat
  instrumentToken : Int
  exchange : String
  tradingsymbol : String
  product : String
  side : Side
  orderType : OrderType
  quantity : Int
  quantity_pos : 0 < quantity
  filledQuantity : Int := 0
  pendingQuantity : Int := quantity
  price : Option ℚ := none
  triggerPrice : Option ℚ := none
  averagePrice : Option ℚ := none
  status : OrderStatus
  attribution : Attribution
  reservedMargin : ℚ := 0
  estimatedCharges : ℚ := 0
  instrumentType : String := ""
  stopTriggered : Bool := false
  rejectionReason : Option String := none
  deriving DecidableEq

/-- The order under the identifier drawn for it. -/
def Order.withId (order : Order) (id : Nat) : Order := { order with orderId := id }

/-- The order once its stop price was reached. -/
def Order.stopped (order : Order) : Order := { order with stopTriggered := true }

def Order.opened (order : Order) : Order := { order with status := .open }

/-- `PaperTrade`. -/
structure Trade where
  scope : Scope
  tradeId : Nat
  orderId : Nat
  instrumentToken : Int
  side : Side
  quantity : Int
  price : ℚ
  attribution : Attribution
  estimatedCharges : ℚ
  exchange : String
  tradingsymbol : String
  product : String
  deriving DecidableEq

/-- `PaperPosition`. -/
structure Position where
  scope : Scope
  instrumentToken : Int
  product : String
  exchange : String
  tradingsymbol : String
  netQuantity : Int
  averagePrice : ℚ
  buyQuantity : Int
  sellQuantity : Int
  buyValue : ℚ
  sellValue : ℚ
  realizedPnl : ℚ
  unrealizedPnl : ℚ
  instrumentType : String
  lastPrice : Option ℚ := none
  marginInUse : Option ℚ := none
  attribution : Attribution := []
  updatedAt : Nat := 0
  deriving DecidableEq

/-- `PaperPositionLotAttribution`. -/
structure Lot where
  scope : Scope
  lotId : Nat
  instrumentToken : Int
  product : String
  sourceTradeId : Nat
  sourceOrderId : Nat
  openQuantity : Int
  remainingQuantity : Int
  entryPrice : ℚ
  attribution : Attribution
  deriving DecidableEq

/-- `PaperFundLedgerEntry`. -/
structure LedgerEntry where
  scope : Scope
  entryType : EntryType
  amount : ℚ
  balanceAfter : ℚ
  referenceId : Nat
  notes : String
  deriving DecidableEq

/-- The key of a position, and of the lots behind it. -/
structure PositionKey where
  scope : Scope
  instrumentToken : Int
  product : String
  deriving DecidableEq

def Position.key (position : Position) : PositionKey :=
  ⟨position.scope, position.instrumentToken, position.product⟩

def Lot.key (lot : Lot) : PositionKey := ⟨lot.scope, lot.instrumentToken, lot.product⟩

def Order.key (order : Order) : PositionKey :=
  ⟨order.scope, order.instrumentToken, order.product⟩

def Trade.key (trade : Trade) : PositionKey :=
  ⟨trade.scope, trade.instrumentToken, trade.product⟩

/-- Orders that `list_pending_orders_for_instrument` selects. -/
def OrderStatus.isPending : OrderStatus → Bool
  | .pending | .open | .partiallyFilled => true
  | _ => false

structure Instrument where
  instrumentToken : Int
  lotSize : Option Int := none
  instrumentType : Option String := none
  lastPrice : Option ℚ := none

/-- `int(instrument.get("lot_size") or 1)`. -/
def Instrument.lots (instrument : Instrument) : Int :=
  match instrument.lotSize with
  | none | some 0 => 1
  | some n => n

/-- `str(instrument.get("instrument_type") or "")`. -/
def Instrument.kind (instrument : Instrument) : String := instrument.instrumentType.getD ""

/-- Market data of an instrument: the last price and the prices of the depth levels. -/
structure Snapshot where
  lastPrice : Option ℚ := none
  depthBuy : List (Option ℚ) := []
  depthSell : List (Option ℚ) := []

/-- `Decimal(str(market_snapshot.get("last_price") or 0))`. -/
def Snapshot.last (snapshot : Snapshot) : ℚ := snapshot.lastPrice.getD 0

/-- `value or fallback` of a number. -/
def orElse (value : Option ℚ) (fallback : ℚ) : ℚ :=
  match value with
  | none => fallback
  | some v => if v = 0 then fallback else v

/-! ## attribution -/

/-- The keys `_merged_attribution` takes over from metadata. -/
def attributionKeys : List String :=
  ["journal_run_id", "journal_ref", "strategy_run_id", "option_strategy_id", "strategy_id",
   "algo_instance_id", "strategy_tag"]

/-- `value in (None, "")`. -/
def missing (value : Option String) : Bool := value = none ∨ value = some ""

/-- One key of `_merged_attribution`. -/
def mergeKey (metadata merged : Attribution) (key : String) : Attribution :=
  if missing (merged.get? key) then
    match metadata.get? key with
    | some value => if value = "" then merged else merged.set key value
    | none => merged
  else merged

def mergedAttribution (attribution metadata : Attribution) : Attribution :=
  attributionKeys.foldl (mergeKey metadata) attribution

theorem get?_mergeKey (metadata merged : Attribution) (key other : String) :
    (mergeKey metadata merged key).get? other =
      if key = other ∧ missing (merged.get? key) ∧ ¬ missing (metadata.get? key) then
        metadata.get? key
      else merged.get? other := by
  unfold mergeKey
  by_cases hmerged : missing (merged.get? key)
  · cases hmetadata : metadata.get? key with
    | none => simp [missing]
    | some value =>
      by_cases hvalue : value = ""
      · simp [missing, hvalue]
      · by_cases hkey : key = other
        · subst hkey
          simp [missing, hvalue] at hmerged ⊢
          simp [hmerged]
        · simp [hmerged, hvalue, hkey, Dict.get?_set]
  · simp [hmerged]

theorem get?_foldl_mergeKey (metadata : Attribution) (keys : List String) (merged : Attribution)
    (key : String) :
    (keys.foldl (mergeKey metadata) merged).get? key =
      if key ∈ keys ∧ missing (merged.get? key) ∧ ¬ missing (metadata.get? key) then
        metadata.get? key
      else merged.get? key := by
  induction keys generalizing merged with
  | nil => simp
  | cons first keys ih =>
    rw [foldl_cons, ih, get?_mergeKey]
    by_cases hfirst : first = key
    · subst hfirst
      by_cases htaken : missing (merged.get? first) ∧ ¬ missing (metadata.get? first)
      · simp [htaken]
      · simp only [true_and, htaken, if_false, mem_cons, true_or]
        grind
    · have hkey : ¬ key = first := fun h => hfirst h.symm
      simp [hfirst, hkey]

theorem get?_mergedAttribution (attribution metadata : Attribution) (key : String) :
    (mergedAttribution attribution metadata).get? key =
      if key ∈ attributionKeys ∧ missing (attribution.get? key) ∧ ¬ missing (metadata.get? key) then
        metadata.get? key
      else attribution.get? key :=
  get?_foldl_mergeKey metadata attributionKeys attribution key

theorem mergedAttribution_self (attribution metadata : Attribution) :
    mergedAttribution (mergedAttribution attribution metadata) metadata =
      mergedAttribution attribution metadata := by
  have hsettled : ∀ key ∈ attributionKeys,
      mergeKey metadata (mergedAttribution attribution metadata) key =
        mergedAttribution attribution metadata := by
    intro key hkey
    have hget := get?_mergedAttribution attribution metadata key
    unfold mergeKey
    split
    · next hmissing =>
      cases hmetadata : metadata.get? key with
      | none => rfl
      | some value =>
        have hvalue : value = "" := by
          by_contra hne
          rw [hget] at hmissing
          split at hmissing
          · simp [hmetadata, missing, hne] at hmissing
          · next hno => exact hno ⟨hkey, hmissing, by simp [hmetadata, missing, hne]⟩
        rw [hvalue]
        exact if_pos rfl
    · rfl
  have hfold : ∀ keys : List String, (∀ key ∈ keys, key ∈ attributionKeys) →
      keys.foldl (mergeKey metadata) (mergedAttribution attribution metadata) =
        mergedAttribution attribution metadata := by
    intro keys hkeys
    induction keys with
    | nil => rw [foldl_nil]
    | cons key keys ih =>
      rw [foldl_cons, hsettled key (hkeys key mem_cons_self)]
      exact ih fun key hkey => hkeys key (.tail _ hkey)
  exact hfold attributionKeys fun _ h => h

/-- `str(metadata.get(key) or "").strip() or None`. -/
def textAt (metadata : Attribution) (key : String) : Option String :=
  (metadata.get? key).bind fun value =>
    if Text.strip value = "" then none else some (Text.strip value)

def strategyIdentity (metadata : Attribution) : Option String :=
  ["strategy_run_id", "option_strategy_id", "strategy_id", "algo_instance_id"].findSome?
    (textAt metadata)

/-- The keys a fill copies from its order to the position. -/
def positionKeys : List String :=
  ["strategy_run_id", "option_strategy_id", "strategy_id", "algo_instance_id", "strategy_tag",
   "journal_run_id", "journal_ref", "source", "notes"]

/-- `new_position.metadata.update(...)`. -/
def adoptAttribution (metadata order : Attribution) : Attribution :=
  metadata.update (order.filter fun entry => positionKeys.contains entry.1 && entry.2 ≠ "")

/-! ## requests -/

/-- An order payload: the keys `_normalize_order_request` reads, and its metadata. -/
structure OrderPayload where
  exchange : Option String := none
  tradingsymbol : Option String := none
  transactionType : Option String := none
  product : Option String := none
  orderType : Option String := none
  quantity : Option Int := none
  price : Option ℚ := none
  triggerPrice : Option ℚ := none
  metadata : Attribution := []

/-- What `_normalize_order_request` returns. -/
structure Request where
  exchange : String
  tradingsymbol : String
  transactionType : String
  product : String
  orderType : String
  quantity : Int
  quantity_pos : 0 < quantity
  price : Option ℚ := none
  triggerPrice : Option ℚ := none
  deriving DecidableEq

inductive Failure where
  | valueError (message : String)
  | validationError
  deriving DecidableEq, Repr

/-- `missing` of `_normalize_order_request`. -/
def OrderPayload.missingFields (payload : OrderPayload) : List String :=
  [("exchange", missing payload.exchange), ("tradingsymbol", missing payload.tradingsymbol),
   ("transaction_type", missing payload.transactionType), ("product", missing payload.product),
   ("order_type", missing payload.orderType), ("quantity", payload.quantity.isNone)].filterMap
    fun field => if field.2 then some field.1 else none

def normalizeOrderRequest (upper : String → String) (payload : OrderPayload) :
    Except Failure Request :=
  if payload.missingFields ≠ [] then
    .error (.valueError
      ("Paper order missing required field(s): " ++ String.intercalate ", " payload.missingFields))
  else if hquantity : payload.quantity.getD 0 ≤ 0 then
    .error (.valueError "Paper order quantity must be > 0")
  else
    let orderType := upper (payload.orderType.getD "")
    if orderType = "LIMIT" ∧ payload.price = none then
      .error (.valueError "Paper LIMIT order requires price")
    else if orderType = "SL" ∧ (payload.price = none ∨ payload.triggerPrice = none) then
      .error (.valueError "Paper SL order requires price and trigger_price")
    else if orderType = "SL-M" ∧ payload.triggerPrice = none then
      .error (.valueError "Paper SL-M order requires trigger_price")
    else
      .ok
        { exchange := upper (payload.exchange.getD "")
          tradingsymbol := upper (Text.strip (payload.tradingsymbol.getD ""))
          transactionType := upper (payload.transactionType.getD "")
          product := upper (payload.product.getD "")
          orderType := orderType
          quantity := payload.quantity.getD 0
          quantity_pos := by omega
          price := payload.price
          triggerPrice := payload.triggerPrice }

/-- `PaperOrderSide(str(transaction_type).lower())`; the type is in upper case. -/
def sideOf? (transactionType : String) : Option Side :=
  if transactionType = "BUY" then some .buy
  else if transactionType = "SELL" then some .sell
  else none

/-- `PaperOrderType(str(order_type).replace("-", "_").lower())`. -/
def orderTypeOf? (orderType : String) : Option OrderType :=
  if orderType = "MARKET" then some .market
  else if orderType = "LIMIT" then some .limit
  else if orderType = "SL" then some .sl
  else if orderType = "SL-M" ∨ orderType = "SL_M" then some .slM
  else none

def Side.text : Side → String
  | .buy => "BUY"
  | .sell => "SELL"

def OrderType.text : OrderType → String
  | .market => "MARKET"
  | .limit => "LIMIT"
  | .sl => "SL"
  | .slM => "SL-M"

def requestFromPaperOrder (order : Order) : Request :=
  { exchange := order.exchange
    tradingsymbol := order.tradingsymbol
    transactionType := order.side.text
    product := order.product
    orderType := order.orderType.text
    quantity := order.quantity
    quantity_pos := order.quantity_pos
    price := order.price
    triggerPrice := order.triggerPrice }

/-! ## prices and triggers -/

def referencePrice (request : Request) (instrument : Instrument) (snapshot : Snapshot) : ℚ :=
  if (request.orderType = "LIMIT" ∨ request.orderType = "SL") ∧ request.price ≠ none then
    request.price.getD 0
  else if request.orderType = "SL-M" ∧ request.triggerPrice ≠ none then
    request.triggerPrice.getD 0
  else (snapshot.lastPrice.or instrument.lastPrice).getD 0

def stopLimitTriggerReached (request : Request) (snapshot : Snapshot) : Bool :=
  let trigger := request.triggerPrice.getD 0
  if snapshot.last ≤ 0 ∨ trigger ≤ 0 then false
  else if request.transactionType = "BUY" then trigger ≤ snapshot.last
  else snapshot.last ≤ trigger

/-- The best price of a depth side, zero when there is none. -/
def best (levels : List (Option ℚ)) : ℚ := (levels.head?.bind id).getD 0

def limitOrderFillable (request : Request) (snapshot : Snapshot) : Bool :=
  let limit := request.price.getD 0
  if limit ≤ 0 ∨ snapshot.last ≤ 0 then false
  else if request.transactionType = "BUY" then
    if 0 < best snapshot.depthSell then best snapshot.depthSell ≤ limit else snapshot.last ≤ limit
  else if 0 < best snapshot.depthBuy then limit ≤ best snapshot.depthBuy
  else limit ≤ snapshot.last

def orderShouldTrigger (order : Option Order) (request : Request) (snapshot : Snapshot) : Bool :=
  if snapshot.last ≤ 0 then false
  else if request.orderType = "LIMIT" then limitOrderFillable request snapshot
  else if request.orderType = "SL" then
    (match order with
      | some order => order.stopTriggered
      | none => stopLimitTriggerReached request snapshot) && limitOrderFillable request snapshot
  else if request.orderType = "SL-M" then
    if request.transactionType = "BUY" then request.triggerPrice.getD 0 ≤ snapshot.last
    else snapshot.last ≤ request.triggerPrice.getD 0
  else false

def shouldFillImmediately (request : Request) (snapshot : Snapshot) : Bool :=
  request.orderType = "MARKET" || orderShouldTrigger none request snapshot

def fillPrice (order : Order) (snapshot : Snapshot) (fallback : ℚ) : ℚ :=
  let touch : ℚ :=
    match order.side, snapshot.depthSell, snapshot.depthBuy with
    | .buy, level :: _, _ => orElse level fallback
    | .sell, _, level :: _ => orElse level fallback
    | _, _, _ => fallback
  match order.orderType, order.price with
  | .market, _ => touch
  | .limit, some price => price
  | .sl, some price => price
  | .slM, _ => touch
  | _, none => orElse snapshot.lastPrice fallback

/-! ## margin and charges -/

def requiredMargin (upper : String → String) (side : Side) (product : String) (quantity : Int)
    (referencePrice : ℚ) (instrumentType : String) : ℚ :=
  let qty : ℚ := max quantity 0
  if qty ≤ 0 ∨ referencePrice ≤ 0 then 0
  else
    let notional := referencePrice * qty
    if upper instrumentType = "CE" ∨ upper instrumentType = "PE" then
      match side with
      | .buy => notional
      | .sell => notional * (125 / 100)
    else if upper instrumentType = "FUT" then
      notional * (if upper product = "MIS" then 18 / 100 else 35 / 100)
    else if upper product = "MIS" then notional * (20 / 100)
    else notional

/-- `amount.quantize(Decimal("0.01"), rounding=ROUND_HALF_UP)`. -/
def quantize (amount : ℚ) : ℚ :=
  let cents : ℚ := ⌊|amount| * 100 + 1 / 2⌋
  if amount < 0 then -(cents / 100) else cents / 100

/-- `PaperChargesCalculator.estimate`, the `total_charges` of the cost contract. -/
def estimateCharges (upper : String → String) (price : ℚ) (quantity : Int)
    (instrumentType : Option String) (exchange : String) : ℚ :=
  let turnover := price * (max quantity 0 : Int)
  let kind := upper (instrumentType.getD "")
  let rate : ℚ :=
    if kind = "CE" ∨ kind = "PE" ∨ kind = "FUT" then 5 / 10000
    else if upper exchange = "MCX" then 6 / 10000
    else 3 / 10000
  quantize (turnover * rate)

def positionMargin (upper : String → String) (position : Option Position)
    (instrumentType : Option String) (referencePrice : ℚ) : ℚ :=
  match position with
  | none => 0
  | some position =>
    if position.netQuantity = 0 then 0
    else
      requiredMargin upper (if 0 < position.netQuantity then .buy else .sell) position.product
        |position.netQuantity|
        (if 0 < referencePrice then referencePrice else position.averagePrice)
        (match instrumentType with
          | none | some "" => position.instrumentType
          | some kind => kind)

def positionMarginInUse (upper : String → String) (position : Option Position)
    (instrumentType : Option String) (referencePrice : ℚ) : ℚ :=
  match position with
  | none => 0
  | some held =>
    if held.netQuantity = 0 then 0
    else
      match held.marginInUse with
      | some margin =>
        if 0 ≤ margin then margin
        else positionMargin upper position instrumentType referencePrice
      | none => positionMargin upper position instrumentType referencePrice

/-! ## positions -/

/-- What `_apply_fill_to_position` reads of the position: zeros when there is none. -/
structure Holding where
  netQuantity : Int := 0
  averagePrice : ℚ := 0
  realizedPnl : ℚ := 0
  buyQuantity : Int := 0
  sellQuantity : Int := 0
  buyValue : ℚ := 0
  sellValue : ℚ := 0

def Position.holding (position : Position) : Holding :=
  { netQuantity := position.netQuantity
    averagePrice := position.averagePrice
    realizedPnl := position.realizedPnl
    buyQuantity := position.buyQuantity
    sellQuantity := position.sellQuantity
    buyValue := position.buyValue
    sellValue := position.sellValue }

/-- The quantity, average price and realized profit after `side * qty` at `fill_price`. -/
def Holding.trade (held : Holding) (side qty : Int) (fillPrice : ℚ) : Int × ℚ × ℚ :=
  let existing := held.netQuantity
  let newQty := existing + side * qty
  if existing = 0 ∨ (0 < existing ∧ 0 < side) ∨ (existing < 0 ∧ side < 0) then
    let newAvg :=
      if |existing| = 0 then fillPrice
      else (held.averagePrice * |existing| + fillPrice * qty) / |newQty|
    (newQty, newAvg, held.realizedPnl)
  else
    let closing := min |existing| qty
    let realized :=
      if 0 < existing then held.realizedPnl + (fillPrice - held.averagePrice) * closing
      else held.realizedPnl + (held.averagePrice - fillPrice) * closing
    let remaining := qty - closing
    let newAvg :=
      if newQty = 0 then 0
      else if 0 < remaining ∧ ((0 < newQty ∧ 0 < side) ∨ (newQty < 0 ∧ side < 0)) then fillPrice
      else held.averagePrice
    (newQty, newAvg, realized)

/-- The unrealized profit of a quantity held at `average`. -/
def unrealizedOf (quantity : Int) (average lastPrice : ℚ) : ℚ :=
  if 0 < quantity then (lastPrice - average) * quantity
  else if quantity < 0 then (average - lastPrice) * |quantity|
  else 0

def applyFillToPosition (scope : Scope) (position : Option Position) (request : Request)
    (fillPrice : ℚ) (instrument : Instrument) : Position :=
  let held := (position.map Position.holding).getD {}
  let side : Int := if request.transactionType = "BUY" then 1 else -1
  let qty := request.quantity
  let after := held.trade side qty fillPrice
  { scope := (position.map Position.scope).getD scope
    instrumentToken := instrument.instrumentToken
    product := request.product
    exchange := request.exchange
    tradingsymbol := request.tradingsymbol
    netQuantity := after.1
    averagePrice := after.2.1
    buyQuantity := if 0 < side then held.buyQuantity + qty else held.buyQuantity
    sellQuantity := if 0 < side then held.sellQuantity else held.sellQuantity + qty
    buyValue := if 0 < side then held.buyValue + fillPrice * qty else held.buyValue
    sellValue := if 0 < side then held.sellValue else held.sellValue + fillPrice * qty
    realizedPnl := after.2.2
    unrealizedPnl := unrealizedOf after.1 after.2.1 fillPrice
    instrumentType := instrument.kind
    lastPrice := some fillPrice
    marginInUse := position.bind Position.marginInUse
    attribution := (position.map Position.attribution).getD [] }

end KiteAlgo.Paper
