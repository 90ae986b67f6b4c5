import KiteAlgo.LiveOrders.ExecutionLinks
import KiteAlgo.Lib.Growth
import Mathlib.Algebra.Order.Ring.Abs
import Mathlib.Algebra.Order.Ring.Rat
import Mathlib.Data.Rat.Cast.Defs

/-!
# KiteAlgo.LiveOrders.TradeSync

The order runtime between the broker and its tables (`order_runtime.py`): updates are
projected under one advisory lock (`processPendingEvents`), fills are fetched and applied to
the positions under another (`syncDirtyOrders`), and positions are overwritten by what the
broker reports (`reconcileAccountPositions`, which calls the broker before it takes the
lock).

An order whose projection is not marked for synchronization should have all its fills.  The
mark is removed after the broker call, whatever arrived meanwhile and however far the
broker's list had come; `clean_orders_filled` says when that is harmless.
-/

namespace KiteAlgo

open Growth Prog OrderState Config
/-! ## the broker -/

inductive TransactionType where
  | buy
  | sell
  deriving DecidableEq

def TransactionType.text : TransactionType → String
  | buy => "BUY"
  | sell => "SELL"

/-- A trade of the broker: it names itself, its order and its product. -/
structure BrokerTrade where
  tradeId : String
  orderId : String
  instrumentToken : Int
  exchange : String
  tradingsymbol : String
  product : String
  transactionType : TransactionType
  quantity : Nat
  averagePrice : ℚ
  fillTimestamp : Int
  trade_named : Text.strip tradeId = tradeId ∧ tradeId ≠ ""
  order_named : Text.strip orderId = orderId ∧ orderId ≠ ""
  product_named : product ≠ ""
  deriving DecidableEq

namespace BrokerTrade

/-- The row that `_store_trade_fills` inserts. -/
def toFill (trade : BrokerTrade) (accountId effectiveOrderId : String) (markApplied : Bool) :
    TradeFill where
  accountId := accountId
  tradeId := Text.strip trade.tradeId
  orderId := effectiveOrderId
  instrumentToken := trade.instrumentToken
  exchange := trade.exchange
  tradingsymbol := trade.tradingsymbol
  product := if trade.product = "" then "UNKNOWN" else trade.product
  transactionType := trade.transactionType.text
  quantity := trade.quantity
  price := trade.averagePrice
  fillTimestamp := trade.fillTimestamp
  appliedToPosition := markApplied

/-- `str(trade.get("order_id") or order_id or "").strip()`. -/
def effectiveOrderId (trade : BrokerTrade) (orderId : Option String) : String :=
  Text.strip (if trade.orderId ≠ "" then trade.orderId else orderId.getD "")

@[simp] theorem effectiveOrderId_eq (trade : BrokerTrade) (orderId : Option String) :
    trade.effectiveOrderId orderId = trade.orderId := by
  rw [effectiveOrderId, if_pos trade.order_named.2, trade.order_named.1]

end BrokerTrade

/-! ## fills and positions -/

/-- A row of `account_positions`. -/
structure AccountPosition where
  accountId : String
  instrumentToken : Int
  product : String
  exchange : String
  tradingsymbol : String
  netQuantity : Int
  buyQuantity : Int
  sellQuantity : Int
  buyValue : ℚ
  sellValue : ℚ
  averagePrice : ℚ
  realizedPnl : ℚ
  reconcileVersion : Int
  lastUpdatedSource : String
  version : Int
  deriving DecidableEq

def AccountPosition.key (position : AccountPosition) : String × Int × String :=
  (position.accountId, position.instrumentToken, position.product)

/-- `str(row.transaction_type or "").upper() == "BUY"`. -/
def TradeFill.isBuy (fill : TradeFill) : Bool := Text.upper fill.transactionType == "BUY"

/-- `SET applied_to_position = TRUE`. -/
def TradeFill.applied (fill : TradeFill) : TradeFill := { fill with appliedToPosition := true }

theorem TradeFill.key_applied (fill : TradeFill) : fill.applied.key = fill.key := rfl

/-- `SET dirty_for_trade_sync = FALSE, needs_reconcile = FALSE`. -/
def ProjectionRow.cleared (row : ProjectionRow) : ProjectionRow :=
  { row with state := { row.state with dirtyForTradeSync := false, needsReconcile := false } }

theorem ProjectionRow.key_cleared (row : ProjectionRow) : row.cleared.key = row.key := rfl

/-- What a fill adds to the net quantity of its position. -/
def TradeFill.change (fill : TradeFill) : Int := if fill.isBuy then fill.quantity else -fill.quantity

namespace AccountPosition

def ofFill (reconcileVersion : Int) (fill : TradeFill) : AccountPosition where
  accountId := fill.accountId
  instrumentToken := fill.instrumentToken
  product := fill.product
  exchange := fill.exchange
  tradingsymbol := if fill.tradingsymbol = "" then toString fill.instrumentToken else fill.tradingsymbol
  netQuantity := fill.change
  buyQuantity := if fill.isBuy then fill.quantity else 0
  sellQuantity := if fill.isBuy then 0 else fill.quantity
  buyValue := if fill.isBuy then fill.price * fill.quantity else 0
  sellValue := if fill.isBuy then 0 else fill.price * fill.quantity
  averagePrice := fill.price
  realizedPnl := 0
  reconcileVersion := reconcileVersion
  lastUpdatedSource := "fill_apply"
  version := 1

def averageAfter (position : AccountPosition) (fill : TradeFill) : ℚ :=
  let current := position.netQuantity
  let net := current + fill.change
  if current = 0 ∨ (0 < current ∧ fill.isBuy) ∨ (current < 0 ∧ ¬ fill.isBuy) then
    let total := |current| + |fill.change|
    if 0 < total then (|current| * position.averagePrice + |fill.change| * fill.price) / total else 0
  else if net = 0 then 0
  else if (0 < current ∧ 0 < net) ∨ (current < 0 ∧ net < 0) then position.averagePrice
  else fill.price

def realizedAfter (position : AccountPosition) (fill : TradeFill) : ℚ :=
  let current := position.netQuantity
  if current = 0 ∨ (0 < current ∧ fill.isBuy) ∨ (current < 0 ∧ ¬ fill.isBuy) then
    position.realizedPnl
  else
    position.realizedPnl + (fill.price - position.averagePrice) *
      (min |current| |fill.change| : Int) * (if 0 < current then 1 else -1)

/-- The update of `_apply_pending_trade_fills`. -/
def applyFill (existing : Option AccountPosition) (reconcileVersion : Int) (fill : TradeFill) :
    AccountPosition :=
  match existing with
  | none => ofFill reconcileVersion fill
  | some position =>
    { position with
      netQuantity := position.netQuantity + fill.change
      buyQuantity := position.buyQuantity + (if fill.isBuy then fill.quantity else 0)
      sellQuantity := position.sellQuantity + (if fill.isBuy then 0 else fill.quantity)
      buyValue := position.buyValue + (if fill.isBuy then fill.price * fill.quantity else 0)
      sellValue := position.sellValue + (if fill.isBuy then 0 else fill.price * fill.quantity)
      averagePrice := position.averageAfter fill
      realizedPnl := position.realizedAfter fill
      reconcileVersion := max position.reconcileVersion reconcileVersion
      lastUpdatedSource := "fill_apply"
      version := position.version + 1 }

end AccountPosition

namespace ExecutionTables

/-- `upsert_trade_links_for_order` with one trade. -/
def upsertTradeLinksForOrder (t : ExecutionTables) (accountId brokerOrderId tradeId : String) :
    ExecutionTables :=
  match t.links.get? (accountId, .inl brokerOrderId) with
  | none => t
  | some link =>
    let row : ExecutionLink :=
      match t.links.get? (accountId, .inr tradeId) with
      | some old =>
        { old with
          strategyRunId := link.strategyRunId
          brokerOrderId := brokerOrderId
          clientOrderRef := link.clientOrderRef.or old.clientOrderRef
          basketExecutionId := link.basketExecutionId.or old.basketExecutionId
          basketLegIndex := link.basketLegIndex.or old.basketLegIndex }
      | none => { link with
          accountId := accountId, brokerOrderId := brokerOrderId, tradeId := some tradeId }
    { t with links := t.links.upsert row }

@[simp] theorem upsertTradeLinksForOrder_fills (t : ExecutionTables)
    (accountId brokerOrderId tradeId : String) :
    (t.upsertTradeLinksForOrder accountId brokerOrderId tradeId).fills = t.fills := by
  unfold upsertTradeLinksForOrder
  split <;> rfl

@[simp] theorem upsertTradeLinksForOrder_projections (t : ExecutionTables)
    (accountId brokerOrderId tradeId : String) :
    (t.upsertTradeLinksForOrder accountId brokerOrderId tradeId).projections = t.projections := by
  unfold upsertTradeLinksForOrder
  split <;> rfl

/-- One trade of `_store_trade_fills`: inserted unless the trade is stored already. -/
def storeTradeFill (accountId : String) (orderId : Option String) (markApplied : Bool)
    (t : ExecutionTables) (trade : BrokerTrade) : ExecutionTables :=
  if Text.strip trade.tradeId = "" then t
  else
    match t.fills.get? (accountId, Text.strip trade.tradeId) with
    | some _ => t
    | none =>
      let effectiveOrderId := trade.effectiveOrderId orderId
      upsertTradeLinksForOrder
        { t with fills := t.fills.upsert (trade.toFill accountId effectiveOrderId markApplied) }
        accountId effectiveOrderId (Text.strip trade.tradeId)

def storeTradeFills (t : ExecutionTables) (accountId : String) (orderId : Option String)
    (trades : List BrokerTrade) (markApplied : Bool) : ExecutionTables :=
  trades.foldl (storeTradeFill accountId orderId markApplied) t

/-- The summand of a fill in the filled quantity of an order. -/
def filledPart (accountId orderId : String) (fill : TradeFill) : Int :=
  if fill.accountId = accountId ∧ fill.orderId = orderId then fill.quantity else 0

/-- The quantities of the fills stored for an order. -/
def filledQuantity (t : ExecutionTables) (accountId orderId : String) : Int :=
  (t.fills.rows.map (filledPart accountId orderId)).sum

end ExecutionTables

/-- What `kite.positions` says about one instrument and product beyond quantities. -/
structure BrokerQuote where
  averagePrice : ℚ
  realised : ℚ
  deriving DecidableEq

/-- A row of `kite.positions()["net"]`. -/
structure BrokerPosition where
  instrumentToken : Int
  product : String
  exchange : String
  tradingsymbol : String
  quantity : Int
  buyQuantity : Int
  sellQuantity : Int
  buyValue : ℚ
  sellValue : ℚ
  quote : BrokerQuote
  deriving DecidableEq

/-- The upsert of `reconcile_account_positions`. -/
def BrokerPosition.row (position : BrokerPosition) (accountId : String) (reconcileVersion : Int)
    (existing : Option AccountPosition) : AccountPosition where
  accountId := accountId
  instrumentToken := position.instrumentToken
  product := position.product
  exchange := position.exchange
  tradingsymbol :=
    if position.tradingsymbol = "" then toString position.instrumentToken else position.tradingsymbol
  netQuantity := position.quantity
  buyQuantity := position.buyQuantity
  sellQuantity := position.sellQuantity
  buyValue := position.buyValue
  sellValue := position.sellValue
  averagePrice := position.quote.averagePrice
  realizedPnl := position.quote.realised
  reconcileVersion := reconcileVersion
  lastUpdatedSource := "reconcile"
  version := match existing with
    | none => 1
    | some old => old.version + 1

/-- The broker's trades, the tables, and the clock in milliseconds. -/
structure OrderRuntime where
  trades : Keyed BrokerTrade.tradeId := .empty
  tables : ExecutionTables := {}
  positions : Keyed AccountPosition.key := .empty
  clock : Int := 0

namespace OrderRuntime

/-- A trade takes place; the broker gives each a new id. -/
def trade (new : BrokerTrade) (s : OrderRuntime) : OrderRuntime :=
  match s.trades.get? new.tradeId with
  | some _ => s
  | none => { s with trades := s.trades.upsert new }

/-- `kite.order_trades(order_id)`. -/
def orderTrades (orderId : String) (s : OrderRuntime) : List BrokerTrade :=
  s.trades.rows.filter fun trade => trade.orderId = orderId

/-- `kite.trades()`. -/
def kiteTrades (s : OrderRuntime) : List BrokerTrade := s.trades.rows

/-! ### in the database -/

/-- One row of `_apply_pending_trade_fills`: the position, then the mark on the fill. -/
def applyFill (reconcileVersion : Int) (s : OrderRuntime) (fill : TradeFill) : OrderRuntime :=
  let existing := s.positions.get? (fill.accountId, fill.instrumentToken, fill.product)
  { s with
    positions := s.positions.upsert (AccountPosition.applyFill existing reconcileVersion fill)
    tables := { s.tables with
      fills := s.tables.fills.modify fill.key TradeFill.applied TradeFill.key_applied } }

/-- `ORDER BY fill_timestamp ASC, trade_id ASC`. -/
def byFillTime (a b : TradeFill) : Bool :=
  decide (a.fillTimestamp < b.fillTimestamp) ||
    (decide (a.fillTimestamp = b.fillTimestamp) && Text.le a.tradeId b.tradeId)

/-- `SELECT COALESCE(MAX(reconcile_version), 0)`. -/
def maxReconcileVersion (accountId : String) (s : OrderRuntime) : Int :=
  ((s.positions.rows.filter fun row => row.accountId = accountId).map
    AccountPosition.reconcileVersion).foldl max 0

/-- The fills that `_apply_pending_trade_fills` selects. -/
def pendingFills (accountId orderId : String) (s : OrderRuntime) : List TradeFill :=
  sortBy byFillTime (s.tables.fills.rows.filter fun fill =>
    fill.accountId = accountId ∧ fill.orderId = orderId ∧ fill.appliedToPosition = false)

def applyPendingTradeFills (accountId orderId : String) (s : OrderRuntime) : OrderRuntime :=
  let reconcileVersion := max (s.maxReconcileVersion accountId) s.clock
  (s.pendingFills accountId orderId).foldl (applyFill reconcileVersion) s

def clearMarks (accountId orderId : String) (s : OrderRuntime) : OrderRuntime :=
  { s with tables := { s.tables with
      projections := s.tables.projections.modify (accountId, orderId) ProjectionRow.cleared
        ProjectionRow.key_cleared } }

/-- What `sync_dirty_orders` commits for an order. -/
def settleOrder (accountId orderId : String) (trades : List BrokerTrade) (s : OrderRuntime) :
    OrderRuntime :=
  let stored : OrderRuntime :=
    { s with tables := s.tables.storeTradeFills accountId (some orderId) trades false }
  (stored.applyPendingTradeFills accountId orderId).clearMarks accountId orderId

/-- What `process_pending_events` commits for an update. -/
def projectEvent (event : OrderEvent) (s : OrderRuntime) : OrderRuntime :=
  let existing := s.tables.projections.get? (event.accountId, event.orderId)
  { s with tables := { s.tables with
      projections := s.tables.projections.upsert
        ⟨event.accountId, event.orderId, OrderState.upsert (existing.map ProjectionRow.state) event⟩ } }

/-- Is the row in `WHERE dirty_for_trade_sync = TRUE OR needs_reconcile = TRUE`? -/
def isDirty (s : OrderRuntime) (order : String × String) : Bool :=
  match s.tables.projections.get? order with
  | none => false
  | some row => row.state.dirtyForTradeSync || row.state.needsReconcile

/-- One row of `reconcile_account_positions`. -/
def reconcileRow (accountId : String) (version : Int) (table : Keyed AccountPosition.key)
    (position : BrokerPosition) : Keyed AccountPosition.key :=
  table.upsert (position.row accountId version
    (table.get? (accountId, position.instrumentToken, position.product)))

/-- What `reconcile_account_positions` commits: the broker's rows, without the account's
reconciled rows of an earlier version, and the trades as applied fills. -/
def reconcile (accountId : String) (positions : List BrokerPosition) (trades : List BrokerTrade)
    (s : OrderRuntime) : OrderRuntime :=
  let version := s.clock
  { s with
    positions := (positions.foldl (reconcileRow accountId version) s.positions).filter fun row =>
      !(row.accountId = accountId && row.lastUpdatedSource = "reconcile" &&
        decide (row.reconcileVersion < version))
    tables := s.tables.storeTradeFills accountId none trades true }

end OrderRuntime

/-! ## calls -/

inductive OrderLock where
  | eventProcessor
  | positionReconcile
  deriving DecidableEq

/-- What an operation is, with the data that its call holds. -/
inductive SyncLabel where
  | trade (trade : BrokerTrade)
  | tick
  | event (event : OrderEvent)
  | select
  | orderTrades (orderId : String)
  | settle (accountId orderId : String) (trades : List BrokerTrade)
  | positions
  | trades
  | reconcile (accountId : String) (positions : List BrokerPosition) (trades : List BrokerTrade)

abbrev SyncProg := Prog OrderLock SyncLabel OrderRuntime

/-- What may happen: a trade, the clock going on, and the calls.  `batch` are the orders that
the limited query of `sync_dirty_orders` returns if they are dirty, `raising` those for which
the broker call raises. -/
inductive SyncRequest where
  | trade (trade : BrokerTrade)
  | tick (milliseconds : Nat)
  | processPendingEvents (events : List OrderEvent)
  | syncDirtyOrders (batch : List (String × String)) (raising : List String)
  | reconcileAccountPositions (accountId : String)

namespace SyncRequest

open OrderRuntime

/-- `process_pending_events` on the updates it has claimed. -/
def projectEvents : List OrderEvent → SyncProg Unit
  | [] => pure ()
  | event :: events => do
    Prog.call (.event event) fun s => ((), s.projectEvent event)
    projectEvents events

/-- The loop of `sync_dirty_orders`; an order whose call raises is rolled back. -/
def syncOrders (raising : List String) : List (String × String) → SyncProg Unit
  | [] => pure ()
  | (accountId, orderId) :: rest =>
    if orderId ∈ raising then syncOrders raising rest
    else do
      let trades ← Prog.read (.orderTrades orderId) fun s => s.orderTrades orderId
      Prog.call (.settle accountId orderId trades) fun s => ((), s.settleOrder accountId orderId trades)
      syncOrders raising rest

variable (kitePositions : List BrokerTrade → List BrokerPosition)

/-- The program of a request, for a broker whose `positions` are a function of its trades. -/
def program : SyncRequest → SyncProg Unit
  | .trade new => Prog.call (.trade new) fun s => ((), s.trade new)
  | .tick milliseconds => Prog.call .tick fun s => ((), { s with clock := s.clock + milliseconds })
  | .processPendingEvents events => Prog.withLock .eventProcessor (projectEvents events)
  | .syncDirtyOrders batch raising => Prog.withLock .positionReconcile do
      let rows ← Prog.read .select fun s => batch.filter s.isDirty
      syncOrders raising rows
  | .reconcileAccountPositions accountId =>
    if accountId = "" then pure ()
    else do
      let positions ← Prog.read .positions fun s => kitePositions s.kiteTrades
      let trades ← Prog.read .trades kiteTrades
      Prog.withLock .positionReconcile
        (Prog.call (.reconcile accountId positions trades) fun s =>
          ((), s.reconcile accountId positions trades))

end SyncRequest

/-! ## fills of an order -/

namespace ExecutionTables

theorem storeTradeFill_eq (t : ExecutionTables) (accountId : String) (orderId : Option String)
    (markApplied : Bool) (trade : BrokerTrade) :
    storeTradeFill accountId orderId markApplied t trade =
      match t.fills.get? (accountId, trade.tradeId) with
      | some _ => t
      | none => upsertTradeLinksForOrder
          { t with fills := t.fills.upsert (trade.toFill accountId trade.orderId markApplied) }
          accountId trade.orderId trade.tradeId := by
  rw [storeTradeFill, trade.trade_named.1, if_neg trade.trade_named.2, trade.effectiveOrderId_eq]

theorem toFill_key (trade : BrokerTrade) (accountId orderId : String) (markApplied : Bool) :
    (trade.toFill accountId orderId markApplied).key = (accountId, trade.tradeId) := by
  rw [TradeFill.key, BrokerTrade.toFill, trade.trade_named.1]

@[simp] theorem storeTradeFill_projections (t : ExecutionTables) (accountId : String)
    (orderId : Option String) (markApplied : Bool) (trade : BrokerTrade) :
    (storeTradeFill accountId orderId markApplied t trade).projections = t.projections := by
  rw [storeTradeFill_eq]
  split
  · rfl
  · rw [upsertTradeLinksForOrder_projections]

@[simp] theorem storeTradeFills_projections (t : ExecutionTables) (accountId : String)
    (orderId : Option String) (trades : List BrokerTrade) (markApplied : Bool) :
    (t.storeTradeFills accountId orderId trades markApplied).projections = t.projections := by
  induction trades generalizing t with
  | nil => rfl
  | cons trade trades ih =>
    rw [storeTradeFills, List.foldl_cons]
    exact (ih _).trans (storeTradeFill_projections t accountId orderId markApplied trade)

theorem get?_storeTradeFill (t : ExecutionTables) (accountId : String) (orderId : Option String)
    (markApplied : Bool) (trade : BrokerTrade) (key : String × String) :
    (storeTradeFill accountId orderId markApplied t trade).fills.get? key =
      (t.fills.get? key).or (if key = (accountId, trade.tradeId) then
        some (trade.toFill accountId trade.orderId markApplied) else none) := by
  rw [storeTradeFill_eq]
  split
  · next old hold =>
    by_cases hkey : key = (accountId, trade.tradeId)
    · rw [hkey, hold, Option.some_or]
    · rw [if_neg hkey, Option.or_none]
  · next hnone =>
    rw [upsertTradeLinksForOrder_fills, Keyed.get?_upsert, toFill_key]
    by_cases hkey : (accountId, trade.tradeId) = key
    · rw [if_pos hkey, if_pos hkey.symm, ← hkey, hnone, Option.none_or]
    · rw [if_neg hkey, if_neg fun h => hkey h.symm, Option.or_none]

theorem sum_storeTradeFill (t : ExecutionTables) (accountId : String) (orderId : Option String)
    (markApplied : Bool) (trade : BrokerTrade) (f : TradeFill → Int) :
    ((storeTradeFill accountId orderId markApplied t trade).fills.rows.map f).sum =
      (t.fills.rows.map f).sum + if t.fills.get? (accountId, trade.tradeId) = none then
          f (trade.toFill accountId trade.orderId markApplied) else 0 := by
  rw [storeTradeFill_eq]
  split
  · next old hold => simp [hold]
  · next hnone =>
    rw [upsertTradeLinksForOrder_fills, Keyed.sum_upsert, toFill_key, hnone]
    simp

variable {trades : List BrokerTrade}

theorem sum_storeTradeFills (t : ExecutionTables) (accountId : String) (orderId : Option String)
    (markApplied : Bool) (hnodup : (trades.map BrokerTrade.tradeId).Nodup) (f : TradeFill → Int) :
    ((t.storeTradeFills accountId orderId trades markApplied).fills.rows.map f).sum =
      (t.fills.rows.map f).sum + (trades.map fun trade =>
        if t.fills.get? (accountId, trade.tradeId) = none then
          f (trade.toFill accountId trade.orderId markApplied) else 0).sum := by
  induction trades generalizing t with
  | nil => simp [storeTradeFills]
  | cons trade trades ih =>
    rw [List.map_cons, List.nodup_cons] at hnodup
    have hsame : ∀ other ∈ trades,
        (if (storeTradeFill accountId orderId markApplied t trade).fills.get?
            (accountId, other.tradeId) = none then
          f (other.toFill accountId other.orderId markApplied) else 0) =
        if t.fills.get? (accountId, other.tradeId) = none then
          f (other.toFill accountId other.orderId markApplied) else 0 := by
      intro other hother
      have hne : (accountId, other.tradeId) ≠ (accountId, trade.tradeId) := fun h =>
        hnodup.1 ((Prod.mk.inj h).2 ▸ List.mem_map_of_mem hother)
      rw [get?_storeTradeFill, if_neg hne, Option.or_none]
    rw [storeTradeFills, List.foldl_cons]
    refine (ih _ hnodup.2).trans ?_
    rw [sum_storeTradeFill, List.map_congr_left hsame, List.map_cons, List.sum_cons, add_assoc]

/-- The quantity that a trade would add to its order. -/
def newQuantity (t : ExecutionTables) (accountId : String) (trade : BrokerTrade) : Int :=
  if t.fills.get? (accountId, trade.tradeId) = none then trade.quantity else 0

theorem le_filledQuantity_storeTradeFills (t : ExecutionTables) (accountId : String)
    (orderId : Option String) (trades : List BrokerTrade) (markApplied : Bool)
    (accountId' orderId' : String) :
    t.filledQuantity accountId' orderId' ≤
      (t.storeTradeFills accountId orderId trades markApplied).filledQuantity accountId' orderId' := by
  induction trades generalizing t with
  | nil => exact le_refl _
  | cons trade trades ih =>
    rw [storeTradeFills, List.foldl_cons]
    refine le_trans ?_ (ih _)
    rw [filledQuantity, filledQuantity, sum_storeTradeFill]
    have hpart : 0 ≤ filledPart accountId' orderId'
        (trade.toFill accountId trade.orderId markApplied) := by
      unfold filledPart
      split
      · exact Int.natCast_nonneg trade.quantity
      · exact le_refl _
    split <;> omega

theorem filledQuantity_storeTradeFills (t : ExecutionTables) (accountId orderId : String)
    (known : Option String) (markApplied : Bool) (hnodup : (trades.map BrokerTrade.tradeId).Nodup)
    (horder : ∀ trade ∈ trades, trade.orderId = orderId) :
    (t.storeTradeFills accountId known trades markApplied).filledQuantity accountId orderId =
      t.filledQuantity accountId orderId + (trades.map (t.newQuantity accountId)).sum := by
  rw [filledQuantity, sum_storeTradeFills t accountId known markApplied hnodup]
  have hown : ∀ trade ∈ trades, t.newQuantity accountId trade =
      if t.fills.get? (accountId, trade.tradeId) = none then
        filledPart accountId orderId (trade.toFill accountId trade.orderId markApplied) else 0 := by
    intro trade htrade
    have hpart : filledPart accountId orderId (trade.toFill accountId trade.orderId markApplied) =
        trade.quantity := if_pos ⟨rfl, horder trade htrade⟩
    rw [newQuantity, hpart]
  rw [List.map_congr_left hown, filledQuantity]

end ExecutionTables

namespace OrderRuntime

@[simp] theorem filledQuantity_applyFill (reconcileVersion : Int) (s : OrderRuntime)
    (fill : TradeFill) (accountId orderId : String) :
    (s.applyFill reconcileVersion fill).tables.filledQuantity accountId orderId =
      s.tables.filledQuantity accountId orderId :=
  Keyed.sum_modify s.tables.fills fill.key TradeFill.key_applied fun _ => rfl

theorem applyFills_tables (reconcileVersion : Int) (fills : List TradeFill) (s : OrderRuntime) :
    (fills.foldl (applyFill reconcileVersion) s).tables.projections = s.tables.projections ∧
      ∀ accountId orderId,
        (fills.foldl (applyFill reconcileVersion) s).tables.filledQuantity accountId orderId =
          s.tables.filledQuantity accountId orderId := by
  induction fills generalizing s with
  | nil => exact ⟨rfl, fun _ _ => rfl⟩
  | cons fill fills ih =>
    obtain ⟨hprojections, hfilled⟩ := ih (s.applyFill reconcileVersion fill)
    exact ⟨hprojections, fun accountId orderId => (hfilled accountId orderId).trans
      (filledQuantity_applyFill reconcileVersion s fill accountId orderId)⟩

theorem settleOrder_filled (accountId orderId : String) (trades : List BrokerTrade)
    (s : OrderRuntime) (accountId' orderId' : String) :
    (s.settleOrder accountId orderId trades).tables.filledQuantity accountId' orderId' =
      (s.tables.storeTradeFills accountId (some orderId) trades false).filledQuantity
        accountId' orderId' :=
  (applyFills_tables _ _ _).2 accountId' orderId'

theorem settleOrder_projections (accountId orderId : String) (trades : List BrokerTrade)
    (s : OrderRuntime) (key : String × String) :
    (s.settleOrder accountId orderId trades).tables.projections.get? key =
      if key = (accountId, orderId) then (s.tables.projections.get? key).map ProjectionRow.cleared
      else s.tables.projections.get? key := by
  have hstored : ({ s with
      tables := s.tables.storeTradeFills accountId (some orderId) trades false } : OrderRuntime).tables.projections =
        s.tables.projections := ExecutionTables.storeTradeFills_projections _ _ _ _ _
  have happlied := (applyFills_tables
    (max (maxReconcileVersion accountId { s with
      tables := s.tables.storeTradeFills accountId (some orderId) trades false }) s.clock)
    (pendingFills accountId orderId { s with
      tables := s.tables.storeTradeFills accountId (some orderId) trades false }) _).1.trans hstored
  refine (Keyed.get?_modify _ _ key ProjectionRow.key_cleared).trans ?_
  rw [← happlied]
  rfl

/-! ## clean orders -/

/-- An order whose projection is not marked has fills for all it was seen filled. -/
def CleanFilled (s : OrderRuntime) : Prop :=
  ∀ accountId orderId row, s.tables.projections.get? (accountId, orderId) = some row →
    row.state.dirtyForTradeSync = false → row.state.needsReconcile = false →
      row.state.lastSeenFilledQuantity ≤ s.tables.filledQuantity accountId orderId

/-- What `sync_dirty_orders` has to find when it removes the marks of an order: with the
trades it fetched, the fills reach the quantity that the projection has by then. -/
def FetchedAll (label : SyncLabel) (s : OrderRuntime) : Prop :=
  match label with
  | .settle accountId orderId trades =>
    ∀ row, s.tables.projections.get? (accountId, orderId) = some row →
      row.state.lastSeenFilledQuantity ≤ s.tables.filledQuantity accountId orderId +
        (trades.map (s.tables.newQuantity accountId)).sum
  | _ => True

/-- Orders are never filled below nothing, and clean ones are covered. -/
structure Covered (s : OrderRuntime) : Prop where
  filled : ∀ accountId orderId, 0 ≤ s.tables.filledQuantity accountId orderId
  clean : s.CleanFilled

variable {s : OrderRuntime}

theorem Covered.projectEvent (h : s.Covered) (event : OrderEvent) :
    (s.projectEvent event).Covered := by
  refine ⟨h.filled, fun accountId orderId row hrow hdirty hneeds => ?_⟩
  rw [OrderRuntime.projectEvent, Keyed.get?_upsert] at hrow
  split at hrow
  · next hkey =>
    rw [Option.some.injEq] at hrow
    obtain ⟨rfl, rfl⟩ := Prod.mk.inj hkey
    subst hrow
    cases hexisting : s.tables.projections.get? (event.accountId, event.orderId) with
    | none =>
      -- the first update marks its order unless it reports nothing filled
      simp only [hexisting, Option.map_none, upsert, ofEvent,
        Bool.or_eq_false_iff, decide_eq_false_iff_not] at hdirty ⊢
      exact le_trans (by omega) (h.filled event.accountId event.orderId)
    | some old =>
      simp only [hexisting, Option.map_some, upsert, Bool.or_eq_false_iff,
        decide_eq_false_iff_not] at hdirty hneeds ⊢
      rw [max_eq_left (by omega)]
      exact h.clean _ _ old hexisting hdirty.1.1 hneeds.1
  · exact h.clean accountId orderId row hrow hdirty hneeds

theorem Covered.of_le {s' : OrderRuntime} (h : s.Covered)
    (hprojections : s'.tables.projections = s.tables.projections) (hfilled : ∀ accountId orderId,
      s.tables.filledQuantity accountId orderId ≤ s'.tables.filledQuantity accountId orderId) :
    s'.Covered := by
  refine ⟨fun accountId orderId => le_trans (h.filled accountId orderId) (hfilled accountId orderId),
    fun accountId orderId row hrow hdirty hneeds => ?_⟩
  rw [hprojections] at hrow
  exact le_trans (h.clean accountId orderId row hrow hdirty hneeds) (hfilled accountId orderId)

theorem Covered.settleOrder (h : s.Covered) {accountId orderId : String} {trades : List BrokerTrade}
    (hnodup : (trades.map BrokerTrade.tradeId).Nodup)
    (horder : ∀ trade ∈ trades, trade.orderId = orderId)
    (hall : FetchedAll (.settle accountId orderId trades) s) :
    (s.settleOrder accountId orderId trades).Covered := by
  have hle : ∀ accountId' orderId', s.tables.filledQuantity accountId' orderId' ≤
      (s.settleOrder accountId orderId trades).tables.filledQuantity accountId' orderId' := by
    intro accountId' orderId'
    rw [settleOrder_filled]
    exact ExecutionTables.le_filledQuantity_storeTradeFills _ _ _ _ _ _ _
  refine ⟨fun accountId' orderId' => le_trans (h.filled accountId' orderId') (hle accountId' orderId'),
    fun accountId' orderId' row hrow hdirty hneeds => ?_⟩
  rw [settleOrder_projections] at hrow
  split at hrow
  · next hkey =>
    obtain ⟨rfl, rfl⟩ := Prod.mk.inj hkey
    obtain ⟨old, hold, rfl⟩ := Option.map_eq_some_iff.mp hrow
    rw [settleOrder_filled, ExecutionTables.filledQuantity_storeTradeFills _ _ _ _ _ hnodup horder]
    exact hall old hold
  · exact le_trans (h.clean accountId' orderId' row hrow hdirty hneeds) (hle accountId' orderId')

/-- Every operation of the runtime that meets the condition keeps clean orders covered. -/
def covering : Growth OrderRuntime where
  inv := Covered
  grows _ _ := True
  refl _ := trivial

section Programs

open SyncRequest

variable (kitePositions : List BrokerTrade → List BrokerPosition)

theorem spec_act {label : SyncLabel} {f : OrderRuntime → OrderRuntime} {P : Prop}
    (h : ∀ s, s.Covered → P → FetchedAll label s → (f s).Covered) :
    Growth.Spec (κ := OrderLock) covering FetchedAll (fun _ => P) (.call label fun s => ((), f s))
      fun _ _ => True :=
  .call (kept_const P) (fun _ => kept_const True)
    fun s hs hP hcond => ⟨h s hs hP hcond, trivial, trivial⟩

theorem spec_projectEvents (events : List OrderEvent) :
    Growth.Spec covering FetchedAll (fun _ => True) (projectEvents events) fun _ _ => True := by
  induction events with
  | nil => exact .ret (Q := fun _ _ => True) (kept_const True)
  | cons event events ih =>
    exact .bind (spec_act fun s hs _ _ => hs.projectEvent event) fun _ => ih

theorem spec_syncOrders (raising : List String) (batch : List (String × String)) :
    Growth.Spec covering FetchedAll (fun _ => True) (syncOrders raising batch) fun _ _ => True := by
  induction batch with
  | nil => exact .ret (Q := fun _ _ => True) (kept_const True)
  | cons order batch ih =>
    obtain ⟨accountId, orderId⟩ := order
    rw [syncOrders]
    split
    · exact ih
    · refine .bind (Q := fun trades _ => (trades.map BrokerTrade.tradeId).Nodup ∧
          ∀ trade ∈ trades, trade.orderId = orderId)
        (.read (kept_const True) (fun trades => kept_const _) fun s _ _ => ?_)
        fun trades => .bind (spec_act fun s hs htrades hcond =>
          hs.settleOrder htrades.1 htrades.2 hcond) fun _ => ih
      refine ⟨s.trades.unique.sublist (List.filter_sublist.map _), fun trade htrade => ?_⟩
      exact of_decide_eq_true (List.mem_filter.mp htrade).2

theorem spec_program (request : SyncRequest) :
    Growth.Spec covering FetchedAll (fun _ => True) (program kitePositions request)
      fun _ _ => True := by
  cases request with
  | trade new =>
    refine spec_act fun s hs _ _ => hs.of_le ?_ ?_ <;> unfold OrderRuntime.trade <;> split <;> simp
  | tick milliseconds => exact spec_act fun s hs _ _ => hs.of_le rfl fun _ _ => le_refl _
  | processPendingEvents events =>
    exact .withLock (kept_const True) (fun _ => kept_const True)
      (spec_projectEvents events)
  | syncDirtyOrders batch raising =>
    exact .withLock (kept_const True) (fun _ => kept_const True)
      (.bind (.read (kept_const True) (fun _ => kept_const True) fun _ _ _ => trivial)
        fun rows => spec_syncOrders raising rows)
  | reconcileAccountPositions accountId =>
    have hread : ∀ {α : Type} {label : SyncLabel} {f : OrderRuntime → α},
        Growth.Spec (κ := OrderLock) covering FetchedAll (fun _ => True) (.read label f)
          fun _ _ => True :=
      .read (kept_const True) (fun _ => kept_const True) fun _ _ _ => trivial
    rw [program]
    split
    · exact .ret (Q := fun _ _ => True) (kept_const True)
    · refine .bind hread fun positions => .bind hread fun trades =>
        .withLock (kept_const True) (fun _ => kept_const True)
          (spec_act fun s hs _ _ => hs.of_le ?_ fun accountId' orderId' => ?_)
      · exact ExecutionTables.storeTradeFills_projections _ _ _ _ _
      · exact ExecutionTables.le_filledQuantity_storeTradeFills _ _ _ _ _ _ _

end Programs

/-- In every schedule whose synchronizations find, each time they remove the marks of an
order, the fills fetched for all the order was seen filled, every order without marks has
all its fills. -/
theorem clean_orders_filled (kitePositions : List BrokerTrade → List BrokerPosition)
    {s : OrderRuntime} (hs : s.Covered) {events : List (Event SyncRequest)}
    {last : Config OrderLock SyncLabel OrderRuntime Unit}
    (hrun : (Config.idle s).run (SyncRequest.program kitePositions) events = some last)
    (hmeets : (Config.idle s).MeetsAlong (SyncRequest.program kitePositions) FetchedAll events) :
    last.world.store.CleanFilled :=
  (covering.run (fun request => spec_program kitePositions request) hs hrun hmeets).clean

/-! ### a run -/

def demoTrade (tradeId : String) (quantity : Nat)
    (named : Text.strip tradeId = tradeId ∧ tradeId ≠ "") : BrokerTrade where
  tradeId := tradeId
  orderId := "240102000000001"
  instrumentToken := 101
  exchange := "NSE"
  tradingsymbol := "INFY"
  product := "CNC"
  transactionType := .buy
  quantity := quantity
  averagePrice := 100
  fillTimestamp := 0
  trade_named := named
  order_named := by decide +kernel
  product_named := by decide

def firstTrade : BrokerTrade := demoTrade "1" 3 (by decide +kernel)

def secondTrade : BrokerTrade := demoTrade "2" 7 (by decide +kernel)

/-- The first trade, and the update that reports it. -/
def partlyFilled : List SyncRequest :=
  [.trade firstTrade, .processPendingEvents [updateAt "OPEN" 3 1],
    .syncDirtyOrders [("kite:AB1234", "240102000000001")] []]

/-- The second trade, and the update that reports both. -/
def allFilled : List SyncRequest :=
  [.trade secondTrade, .processPendingEvents [updateAt "COMPLETE" 10 2]]

/-- The order is synchronized before the second trade. -/
def oneByOne : List (Event SyncRequest) :=
  partlyFilled.map .start ++
    [.step 0, .step 1, .step 1, .step 1, .step 2, .step 2, .step 2, .step 2, .step 2]

/-- The second trade and its update come between the broker call and the commit. -/
def overtaken : List (Event SyncRequest) :=
  (partlyFilled ++ allFilled).map .start ++ [.step 0, .step 1, .step 1, .step 1, .step 2, .step 2, .step 2,
     .step 3, .step 4, .step 4, .step 4, .step 2, .step 2]

instance (label : SyncLabel) (s : OrderRuntime) : Decidable (FetchedAll label s) :=
  match label with
  | .settle accountId orderId trades =>
    match h : s.tables.projections.get? (accountId, orderId) with
    | none => .isTrue fun row hrow => by rw [h] at hrow; simp at hrow
    | some row =>
      decidable_of_iff (row.state.lastSeenFilledQuantity ≤ s.tables.filledQuantity accountId orderId +
            (trades.map (s.tables.newQuantity accountId)).sum)
        (by simp [FetchedAll, h])
  | .trade _ | .tick | .event _ | .select | .orderTrades _ | .positions | .trades |
    .reconcile _ _ _ => .isTrue trivial

theorem clean_orders_filled_demo :
    ((Config.idle {}).run (SyncRequest.program fun _ => []) oneByOne).isSome ∧
      ∀ last, (Config.idle {}).run (SyncRequest.program fun _ => []) oneByOne = some last →
        last.world.store.CleanFilled := by
  refine ⟨by decide +kernel, fun last hrun => ?_⟩
  refine clean_orders_filled (fun _ => []) ⟨fun accountId orderId => ?_, fun accountId orderId row h => ?_⟩
    hrun (by decide +kernel)
  · exact le_refl _
  · simp at h

/-- The marks and the quantity of the order's projection. -/
def marks (s : OrderRuntime) : Option (Bool × Bool × Int) :=
  (s.tables.projections.get? ("kite:AB1234", "240102000000001")).map fun row =>
    (row.state.dirtyForTradeSync, row.state.needsReconcile, row.state.lastSeenFilledQuantity)

/-- The order ends without marks, seen filled with 10, and with fills for 3. -/
theorem clean_order_missing_fills :
    ∃ last, (Config.idle {}).run (SyncRequest.program fun _ => []) overtaken = some last ∧
      marks last.world.store = some (false, false, 10) ∧
      last.world.store.tables.filledQuantity "kite:AB1234" "240102000000001" = 3 ∧
      ¬ last.world.store.CleanFilled := by
  have hany : ((Config.idle {}).run (SyncRequest.program fun _ => []) overtaken).any (fun last =>
      decide (marks last.world.store = some (false, false, 10)) &&
        decide (last.world.store.tables.filledQuantity "kite:AB1234" "240102000000001" = 3)) =
      true := by decide +kernel
  obtain ⟨last, hrun, hlast⟩ := (Option.any_eq_true _ _).mp hany
  rw [Bool.and_eq_true, decide_eq_true_eq, decide_eq_true_eq] at hlast
  obtain ⟨hmarks, hfilled⟩ := hlast
  refine ⟨last, hrun, hmarks, hfilled, fun hclean => ?_⟩
  obtain ⟨row, hrow, hvalues⟩ := Option.map_eq_some_iff.mp hmarks
  simp only [Prod.mk.injEq] at hvalues
  have hle := hclean _ _ row hrow hvalues.1 hvalues.2.1
  rw [hfilled, hvalues.2.2] at hle
  omega

end OrderRuntime

end KiteAlgo
