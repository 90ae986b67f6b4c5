import KiteAlgo.Lib.Keyed
import KiteAlgo.Paper

/-!
# KiteAlgo.Paper.Store

The repository of the paper runtime (`repository.py`): its tables and what each
statement does to them.  A statement touches one table, and the simp lemmas say which
tables it leaves alone.

Orders and lots are keyed by their identifier and positions by account, instrument and
product; no modelled statement deletes a row.
-/

namespace KiteAlgo.Paper

open List
/-- The tables; `clock` is the next identifier and instant. -/
structure Store where
  accounts : Keyed Account.scope := .empty
  orders : Keyed Order.orderId := .empty
  trades : List Trade := []
  positions : Keyed Position.key := .empty
  lots : Keyed Lot.lotId := .empty
  ledger : List LedgerEntry := []
  clock : Nat := 0
  deriving DecidableEq

namespace Store

def upsertAccount (s : Store) (account : Account) : Store :=
  { s with accounts := s.accounts.upsert account }

/-- `insert_order`; the id is the one drawn for the row. -/
def insertOrder (s : Store) (order : Order) : Order × Store :=
  let order := order.withId s.clock
  (order, { s with orders := s.orders.upsert order, clock := s.clock + 1 })

/-- `update_order`: only a row that is there. -/
def updateOrder (s : Store) (order : Order) : Store :=
  match s.orders.get? order.orderId with
  | some _ => { s with orders := s.orders.upsert order }
  | none => s

/-- `list_pending_orders_for_instrument`, in the order they were placed. -/
def listPendingOrdersForInstrument (s : Store) (token : Int) : List Order :=
  s.orders.rows.filter fun order =>
    order.instrumentToken = token && order.status.isPending

def insertTrade (s : Store) (trade : Trade) : Trade × Store :=
  let trade := { trade with tradeId := s.clock }
  (trade, { s with trades := s.trades ++ [trade], clock := s.clock + 1 })

def getPosition (s : Store) (key : PositionKey) : Option Position := s.positions.get? key

def upsertPosition (s : Store) (position : Position) : Store :=
  { s with
    positions := s.positions.upsert { position with updatedAt := s.clock }
    clock := s.clock + 1 }

/-- `list_open_positions_for_instrument`, last updated first. -/
def listOpenPositionsForInstrument (s : Store) (token : Int) : List Position :=
  sortBy (fun a b => b.updatedAt ≤ a.updatedAt)
    (s.positions.rows.filter fun position =>
      position.instrumentToken = token && position.netQuantity ≠ 0)

/-- `upsert_position_lot` of a new lot. -/
def insertLot (s : Store) (lot : Lot) : Store :=
  { s with lots := s.lots.upsert { lot with lotId := s.clock }, clock := s.clock + 1 }

/-- `upsert_position_lot` of a stored lot. -/
def updateLot (s : Store) (lot : Lot) : Store :=
  { s with lots := s.lots.upsert lot }

/-- `list_open_position_lots`, oldest first. -/
def listOpenPositionLots (s : Store) (key : PositionKey) : List Lot :=
  s.lots.rows.filter fun lot => lot.key = key && 0 < lot.remainingQuantity

def appendFundLedgerEntry (s : Store) (entry : LedgerEntry) : Store :=
  { s with ledger := s.ledger ++ [entry] }

/-! ## what a statement leaves alone -/

section Frame

variable (s : Store)

@[simp] theorem upsertAccount_trades (account : Account) :
    (s.upsertAccount account).trades = s.trades := rfl

@[simp] theorem insertOrder_accounts (order : Order) :
    (s.insertOrder order).2.accounts = s.accounts := rfl

@[simp] theorem insertOrder_trades (order : Order) :
    (s.insertOrder order).2.trades = s.trades := rfl

@[simp] theorem updateOrder_accounts (order : Order) :
    (s.updateOrder order).accounts = s.accounts := by
  unfold updateOrder
  split <;> rfl

@[simp] theorem updateOrder_trades (order : Order) : (s.updateOrder order).trades = s.trades := by
  unfold updateOrder
  split <;> rfl

@[simp] theorem updateOrder_positions (order : Order) :
    (s.updateOrder order).positions = s.positions := by
  unfold updateOrder
  split <;> rfl

@[simp] theorem updateOrder_lots (order : Order) : (s.updateOrder order).lots = s.lots := by
  unfold updateOrder
  split <;> rfl

@[simp] theorem updateOrder_ledger (order : Order) : (s.updateOrder order).ledger = s.ledger := by
  unfold updateOrder
  split <;> rfl

@[simp] theorem updateOrder_clock (order : Order) : (s.updateOrder order).clock = s.clock := by
  unfold updateOrder
  split <;> rfl

@[simp] theorem insertTrade_accounts (trade : Trade) :
    (s.insertTrade trade).2.accounts = s.accounts := rfl

@[simp] theorem insertTrade_orders (trade : Trade) :
    (s.insertTrade trade).2.orders = s.orders := rfl

@[simp] theorem insertTrade_positions (trade : Trade) :
    (s.insertTrade trade).2.positions = s.positions := rfl

@[simp] theorem insertTrade_lots (trade : Trade) : (s.insertTrade trade).2.lots = s.lots := rfl

@[simp] theorem upsertPosition_accounts (position : Position) :
    (s.upsertPosition position).accounts = s.accounts := rfl

@[simp] theorem upsertPosition_orders (position : Position) :
    (s.upsertPosition position).orders = s.orders := rfl

@[simp] theorem upsertPosition_trades (position : Position) :
    (s.upsertPosition position).trades = s.trades := rfl

end Frame

theorem updateOrder_orders {s : Store} {order row : Order}
    (h : s.orders.get? order.orderId = some row) :
    (s.updateOrder order).orders = s.orders.upsert order := by
  rw [updateOrder, h]

theorem mem_listPendingOrdersForInstrument {s : Store} {token : Int} {order : Order}
    (h : order ∈ s.listPendingOrdersForInstrument token) :
    s.orders.get? order.orderId = some order ∧ order.status.isPending ∧
      order.instrumentToken = token := by
  simp only [listPendingOrdersForInstrument, mem_filter, Bool.and_eq_true, decide_eq_true_eq] at h
  exact ⟨Keyed.mem_rows_iff.mp h.1, h.2.2, h.2.1⟩

theorem nodup_listPendingOrdersForInstrument (s : Store) (token : Int) :
    ((s.listPendingOrdersForInstrument token).map Order.orderId).Nodup :=
  s.orders.unique.sublist (filter_sublist.map Order.orderId)

theorem mem_listOpenPositionsForInstrument {s : Store} {token : Int} {position : Position}
    (h : position ∈ s.listOpenPositionsForInstrument token) :
    s.positions.get? position.key = some position := by
  rw [listOpenPositionsForInstrument, mem_sortBy, mem_filter] at h
  exact Keyed.mem_rows_iff.mp h.1

theorem nodup_listOpenPositionsForInstrument (s : Store) (token : Int) :
    ((s.listOpenPositionsForInstrument token).map Position.key).Nodup := by
  have hperm := (perm_sortBy (fun a b : Position => decide (b.updatedAt ≤ a.updatedAt))
    (s.positions.rows.filter fun position =>
      position.instrumentToken = token && position.netQuantity ≠ 0)).map Position.key
  exact hperm.nodup_iff.mpr (s.positions.unique.sublist (filter_sublist.map Position.key))

end Store

structure Store.Fresh (s : Store) : Prop where
  accounts : ∀ scope account, s.accounts.get? scope = some account →
    account.availableFunds = account.startingBalance ∧ account.blockedFunds = 0 ∧ account.realizedPnl = 0
  orders : s.orders.rows = []
  trades : s.trades = []
  positions : s.positions.rows = []
  lots : s.lots.rows = []

end KiteAlgo.Paper
