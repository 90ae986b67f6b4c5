import KiteAlgo.LiveOrders.Projection
import Mathlib.Data.List.Dedup

/-!
# KiteAlgo.LiveOrders.ExecutionLinks

The stored fills of an account, the links between a worker run and the orders and
trades it caused (`worker_execution_links.py`), and the test that says whether the run
still has anything open.

The test adds up all linked fills in one sum.  `netQuantity_eq_sum` splits that sum by
instrument and product, so what it can miss is read off: quantities that offset each
other.
-/

namespace KiteAlgo

open List
/-! ## rows -/

/-- A row of `order_trade_fills`. -/
structure TradeFill where
  accountId : String
  tradeId : String
  orderId : String
  instrumentToken : Int
  exchange : String
  tradingsymbol : String
  product : String
  transactionType : String
  quantity : Int
  price : ℚ
  fillTimestamp : Int
  appliedToPosition : Bool
  deriving DecidableEq

namespace TradeFill

def key (fill : TradeFill) : String × String := (fill.accountId, fill.tradeId)

def holding (fill : TradeFill) : Int × String := (fill.instrumentToken, fill.product)

/-- The quantity with its sign; other transaction types count nothing. -/
def signed (fill : TradeFill) : Int :=
  if Text.upper fill.transactionType = "BUY" then fill.quantity
  else if Text.upper fill.transactionType = "SELL" then -fill.quantity
  else 0

end TradeFill

/-- A row of `worker_live_execution_links`: an order link has no trade. -/
structure ExecutionLink where
  strategyRunId : String
  accountId : String
  brokerOrderId : String
  tradeId : Option String := none
  clientOrderRef : Option String := none
  basketExecutionId : Option String := none
  basketLegIndex : Option Nat := none
  deriving DecidableEq

/-- The two partial unique indexes: one link for an order, one for a trade. -/
def ExecutionLink.key (link : ExecutionLink) : String × (String ⊕ String) :=
  (link.accountId, match link.tradeId with
    | none => .inl link.brokerOrderId
    | some tradeId => .inr tradeId)

/-- A row of `order_state_projection`. -/
structure ProjectionRow where
  accountId : String
  orderId : String
  state : OrderState
  deriving DecidableEq

def ProjectionRow.key (row : ProjectionRow) : String × String := (row.accountId, row.orderId)

/-- The tables that order updates, trade synchronization and settlement checks share. -/
structure ExecutionTables where
  links : Keyed ExecutionLink.key := .empty
  fills : Keyed TradeFill.key := .empty
  projections : Keyed ProjectionRow.key := .empty
  deriving DecidableEq

namespace ExecutionTables

/-! ## unresolved execution -/

def linksOf (t : ExecutionTables) (strategyRunId accountId : String) : List ExecutionLink :=
  t.links.rows.filter fun link =>
    link.strategyRunId = strategyRunId ∧ link.accountId = accountId

def orderLinks (t : ExecutionTables) (strategyRunId accountId : String) : List ExecutionLink :=
  (t.linksOf strategyRunId accountId).filter fun link => link.tradeId.isNone

def joined (t : ExecutionTables) (link : ExecutionLink) : Option TradeFill :=
  link.tradeId.bind fun tradeId => t.fills.get? (link.accountId, tradeId)

def linkedFills (t : ExecutionTables) (strategyRunId accountId : String) : List TradeFill :=
  (t.linksOf strategyRunId accountId).filterMap t.joined

/-- The first query of `has_unresolved_execution_for_run`. -/
def netQuantity (t : ExecutionTables) (strategyRunId accountId : String) : Int :=
  ((t.linkedFills strategyRunId accountId).map TradeFill.signed).sum

/-- The condition of the second query, on an order link. -/
def nonTerminal (t : ExecutionTables) (link : ExecutionLink) : Bool :=
  match t.projections.get? (link.accountId, link.brokerOrderId) with
  | none => true
  | some row => decide ¬ row.state.Settled

def hasUnresolvedExecutionForRun (t : ExecutionTables) (strategyRunId accountId : String) : Bool :=
  if t.netQuantity strategyRunId accountId ≠ 0 then true
  else (t.orderLinks strategyRunId accountId).any t.nonTerminal

/-! ## the sum by instrument -/

/-- The run's quantity in one instrument and product. -/
def netOf (t : ExecutionTables) (strategyRunId accountId : String) (holding : Int × String) : Int :=
  (((t.linkedFills strategyRunId accountId).filter fun fill => fill.holding = holding).map
    TradeFill.signed).sum

def holdings (t : ExecutionTables) (strategyRunId accountId : String) : List (Int × String) :=
  ((t.linkedFills strategyRunId accountId).map TradeFill.holding).dedup

theorem netQuantity_eq_sum (t : ExecutionTables) (strategyRunId accountId : String) :
    t.netQuantity strategyRunId accountId =
      ((t.holdings strategyRunId accountId).map (t.netOf strategyRunId accountId)).sum :=
  sum_by_key TradeFill.holding TradeFill.signed (nodup_dedup _) fun _ hfill =>
    mem_dedup.mpr (mem_map_of_mem hfill)

variable {accountId strategyRunId : String} {t : ExecutionTables}

theorem netOf_of_notMem {holding : Int × String}
    (h : holding ∉ t.holdings strategyRunId accountId) :
    t.netOf strategyRunId accountId holding = 0 := by
  have hnone : (t.linkedFills strategyRunId accountId).filter
      (fun fill => fill.holding = holding) = [] := by
    refine filter_eq_nil_iff.mpr fun fill hfill hholding => h ?_
    rw [holdings, mem_dedup]
    exact mem_map.mpr ⟨fill, hfill, of_decide_eq_true hholding⟩
  rw [netOf, hnone]
  rfl

theorem hasUnresolved_eq_false_iff :
    t.hasUnresolvedExecutionForRun strategyRunId accountId = false ↔
      t.netQuantity strategyRunId accountId = 0 ∧
        ∀ link ∈ t.orderLinks strategyRunId accountId, t.nonTerminal link = false := by
  rw [hasUnresolvedExecutionForRun]
  split
  · next h => simp [h]
  · next h =>
    rw [not_not] at h
    simp [h]

theorem nonTerminal_eq_false_iff {link : ExecutionLink} :
    t.nonTerminal link = false ↔ ∃ row, t.projections.get? (link.accountId, link.brokerOrderId) = some row ∧
        row.state.Settled := by
  rw [nonTerminal]
  cases t.projections.get? (link.accountId, link.brokerOrderId) <;> simp

/-! ## a resolved run -/

/-- What the answer `False` should mean: nothing is held, and every linked order has a
projection with a terminal status, and with the terminal flag where the row was written by
updates and placements. -/
structure Resolved (t : ExecutionTables) (strategyRunId accountId : String) : Prop where
  flat : ∀ holding, t.netOf strategyRunId accountId holding = 0
  terminal : ∀ link ∈ t.orderLinks strategyRunId accountId,
    ∃ row, t.projections.get? (link.accountId, link.brokerOrderId) = some row ∧
      row.state.Settled ∧ ∀ writes, project writes = some row.state → row.state.terminal = true

/-- The run holds quantities that add up to nothing, and none of its orders is open. -/
structure Offsetting (t : ExecutionTables) (strategyRunId accountId : String) : Prop where
  held : ∃ holding ∈ t.holdings strategyRunId accountId,
    t.netOf strategyRunId accountId holding ≠ 0
  offset : ((t.holdings strategyRunId accountId).map (t.netOf strategyRunId accountId)).sum = 0
  orders : ∀ link ∈ t.orderLinks strategyRunId accountId,
    ∃ row, t.projections.get? (link.accountId, link.brokerOrderId) = some row ∧ row.state.Settled

/-- The answer `False` means that the run is resolved exactly where its quantities in
different instruments or products do not offset each other. -/
theorem resolved_holds_nothing_iff (t : ExecutionTables) (strategyRunId accountId : String) :
    (t.hasUnresolvedExecutionForRun strategyRunId accountId = false → t.Resolved strategyRunId accountId) ↔
      ¬ t.Offsetting strategyRunId accountId := by
  constructor
  · intro hresolved hoffset
    obtain ⟨holding, -, hheld⟩ := hoffset.held
    have hfalse : t.hasUnresolvedExecutionForRun strategyRunId accountId = false := by
      rw [hasUnresolved_eq_false_iff, netQuantity_eq_sum]
      exact ⟨hoffset.offset, fun link hlink => nonTerminal_eq_false_iff.mpr (hoffset.orders link hlink)⟩
    exact hheld ((hresolved hfalse).flat holding)
  · intro hoffset hfalse
    obtain ⟨hnet, hlinks⟩ := hasUnresolved_eq_false_iff.mp hfalse
    have horders : ∀ link ∈ t.orderLinks strategyRunId accountId,
        ∃ row, t.projections.get? (link.accountId, link.brokerOrderId) = some row ∧ row.state.Settled :=
      fun link hlink => nonTerminal_eq_false_iff.mp (hlinks link hlink)
    refine ⟨fun holding => ?_, fun link hlink => ?_⟩
    · by_contra hheld
      have hmem : holding ∈ t.holdings strategyRunId accountId := by
        by_contra hnone
        exact hheld (netOf_of_notMem hnone)
      exact hoffset ⟨⟨holding, hmem, hheld⟩, by rw [← netQuantity_eq_sum, hnet], horders⟩
    · obtain ⟨row, hrow, hsettled⟩ := horders link hlink
      exact ⟨row, hrow, hsettled, fun writes hwrites => project_settled hwrites hsettled⟩

/-- A fill of the run that the counterexample is about. -/
def fillOf (tradeId : String) (instrumentToken : Int) (transactionType : String) : TradeFill where
  accountId := "kite:AB1234"
  tradeId := tradeId
  orderId := "2401020000" ++ tradeId
  instrumentToken := instrumentToken
  exchange := "NFO"
  tradingsymbol := ""
  product := "NRML"
  transactionType := transactionType
  quantity := 50
  price := 100
  fillTimestamp := 0
  appliedToPosition := true

def tradeLinkOf (tradeId : String) : ExecutionLink where
  strategyRunId := "run"
  accountId := "kite:AB1234"
  brokerOrderId := "2401020000" ++ tradeId
  tradeId := some tradeId

/-- A run that bought one option and sold another, both orders complete, is reported as
resolved. -/
theorem spread_reported_resolved :
    ∃ t : ExecutionTables, t.hasUnresolvedExecutionForRun "run" "kite:AB1234" = false ∧
      t.netOf "run" "kite:AB1234" (101, "NRML") = 50 ∧ t.netOf "run" "kite:AB1234" (102, "NRML") = -50 ∧
      ¬ (t.hasUnresolvedExecutionForRun "run" "kite:AB1234" = false → t.Resolved "run" "kite:AB1234") := by
  let complete : OrderState := ⟨"COMPLETE", 0, 50, false, false, true⟩
  let t : ExecutionTables :=
    { links := ⟨[tradeLinkOf "1", tradeLinkOf "2", { tradeLinkOf "1" with tradeId := none },
        { tradeLinkOf "2" with tradeId := none }], by decide +kernel⟩
      fills := ⟨[fillOf "1" 101 "BUY", fillOf "2" 102 "SELL"], by decide +kernel⟩
      projections := ⟨[⟨"kite:AB1234", "24010200001", complete⟩,
        ⟨"kite:AB1234", "24010200002", complete⟩], by decide +kernel⟩ }
  have hfalse : t.hasUnresolvedExecutionForRun "run" "kite:AB1234" = false := by decide +kernel
  have hheld : t.netOf "run" "kite:AB1234" (101, "NRML") = 50 := by decide +kernel
  refine ⟨t, hfalse, hheld, by decide +kernel, fun h => ?_⟩
  have hflat := (h hfalse).flat (101, "NRML")
  rw [hheld] at hflat
  exact absurd hflat (by decide)

end ExecutionTables

end KiteAlgo
