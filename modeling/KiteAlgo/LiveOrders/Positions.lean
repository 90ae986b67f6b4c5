import KiteAlgo.LiveOrders.TradeSync

/-!
# KiteAlgo.LiveOrders.Positions

The net quantity of a position against the fills that were applied to it.  A fill is applied
by `sync_dirty_orders` in the transaction that stores it, or marked as applied by
`reconcile_account_positions`, which takes the quantity from the broker.

`Booked` is the invariant.  A reconciliation keeps it if the positions it read are the fold
of the trades it read, and these cover the fills stored by the time it has the lock
(`ReadsAgree`).
-/

namespace KiteAlgo

open List Option Keyed ExecutionTables Config Growth
/-! ## the fold of the broker's trades -/

namespace BrokerTrade

def holding (trade : BrokerTrade) : Int × String := (trade.instrumentToken, trade.product)

def signed (trade : BrokerTrade) : Int :=
  match trade.transactionType with
  | .buy => trade.quantity
  | .sell => -trade.quantity

@[simp] theorem toFill_holding (trade : BrokerTrade) (accountId orderId : String)
    (markApplied : Bool) : (trade.toFill accountId orderId markApplied).holding = trade.holding := by
  simp [TradeFill.holding, toFill, holding, trade.product_named]

theorem upper_buy : Text.upper "BUY" = "BUY" := by decide +kernel

theorem upper_sell : Text.upper "SELL" = "SELL" := by decide +kernel

@[simp] theorem toFill_signed (trade : BrokerTrade) (accountId orderId : String)
    (markApplied : Bool) : (trade.toFill accountId orderId markApplied).signed = trade.signed := by
  unfold TradeFill.signed signed toFill
  cases trade.transactionType <;> simp [TransactionType.text, upper_buy, upper_sell]

@[simp] theorem toFill_change (trade : BrokerTrade) (accountId orderId : String)
    (markApplied : Bool) : (trade.toFill accountId orderId markApplied).change = trade.signed := by
  unfold TradeFill.change TradeFill.isBuy signed toFill
  cases trade.transactionType <;> simp [TransactionType.text, upper_buy, upper_sell]

end BrokerTrade

def BrokerPosition.holding (position : BrokerPosition) : Int × String :=
  (position.instrumentToken, position.product)

/-- The net quantity of the trades in one instrument and product. -/
def netTraded (trades : List BrokerTrade) (holding : Int × String) : Int :=
  (trades.map fun trade => if trade.holding = holding then trade.signed else 0).sum

/-- `kite.positions()["net"]`: one row for each instrument and product traded, the fold of the
trades; what the broker says beyond quantities is a parameter. -/
def kitePositions (quote : List BrokerTrade → Int × String → BrokerQuote)
    (trades : List BrokerTrade) : List BrokerPosition :=
  (trades.map BrokerTrade.holding).dedup.map fun holding =>
    let own := trades.filter fun trade => trade.holding = holding
    let bought := own.filter fun trade => trade.transactionType = .buy
    let sold := own.filter fun trade => trade.transactionType = .sell
    { instrumentToken := holding.1
      product := holding.2
      exchange := (own.head?.map BrokerTrade.exchange).getD ""
      tradingsymbol := (own.head?.map BrokerTrade.tradingsymbol).getD ""
      quantity := netTraded trades holding
      buyQuantity := (bought.map fun trade => (trade.quantity : Int)).sum
      sellQuantity := (sold.map fun trade => (trade.quantity : Int)).sum
      buyValue := (bought.map fun trade => trade.averagePrice * ((trade.quantity : Int) : ℚ)).sum
      sellValue := (sold.map fun trade => trade.averagePrice * ((trade.quantity : Int) : ℚ)).sum
      quote := quote trades holding }

namespace OrderRuntime

/-! ## positions and applied fills -/

/-- The net quantity of a position, nothing without a row. -/
def netQuantity (s : OrderRuntime) (accountId : String) (holding : Int × String) : Int :=
  ((s.positions.get? (accountId, holding.1, holding.2)).map AccountPosition.netQuantity).getD 0

/-- The summand of a fill in the applied quantity of a position. -/
def appliedPart (accountId : String) (holding : Int × String) (fill : TradeFill) : Int :=
  if fill.accountId = accountId ∧ fill.holding = holding ∧ fill.appliedToPosition = true then
    fill.signed
  else 0

/-- The signed sum of the fills of an instrument and product that are marked as applied. -/
def appliedQuantity (s : OrderRuntime) (accountId : String) (holding : Int × String) : Int :=
  (s.tables.fills.rows.map (appliedPart accountId holding)).sum

/-- Every row has the quantity of its applied fills, and fills without a row add up to
nothing. -/
def PositionsBooked (s : OrderRuntime) : Prop :=
  ∀ accountId holding, s.netQuantity accountId holding = s.appliedQuantity accountId holding

theorem PositionsBooked.row {s : OrderRuntime} (h : s.PositionsBooked) {row : AccountPosition}
    (hrow : row ∈ s.positions.rows) :
    row.netQuantity = s.appliedQuantity row.accountId (row.instrumentToken, row.product) := by
  rw [← h, netQuantity, show (row.accountId, row.instrumentToken, row.product) = row.key from rfl,
    mem_rows_iff.mp hrow]
  rfl

def FromTrade (s : OrderRuntime) (fill : TradeFill) : Prop :=
  ∃ trade, s.trades.get? fill.tradeId = some trade ∧ fill.signed = trade.signed ∧
    fill.change = trade.signed ∧ fill.holding = trade.holding

/-- The positions are booked, every stored fill is applied, and it comes from a trade. -/
structure Booked (s : OrderRuntime) : Prop where
  positions : s.PositionsBooked
  applied : ∀ fill ∈ s.tables.fills.rows, fill.appliedToPosition = true
  traded : ∀ fill ∈ s.tables.fills.rows, s.FromTrade fill

def Later (s s' : OrderRuntime) : Prop :=
  ∀ tradeId trade, s.trades.get? tradeId = some trade → s'.trades.get? tradeId = some trade

def Given (trades : List BrokerTrade) (s : OrderRuntime) : Prop :=
  ∀ trade ∈ trades, s.trades.get? trade.tradeId = some trade

variable {fill : TradeFill} {markApplied : Bool} {t : ExecutionTables}

theorem mem_rows_storeTradeFill {accountId : String} {orderId : Option String} {trade : BrokerTrade}
    (h : fill ∈ (storeTradeFill accountId orderId markApplied t trade).fills.rows) :
    fill ∈ t.fills.rows ∨ fill = trade.toFill accountId trade.orderId markApplied := by
  rw [mem_rows_iff, get?_storeTradeFill, or_eq_some_iff] at h
  rcases h with hold | ⟨-, hnew⟩
  · exact .inl (mem_rows_iff.mpr hold)
  · split at hnew
    · exact .inr (some.inj hnew).symm
    · simp at hnew

theorem mem_rows_storeTradeFills {accountId : String} {orderId : Option String}
    {trades : List BrokerTrade}
    (h : fill ∈ (t.storeTradeFills accountId orderId trades markApplied).fills.rows) :
    fill ∈ t.fills.rows ∨ ∃ trade ∈ trades, fill = trade.toFill accountId trade.orderId markApplied := by
  induction trades generalizing t with
  | nil => exact .inl h
  | cons trade trades ih =>
    rw [storeTradeFills, foldl_cons] at h
    rcases ih h with hfirst | ⟨other, hother, hfill⟩
    · rcases mem_rows_storeTradeFill hfirst with hold | hnew
      · exact .inl hold
      · exact .inr ⟨trade, (.head _), hnew⟩
    · exact .inr ⟨other, mem_cons_of_mem _ hother, hfill⟩

/-! ## applying fills -/

theorem key_applyFill {s : OrderRuntime} (reconcileVersion : Int) (fill : TradeFill) :
    (AccountPosition.applyFill (s.positions.get? (fill.accountId, fill.instrumentToken, fill.product))
      reconcileVersion fill).key = (fill.accountId, fill.instrumentToken, fill.product) := by
  cases hget : s.positions.get? (fill.accountId, fill.instrumentToken, fill.product) with
  | none => rfl
  | some position =>
    have hkey : position.key = (fill.accountId, fill.instrumentToken, fill.product) :=
      key_of_get? hget
    exact hkey

theorem netQuantity_applyFill (reconcileVersion : Int) (s : OrderRuntime) (fill : TradeFill)
    (accountId : String) (holding : Int × String) :
    (s.applyFill reconcileVersion fill).netQuantity accountId holding = s.netQuantity accountId holding +
        if fill.accountId = accountId ∧ fill.holding = holding then fill.change else 0 := by
  have hkey : (fill.accountId, fill.instrumentToken, fill.product) = (accountId, holding.1, holding.2) ↔
      fill.accountId = accountId ∧ fill.holding = holding := by
    simp [TradeFill.holding, Prod.ext_iff]
  rw [netQuantity, applyFill, get?_upsert, key_applyFill]
  by_cases hown : fill.accountId = accountId ∧ fill.holding = holding
  · rw [if_pos (hkey.mpr hown), if_pos hown, netQuantity, ← hkey.mpr hown]
    cases s.positions.get? (fill.accountId, fill.instrumentToken, fill.product) with
    | none => simp [AccountPosition.applyFill, AccountPosition.ofFill]
    | some position => simp [AccountPosition.applyFill]
  · rw [if_neg fun h => hown (hkey.mp h), if_neg hown, add_zero, netQuantity]

theorem appliedQuantity_applyFill (reconcileVersion : Int) {s : OrderRuntime}
    (hstored : s.tables.fills.get? fill.key = some fill) (hpending : fill.appliedToPosition = false)
    (accountId : String) (holding : Int × String) :
    (s.applyFill reconcileVersion fill).appliedQuantity accountId holding =
      s.appliedQuantity accountId holding +
        if fill.accountId = accountId ∧ fill.holding = holding then fill.signed else 0 := by
  have hbefore : appliedPart accountId holding fill = 0 := if_neg fun h => by simp [hpending] at h
  have hafter : appliedPart accountId holding fill.applied =
      if fill.accountId = accountId ∧ fill.holding = holding then fill.signed else 0 := by
    simp only [appliedPart, TradeFill.applied, and_true]
    rfl
  rw [appliedQuantity, applyFill, modify_eq_upsert TradeFill.key_applied hstored,
    sum_upsert, TradeFill.key_applied, hstored, map_some, getD_some, hbefore,
    hafter, sub_zero]
  rfl

theorem applyFills_booked (reconcileVersion : Int) {fills : List TradeFill}
    (hnodup : (fills.map TradeFill.key).Nodup) {s : OrderRuntime} (hbooked : s.PositionsBooked)
    (hfills : ∀ fill ∈ fills, s.tables.fills.get? fill.key = some fill ∧
      fill.appliedToPosition = false ∧ fill.change = fill.signed) :
    (fills.foldl (applyFill reconcileVersion) s).PositionsBooked ∧
      (fills.foldl (applyFill reconcileVersion) s).trades = s.trades ∧
      ∀ key, (fills.foldl (applyFill reconcileVersion) s).tables.fills.get? key =
        (s.tables.fills.get? key).map fun fill =>
          if key ∈ fills.map TradeFill.key then fill.applied else fill := by
  induction fills generalizing s with
  | nil =>
    refine ⟨hbooked, rfl, fun key => ?_⟩
    rw [List.foldl_nil]
    simp
  | cons fill fills ih =>
    rw [List.map_cons, List.nodup_cons] at hnodup
    obtain ⟨hstored, hpending, hchange⟩ := hfills fill (.head _)
    have hget : ∀ key, (s.applyFill reconcileVersion fill).tables.fills.get? key =
        if key = fill.key then (s.tables.fills.get? key).map TradeFill.applied
        else s.tables.fills.get? key := fun key => get?_modify _ _ key TradeFill.key_applied
    have hnext : (s.applyFill reconcileVersion fill).PositionsBooked := by
      intro accountId holding
      rw [netQuantity_applyFill, appliedQuantity_applyFill _ hstored hpending, hchange,
        hbooked accountId holding]
    have hrest : ∀ other ∈ fills,
        (s.applyFill reconcileVersion fill).tables.fills.get? other.key = some other ∧
          other.appliedToPosition = false ∧ other.change = other.signed := by
      intro other hother
      have hne : other.key ≠ fill.key := fun h =>
        hnodup.1 (h ▸ List.mem_map_of_mem hother)
      rw [hget, if_neg hne]
      exact hfills other (.tail _ hother)
    obtain ⟨hlast, htrades, hlookup⟩ := ih hnodup.2 hnext hrest
    refine ⟨hlast, htrades, fun key => ?_⟩
    rw [List.foldl_cons, hlookup, hget]
    by_cases hkey : key = fill.key
    · rw [if_pos hkey, Option.map_map, hkey]
      refine congrArg (fun f => Option.map f _) (funext fun other => ?_)
      rw [Function.comp_apply, if_neg hnodup.1, if_pos (by simp)]
    · simp [hkey]

theorem mem_pendingFills {accountId orderId : String} {s : OrderRuntime} :
    fill ∈ s.pendingFills accountId orderId ↔ fill ∈ s.tables.fills.rows ∧
      fill.accountId = accountId ∧ fill.orderId = orderId ∧ fill.appliedToPosition = false := by
  simp [pendingFills]

theorem nodup_pendingFills (accountId orderId : String) (s : OrderRuntime) :
    ((s.pendingFills accountId orderId).map TradeFill.key).Nodup :=
  ((perm_sortBy _ _).map _).nodup_iff.mpr
    (s.tables.fills.unique.sublist (filter_sublist.map _))

theorem Booked.settleOrder {s : OrderRuntime} (h : s.Booked) {accountId orderId : String}
    {trades : List BrokerTrade} (hnodup : (trades.map BrokerTrade.tradeId).Nodup)
    (horder : ∀ trade ∈ trades, trade.orderId = orderId) (hgiven : Given trades s) :
    (s.settleOrder accountId orderId trades).Booked := by
  let stored : OrderRuntime :=
    { s with tables := s.tables.storeTradeFills accountId (some orderId) trades false }
  have hsum : stored.PositionsBooked := by
    intro accountId' holding
    have hnone : ∀ trade ∈ trades,
        (if s.tables.fills.get? (accountId, trade.tradeId) = none then
          appliedPart accountId' holding (trade.toFill accountId trade.orderId false) else 0) = 0 := by
      intro trade _
      have hpart : appliedPart accountId' holding (trade.toFill accountId trade.orderId false) = 0 :=
        if_neg fun hparts => by simp [BrokerTrade.toFill] at hparts
      rw [hpart, ite_self]
    rw [appliedQuantity, show stored.tables.fills =
      (s.tables.storeTradeFills accountId (some orderId) trades false).fills from rfl,
      sum_storeTradeFills _ _ _ _ hnodup, map_congr_left hnone,
      map_const', sum_replicate, nsmul_zero, add_zero]
    exact h.positions accountId' holding
  have hmem : ∀ fill ∈ stored.tables.fills.rows, stored.FromTrade fill ∧
      (fill.appliedToPosition ∨ fill ∈ stored.pendingFills accountId orderId) := by
    intro fill hfill
    rcases mem_rows_storeTradeFills hfill with hold | ⟨trade, htrade, rfl⟩
    · exact ⟨h.traded fill hold, .inl (h.applied fill hold)⟩
    · refine ⟨⟨trade, ?_, by simp, by simp, by simp⟩, .inr (mem_pendingFills.mpr
        ⟨hfill, rfl, horder trade htrade, rfl⟩)⟩
      rw [BrokerTrade.toFill, trade.trade_named.1]
      exact hgiven trade htrade
  obtain ⟨hbooked, htrades, hlookup⟩ := applyFills_booked
    (max (stored.maxReconcileVersion accountId) stored.clock)
    (nodup_pendingFills accountId orderId stored) hsum fun fill hfill => by
      obtain ⟨hrow, -, -, hpending⟩ := mem_pendingFills.mp hfill
      obtain ⟨trade, -, hsigned, hchange, -⟩ := (hmem fill hrow).1
      exact ⟨mem_rows_iff.mp hrow, hpending, hchange.trans hsigned.symm⟩
  have hrows : ∀ fill ∈ (s.settleOrder accountId orderId trades).tables.fills.rows,
      fill.appliedToPosition ∧ stored.FromTrade fill := by
    intro fill hfill
    have hget := mem_rows_iff.mp hfill
    rw [show (s.settleOrder accountId orderId trades).tables.fills = _ from rfl] at hget
    have hget' := (hlookup fill.key).symm.trans hget
    obtain ⟨old, hold, hfill'⟩ := map_eq_some_iff.mp hget'
    obtain ⟨⟨trade, htrade, hsigned, hchange, hholding⟩, hdone⟩ :=
      hmem old (mem_rows_of_get? hold)
    split at hfill'
    · subst hfill'
      exact ⟨rfl, trade, htrade, hsigned, hchange, hholding⟩
    · next hout =>
      subst hfill'
      refine ⟨hdone.resolve_right fun hpending => hout ?_, trade, htrade, hsigned, hchange, hholding⟩
      exact mem_map_of_mem hpending
  refine ⟨fun accountId' holding => hbooked accountId' holding, fun fill hfill => (hrows fill hfill).1,
    fun fill hfill => ?_⟩
  obtain ⟨trade, htrade, hrest⟩ := (hrows fill hfill).2
  exact ⟨trade, (congrArg (fun t => t.get? fill.tradeId) htrades).trans htrade, hrest⟩

/-! ## reconciliation -/

theorem get?_reconcileRow (accountId : String) (version : Int) (table : Keyed AccountPosition.key)
    (position : BrokerPosition) (key : String × Int × String) :
    (reconcileRow accountId version table position).get? key =
      if (accountId, position.instrumentToken, position.product) = key then
        some (position.row accountId version
          (table.get? (accountId, position.instrumentToken, position.product)))
      else table.get? key := by
  rw [reconcileRow, get?_upsert]
  rfl

theorem get?_reconcileRows_of_notMem (accountId : String) (version : Int)
    {positions : List BrokerPosition} {key : String × Int × String}
    (h : ∀ position ∈ positions, (accountId, position.instrumentToken, position.product) ≠ key)
    (table : Keyed AccountPosition.key) :
    (positions.foldl (reconcileRow accountId version) table).get? key = table.get? key := by
  induction positions generalizing table with
  | nil => rfl
  | cons position positions ih =>
    rw [foldl_cons, ih fun other hother => h other (.tail _ hother),
      get?_reconcileRow, if_neg (h position (.head _))]

theorem get?_reconcileRows (accountId : String) (version : Int) {positions : List BrokerPosition}
    (hnodup : (positions.map BrokerPosition.holding).Nodup) {position : BrokerPosition}
    (hmem : position ∈ positions) (table : Keyed AccountPosition.key) :
    ∃ existing, (positions.foldl (reconcileRow accountId version) table).get?
        (accountId, position.instrumentToken, position.product) =
      some (position.row accountId version existing) := by
  induction positions generalizing table with
  | nil => simp at hmem
  | cons first positions ih =>
    rw [map_cons, nodup_cons] at hnodup
    rw [foldl_cons]
    rcases mem_cons.mp hmem with rfl | hrest
    · rw [get?_reconcileRows_of_notMem accountId version fun other hother heq => ?_,
        get?_reconcileRow, if_pos rfl]
      · exact ⟨_, rfl⟩
      · refine hnodup.1 (mem_map.mpr ⟨other, hother, ?_⟩)
        exact (Prod.mk.inj heq).2
    · exact ih hnodup.2 hrest _

theorem netTraded_of_notMem {trades : List BrokerTrade} {holding : Int × String}
    (h : holding ∉ trades.map BrokerTrade.holding) : netTraded trades holding = 0 := by
  have hzero : ∀ trade ∈ trades,
      (if trade.holding = holding then trade.signed else 0) = 0 := by
    intro trade htrade
    exact if_neg fun heq => h (by
      rw [← heq]
      exact mem_map_of_mem htrade)
  rw [netTraded, map_congr_left hzero, map_const', sum_replicate, nsmul_zero]

section Reconcile

variable (quote : List BrokerTrade → Int × String → BrokerQuote)

theorem holdings_kitePositions (trades : List BrokerTrade) :
    (kitePositions quote trades).map BrokerPosition.holding = (trades.map BrokerTrade.holding).dedup := by
  rw [kitePositions, List.map_map]
  exact List.map_id' _

/-- What a reconciliation has to find when it has the lock: the positions it read are the
fold of the trades it read, and all stored fills of the account are among these. -/
def ReadsAgree (label : SyncLabel) (s : OrderRuntime) : Prop :=
  match label with
  | .reconcile accountId positions trades => positions = kitePositions quote trades ∧
      ∀ fill ∈ s.tables.fills.rows, fill.accountId = accountId →
        fill.tradeId ∈ trades.map BrokerTrade.tradeId
  | _ => True

variable {quote} {s : OrderRuntime} {accountId : String} {positions : List BrokerPosition}
  {trades : List BrokerTrade}

theorem Booked.part_of_trade (h : s.Booked) (hgiven : Given trades s) (holding : Int × String) :
    ∀ trade ∈ trades,
      ((s.tables.fills.get? (accountId, trade.tradeId)).map (appliedPart accountId holding)).getD 0 =
        if s.tables.fills.get? (accountId, trade.tradeId) = none then 0
        else if trade.holding = holding then trade.signed else 0 := by
  intro trade htrade
  cases hget : s.tables.fills.get? (accountId, trade.tradeId) with
  | none => simp
  | some fill =>
    have hrow := mem_rows_of_get? hget
    have hkey : fill.key = (accountId, trade.tradeId) := key_of_get? hget
    obtain ⟨haccount, htradeId⟩ := Prod.mk.inj hkey
    obtain ⟨other, hother, hsigned, -, hholding⟩ := h.traded fill hrow
    rw [htradeId, hgiven trade htrade, some.injEq] at hother
    subst hother
    rw [map_some, getD_some, if_neg (by simp), appliedPart, hsigned, hholding]
    simp [haccount, h.applied fill hrow]

theorem Booked.appliedQuantity_eq (h : s.Booked) (hnodup : (trades.map BrokerTrade.tradeId).Nodup)
    (hgiven : Given trades s)
    (hcover : ∀ fill ∈ s.tables.fills.rows, fill.accountId = accountId →
      fill.tradeId ∈ trades.map BrokerTrade.tradeId) (holding : Int × String) :
    s.appliedQuantity accountId holding = (trades.map fun trade =>
      if s.tables.fills.get? (accountId, trade.tradeId) = none then 0
      else if trade.holding = holding then trade.signed else 0).sum := by
  have hkeys : (trades.map fun trade => (accountId, trade.tradeId)).Nodup := by
    have hmap : trades.map (fun trade => (accountId, trade.tradeId)) =
        (trades.map BrokerTrade.tradeId).map (Prod.mk accountId) := by rw [List.map_map]; rfl
    rw [hmap]
    exact hnodup.map (Prod.mk_right_injective accountId)
  have hout : ∀ fill ∈ s.tables.fills.rows,
      fill.key ∉ trades.map (fun trade => (accountId, trade.tradeId)) →
        appliedPart accountId holding fill = 0 := by
    intro fill hfill hnone
    refine if_neg fun hparts => hnone ?_
    obtain ⟨trade, htrade, htradeId⟩ := List.mem_map.mp (hcover fill hfill hparts.1)
    refine List.mem_map.mpr ⟨trade, htrade, ?_⟩
    rw [TradeFill.key, hparts.1, htradeId]
  rw [← List.map_congr_left (h.part_of_trade hgiven holding), appliedQuantity,
    ← sum_lookups s.tables.fills hkeys hout, List.map_map]
  rfl

theorem Booked.appliedQuantity_reconcile (h : s.Booked)
    (hnodup : (trades.map BrokerTrade.tradeId).Nodup) (hgiven : Given trades s)
    (hcover : ∀ fill ∈ s.tables.fills.rows, fill.accountId = accountId →
      fill.tradeId ∈ trades.map BrokerTrade.tradeId) (holding : Int × String) :
    (s.reconcile accountId positions trades).appliedQuantity accountId holding =
      netTraded trades holding := by
  rw [appliedQuantity, reconcile, sum_storeTradeFills _ _ _ _ hnodup,
    ← appliedQuantity, h.appliedQuantity_eq hnodup hgiven hcover, ← sum_map_add, netTraded]
  refine congrArg sum (map_congr_left fun trade _ => ?_)
  have hpart : appliedPart accountId holding (trade.toFill accountId trade.orderId true) =
      if trade.holding = holding then trade.signed else 0 := by
    rw [appliedPart, BrokerTrade.toFill_holding, BrokerTrade.toFill_signed]
    simp [BrokerTrade.toFill]
  rw [hpart]
  split <;> simp

theorem reconcile_of_ne {accountId' : String} (hne : accountId ≠ accountId')
    (hnodup : (trades.map BrokerTrade.tradeId).Nodup) (holding : Int × String) :
    (s.reconcile accountId positions trades).netQuantity accountId' holding =
        s.netQuantity accountId' holding ∧
      (s.reconcile accountId positions trades).appliedQuantity accountId' holding =
        s.appliedQuantity accountId' holding := by
  constructor
  · have hother : ∀ position ∈ positions,
        (accountId, position.instrumentToken, position.product) ≠ (accountId', holding.1, holding.2) :=
      fun position _ heq => hne (Prod.mk.inj heq).1
    rw [netQuantity, reconcile, get?_filter, get?_reconcileRows_of_notMem _ _ hother, netQuantity]
    cases hget : s.positions.get? (accountId', holding.1, holding.2) with
    | none => rfl
    | some row =>
      have hkey : row.key = (accountId', holding.1, holding.2) := key_of_get? hget
      have haccount : row.accountId ≠ accountId := fun h => hne (h ▸ (Prod.mk.inj hkey).1)
      rw [filter_some_pos (by simp [haccount])]
  · have hzero : ∀ trade ∈ trades,
        (if s.tables.fills.get? (accountId, trade.tradeId) = none then
          appliedPart accountId' holding (trade.toFill accountId trade.orderId true) else 0) = 0 := by
      intro trade _
      have hpart : appliedPart accountId' holding (trade.toFill accountId trade.orderId true) = 0 :=
        if_neg fun hparts => hne hparts.1
      rw [hpart, ite_self]
    rw [appliedQuantity, reconcile, sum_storeTradeFills _ _ _ _ hnodup,
      map_congr_left hzero, map_const', sum_replicate, nsmul_zero, add_zero, appliedQuantity]

theorem Booked.reconcile (h : s.Booked) (hnodup : (trades.map BrokerTrade.tradeId).Nodup)
    (hgiven : Given trades s) (hagree : ReadsAgree quote (.reconcile accountId positions trades) s) :
    (s.reconcile accountId positions trades).Booked := by
  obtain ⟨rfl, hcover⟩ := hagree
  refine ⟨fun accountId' holding => ?_, fun fill hfill => ?_, fun fill hfill => ?_⟩
  · by_cases haccount : accountId = accountId'
    · subst haccount
      rw [h.appliedQuantity_reconcile hnodup hgiven hcover]
      by_cases hmem : holding ∈ trades.map BrokerTrade.holding
      · -- the row is the broker's, of this version
        have hreported : holding ∈ (kitePositions quote trades).map BrokerPosition.holding := by
          rw [holdings_kitePositions]
          exact mem_dedup.mpr hmem
        obtain ⟨position, hposition, rfl⟩ := mem_map.mp hreported
        obtain ⟨existing, hrow⟩ := get?_reconcileRows accountId s.clock
          (by rw [holdings_kitePositions]; exact nodup_dedup _) hposition s.positions
        have hquantity : position.quantity = netTraded trades position.holding := by
          obtain ⟨holding', -, rfl⟩ := mem_map.mp hposition
          rfl
        rw [netQuantity, OrderRuntime.reconcile, get?_filter]
        rw [show (accountId, position.holding.1, position.holding.2) =
          (accountId, position.instrumentToken, position.product) from rfl, hrow,
          filter_some_pos (by simp [BrokerPosition.row])]
        exact hquantity
      · -- the broker does not report it: the row, if it stays, was flat
        rw [netTraded_of_notMem hmem]
        have hother : ∀ position ∈ kitePositions quote trades,
            (accountId, position.instrumentToken, position.product) ≠
              (accountId, holding.1, holding.2) := by
          intro position hposition heq
          have hin := mem_map_of_mem (f := BrokerPosition.holding) hposition
          rw [holdings_kitePositions, mem_dedup, BrokerPosition.holding, (Prod.mk.inj heq).2] at hin
          exact hmem hin
        have hflat : s.netQuantity accountId holding = 0 := by
          rw [h.positions, h.appliedQuantity_eq hnodup hgiven hcover]
          refine sum_eq_zero fun part hpart => ?_
          obtain ⟨trade, htrade, rfl⟩ := mem_map.mp hpart
          have hne : trade.holding ≠ holding := fun heq => hmem (by
            rw [← heq]
            exact mem_map_of_mem htrade)
          rw [if_neg hne, ite_self]
        rw [netQuantity] at hflat
        rw [netQuantity, OrderRuntime.reconcile, get?_filter, get?_reconcileRows_of_notMem _ _ hother]
        cases hget : s.positions.get? (accountId, holding.1, holding.2) with
        | none => rfl
        | some row =>
          rw [hget] at hflat
          rw [filter_some]
          split
          · exact hflat
          · rfl
    · have hsame : (s.reconcile accountId (kitePositions quote trades) trades).netQuantity
            accountId' holding = s.netQuantity accountId' holding ∧
          (s.reconcile accountId (kitePositions quote trades) trades).appliedQuantity
            accountId' holding = s.appliedQuantity accountId' holding :=
        reconcile_of_ne haccount hnodup holding
      rw [hsame.1, hsame.2, h.positions]
  · rcases mem_rows_storeTradeFills hfill with hold | ⟨trade, htrade, rfl⟩
    · exact h.applied fill hold
    · rfl
  · rcases mem_rows_storeTradeFills hfill with hold | ⟨trade, htrade, rfl⟩
    · exact h.traded fill hold
    · refine ⟨trade, ?_, by simp, by simp, by simp⟩
      rw [BrokerTrade.toFill, trade.trade_named.1]
      exact hgiven trade htrade

end Reconcile

/-! ## every schedule -/

/-- Every operation that meets the condition keeps the positions booked, and trades stay. -/
def booking : Growth OrderRuntime where
  inv := Booked
  grows := Later
  refl _ _ _ h := h

theorem kept_given (trades : List BrokerTrade) : booking.Kept (Given trades) :=
  fun _ _ _ hlater hgiven trade htrade => hlater _ _ (hgiven trade htrade)

theorem Booked.of_same {s s' : OrderRuntime} (h : s.Booked) (hlater : Later s s')
    (hpositions : s'.positions = s.positions) (hfills : s'.tables.fills = s.tables.fills) :
    s'.Booked := by
  refine ⟨fun accountId holding => ?_, fun fill hfill => ?_, fun fill hfill => ?_⟩
  · rw [netQuantity, appliedQuantity, hpositions, hfills]
    exact h.positions accountId holding
  · rw [hfills] at hfill
    exact h.applied fill hfill
  · rw [hfills] at hfill
    obtain ⟨trade, htrade, hrest⟩ := h.traded fill hfill
    exact ⟨trade, hlater _ _ htrade, hrest⟩

theorem later_trade (s : OrderRuntime) (new : BrokerTrade) : Later s (s.trade new) := by
  intro tradeId trade htrade
  unfold OrderRuntime.trade
  split
  · exact htrade
  · next hnone =>
    have hne : new.tradeId ≠ tradeId := fun h => by simp [h, htrade] at hnone
    exact (get?_upsert_of_ne hne s.trades).trans htrade

theorem later_of_trades {s s' : OrderRuntime} (h : s'.trades = s.trades) : Later s s' := by
  intro tradeId trade htrade
  rw [h]
  exact htrade

theorem settleOrder_trades (accountId orderId : String) (trades : List BrokerTrade)
    (s : OrderRuntime) : (s.settleOrder accountId orderId trades).trades = s.trades := by
  have hfold : ∀ (version : Int) (fills : List TradeFill) (s : OrderRuntime),
      (fills.foldl (applyFill version) s).trades = s.trades := by
    intro version fills
    induction fills with
    | nil => exact fun _ => rfl
    | cons fill fills ih => exact fun s => ih (s.applyFill version fill)
  exact hfold _ _ _

section Programs

open SyncRequest

variable (quote : List BrokerTrade → Int × String → BrokerQuote)

theorem booked_act {label : SyncLabel} {f : OrderRuntime → OrderRuntime} {P : OrderRuntime → Prop}
    (hP : booking.Kept P)
    (h : ∀ s, s.Booked → P s → ReadsAgree quote label s → (f s).Booked ∧ Later s (f s)) :
    Growth.Spec (κ := OrderLock) booking (ReadsAgree quote) P (.call label fun s => ((), f s))
      fun _ _ => True :=
  .call hP (fun _ => kept_const True) fun s hs hPs hcond =>
    ⟨(h s hs hPs hcond).1, (h s hs hPs hcond).2, trivial⟩

theorem booked_projectEvents (events : List OrderEvent) :
    Growth.Spec booking (ReadsAgree quote) (fun _ => True) (projectEvents events)
      fun _ _ => True := by
  induction events with
  | nil => exact .ret (Q := fun _ _ => True) (kept_const True)
  | cons event events ih =>
    exact .bind (booked_act quote (kept_const True) fun s hs _ _ =>
      ⟨hs.of_same (later_of_trades rfl) rfl rfl, later_of_trades rfl⟩) fun _ => ih

/-- What a call knows of the trades it read. -/
def ReadTrades (trades : List BrokerTrade) (s : OrderRuntime) : Prop :=
  (trades.map BrokerTrade.tradeId).Nodup ∧ Given trades s

theorem kept_readTrades (trades : List BrokerTrade) : booking.Kept (ReadTrades trades) :=
  fun s s' hs hlater h => ⟨h.1, kept_given trades s s' hs hlater h.2⟩

theorem readTrades_filter (s : OrderRuntime) (p : BrokerTrade → Bool) :
    ReadTrades (s.trades.rows.filter p) s :=
  ⟨s.trades.unique.sublist (filter_sublist.map _), fun _ htrade =>
    mem_rows_iff.mp (mem_of_mem_filter htrade)⟩

theorem booked_syncOrders (raising : List String) (batch : List (String × String)) :
    Growth.Spec booking (ReadsAgree quote) (fun _ => True) (syncOrders raising batch)
      fun _ _ => True := by
  induction batch with
  | nil => exact .ret (Q := fun _ _ => True) (kept_const True)
  | cons order batch ih =>
    obtain ⟨accountId, orderId⟩ := order
    rw [syncOrders]
    split
    · exact ih
    · have hkept : ∀ trades : List BrokerTrade, booking.Kept fun s =>
          ReadTrades trades s ∧ ∀ trade ∈ trades, trade.orderId = orderId :=
        fun trades s s' hs hlater h => ⟨kept_readTrades trades s s' hs hlater h.1, h.2⟩
      refine .bind (.read (kept_const True) hkept fun s _ _ =>
          ⟨readTrades_filter s _, fun trade htrade => ?_⟩)
        fun trades => .bind (booked_act quote (hkept trades) fun s hs htrades _ =>
          ⟨hs.settleOrder htrades.1.1 htrades.2 htrades.1.2,
            later_of_trades (settleOrder_trades accountId orderId trades s)⟩) fun _ => ih
      exact of_decide_eq_true (mem_filter.mp htrade).2

theorem booked_program (request : SyncRequest) :
    Growth.Spec booking (ReadsAgree quote) (fun _ => True)
      (program (kitePositions quote) request) fun _ _ => True := by
  have hTrue : booking.Kept fun _ => True := kept_const True
  cases request with
  | trade new =>
    refine booked_act quote hTrue fun s hs _ _ => ⟨hs.of_same (later_trade s new) ?_ ?_, later_trade s new⟩ <;>
      unfold OrderRuntime.trade <;> split <;> rfl
  | tick milliseconds =>
    exact booked_act quote hTrue fun s hs _ _ =>
      ⟨hs.of_same (later_of_trades rfl) rfl rfl, later_of_trades rfl⟩
  | processPendingEvents events =>
    exact .withLock hTrue (fun _ => hTrue) (booked_projectEvents quote events)
  | syncDirtyOrders batch raising =>
    exact .withLock hTrue (fun _ => hTrue) (.bind (.read hTrue (fun _ => hTrue) fun _ _ _ => trivial)
      fun rows => booked_syncOrders quote raising rows)
  | reconcileAccountPositions accountId =>
    rw [program]
    split
    · exact .ret (Q := fun _ _ => True) hTrue
    · refine .bind (.read hTrue (fun _ => hTrue) fun _ _ _ => trivial) fun positions =>
        .bind (.read hTrue kept_readTrades fun s _ _ => ?_) fun trades =>
          .withLock (kept_readTrades trades) (fun _ => hTrue)
            (booked_act quote (kept_readTrades trades) fun s hs htrades hagree =>
              ⟨hs.reconcile htrades.1 htrades.2 hagree, later_of_trades rfl⟩)
      have hall := readTrades_filter s fun _ => true
      rwa [filter_true] at hall

/-- In every schedule whose reconciliations find, when they have the lock, that their two
reads agree and cover the stored fills, every row has the signed sum of its applied fills,
and applied fills without a row add up to nothing. -/
theorem positions_match_fills {s : OrderRuntime} (hs : s.Booked) {events : List (Event SyncRequest)}
    {last : Config OrderLock SyncLabel OrderRuntime Unit}
    (hrun : (Config.idle s).run (program (kitePositions quote)) events = some last)
    (hmeets : (Config.idle s).MeetsAlong (program (kitePositions quote)) (ReadsAgree quote) events) :
    (∀ row ∈ last.world.store.positions.rows, row.netQuantity =
      last.world.store.appliedQuantity row.accountId (row.instrumentToken, row.product)) ∧
      last.world.store.PositionsBooked := by
  have hbooked := (booking.run (booked_program quote) hs hrun hmeets).positions
  exact ⟨fun row hrow => hbooked.row hrow, hbooked⟩

end Programs

/-! ### a run -/

def noQuote : List BrokerTrade → Int × String → BrokerQuote := fun _ _ => ⟨0, 0⟩

def reconciled : List SyncRequest :=
  [.trade firstTrade, .reconcileAccountPositions "kite:AB1234", .trade secondTrade]

/-- The second trade comes after the reconciliation. -/
def undisturbed : List (Event SyncRequest) :=
  reconciled.map .start ++ [.step 0, .step 1, .step 1, .step 1, .step 1, .step 1, .step 2]

/-- The second trade comes between the two broker calls. -/
def betweenReads : List (Event SyncRequest) :=
  reconciled.map .start ++ [.step 0, .step 1, .step 2, .step 1, .step 1, .step 1, .step 1]

instance (quote : List BrokerTrade → Int × String → BrokerQuote) (label : SyncLabel)
    (s : OrderRuntime) : Decidable (ReadsAgree quote label s) :=
  match label with
  | .reconcile _ _ _ => inferInstanceAs (Decidable (_ ∧ _))
  | .trade _ | .tick | .event _ | .select | .orderTrades _ | .settle _ _ _ | .positions |
    .trades => .isTrue trivial

theorem booked_flat : ({} : OrderRuntime).Booked :=
  ⟨fun _ _ => rfl, fun fill h => by simp [empty] at h, fun fill h => by simp [empty] at h⟩

theorem positions_match_fills_demo :
    ((Config.idle {}).run (SyncRequest.program (kitePositions noQuote)) undisturbed).isSome ∧
      ∀ last, (Config.idle {}).run (SyncRequest.program (kitePositions noQuote)) undisturbed =
        some last → last.world.store.PositionsBooked :=
  ⟨by decide +kernel, fun _ hrun =>
    (positions_match_fills noQuote booked_flat hrun (by decide +kernel)).2⟩

/-- The row ends with the first trade only, while the fills of both are marked as applied. -/
theorem position_misses_trade :
    ∃ last, (Config.idle {}).run (SyncRequest.program (kitePositions noQuote)) betweenReads =
        some last ∧ last.Quiet ∧
      (last.world.store.positions.rows.map AccountPosition.netQuantity) = [3] ∧
      last.world.store.appliedQuantity "kite:AB1234" (101, "CNC") = 10 ∧
      ¬ ∀ row ∈ last.world.store.positions.rows, row.netQuantity =
        last.world.store.appliedQuantity row.accountId (row.instrumentToken, row.product) := by
  have hany : ((Config.idle {}).run (SyncRequest.program (kitePositions noQuote)) betweenReads).any
      (fun last => last.returned && decide ((last.world.store.positions.rows.map fun row =>
          (row.netQuantity, row.accountId, row.instrumentToken, row.product)) =
            [(3, "kite:AB1234", 101, "CNC")]) &&
        decide (last.world.store.appliedQuantity "kite:AB1234" (101, "CNC") = 10)) = true := by
    decide +kernel
  obtain ⟨last, hrun, hlast⟩ := (Option.any_eq_true _ _).mp hany
  simp only [Bool.and_eq_true, decide_eq_true_eq] at hlast
  obtain ⟨⟨hquiet, hrows⟩, happlied⟩ := hlast
  obtain ⟨row, hsingle, hvalues⟩ := List.map_eq_singleton_iff.mp hrows
  simp only [Prod.mk.injEq] at hvalues
  obtain ⟨hnet, haccount, htoken, hproduct⟩ := hvalues
  refine ⟨last, hrun, Config.quiet_of_returned hquiet, by rw [hsingle]; simp [hnet], happlied,
    fun hall => ?_⟩
  have hrow := hall row (by rw [hsingle]; exact List.mem_singleton_self row)
  rw [hnet, haccount, htoken, hproduct, happlied] at hrow
  omega

end OrderRuntime

end KiteAlgo
