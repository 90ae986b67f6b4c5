import KiteAlgo.Paper.Outlook

/-!
# KiteAlgo.Paper.Records

The order book and the trade book of paper trading, and what is read off them.

After any calls that run one after another every trade is the fill that its order shows, and every
filled order has one trade (`books_recorded`).  What is filled or turned down is never written
again (`settled_orders_final`).  The positions hold what was traded (`positions_traded`), and
`get_run_state` reports what the strategy traded (`run_state_traded`).
-/

namespace KiteAlgo.Paper

open List

/-- The order shows the trade as its fill. -/
structure Trade.FillOf (trade : Trade) (order : Order) : Prop where
  status : order.status = .filled
  filled : order.filledQuantity = trade.quantity ∧ order.pendingQuantity = 0
  asked : order.quantity = trade.quantity ∧ order.side = trade.side ∧ order.key = trade.key
  price : order.averagePrice = some trade.price
  charges : order.estimatedCharges = trade.estimatedCharges

/-- Trades and filled orders correspond one to one. -/
structure BooksMatch (s : Store) : Prop where
  trades : ∀ trade ∈ s.trades, ∃ order, s.orders.get? trade.orderId = some order ∧ trade.FillOf order
  filled : ∀ id order, s.orders.get? id = some order → order.status = .filled →
    ∃ trade ∈ s.trades, trade.orderId = id
  once : (s.trades.map Trade.orderId).Nodup

/-- What all trades in a position come to. -/
def Store.tradedQuantity (s : Store) (key : PositionKey) : Int :=
  (s.trades.map fun trade => if trade.key = key then trade.signedQuantity else 0).sum

/-- A row is written that is new or was pending, with a trade if it is filled. -/
structure WritesRow (s s' : Store) (row : Order) (fills : List Trade) : Prop where
  orders : s'.orders = s.orders.upsert row
  trades : s'.trades = s.trades ++ fills
  old : ∀ old, s.orders.get? row.orderId = some old → old.status.isPending
  shown : row.status ≠ .filled ∧ fills = [] ∨
    ∃ trade, fills = [trade] ∧ trade.orderId = row.orderId ∧ trade.FillOf row
  held : ∀ key, s'.netQuantity key = s.netQuantity key +
    (fills.map fun trade => if trade.key = key then trade.signedQuantity else 0).sum

section Moves

variable {s s' : Store} {order row : Order} {trades : List Trade} {svc : Service}
  {T : Order → Store → Prop} {id : Nat}

theorem not_filled_of_pending (h : order.status.isPending) : order.status ≠ .filled := by
  intro hfilled
  rw [hfilled] at h
  cases h

theorem pending_of_row (hrow : s.orders.get? id = some order) (hpending : order.status.isPending)
    (old : Order) (hold : s.orders.get? id = some old) :
    old.status.isPending := by
  rw [hrow] at hold
  cases hold
  exact hpending

theorem netQuantity_of_positions (h : s'.positions = s.positions) (key : PositionKey) :
    s'.netQuantity key = s.netQuantity key := by
  rw [Store.netQuantity, Store.getPosition, h]
  rfl

theorem Moves.books (h : Balanced s) (hmove : Moves svc T s s') :
    (s'.orders = s.orders ∧ s'.trades = s.trades ∧ ∀ key, s'.netQuantity key = s.netQuantity key) ∨
      ∃ row trades, WritesRow s s' row trades := by
  have hnew : ∀ (order : Order) old, s.orders.get? (order.withId s.clock).orderId = some old →
      old.status.isPending := by
    intro order old hold
    rw [show (order.withId s.clock).orderId = s.clock from rfl, h.undrawn] at hold
    cases hold
  -- what writes no trade writes no position
  have hrow : ∀ row, s'.orders = s.orders.upsert row → s'.trades = s.trades → s'.positions = s.positions →
      (∀ old, s.orders.get? row.orderId = some old → old.status.isPending) → row.status ≠ .filled →
      ∃ row trades, WritesRow s s' row trades := by
    intro row horders htrades hpositions hold hstatus
    exact ⟨row, [], horders, by rw [htrades, append_nil], hold, .inl ⟨hstatus, rfl⟩,
      fun key => (netQuantity_of_positions hpositions key).trans (Int.add_zero _).symm⟩
  cases hmove with
  | opened habsent => exact .inl ⟨rfl, rfl, fun _ => rfl⟩
  | @marked position price hposition =>
    refine .inl ⟨rfl, rfl, fun key => ?_⟩
    rw [@Store.netQuantity_upsert s _ ((position.marked price).stamped s.clock) rfl]
    split
    · next hkey =>
      have hstored : s.positions.get? key = some position := by
        rw [← hkey]
        exact hposition
      rw [Store.netQuantity, Store.getPosition, hstored]
      rfl
    · rfl
  | @rejected order hstatus =>
    exact .inr (hrow (order.withId s.clock) rfl rfl rfl (hnew order) (by simp [Order.withId, hstatus]))
  | @booked _ order _ hstatus _ _ hfunded =>
    exact .inr (hrow (order.withId s.clock) hfunded.orders hfunded.trades hfunded.positions (hnew order)
      (by simp [Order.withId, hstatus]))
  | @touched order updated hstored hpending hupdated =>
    have hid : updated.orderId = order.orderId := by rcases hupdated with rfl | rfl <;> rfl
    refine .inr (hrow updated (Store.updateOrder_orders (hid ▸ hstored)) (by simp) (by simp) ?_ ?_)
    · rw [hid]
      exact pending_of_row hstored hpending
    · rcases hupdated with rfl | rfl
      · exact not_filled_of_pending hpending
      · simp [Order.opened]
  | @refused _ order _ hstored hpending _ hfunded =>
    refine .inr (hrow order.refused ?_ ?_ ?_ (pending_of_row hstored hpending) (by simp [Order.refused]))
    · rw [hfunded.orders]
      exact Store.updateOrder_orders hstored
    · rw [hfunded.trades, Store.updateOrder_trades]
    · rw [hfunded.positions, Store.updateOrder_positions]
  | @filled s₁ order _ instrument price plan hstored hpending _ htoken hplan hfunded _ =>
    have hstored₁ : s₁.orders.get? (order.completed price).orderId = some order := by
      rw [hfunded.orders]
      exact hstored
    refine .inr ⟨order.completed price, [{ order.trade price with tradeId := s₁.clock }], ?_, ?_,
      pending_of_row hstored hpending, .inr ⟨_, rfl, rfl, rfl, ⟨rfl, rfl⟩, ⟨rfl, rfl, rfl⟩, rfl, rfl⟩,
      fun key => ?_⟩
    · rw [Service.recordFillUow_orders, Store.updateOrder_orders hstored₁, hfunded.orders]
    · rw [Service.recordFillUow_trades, hfunded.trades]
    · obtain ⟨instant, hpositions⟩ := Service.recordFillUow_positions order price plan s₁
      have hkey : ((plan.position.settled order plan.margin price).stamped instant).key = order.key := by
        rw [hplan]
        exact congrArg (fun token => PositionKey.mk order.scope token order.product) htoken
      have hnet : ((plan.position.settled order plan.margin price).stamped instant).netQuantity =
          s.netQuantity order.key + order.signedQuantity := by
        rw [← svc.fillPlan_netQuantity order instrument price s, ← hplan]
        rfl
      rw [Store.netQuantity_upsert hpositions, hkey, hnet, map_singleton, sum_singleton,
        netQuantity_of_positions hfunded.positions]
      show _ = s.netQuantity key + if order.key = key then order.signedQuantity else 0
      split
      · next hsame => rw [hsame]
      · exact (Int.add_zero _).symm

theorem BooksMatch.writes (h : BooksMatch s) (hwrites : WritesRow s s' row trades) : BooksMatch s' := by
  have hother : ∀ trade ∈ s.trades, row.orderId ≠ trade.orderId := by
    intro trade htrade heq
    obtain ⟨old, hget, hfill⟩ := h.trades trade htrade
    exact not_filled_of_pending (hwrites.old old (heq ▸ hget)) hfill.status
  refine ⟨fun trade htrade => ?_, fun id order hget hfilled => ?_, ?_⟩
  · rw [hwrites.trades, mem_append] at htrade
    rw [hwrites.orders]
    rcases htrade with htrade | htrade
    · rw [Keyed.get?_upsert_of_ne (hother trade htrade)]
      exact h.trades trade htrade
    · obtain ⟨-, rfl⟩ | ⟨t, rfl, hid, hfill⟩ := hwrites.shown
      · cases htrade
      · rw [mem_singleton.mp htrade, hid]
        exact ⟨row, Keyed.get?_upsert_self s.orders row, hfill⟩
  · rw [hwrites.trades]
    rw [hwrites.orders, Keyed.get?_upsert] at hget
    split at hget
    · next hkey =>
      cases hget
      obtain ⟨hnot, -⟩ | ⟨t, rfl, hid, -⟩ := hwrites.shown
      · exact absurd hfilled hnot
      · exact ⟨t, by simp, hid.trans hkey⟩
    · obtain ⟨t, ht, htrade⟩ := h.filled id order hget hfilled
      exact ⟨t, mem_append_left _ ht, htrade⟩
  · rw [hwrites.trades, map_append, nodup_append]
    obtain ⟨-, rfl⟩ | ⟨t, rfl, hid, -⟩ := hwrites.shown
    · exact ⟨h.once, nodup_nil, fun _ _ _ => nofun⟩
    · refine ⟨h.once, nodup_singleton _, fun a ha b hb => ?_⟩
      obtain ⟨earlier, hearlier, rfl⟩ := mem_map.mp ha
      rw [mem_singleton.mp hb, hid]
      exact (hother earlier hearlier).symm

theorem BooksMatch.moves (h : BooksMatch s) (hb : Balanced s) (hmoves : MovesTo svc T s s') :
    BooksMatch s' := by
  induction hmoves with
  | refl => exact h
  | tail hbefore hmove ih =>
    obtain ⟨horders, htrades, -⟩ | ⟨row, trades, hwrites⟩ := hmove.books (hb.moves hbefore)
    · refine ⟨?_, ?_, htrades ▸ ih.once⟩
      · rw [horders, htrades]
        exact ih.trades
      · rw [horders, htrades]
        exact ih.filled
    · exact ih.writes hwrites

theorem Balanced.settled_moves (hb : Balanced s) (hmoves : MovesTo svc T s s')
    (hrow : s.orders.get? id = some order) (hsettled : order.status.isPending = false) :
    s'.orders.get? id = some order := by
  induction hmoves with
  | refl => exact hrow
  | tail hbefore hmove ih =>
    obtain ⟨horders, -⟩ | ⟨row, trades, hwrites⟩ := hmove.books (hb.moves hbefore)
    · rw [horders, ih]
    · rw [hwrites.orders, Keyed.get?_upsert_of_ne fun hid => ?_, ih]
      have hpending := hwrites.old order (hid ▸ ih)
      rw [hsettled] at hpending
      cases hpending

theorem Balanced.traded_moves (hb : Balanced s) (hmoves : MovesTo svc T s s')
    (h : ∀ key, s.netQuantity key = s.tradedQuantity key) (key : PositionKey) :
    s'.netQuantity key = s'.tradedQuantity key := by
  induction hmoves with
  | refl => exact h key
  | tail hbefore hmove ih =>
    obtain ⟨-, htrades, hheld⟩ | ⟨row, trades, hwrites⟩ := hmove.books (hb.moves hbefore)
    · rw [hheld, ih, Store.tradedQuantity, Store.tradedQuantity, htrades]
    · rw [hwrites.held, ih, Store.tradedQuantity, Store.tradedQuantity, hwrites.trades, map_append,
        sum_append]

theorem BooksMatch.sameProducts (h : BooksMatch s) : SameProducts s.orders.rows s.trades := by
  intro trade htrade order horder hid
  obtain ⟨stored, hstored, hfill⟩ := h.trades trade htrade
  have hget : s.orders.get? order.orderId = some order := Keyed.mem_rows_iff.mp horder
  rw [hid, hstored] at hget
  cases hget
  exact congrArg PositionKey.product hfill.asked.2.2

theorem Store.Fresh.booksMatch (h : s.Fresh) : BooksMatch s := by
  refine ⟨fun trade htrade => ?_, fun id order hget => ?_, ?_⟩
  · simp [h.trades] at htrade
  · simp [Keyed.get?, h.orders] at hget
  · simp [h.trades]

end Moves

/-! ## runs -/

section Runs

variable (svc : Service) {s : Store} (hfresh : s.Fresh) (calls : List Call)

include hfresh

theorem moves_fresh : MovesTo svc (fun _ _ => True) s (svc.serial calls s) :=
  moves_serial svc (hfresh.knowsOrders svc) (serialAlong_true svc calls s)

/-- After any calls that run one after another, trades and filled orders correspond one to one. -/
theorem books_recorded : BooksMatch (svc.serial calls s) :=
  hfresh.booksMatch.moves hfresh.balanced (moves_fresh svc hfresh calls)

/-- No later call writes an order that is filled, cancelled, rejected or expired. -/
theorem settled_orders_final (more : List Call) {id : Nat} {order : Order}
    (hrow : (svc.serial calls s).orders.get? id = some order)
    (hsettled : order.status.isPending = false) :
    (svc.serial more (svc.serial calls s)).orders.get? id = some order :=
  have hfirst := moves_fresh svc hfresh calls
  (hfresh.balanced.moves hfirst).settled_moves (moves_serial svc ((hfresh.knowsOrders svc).moves hfirst)
    (serialAlong_true svc more (svc.serial calls s))) hrow hsettled

/-- A position holds what its trades come to. -/
theorem positions_traded (key : PositionKey) :
    (svc.serial calls s).netQuantity key = (svc.serial calls s).tradedQuantity key := by
  refine hfresh.balanced.traded_moves (moves_fresh svc hfresh calls) (fun key => ?_) key
  rw [Store.netQuantity, Store.getPosition, Keyed.get?, hfresh.positions, Store.tradedQuantity, hfresh.trades]
  rfl

/-- The legs that `get_run_state` reports of a strategy hold what the strategy traded, as long as
the listings leave no trade out. -/
theorem run_state_traded {scope : Scope} {limit : Nat}
    (hlimit : (svc.serial calls s).trades.length ≤ limit) (strategy : String) (instrumentToken : Int)
    (product : String) :
    netOf (legStates ((svc.serial calls s).listOrders scope limit)
        (((svc.serial calls s).listTrades scope limit).filter fun trade =>
          strategyIdentity trade.attribution = some strategy)) (instrumentToken, product) =
      (svc.serial calls s).attributedQuantity strategy ⟨scope, instrumentToken, product⟩ :=
  netOf_runState hlimit (hfresh.booksMatch.moves hfresh.balanced (moves_fresh svc hfresh calls)).sameProducts
    instrumentToken product

end Runs

def demoBooks : Store := demoService.serial demoTrades demoStore

theorem books_recorded_demo : demoBooks.trades.length = 2 ∧ BooksMatch demoBooks :=
  ⟨by decide +kernel, books_recorded demoService fresh_demoStore demoTrades⟩

theorem settled_orders_final_demo :
    ∃ order, demoBooks.orders.get? 0 = some order ∧
      (demoService.serial demoTrades demoBooks).orders.get? 0 = some order := by
  have hsome : (demoBooks.orders.get? 0).map (fun order => order.status.isPending) = some false := by
    decide +kernel
  obtain ⟨order, hrow, hsettled⟩ := Option.map_eq_some_iff.mp hsome
  exact ⟨order, hrow, settled_orders_final demoService fresh_demoStore demoTrades demoTrades hrow hsettled⟩

theorem positions_traded_demo : demoBooks.tradedQuantity ⟨demoScope, 408065, "MIS"⟩ = 6 :=
  (positions_traded demoService fresh_demoStore demoTrades _).symm.trans (by decide +kernel)

/-- A strategy buys, and an order of nobody sells some of it. -/
def alphaBooks : Store :=
  demoService.serial
    [.placeOrder demoScope (demoOrder "BUY" 10 none [("strategy_run_id", "alpha")]) [] (demoMarket 100),
      .placeOrder demoScope (demoOrder "SELL" 4) [] (demoMarket 110)] demoStore

theorem run_state_traded_alpha :
    netOf (legStates (alphaBooks.listOrders demoScope 50000)
        ((alphaBooks.listTrades demoScope 50000).filter fun trade =>
          strategyIdentity trade.attribution = some "alpha")) (408065, "MIS") = 10 :=
  (run_state_traded demoService fresh_demoStore _ (by decide +kernel) "alpha" 408065 "MIS").trans
    (by decide +kernel)

end KiteAlgo.Paper
