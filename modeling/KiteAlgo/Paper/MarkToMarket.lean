import KiteAlgo.Paper.Discipline

/-!
# KiteAlgo.Paper.MarkToMarket

Positions follow the trades, whatever the interleaving.

A tick lists the open positions before it takes a lock and writes back what it has
listed, with a new price: a fill that came in between is lost.  In schedules where a mark
finds the row it listed (`MarksCurrent`), a position under a free lock has the books that
its trades make of it (`Booked`); the thread that holds the lock is the only one to change
either, and it frees the lock with both in step.
-/

namespace KiteAlgo.Paper

open List Option Config Protocol
/-! ## positions and their trades -/

def Position.books (position : Position) : Holding × Option ℚ :=
  (position.holding, position.marginInUse)

/-- The position but for what marking to market changes. -/
def Position.unmarked (position : Position) : Position :=
  { position with unrealizedPnl := 0, lastPrice := none, updatedAt := 0 }

def Trade.request (trade : Trade) (quantity_pos : 0 < trade.quantity) : Request :=
  { exchange := trade.exchange
    tradingsymbol := trade.tradingsymbol
    transactionType := trade.side.text
    product := trade.product
    orderType := "MARKET"
    quantity := trade.quantity
    quantity_pos := quantity_pos }

/-- `_apply_fill_to_position` for a trade, with the margin of the new position. -/
def Service.afterTrade (svc : Service) (position : Option Position) (trade : Trade) :
    Option Position :=
  if quantity_pos : 0 < trade.quantity then
    (svc.getInstrument trade.exchange trade.tradingsymbol).map fun instrument =>
      let position := applyFillToPosition trade.scope position (trade.request quantity_pos)
        trade.price instrument
      { position with
        marginInUse := some (positionMargin svc.upper (some position) instrument.instrumentType
          trade.price) }
  else position

namespace Store

variable (s : Store)

/-- The trades of a position, in the order they were inserted. -/
def tradesFor (key : PositionKey) : List Trade := s.trades.filter fun trade => trade.key = key

def replayed (svc : Service) (key : PositionKey) : Option Position :=
  (s.tradesFor key).foldl svc.afterTrade none

end Store

/-- The stored position has the books that its trades make. -/
def BookedAt (svc : Service) (s : Store) (key : PositionKey) : Prop :=
  (s.getPosition key).map Position.books = (s.replayed svc key).map Position.books

def Booked (svc : Service) (s : Store) : Prop := ∀ key, BookedAt svc s key

theorem books_eq_of_unmarked {position other : Position} (h : position.unmarked = other.unmarked) :
    position.books = other.books := by
  have hbooks : ∀ p : Position, p.books = p.unmarked.books := fun _ => rfl
  rw [hbooks position, h, ← hbooks other]

theorem books_afterTrade (svc : Service) {position other : Option Position}
    (h : position.map Position.books = other.map Position.books) (trade : Trade) :
    (svc.afterTrade position trade).map Position.books =
      (svc.afterTrade other trade).map Position.books := by
  have hheld : position.map Position.holding = other.map Position.holding := by
    have hfst := congrArg (Option.map Prod.fst) h
    rw [Option.map_map, Option.map_map] at hfst
    exact hfst
  unfold Service.afterTrade
  split
  · cases svc.getInstrument trade.exchange trade.tradingsymbol with
    | none => rfl
    | some instrument =>
      simp only [Option.map_some, applyFillToPosition, hheld]
      rfl
  · exact h

theorem books_settled (svc : Service) {order : Order} {request : Request} {instrument : Instrument}
    {price : ℚ} {existing : Option Position} (hdescribes : request.Describes order)
    (hinstrument : svc.getInstrument order.exchange order.tradingsymbol = some instrument) (id : Nat) :
    (svc.afterTrade existing { order.trade price with tradeId := id }).map Position.books =
      some ((svc.fillPlan order request instrument price existing).position.settled order
        (svc.fillPlan order request instrument price existing).margin price).books := by
  have hpos : 0 < ({ order.trade price with tradeId := id } : Trade).quantity := order.quantity_pos
  have hsame : svc.getInstrument ({ order.trade price with tradeId := id } : Trade).exchange
      ({ order.trade price with tradeId := id } : Trade).tradingsymbol = some instrument := hinstrument
  rw [fillPlan_of_describes svc hdescribes, Service.afterTrade, dif_pos hpos, hsame]
  rfl

namespace BookedAt

variable {svc : Service} {s s' : Store} {key : PositionKey}

theorem of_same (h : BookedAt svc s key) (hposition : s'.getPosition key = s.getPosition key)
    (htrades : s'.tradesFor key = s.tradesFor key) : BookedAt svc s' key := by
  rw [BookedAt, hposition, Store.replayed, htrades]
  exact h

end BookedAt

theorem Store.tradesFor_insertTrade (s : Store) (trade : Trade) (key : PositionKey) :
    (s.insertTrade trade).2.tradesFor key =
      s.tradesFor key ++ if trade.key = key then [{ trade with tradeId := s.clock }] else [] := by
  have hkey : ({ trade with tradeId := s.clock } : Trade).key = trade.key := rfl
  simp only [Store.tradesFor, Store.insertTrade, filter_append, filter_cons,
    filter_nil, decide_eq_true_eq, hkey]

theorem Store.getPosition_upsertPosition (s : Store) (position : Position) (key : PositionKey) :
    (s.upsertPosition position).getPosition key =
      if position.key = key then some (position.stamped s.clock) else s.getPosition key := by
  have hkey : (position.stamped s.clock).key = position.key := rfl
  rw [← hkey]
  exact Keyed.get?_upsert s.positions (position.stamped s.clock) key

/-! ## steps -/

namespace MarkToMarket

/-- What a step of thread `i` may do: change positions and trades of the accounts it has
locked only, and free a lock when the positions under it have the books of their trades. -/
structure Step (svc : Service) (i : Nat) (w w' : World Scope Store) : Prop where
  locks : World.OwnLocks i w w'
  known : svc.KnowsOrders w.store → svc.KnowsOrders w'.store
  frame : ∀ key, w.holder key.scope ≠ some i → w'.store.getPosition key = w.store.getPosition key ∧
      w'.store.tradesFor key = w.store.tradesFor key
  released : ∀ key, w.holder key.scope = some i → w'.holder key.scope ≠ some i → BookedAt svc w'.store key

/-- Positions that nobody has locked have the books of their trades. -/
structure Settled (svc : Service) (w : World Scope Store) : Prop where
  known : svc.KnowsOrders w.store
  booked : ∀ key, w.holder key.scope = none → BookedAt svc w.store key

variable {svc : Service} {i j : Nat} {w w' : World Scope Store}

theorem Step.settled (h : Step svc i w w') (hsettled : Settled svc w) : Settled svc w' := by
  refine ⟨h.known hsettled.known, fun key hfree => ?_⟩
  cases hholder : w.holder key.scope with
  | none =>
    obtain ⟨hposition, htrades⟩ := h.frame key (by rw [hholder]; simp)
    exact (hsettled.booked key hholder).of_same hposition htrades
  | some j =>
    by_cases hij : j = i
    · subst hij
      exact h.released key hholder (by rw [hfree]; simp)
    · have hstill := (h.locks key.scope j hij).mpr hholder
      rw [hfree] at hstill
      simp at hstill

theorem Step.act {f : Store → Store} (hknown : svc.KnowsOrders w.store → svc.KnowsOrders (f w.store))
    (hframe : ∀ key, w.holder key.scope ≠ some i → (f w.store).getPosition key = w.store.getPosition key ∧
        (f w.store).tradesFor key = w.store.tradesFor key) : Step svc i w (w.act f) where
  locks := .of_eq rfl
  known := hknown
  frame := hframe
  released _ hholder hfreed := absurd hholder hfreed

def guar (svc : Service) (i : Nat) : World Scope Store → World Scope Store → Prop :=
  Relation.ReflTransGen (Step svc i)

theorem guar_settled (h : guar svc i w w') (hsettled : Settled svc w) : Settled svc w' := by
  induction h with
  | refl => exact hsettled
  | tail _ hstep ih => exact hstep.settled ih

end MarkToMarket

/-- A mark finds the row that the tick has listed, or the row after other marks. -/
def MarksCurrent : Label → Store → Prop
  | .mark position, s =>
    (s.getPosition position.key).map Position.unmarked = some position.unmarked
  | _, _ => True

/-! ## the assertions -/

namespace MarkToMarket

variable {svc : Service} {i j : Nat} {w w' : World Scope Store}

def Out (svc : Service) (i : Nat) (w : World Scope Store) : Prop := w.Idle i ∧ Settled svc w

structure HeldBut (svc : Service) (i : Nat) (scope : Scope) (but : PositionKey → Prop)
    (w : World Scope Store) : Prop where
  holds : w.Holds i scope
  settled : Settled svc w
  booked : ∀ key, key.scope = scope → ¬ but key → BookedAt svc w.store key

def Held (svc : Service) (i : Nat) (scope : Scope) : World Scope Store → Prop :=
  HeldBut svc i scope fun _ => False

def Seen (svc : Service) (i : Nat) (key : PositionKey) (existing : Option Position)
    (w : World Scope Store) : Prop :=
  Held svc i key.scope w ∧ w.store.getPosition key = existing

def Ready (svc : Service) (i : Nat) (order : Order) (existing : Option Position)
    (w : World Scope Store) : Prop :=
  Held svc i order.scope w ∧ w.store.getPosition order.key = existing ∧ svc.Knows order

/-- The trade of the order is inserted and its position still to be written. -/
def Traded (svc : Service) (i : Nat) (order : Order) (price : ℚ) (existing : Option Position)
    (w : World Scope Store) : Prop :=
  HeldBut svc i order.scope (· = order.key) w ∧ ∃ id, (w.store.replayed svc order.key).map
    Position.books = (svc.afterTrade existing { order.trade price with tradeId := id }).map
      Position.books

def discipline (svc : Service) : Discipline where
  guar := guar svc
  cond := MarksCurrent
  out := Out svc
  held := Held svc
  seen := Seen svc
  ready := Ready svc
  listed order _ := svc.Knows order

theorem Step.out (h : Step svc j w w') (hij : j ≠ i) (hout : Out svc i w) : Out svc i w' :=
  ⟨h.locks.idle hij.symm hout.1, h.settled hout.2⟩

variable {scope : Scope}

theorem Step.frame_of_holds (h : Step svc j w w') (hij : j ≠ i) (hholds : w.Holds i scope)
    {key : PositionKey} (hkey : key.scope = scope) :
    w'.store.getPosition key = w.store.getPosition key ∧
      w'.store.tradesFor key = w.store.tradesFor key := by
  refine h.frame key ?_
  rw [hkey, hholds.1, Ne, some.injEq]
  exact fun heq => hij heq.symm

variable {but : PositionKey → Prop}

theorem Step.heldBut (h : Step svc j w w') (hij : j ≠ i)
    (hheld : HeldBut svc i scope but w) : HeldBut svc i scope but w' where
  holds := h.locks.holds hij.symm hheld.holds
  settled := h.settled hheld.settled
  booked key hkey hbut := by
    obtain ⟨hposition, htrades⟩ := h.frame_of_holds hij hheld.holds hkey
    exact (hheld.booked key hkey hbut).of_same hposition htrades

variable {existing : Option Position}

theorem Step.seen (h : Step svc j w w') (hij : j ≠ i) {key : PositionKey}
    (hseen : Seen svc i key existing w) : Seen svc i key existing w' :=
  ⟨h.heldBut hij hseen.1, (h.frame_of_holds hij hseen.1.holds rfl).1.trans hseen.2⟩

variable {order : Order}

theorem Step.ready (h : Step svc j w w') (hij : j ≠ i) (hready : Ready svc i order existing w) :
    Ready svc i order existing w' :=
  ⟨h.heldBut hij hready.1, (h.frame_of_holds hij hready.1.holds rfl).1.trans hready.2.1, hready.2.2⟩

variable {price : ℚ}

theorem Step.traded (h : Step svc j w w') (hij : j ≠ i)
    (htraded : Traded svc i order price existing w) : Traded svc i order price existing w' := by
  obtain ⟨hheld, id, hbooks⟩ := htraded
  refine ⟨h.heldBut hij hheld, id, ?_⟩
  rw [Store.replayed, (h.frame_of_holds hij hheld.holds rfl).2]
  exact hbooks

variable {f : Store → Store}

theorem heldBut_act {but' : PositionKey → Prop} (hheld : HeldBut svc i scope but w)
    (hknown : svc.KnowsOrders w.store → svc.KnowsOrders (f w.store))
    (hframe : ∀ key, key.scope ≠ scope → (f w.store).getPosition key = w.store.getPosition key ∧
      (f w.store).tradesFor key = w.store.tradesFor key)
    (hbooked : ∀ key, key.scope = scope → ¬ but' key → BookedAt svc (f w.store) key) :
    guar svc i w (w.act f) ∧ HeldBut svc i scope but' (w.act f) := by
  have hstep : Step svc i w (w.act f) := by
    refine .act hknown fun key hfree => hframe key fun hkey => hfree ?_
    rw [hkey]
    exact hheld.holds.1
  exact ⟨.single hstep, hheld.holds.of_eq rfl, hstep.settled hheld.settled, hbooked⟩

theorem heldBut_orders (hheld : HeldBut svc i scope but w)
    (hknown : svc.KnowsOrders w.store → svc.KnowsOrders (f w.store))
    (hpositions : (f w.store).positions = w.store.positions)
    (htrades : (f w.store).trades = w.store.trades) :
    guar svc i w (w.act f) ∧ HeldBut svc i scope but (w.act f) := by
  have hsame : ∀ key, (f w.store).getPosition key = w.store.getPosition key ∧
      (f w.store).tradesFor key = w.store.tradesFor key := by
    intro key
    rw [Store.getPosition, Store.tradesFor, hpositions, htrades]
    exact ⟨rfl, rfl⟩
  exact heldBut_act hheld hknown (fun key _ => hsame key) fun key hkey hbut =>
    (hheld.booked key hkey hbut).of_same (hsame key).1 (hsame key).2

variable {row : Order}

theorem knowsOrders_updateOrder {s : Store} (h : svc.KnowsOrders s)
    (hrow : row.status.isPending → svc.Knows row) : svc.KnowsOrders (s.updateOrder row) := by
  cases hget : s.orders.get? row.orderId with
  | none =>
    have hsame : s.updateOrder row = s := by rw [Store.updateOrder, hget]
    rw [hsame]
    exact h
  | some old => exact h.upsert (Store.updateOrder_orders hget) hrow

/-! ## rules -/

open Service Repository

variable (svc)

theorem unwatched : (discipline svc).Unwatched := by
  intro i w w' hholder horders htrades hpositions _
  refine .single ⟨.of_eq hholder, fun hknown => ?_, fun key _ => ?_, fun key hholds hfreed => ?_⟩
  · rw [KnowsOrders, horders]
    exact hknown
  · rw [Store.getPosition, Store.tradesFor, hpositions, htrades]
    exact ⟨rfl, rfl⟩
  · rw [hholder] at hfreed
    exact absurd hholds hfreed

theorem stable_out : (discipline svc).unconditional.Stable i (Out svc i) :=
  .of_steps (fun _ _ _ h => h) fun _ _ _ hij hstep hout => hstep.out hij hout

theorem stable_held : (discipline svc).unconditional.Stable i (Held svc i scope) :=
  .of_steps (fun _ _ _ h => h) fun _ _ _ hij hstep hheld => hstep.heldBut hij hheld

theorem stable_seen {key : PositionKey} :
    (discipline svc).unconditional.Stable i (Seen svc i key existing) :=
  .of_steps (fun _ _ _ h => h) fun _ _ _ hij hstep hseen => hstep.seen hij hseen

theorem stable_ready : (discipline svc).unconditional.Stable i (Ready svc i order existing) :=
  .of_steps (fun _ _ _ h => h) fun _ _ _ hij hstep hready => hstep.ready hij hready

theorem stable_traded :
    (discipline svc).unconditional.Stable i (Traded svc i order price existing) :=
  .of_steps (fun _ _ _ h => h) fun _ _ _ hij hstep htraded => hstep.traded hij htraded

theorem held_updateOrder (hheld : Held svc i scope w)
    (hrow : row.status.isPending → svc.Knows row) :
    guar svc i w (w.act fun s => s.updateOrder row) ∧ Held svc i scope (w.act fun s => s.updateOrder row) :=
  heldBut_orders hheld (fun hknown => knowsOrders_updateOrder hknown hrow)
    (Store.updateOrder_positions _ row) (Store.updateOrder_trades _ row)

theorem held_insertOrder (hheld : Held svc i scope w) (order : Order)
    (horder : order.status.isPending → svc.Knows order) :
    guar svc i w (w.act fun s => (s.insertOrder order).2) ∧
      Held svc i scope (w.act fun s => (s.insertOrder order).2) := by
  refine heldBut_orders hheld (fun hknown => ?_) rfl rfl
  have hrow : (order.withId w.store.clock).status.isPending →
      svc.Knows (order.withId w.store.clock) := horder
  exact hknown.upsert rfl hrow

theorem getPosition_updateOrder (s : Store) (row : Order) (key : PositionKey) :
    (s.updateOrder row).getPosition key = s.getPosition key := by
  rw [Store.getPosition, Store.updateOrder_positions]
  rfl

theorem rewrite {label : Label} (row : Order) (hkey : row.key = order.key)
    (hknows : svc.Knows order → svc.Knows row) :
    Triple (discipline svc).unconditional i (Ready svc i order existing) (updateOrder label row)
      fun stored w => stored = row ∧ Ready svc i row existing w := by
  refine .call (stable_ready svc) (fun _ => (stable_const _).and (stable_ready svc))
    fun w hready _ => ?_
  obtain ⟨hheld, hexisting, hknown⟩ := hready
  have hscope : row.scope = order.scope := congrArg PositionKey.scope hkey
  obtain ⟨hguar, hheld'⟩ := held_updateOrder svc hheld fun _ => hknows hknown
  refine ⟨hguar, rfl, ?_, ?_, hknows hknown⟩
  · rw [hscope]
    exact hheld'
  · rw [World.act_store, hkey]
    exact (getPosition_updateOrder _ row _).trans hexisting

theorem trade (order : Order) (existing : Option Position) (price : ℚ) :
    Triple (discipline svc).unconditional i (Ready svc i order existing)
      (insertTrade (.trade order) (order.trade price)) fun _ => Traded svc i order price existing := by
  refine .call (stable_ready svc) (fun _ => stable_traded svc) fun w hready _ => ?_
  obtain ⟨hheld, hexisting, -⟩ := hready
  have htrades : ∀ key, key ≠ order.key →
      (w.store.insertTrade (order.trade price)).2.tradesFor key = w.store.tradesFor key := by
    intro key hne
    have hkey : (order.trade price).key ≠ key := fun heq => hne heq.symm
    rw [Store.tradesFor_insertTrade, if_neg hkey, append_nil]
  have hact : guar svc i w (w.act fun s => (s.insertTrade (order.trade price)).2) ∧
      HeldBut svc i order.scope (· = order.key)
        (w.act fun s => (s.insertTrade (order.trade price)).2) :=
    heldBut_act hheld (fun hknown => hknown)
      (fun key hkey => ⟨rfl, htrades key fun heq => hkey (by rw [heq]; rfl)⟩)
      (fun key hkey hne => (hheld.booked key hkey id).of_same rfl (htrades key hne))
  refine ⟨hact.1, hact.2, w.store.clock, ?_⟩
  have hown : (order.trade price).key = order.key := rfl
  have hbooked : BookedAt svc w.store order.key := hheld.booked order.key rfl id
  rw [BookedAt, hexisting] at hbooked
  rw [World.act_store, Store.replayed, Store.tradesFor_insertTrade, if_pos hown, foldl_append,
    foldl_cons, foldl_nil]
  exact (books_afterTrade svc hbooked _).symm

variable {instrument : Instrument} {request : Request}

theorem follow (hknows : svc.Knows order)
    (hinstrument : svc.getInstrument order.exchange order.tradingsymbol = some instrument)
    (hdescribes : request.Describes order) :
    Triple (discipline svc).unconditional i (Traded svc i order price existing)
      (upsertPosition .plain ((svc.fillPlan order request instrument price existing).position.settled
        order (svc.fillPlan order request instrument price existing).margin price))
      fun _ => Held svc i order.scope := by
  refine .call (stable_traded svc) (fun _ => stable_held svc) fun w htraded _ => ?_
  obtain ⟨hheld, id, hbooks⟩ := htraded
  have htoken : instrument.instrumentToken = order.instrumentToken := by
    obtain ⟨other, hother, htoken⟩ := hknows
    rw [hinstrument, some.injEq] at hother
    rw [hother, htoken]
  have hkey : ((svc.fillPlan order request instrument price existing).position.settled order
      (svc.fillPlan order request instrument price existing).margin price).key = order.key := by
    rw [fillPlan_of_describes svc hdescribes]
    exact congrArg (fun token => PositionKey.mk order.scope token order.product) htoken
  rw [books_settled svc hdescribes hinstrument id] at hbooks
  refine heldBut_act hheld (fun hknown => hknown) (fun key hne => ⟨?_, rfl⟩) fun key hscope _ => ?_
  · rw [Store.getPosition_upsertPosition, hkey, if_neg]
    exact fun heq => hne (by rw [← heq]; rfl)
  · by_cases hown : key = order.key
    · rw [BookedAt, Store.getPosition_upsertPosition, hkey, if_pos hown.symm, hown]
      exact hbooks.symm
    · refine (hheld.booked key hscope hown).of_same ?_ rfl
      rw [Store.getPosition_upsertPosition, hkey, if_neg fun heq => hown heq.symm]

theorem record (order : Order) (existing : Option Position) (price : ℚ)
    (hinstrument : svc.getInstrument order.exchange order.tradingsymbol = some instrument)
    (hdescribes : request.Describes order) :
    Triple (discipline svc).unconditional i (Ready svc i order existing)
      (recordFill order price (svc.fillPlan order request instrument price existing))
      fun _ => Held svc i order.scope := by
  intro w hready
  have hknows : svc.Knows order := hready.2.2
  refine (Triple.bind (rewrite svc _ rfl fun hknown => hknown) fun completed => ?_) w hready
  refine .bind (.pre (fun w hw => hw.2) (trade svc order existing price)) fun trade => ?_
  refine .bind (.neutral (stable_traded svc) ((unwatched svc).neutral_attributeLots order
    trade.tradeId price)) fun _ => ?_
  exact .bind (follow svc hknows hinstrument hdescribes) fun _ => .ret (stable_held svc)

theorem book (order : Order) (existing : Option Position) (hknows : svc.Knows order) :
    Triple (discipline svc).unconditional i (Seen svc i order.key existing) (insertOrder order)
      fun stored w => (∃ id, stored = order.withId id) ∧ Ready svc i stored existing w := by
  refine .call (stable_seen svc) (fun _ => (stable_const _).and (stable_ready svc))
    fun w hseen _ => ?_
  obtain ⟨hguar, hheld⟩ := held_insertOrder svc hseen.1 order fun _ => hknows
  exact ⟨hguar, ⟨w.store.clock, rfl⟩, hheld, hseen.2, hknows⟩

theorem list (token : Int) :
    Triple (discipline svc).protocol i (Out svc i) (listPendingOrdersForInstrument token)
      fun orders w => Out svc i w ∧ ∀ order ∈ orders, svc.Knows order := by
  refine .call (stable_out svc) (fun _ => (stable_out svc).and (stable_const _))
    fun w hout _ => ⟨.refl, hout, fun order horder => ?_⟩
  obtain ⟨hrow, hpending, -⟩ := Store.mem_listPendingOrdersForInstrument horder
  exact hout.2.known _ order hrow hpending

theorem stopListed (order : Order) :
    Triple (discipline svc).protocol i (fun w => Out svc i w ∧ svc.Knows order)
      (updateOrder (.stopState order) order.stopped)
      fun stored w => stored = order.stopped ∧ Out svc i w ∧ svc.Knows stored := by
  refine .call ((stable_out svc).and (stable_const _)) (fun _ => (stable_const _).and
    ((stable_out svc).and (stable_const _))) fun w hw _ => ?_
  obtain ⟨hout, hknows⟩ := hw
  have hstep : Step svc i w (w.act fun s => s.updateOrder order.stopped) := by
    refine .act (fun hknown => knowsOrders_updateOrder hknown fun _ => hknows) fun key _ => ?_
    rw [getPosition_updateOrder, Store.tradesFor, Store.updateOrder_trades]
    exact ⟨rfl, rfl⟩
  exact ⟨.single hstep, rfl, ⟨hout.1, hstep.settled hout.2⟩, hknows⟩

theorem lookListed (order : Order) :
    Triple (discipline svc).protocol i (fun w => Held svc i order.scope w ∧ svc.Knows order)
      (getPosition (.fillListed order) order.key)
      fun existing w => Held svc i order.scope w ∧
        (svc.getInstrument order.exchange order.tradingsymbol ≠ none → Ready svc i order existing w) := by
  have hstable : ∀ existing, (discipline svc).protocol.Stable i fun w => Held svc i order.scope w ∧
      (svc.getInstrument order.exchange order.tradingsymbol ≠ none → Ready svc i order existing w) :=
    fun existing j w w' hij hguar hw => ⟨stable_held svc j w w' hij hguar hw.1,
      fun hknown => stable_ready svc j w w' hij hguar (hw.2 hknown)⟩
  exact .call ((stable_held svc).and (stable_const _)) hstable fun w hw _ =>
    ⟨.refl, hw.1, fun _ => ⟨hw.1, rfl, hw.2⟩⟩

theorem look (key : PositionKey) :
    Triple (discipline svc).unconditional i (Held svc i key.scope) (getPosition .plain key)
      fun existing => Seen svc i key existing :=
  .call (stable_held svc) (fun _ => stable_seen svc) fun _ hheld _ => ⟨.refl, hheld, rfl⟩

theorem mark (position : Position) (price : ℚ) :
    Triple (discipline svc).protocol i (Held svc i position.scope)
      (upsertPosition (.mark position) (position.marked price))
      fun _ => Held svc i position.scope := by
  refine .call (stable_held svc) (fun _ => stable_held svc) fun w hheld hcurrent => ?_
  have hkey : (position.marked price).key = position.key := rfl
  refine heldBut_act hheld (fun hknown => hknown) (fun key hne => ⟨?_, rfl⟩) fun key hscope _ => ?_
  · rw [Store.getPosition_upsertPosition, hkey, if_neg]
    exact fun heq => hne (by rw [← heq]; rfl)
  · have hbooked := hheld.booked key hscope id
    by_cases hown : position.key = key
    · obtain ⟨stored, hstored, hsame⟩ := map_eq_some_iff.mp hcurrent
      rw [hown] at hstored
      rw [BookedAt, Store.getPosition_upsertPosition, hkey, if_pos hown]
      rw [BookedAt, hstored, map_some, books_eq_of_unmarked hsame] at hbooked
      exact hbooked
    · refine hbooked.of_same ?_ rfl
      rw [Store.getPosition_upsertPosition, hkey, if_neg hown]

theorem take (hout : Out svc i w) (hfree : w.holder scope = none) :
    guar svc i w (w.take scope i) ∧ Held svc i scope (w.take scope i) := by
  have hstep : Step svc i w (w.take scope i) := by
    refine ⟨World.ownLocks_take hfree, id, fun _ _ => ⟨rfl, rfl⟩, fun key hholder _ => ?_⟩
    exact absurd hholder (hout.1 key.scope)
  refine ⟨.single hstep, hout.1.holds_take scope, hstep.settled hout.2, fun key hkey _ => ?_⟩
  exact hout.2.booked key (by rw [hkey]; exact hfree)

theorem drop (hheld : Held svc i scope w) :
    guar svc i w (w.drop scope) ∧ Out svc i (w.drop scope) := by
  have hstep : Step svc i w (w.drop scope) := by
    refine ⟨hheld.holds.ownLocks_drop, id, fun _ _ => ⟨rfl, rfl⟩, fun key hholder _ => ?_⟩
    exact hheld.booked key (hheld.holds.2 key.scope hholder) id
  exact ⟨.single hstep, hheld.holds.idle_drop, hstep.settled hheld.settled⟩

theorem rules : (discipline svc).Rules svc where
  closed i w w' h := by
    induction h with
    | refl => exact .refl
    | tail _ hguar ih => exact ih.trans hguar
  unwatched := unwatched svc
  stable_out _ := stable_out svc
  stable_held _ _ := stable_held svc
  stable_seen _ _ _ := stable_seen svc
  stable_ready _ _ _ := stable_ready svc
  listed_kept _ _ _ _ _ h := h
  take _ _ _ hout hfree := take svc hout hfree
  drop _ _ _ hheld := drop svc hheld
  held_of_seen _ _ _ _ h := h.1
  turnDown i scope order hstatus := by
    refine .call (stable_held svc) (fun _ => stable_held svc) fun w hheld _ =>
      held_insertOrder svc hheld _ fun hpending => ?_
    rw [hstatus] at hpending
    simp [OrderStatus.isPending] at hpending
  look _ key := look svc key
  book _ order existing _ hknows := book svc order existing hknows
  stop _ order existing := by
    refine .post (fun stored w hw => ?_) (rewrite svc order.stopped rfl fun hknown => hknown)
    obtain ⟨rfl, hready⟩ := hw
    exact ⟨rfl, hready⟩
  await _ order existing := .post (fun _ _ hw => hw.2.1)
    (rewrite svc order.opened rfl fun hknown => hknown)
  refuse _ order existing := .post (fun _ _ hw => ⟨hw.1, hw.2.1⟩)
    (rewrite svc order.refused rfl fun hknown => hknown)
  record _ order existing _ _ price hinstrument hdescribes :=
    record svc order existing price hinstrument hdescribes
  list _ token := list svc token
  stopListed _ order := stopListed svc order
  lookListed _ order := lookListed svc order
  mark _ position price := mark svc position price

end MarkToMarket

/-! ## schedules -/

/-- Only `unrealized_pnl`, `last_price` and `updated_at` of positions differ. -/
structure OnlyMarked (s s' : Store) : Prop where
  positions : ∀ key, (s'.getPosition key).map Position.unmarked = (s.getPosition key).map Position.unmarked
  rest : s' = { s with positions := s'.positions, clock := s'.clock }

theorem onlyMarked_markToMarket {tick : Tick} {position : Position} {s : Store}
    (hcurrent : MarksCurrent (.mark position) s) :
    OnlyMarked s ((Service.markToMarket tick position).run s).2 := by
  unfold Service.markToMarket
  split
  · exact ⟨fun _ => rfl, rfl⟩
  · refine ⟨fun key => ?_, rfl⟩
    show ((s.upsertPosition (position.marked tick.snapshot.last)).getPosition key).map
      Position.unmarked = (s.getPosition key).map Position.unmarked
    have hkey : (position.marked tick.snapshot.last).key = position.key := rfl
    rw [Store.getPosition_upsertPosition, hkey]
    split
    · next hown =>
      rw [← hown]
      exact hcurrent.symm
    · rfl

theorem Store.Fresh.settled {s : Store} (h : s.Fresh) (svc : Service) :
    MarkToMarket.Settled svc (idle s : Config Scope Label Store Reply).world := by
  refine ⟨h.knowsOrders svc, fun key _ => ?_⟩
  show (s.getPosition key).map Position.books = (s.replayed svc key).map Position.books
  rw [Store.getPosition, Keyed.get?, h.positions, Store.replayed, Store.tradesFor, h.trades]
  rfl

instance (label : Label) (s : Store) : Decidable (MarksCurrent label s) := by
  unfold MarksCurrent
  split <;> infer_instance

def demoBought : List (Event Call) :=
  .start (.placeOrder demoScope (demoOrder "BUY" 10) [] (demoMarket 100)) :: List.replicate 13 (.step 0)

def demoRise : Call := .processTick ⟨408065, demoMarket 110 408065⟩

/-- The tick lists the position, five more are bought, and the tick writes back what it listed. -/
def demoLost : List (Event Call) :=
  demoBought ++ [Event.start demoRise, .step 1, .step 1,
    .start (.placeOrder demoScope (demoOrder "BUY" 5) [] (demoMarket 100))] ++
    List.replicate 13 (Event.step 2) ++ List.replicate 3 (Event.step 1)

end KiteAlgo.Paper
