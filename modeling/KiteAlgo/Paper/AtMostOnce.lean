import KiteAlgo.Paper.Discipline

/-!
# KiteAlgo.Paper.AtMostOnce

An order fills at most once, whatever the interleaving.

A tick lists the open orders before it takes a lock and fills what it has listed, so two
ticks that list one order fill it twice.  In schedules where a tick finds what it listed
still waiting (`StillWaiting`), every step keeps `Recorded`: an order has no trade, or one
trade of its quantity and a row that is filled.
-/

namespace KiteAlgo.Paper

open List Option Config Keyed
/-! ## orders and their trades -/

def OrderStatus.isSettled : OrderStatus → Bool
  | .filled | .rejected => true
  | _ => false

namespace Store

variable (s : Store)

def tradesOf (id : Nat) : List Trade := s.trades.filter fun trade => trade.orderId = id

def awaits (id : Nat) : Bool := (s.orders.get? id).any fun row => row.status.isPending

end Store

/-- No order has two trades, or trades for more than it asks. -/
structure FilledOnce (s : Store) : Prop where
  once : ∀ id, (s.tradesOf id).length ≤ 1
  quantity : ∀ id row, s.orders.get? id = some row → ((s.tradesOf id).map Trade.quantity).sum ≤ row.quantity

/-- The filled orders have a trade each, and identifiers are drawn in order. -/
structure Recorded (s : Store) : Prop where
  drawn : ∀ id row, s.orders.get? id = some row → id < s.clock
  traded : ∀ id, s.tradesOf id = [] ∨ ∃ row trade, s.orders.get? id = some row ∧
    row.status = .filled ∧ s.tradesOf id = [trade] ∧ trade.quantity = row.quantity

namespace Recorded

variable {s s' : Store}

theorem filledOnce (h : Recorded s) : FilledOnce s := by
  refine ⟨fun id => ?_, fun id row hrow => ?_⟩
  · rcases h.traded id with hnone | ⟨row, trade, -, -, hone, -⟩
    · simp [hnone]
    · simp [hone]
  · rcases h.traded id with hnone | ⟨stored, trade, hstored, -, hone, hquantity⟩
    · simp [hnone, row.quantity_pos.le]
    · rw [hrow, some.injEq] at hstored
      simp [hone, hquantity, hstored]

theorem tradesOf_of_pending (h : Recorded s) {id : Nat} {row : Order}
    (hrow : s.orders.get? id = some row) (hpending : row.status.isPending) :
    s.tradesOf id = [] := by
  rcases h.traded id with hnone | ⟨stored, trade, hstored, hfilled, -, -⟩
  · exact hnone
  · rw [hrow, some.injEq] at hstored
    rw [hstored, hfilled] at hpending
    simp [OrderStatus.isPending] at hpending

theorem of_same (h : Recorded s) (horders : s'.orders = s.orders) (htrades : s'.trades = s.trades)
    (hclock : s.clock ≤ s'.clock) : Recorded s' := by
  refine ⟨fun id row hrow => ?_, fun id => ?_⟩
  · rw [horders] at hrow
    exact Nat.lt_of_lt_of_le (h.drawn id row hrow) hclock
  · rw [Store.tradesOf, htrades, horders]
    exact h.traded id

theorem insertOrder (h : Recorded s) (order : Order) : Recorded (s.insertOrder order).2 := by
  refine ⟨fun id row hrow => ?_, fun id => ?_⟩
  · simp only [Store.insertOrder, get?_upsert] at hrow ⊢
    split at hrow
    · next hid =>
      have hclock : s.clock = id := hid
      omega
    · have hlt := h.drawn id row hrow
      omega
  · have hne : ∀ row, s.orders.get? id = some row → (order.withId s.clock).orderId ≠ id := by
      intro row hrow heq
      have hlt := h.drawn id row hrow
      have hclock : s.clock = id := heq
      omega
    rcases h.traded id with hnone | ⟨row, trade, hrow, hrest⟩
    · exact .inl hnone
    · refine .inr ⟨row, trade, ?_, hrest⟩
      rw [← hrow]
      exact get?_upsert_of_ne (hne row hrow) s.orders

theorem updateOrder (h : Recorded s) {row old : Order} (hrow : s.orders.get? row.orderId = some old)
    (hquantity : row.quantity = old.quantity)
    (hstatus : old.status.isSettled → row.status = old.status) :
    Recorded (s.updateOrder row) := by
  have horders := Store.updateOrder_orders hrow
  refine ⟨fun id other hother => ?_, fun id => ?_⟩
  · rw [Store.updateOrder_clock]
    rw [horders, get?_upsert] at hother
    split at hother
    · next hid => exact hid ▸ h.drawn _ _ hrow
    · exact h.drawn id other hother
  · have hsame : (s.updateOrder row).tradesOf id = s.tradesOf id := by
      rw [Store.tradesOf, Store.updateOrder_trades]
      rfl
    rw [hsame, horders, get?_upsert]
    rcases h.traded id with hnone | ⟨stored, trade, hstored, hfilled, hone, heq⟩
    · exact .inl hnone
    · split
      · next hid =>
        rw [← hid, hrow, some.injEq] at hstored
        subst hstored
        refine .inr ⟨row, trade, rfl, ?_, hone, heq.trans hquantity.symm⟩
        rw [hstatus (by rw [hfilled]; rfl), hfilled]
      · exact .inr ⟨stored, trade, hstored, hfilled, hone, heq⟩

theorem tradesOf_insertTrade (s : Store) (trade : Trade) (id : Nat) :
    (s.insertTrade trade).2.tradesOf id =
      s.tradesOf id ++ if trade.orderId = id then [{ trade with tradeId := s.clock }] else [] := by
  simp only [Store.tradesOf, Store.insertTrade, filter_append, filter_cons,
    filter_nil, decide_eq_true_eq]

theorem insertTrade (h : Recorded s) {trade : Trade} {row : Order}
    (hrow : s.orders.get? trade.orderId = some row) (hfilled : row.status = .filled)
    (hquantity : trade.quantity = row.quantity) (hnone : s.tradesOf trade.orderId = []) :
    Recorded (s.insertTrade trade).2 := by
  refine ⟨fun id other hother => Nat.lt_succ_of_lt (h.drawn id other hother), fun id => ?_⟩
  rw [tradesOf_insertTrade]
  split
  · next hid =>
    subst hid
    rw [hnone]
    exact .inr ⟨row, _, hrow, hfilled, rfl, hquantity⟩
  · rw [append_nil]
    exact h.traded id

end Recorded

/-! ## steps -/

namespace AtMostOnce

/-- What a step of thread `i` may do: settle orders and insert trades of the accounts it has
locked only, and never change the status of a settled order. -/
structure Step (i : Nat) (w w' : World Scope Store) : Prop where
  locks : World.OwnLocks i w w'
  recorded : Recorded w.store → Recorded w'.store
  rows : ∀ id row, w.store.orders.get? id = some row → ∃ row', w'.store.orders.get? id = some row' ∧
    row'.scope = row.scope ∧ row'.quantity = row.quantity ∧
    (row.status.isSettled = true → row'.status = row.status) ∧
    (row.status.isPending = true → row'.status.isPending = true ∨ w.holder row.scope = some i)
  trades : ∀ id row, w.store.orders.get? id = some row → w.holder row.scope ≠ some i →
    w'.store.tradesOf id = w.store.tradesOf id

variable {i : Nat} {w w' : World Scope Store}

theorem Step.of_same (hlocks : World.OwnLocks i w w') (horders : w'.store.orders = w.store.orders)
    (htrades : w'.store.trades = w.store.trades) (hclock : w.store.clock ≤ w'.store.clock) :
    Step i w w' where
  locks := hlocks
  recorded h := h.of_same horders htrades hclock
  rows id row hrow := ⟨row, by rw [horders, hrow], rfl, rfl, fun _ => rfl, .inl⟩
  trades id row _ _ := by rw [Store.tradesOf, htrades]; rfl

theorem Step.insertOrder (h : Recorded w.store) (order : Order) :
    Step i w (w.act fun s => (s.insertOrder order).2) where
  locks := .of_eq rfl
  recorded h := h.insertOrder order
  rows id row hrow := by
    have hne : (order.withId w.store.clock).orderId ≠ id := by
      intro heq
      have hlt := h.drawn id row hrow
      have hclock : w.store.clock = id := heq
      omega
    refine ⟨row, ?_, rfl, rfl, fun _ => rfl, .inl⟩
    rw [← hrow]
    exact get?_upsert_of_ne hne w.store.orders
  trades id row _ _ := rfl

theorem Step.updateOrder {row old : Order} (hrow : w.store.orders.get? row.orderId = some old)
    (hscope : row.scope = old.scope) (hquantity : row.quantity = old.quantity)
    (hsettled : old.status.isSettled → row.status = old.status)
    (hpending : old.status.isPending → row.status.isPending ∨ w.holder old.scope = some i) :
    Step i w (w.act fun s => s.updateOrder row) where
  locks := .of_eq rfl
  recorded h := h.updateOrder hrow hquantity hsettled
  rows id other hother := by
    rw [World.act_store, Store.updateOrder_orders hrow, get?_upsert]
    split
    · next hid =>
      rw [← hid, hrow, some.injEq] at hother
      subst hother
      exact ⟨row, rfl, hscope, hquantity, hsettled, hpending⟩
    · exact ⟨other, hother, rfl, rfl, fun _ => rfl, .inl⟩
  trades id other _ _ := by
    rw [World.act_store, Store.tradesOf, Store.updateOrder_trades]
    rfl

theorem Step.insertTrade (trade : Trade) {row : Order}
    (hrow : w.store.orders.get? trade.orderId = some row) (hfilled : row.status = .filled)
    (hquantity : trade.quantity = row.quantity) (hnone : w.store.tradesOf trade.orderId = [])
    (hholder : w.holder row.scope = some i) :
    Step i w (w.act fun s => (s.insertTrade trade).2) where
  locks := .of_eq rfl
  recorded h := h.insertTrade hrow hfilled hquantity hnone
  rows id row hrow := ⟨row, hrow, rfl, rfl, fun _ => rfl, .inl⟩
  trades id other hother hfree := by
    rw [World.act_store, Recorded.tradesOf_insertTrade, if_neg, append_nil]
    intro hid
    rw [hid, hother, some.injEq] at hrow
    rw [hrow] at hfree
    exact hfree hholder

def guar (i : Nat) : World Scope Store → World Scope Store → Prop :=
  Relation.ReflTransGen (Step i)

theorem guar_recorded (h : guar i w w') (hrecorded : Recorded w.store) : Recorded w'.store := by
  induction h with
  | refl => exact hrecorded
  | tail _ hstep ih => exact hstep.recorded ih

variable {id : Nat} {status : OrderStatus}

theorem Step.settled (hstep : Step i w w') (hsettled : status.isSettled)
    (h : ∃ row, w.store.orders.get? id = some row ∧ row.status = status) :
    ∃ row, w'.store.orders.get? id = some row ∧ row.status = status := by
  obtain ⟨row, hrow, hstatus⟩ := h
  obtain ⟨row', hrow', -, -, hkept, -⟩ := hstep.rows id row hrow
  exact ⟨row', hrow', (hkept (by rw [hstatus]; exact hsettled)).trans hstatus⟩

theorem settled_kept (h : Relation.ReflTransGen (fun w w' => ∃ i, guar i w w') w w')
    (hsettled : status.isSettled)
    (hrow : ∃ row, w.store.orders.get? id = some row ∧ row.status = status) :
    ∃ row, w'.store.orders.get? id = some row ∧ row.status = status := by
  induction h with
  | refl => exact hrow
  | tail _ hguar ih =>
    obtain ⟨i, hsteps⟩ := hguar
    induction hsteps with
    | refl => exact ih
    | tail _ hstep ih => exact hstep.settled hsettled ih

/-! ## the assertions -/

/-- The order is stored as it was listed, but for its status. -/
def Stored (order : Order) (s : Store) : Prop :=
  ∃ row, s.orders.get? order.orderId = some row ∧ row.scope = order.scope ∧ row.quantity = order.quantity

def Awaits (order : Order) (s : Store) : Prop :=
  ∃ row, s.orders.get? order.orderId = some row ∧ row.scope = order.scope ∧
    row.quantity = order.quantity ∧ row.status.isPending = true

/-- The order is completed and has no trade yet. -/
def Completed (order : Order) (s : Store) : Prop :=
  (∃ row, s.orders.get? order.orderId = some row ∧ row.scope = order.scope ∧
    row.quantity = order.quantity ∧ row.status = .filled) ∧ s.tradesOf order.orderId = []

end AtMostOnce

/-- A tick that writes the stop state of an order it has listed, or that is about to fill
one, finds that the order still waits. -/
def StillWaiting (svc : Service) : Label → Store → Prop
  | .stopState order, s => s.awaits order.orderId = true
  | .fillListed order, s =>
    svc.getInstrument order.exchange order.tradingsymbol ≠ none → s.awaits order.orderId = true
  | _, _ => True

namespace AtMostOnce

variable {i : Nat} {w w' : World Scope Store}

def Out (i : Nat) (w : World Scope Store) : Prop := w.Idle i ∧ Recorded w.store

def Held (i : Nat) (scope : Scope) (w : World Scope Store) : Prop :=
  w.Holds i scope ∧ Recorded w.store

def Ready (i : Nat) (order : Order) (w : World Scope Store) : Prop :=
  Held i order.scope w ∧ order.status.isPending = true ∧ Awaits order w.store

def Listed (order : Order) (w : World Scope Store) : Prop :=
  order.status.isPending = true ∧ Stored order w.store

def discipline (svc : Service) : Discipline where
  guar := guar
  cond := StillWaiting svc
  out := Out
  held := Held
  seen i key _ := Held i key.scope
  ready i order _ := Ready i order
  listed := Listed

section Stable

variable {j : Nat}

theorem Step.out (h : Step j w w') (hij : j ≠ i) (hout : Out i w) : Out i w' :=
  ⟨h.locks.idle hij.symm hout.1, h.recorded hout.2⟩

theorem Step.held (h : Step j w w') (hij : j ≠ i) {scope : Scope} (hheld : Held i scope w) :
    Held i scope w' :=
  ⟨h.locks.holds hij.symm hheld.1, h.recorded hheld.2⟩

variable {order : Order}

theorem Step.listed (h : Step j w w') (hlisted : Listed order w) : Listed order w' := by
  obtain ⟨hpending, row, hrow, hscope, hquantity⟩ := hlisted
  obtain ⟨row', hrow', hscope', hquantity', -⟩ := h.rows _ row hrow
  exact ⟨hpending, row', hrow', hscope'.trans hscope, hquantity'.trans hquantity⟩

theorem Step.ready (h : Step j w w') (hij : j ≠ i) (hready : Ready i order w) :
    Ready i order w' := by
  obtain ⟨hheld, hpending, row, hrow, hscope, hquantity, hwaits⟩ := hready
  obtain ⟨row', hrow', hscope', hquantity', -, hkept⟩ := h.rows _ row hrow
  refine ⟨h.held hij hheld, hpending, row', hrow', hscope'.trans hscope, hquantity'.trans hquantity, ?_⟩
  rcases hkept hwaits with hstill | hholder
  · exact hstill
  · rw [hscope, hheld.1.1, some.injEq] at hholder
    exact absurd hholder.symm hij

theorem Step.completed (h : Step j w w') (hij : j ≠ i)
    (hcompleted : Held i order.scope w ∧ Completed order w.store) :
    Held i order.scope w' ∧ Completed order w'.store := by
  obtain ⟨hheld, ⟨row, hrow, hscope, hquantity, hfilled⟩, hnone⟩ := hcompleted
  obtain ⟨row', hrow', hscope', hquantity', hkept, -⟩ := h.rows _ row hrow
  refine ⟨h.held hij hheld, ⟨row', hrow', hscope'.trans hscope, hquantity'.trans hquantity, ?_⟩, ?_⟩
  · rw [hkept (by rw [hfilled]; rfl), hfilled]
  · rw [h.trades _ row hrow, hnone]
    rw [hscope, hheld.1.1, Ne, some.injEq]
    exact fun heq => hij heq.symm

end Stable

/-! ## rules -/

open Service Repository

variable (svc : Service)

theorem unwatched : (discipline svc).Unwatched := fun _ _ _ hholder horders htrades _ hclock =>
  .single (.of_same (.of_eq hholder) horders htrades hclock)

theorem stable_out : (discipline svc).unconditional.Stable i (Out i) :=
  .of_steps (fun _ _ _ h => h) fun _ _ _ hij hstep hout => hstep.out hij hout

variable {scope : Scope}

theorem stable_held : (discipline svc).unconditional.Stable i (Held i scope) :=
  .of_steps (fun _ _ _ h => h) fun _ _ _ hij hstep hheld => hstep.held hij hheld

variable {order : Order}

theorem stable_ready : (discipline svc).unconditional.Stable i (Ready i order) :=
  .of_steps (fun _ _ _ h => h) fun _ _ _ hij hstep hready => hstep.ready hij hready

theorem stable_completed : (discipline svc).unconditional.Stable i
    fun w => Held i order.scope w ∧ Completed order w.store :=
  .of_steps (fun _ _ _ h => h) fun _ _ _ hij hstep hcompleted => hstep.completed hij hcompleted

theorem listed_kept (h : guar i w w') (hlisted : Listed order w) : Listed order w' := by
  induction h with
  | refl => exact hlisted
  | tail _ hstep ih => exact hstep.listed ih

theorem stable_listed : (discipline svc).unconditional.Stable i (Listed order) :=
  fun _ _ _ _ hguar => listed_kept hguar

theorem held_act {f : Store → Store} (hheld : Held i scope w) (hstep : Step i w (w.act f)) :
    guar i w (w.act f) ∧ Held i scope (w.act f) :=
  ⟨.single hstep, hheld.1.of_eq rfl, hstep.recorded hheld.2⟩

theorem ready_act (row : Order) (hready : Ready i order w) (hid : row.orderId = order.orderId)
    (hscope : row.scope = order.scope) (hquantity : row.quantity = order.quantity) :
    (guar i w (w.act fun s => s.updateOrder row) ∧ Held i order.scope (w.act fun s => s.updateOrder row)) ∧
    (w.store.updateOrder row).orders.get? order.orderId = some row := by
  obtain ⟨hheld, -, old, hold, holdScope, holdQuantity, hwaits⟩ := hready
  rw [← hid] at hold
  have hsettled : old.status.isSettled → row.status = old.status := by
    intro hsettled
    revert hwaits hsettled
    cases old.status <;> simp [OrderStatus.isPending, OrderStatus.isSettled]
  refine ⟨held_act hheld (.updateOrder hold (hscope.trans holdScope.symm)
    (hquantity.trans holdQuantity.symm) hsettled fun _ => .inr ?_), ?_⟩
  · rw [holdScope]
    exact hheld.1.1
  · rw [Store.updateOrder_orders hold, ← hid]
    exact get?_upsert_self _ row

theorem stop (order : Order) :
    Triple (discipline svc).unconditional i (Ready i order) (updateOrder .plain order.stopped)
      fun stored w => stored = order.stopped ∧ Ready i stored w := by
  refine .call (stable_ready svc) (fun _ => (Protocol.stable_const _).and (stable_ready svc))
    fun w hready _ => ?_
  obtain ⟨⟨hguar, hheld⟩, hrow⟩ := ready_act order.stopped hready rfl rfl rfl
  exact ⟨hguar, rfl, hheld, hready.2.1, order.stopped, hrow, rfl, rfl, hready.2.1⟩

theorem settle {row : Order} (hid : row.orderId = order.orderId) (hscope : row.scope = order.scope)
    (hquantity : row.quantity = order.quantity) :
    Triple (discipline svc).unconditional i (Ready i order) (updateOrder .plain row)
      fun stored w => stored = row ∧ Held i order.scope w := by
  refine .call (stable_ready svc) (fun _ => (Protocol.stable_const _).and (stable_held svc))
    fun w hready _ => ?_
  obtain ⟨⟨hguar, hheld⟩, -⟩ := ready_act _ hready hid hscope hquantity
  exact ⟨hguar, rfl, hheld⟩

theorem complete (order : Order) (price : ℚ) :
    Triple (discipline svc).unconditional i (Ready i order)
      (updateOrder .plain (order.completed price))
      fun _ w => Held i order.scope w ∧ Completed order w.store := by
  refine .call (stable_ready svc) (fun _ => stable_completed svc) fun w hready _ => ?_
  obtain ⟨⟨hguar, hheld⟩, hrow⟩ := ready_act (order.completed price) hready rfl rfl rfl
  obtain ⟨hheld', -, old, hold, -, -, hwaits⟩ := hready
  refine ⟨hguar, hheld, ⟨order.completed price, hrow, rfl, rfl, rfl⟩, ?_⟩
  rw [World.act_store, Store.tradesOf, Store.updateOrder_trades]
  exact hheld'.2.tradesOf_of_pending hold hwaits

theorem trade (order : Order) (price : ℚ) :
    Triple (discipline svc).unconditional i
      (fun w => Held i order.scope w ∧ Completed order w.store)
      (insertTrade (.trade order) (order.trade price)) fun _ => Held i order.scope := by
  refine .call (stable_completed svc) (fun _ => stable_held svc) fun w hcompleted _ => ?_
  obtain ⟨hheld, ⟨row, hrow, hscope, hquantity, hfilled⟩, hnone⟩ := hcompleted
  refine held_act hheld (Step.insertTrade (order.trade price) hrow hfilled hquantity.symm
    hnone ?_)
  rw [hscope]
  exact hheld.1.1

theorem writePosition (label : Label) (position : Position) :
    Triple (discipline svc).unconditional i (Held i scope) (upsertPosition label position)
      fun _ => Held i scope :=
  .call (stable_held svc) (fun _ => stable_held svc) fun _ hheld _ =>
    held_act hheld (.of_same (.of_eq rfl) rfl rfl (Nat.le_succ _))

theorem record (order : Order) (price : ℚ) (plan : FillPlan) :
    Triple (discipline svc).unconditional i (Ready i order) (recordFill order price plan)
      fun _ => Held i order.scope := by
  refine .bind (complete svc order price) fun _ => ?_
  refine .bind (trade svc order price) fun trade => ?_
  refine .bind (.neutral (stable_held svc) ((unwatched svc).neutral_attributeLots order trade.tradeId
    price)) fun _ => ?_
  exact .bind (writePosition svc _ _) fun _ => .ret (stable_held svc)

theorem book (order : Order) (hstatus : order.status = .pending) :
    Triple (discipline svc).unconditional i (Held i order.scope) (insertOrder order)
      fun stored w => (∃ id, stored = order.withId id) ∧ Ready i stored w := by
  refine .call (stable_held svc) (fun _ => (Protocol.stable_const _).and (stable_ready svc))
    fun w hheld _ => ?_
  have hpending : (order.withId w.store.clock).status.isPending := by
    have hsame : (order.withId w.store.clock).status = .pending := hstatus
    rw [hsame]
    rfl
  obtain ⟨hguar, hheld'⟩ := held_act hheld (.insertOrder hheld.2 order)
  exact ⟨hguar, ⟨w.store.clock, rfl⟩, hheld', hpending, order.withId w.store.clock,
    get?_upsert_self w.store.orders _, rfl, rfl, hpending⟩

theorem list (token : Int) :
    Triple (discipline svc).protocol i (Out i) (listPendingOrdersForInstrument token)
      fun orders w => Out i w ∧ ∀ order ∈ orders, Listed order w := by
  refine .call (stable_out svc) (fun _ => (stable_out svc).and fun j w w' _ hguar hlisted order horder =>
    listed_kept hguar (hlisted order horder)) fun w hout _ => ?_
  refine ⟨.refl, hout, fun order horder => ?_⟩
  obtain ⟨hrow, hpending, -⟩ := Store.mem_listPendingOrdersForInstrument horder
  exact ⟨hpending, order, hrow, rfl, rfl⟩

theorem awaits_of_listed (hlisted : Listed order w) (hwaits : w.store.awaits order.orderId) :
    Awaits order w.store := by
  obtain ⟨-, row, hrow, hscope, hquantity⟩ := hlisted
  rw [Store.awaits, hrow, any_some] at hwaits
  exact ⟨row, hrow, hscope, hquantity, hwaits⟩

theorem stopListed (order : Order) :
    Triple (discipline svc).protocol i (fun w => Out i w ∧ Listed order w)
      (updateOrder (.stopState order) order.stopped)
      fun stored w => stored = order.stopped ∧ Out i w ∧ Listed stored w := by
  refine .call ((stable_out svc).and (stable_listed svc)) (fun _ => (Protocol.stable_const _).and
    ((stable_out svc).and (stable_listed svc))) fun w hw hcond => ?_
  obtain ⟨hout, hlisted⟩ := hw
  obtain ⟨row, hrow, hscope, hquantity, hwaits⟩ := awaits_of_listed hlisted hcond
  have hstep : Step i w (w.act fun s => s.updateOrder order.stopped) := by
    refine .updateOrder hrow hscope.symm hquantity.symm (fun hsettled => ?_) fun _ => .inl hlisted.1
    revert hwaits hsettled
    cases row.status <;> simp [OrderStatus.isPending, OrderStatus.isSettled]
  refine ⟨.single hstep, rfl, ⟨hout.1, hstep.recorded hout.2⟩, hlisted.1, order.stopped, ?_, rfl, rfl⟩
  have horders : (w.store.updateOrder order.stopped).orders = w.store.orders.upsert order.stopped :=
    Store.updateOrder_orders hrow
  rw [World.act_store, horders]
  exact get?_upsert_self _ order.stopped

theorem lookListed (order : Order) :
    Triple (discipline svc).protocol i (fun w => Held i order.scope w ∧ Listed order w)
      (getPosition (.fillListed order) order.key)
      fun _ w => Held i order.scope w ∧
        (svc.getInstrument order.exchange order.tradingsymbol ≠ none → Ready i order w) := by
  have hstable : (discipline svc).protocol.Stable i fun w => Held i order.scope w ∧
      (svc.getInstrument order.exchange order.tradingsymbol ≠ none → Ready i order w) :=
    fun j w w' hij hguar hw => ⟨stable_held svc j w w' hij hguar hw.1,
      fun hknown => stable_ready svc j w w' hij hguar (hw.2 hknown)⟩
  refine .call ((stable_held svc).and (stable_listed svc)) (fun _ => hstable) fun w hw hcond => ?_
  exact ⟨.refl, hw.1, fun hknown => ⟨hw.1, hw.2.1, awaits_of_listed hw.2 (hcond hknown)⟩⟩

theorem rules : (discipline svc).Rules svc where
  closed i w w' h := by
    induction h with
    | refl => exact .refl
    | tail _ hguar ih => exact ih.trans hguar
  unwatched := unwatched svc
  stable_out _ := stable_out svc
  stable_held _ _ := stable_held svc
  stable_seen _ _ _ := stable_held svc
  stable_ready _ _ _ := stable_ready svc
  listed_kept _ _ _ _ := listed_kept
  take i scope w hout hfree :=
    ⟨.single (.of_same (World.ownLocks_take hfree) rfl rfl (Nat.le_refl _)),
      hout.1.holds_take scope, hout.2⟩
  drop i scope w hheld :=
    ⟨.single (.of_same hheld.1.ownLocks_drop rfl rfl (Nat.le_refl _)), hheld.1.idle_drop, hheld.2⟩
  held_of_seen _ _ _ _ h := h
  turnDown i scope order _ := .call (stable_held svc) (fun _ => stable_held svc)
    fun _ hheld _ => held_act hheld (.insertOrder hheld.2 order)
  look i key := .neutral (stable_held svc) ((unwatched svc).neutral_read _ _)
  book i order _ hstatus _ := book svc order hstatus
  stop i order _ := stop svc order
  await i order _ := .post (fun _ _ hw => hw.2) (settle svc rfl rfl rfl)
  refuse i order _ := settle svc rfl rfl rfl
  record i order _ _ _ price _ _ := record svc order price _
  list i token := list svc token
  stopListed i order := stopListed svc order
  lookListed i order := lookListed svc order
  mark i position price := Discipline.Rules.conditional (writePosition svc _ _)

end AtMostOnce

/-! ## schedules -/

theorem Store.Fresh.recorded {s : Store} (h : s.Fresh) : Recorded s := by
  refine ⟨fun id row hrow => ?_, fun id => .inl ?_⟩
  · simp [get?, h.orders] at hrow
  · simp [Store.tradesOf, h.trades]

/-- In a schedule whose ticks find what they listed still waiting, no order has two trades
or trades for more than it asks, and a settled order keeps its status. -/
theorem fills_at_most_once (svc : Service) {s : Store} (hfresh : s.Fresh)
    {events later : List (Event Call)} {mid last : Config Scope Label Store Reply}
    (hmid : (Config.idle s).run svc.program events = some mid)
    (hlast : mid.run svc.program later = some last)
    (hmeets : (Config.idle s).MeetsAlong svc.program (StillWaiting svc) (events ++ later)) :
    FilledOnce mid.world.store ∧ FilledOnce last.world.store ∧
      ∀ id row, mid.world.store.orders.get? id = some row → row.status.isSettled = true →
        ∃ row', last.world.store.orders.get? id = some row' ∧ row'.status = row.status := by
  obtain ⟨hbefore, hafter⟩ := Config.meetsAlong_append hmeets hmid
  have hrules := AtMostOnce.rules svc
  have hentry : ∀ call i (w : World Scope Store), Recorded w.store → w.Idle i →
      (svc.program call).Safe (AtMostOnce.discipline svc).protocol i
        (fun _ w => AtMostOnce.Out i w) w :=
    fun call i w hrecorded hidle => hrules.safe call w ⟨hidle, hrecorded⟩
  have hinv : ∀ i (w w' : World Scope Store), (AtMostOnce.discipline svc).guar i w w' →
      Recorded w.store → Recorded w'.store := fun _ _ _ => AtMostOnce.guar_recorded
  obtain ⟨hsafe, hrecorded, -⟩ := Config.Safe.run hinv hentry (Config.idle_safe s)
    hfresh.recorded hmid hbefore
  obtain ⟨-, hrecorded', hsteps⟩ := Config.Safe.run hinv hentry hsafe hrecorded hlast hafter
  exact ⟨hrecorded.filledOnce, hrecorded'.filledOnce, fun id row hrow hsettled =>
    AtMostOnce.settled_kept hsteps hsettled ⟨row, hrow, rfl⟩⟩

instance (svc : Service) (label : Label) (s : Store) : Decidable (StillWaiting svc label s) := by
  unfold StillWaiting
  split <;> infer_instance

def demoPlaced : List (Event Call) :=
  .start (.placeOrder demoScope (demoOrder "BUY" 10 (some 90)) [] (demoMarket 100)) ::
    List.replicate 8 (.step 0)

def demoTick : Call := .processTick ⟨408065, demoMarket 85 408065⟩

def demoFilled : List (Event Call) := .start demoTick :: List.replicate 15 (.step 1)

theorem fills_at_most_once_demo :
    ∃ mid last : Config Scope Label Store Reply,
      (Config.idle demoStore).run demoService.program demoPlaced = some mid ∧
      mid.run demoService.program demoFilled = some last ∧ FilledOnce last.world.store := by
  have hmid : ((Config.idle demoStore).run demoService.program demoPlaced).isSome = true := by
    decide +kernel
  have hlast : (((Config.idle demoStore).run demoService.program demoPlaced).bind fun mid =>
      mid.run demoService.program demoFilled).isSome = true := by
    decide +kernel
  obtain ⟨mid, hmid⟩ := Option.isSome_iff_exists.mp hmid
  rw [hmid, Option.bind_some] at hlast
  obtain ⟨last, hlast⟩ := Option.isSome_iff_exists.mp hlast
  exact ⟨mid, last, hmid, hlast, (fills_at_most_once demoService fresh_demoStore hmid hlast
    (by decide +kernel)).2.1⟩

/-- Two ticks list the order before either fills it. -/
def demoTwice : List (Event Call) :=
  demoPlaced ++ [Event.start demoTick, .start demoTick, .step 1, .step 2] ++
    List.replicate 14 (Event.step 1) ++ List.replicate 14 (Event.step 2)

theorem filled_twice :
    ∃ cfg, (Config.idle demoStore).run demoService.program demoTwice = some cfg ∧
      (cfg.world.store.tradesOf 0).length = 2 ∧ ¬ FilledOnce cfg.world.store := by
  have htwo : ((Config.idle demoStore).run demoService.program demoTwice).map
      (fun cfg => (cfg.world.store.tradesOf 0).length) = some 2 := by
    decide +kernel
  obtain ⟨cfg, hrun, hlength⟩ := Option.map_eq_some_iff.mp htwo
  refine ⟨cfg, hrun, hlength, fun h => ?_⟩
  have honce := h.once 0
  omega

end KiteAlgo.Paper
