import KiteAlgo.Paper.Moves

/-!
# KiteAlgo.Paper.Funds

Paper funds are conserved.

After any calls that run one after another, an account's funds are its starting balance
and realized profit less the charges of its trades, its realized profit is that of its
positions, and what it blocks is the margin of its open positions and the reserve of its
waiting orders.  Each of the four totals changes with one table, and `Balanced.move` goes
through the moves.
-/

namespace KiteAlgo.Paper

open Service Keyed
/-! ## totals of an account -/

def Trade.chargesIn (scope : Scope) (trade : Trade) : ℚ :=
  if trade.scope = scope then trade.estimatedCharges else 0

/-- What a position has realized for an account. -/
def Position.realizedIn (scope : Scope) (position : Position) : ℚ :=
  if position.scope = scope then position.realizedPnl else 0

/-- The margin that an open position uses of an account. -/
def Position.marginIn (scope : Scope) (position : Position) : ℚ :=
  if position.scope = scope ∧ position.netQuantity ≠ 0 then position.marginInUse.getD 0 else 0

/-- The margin that a pending or open order reserves of an account. -/
def Order.reservedIn (scope : Scope) (order : Order) : ℚ :=
  if order.scope = scope ∧ (order.status = .pending ∨ order.status = .open) then
    order.reservedMargin
  else 0

namespace Store

variable (s : Store) (scope : Scope)

def chargesPaid : ℚ := (s.trades.map (Trade.chargesIn scope)).sum

def realized : ℚ := (s.positions.rows.map (Position.realizedIn scope)).sum

def marginInUse : ℚ := (s.positions.rows.map (Position.marginIn scope)).sum

def reserved : ℚ := (s.orders.rows.map (Order.reservedIn scope)).sum

end Store

structure Conserved (s : Store) (account : Account) : Prop where
  funds : account.availableFunds + account.blockedFunds =
    account.startingBalance + account.realizedPnl - s.chargesPaid account.scope
  realized : account.realizedPnl = s.realized account.scope
  blocked : account.blockedFunds = s.marginInUse account.scope + s.reserved account.scope

/-- Every account balances, and what is not opened has no books; the margin of an open
position is recorded, no order is partially filled, and identifiers are drawn in order. -/
structure Balanced (s : Store) : Prop where
  accounts : ∀ scope account, s.accounts.get? scope = some account → Conserved s account
  absent : ∀ scope, s.accounts.get? scope = none →
    s.chargesPaid scope = 0 ∧ s.realized scope = 0 ∧ s.marginInUse scope = 0 ∧ s.reserved scope = 0
  margins : ∀ key position, s.positions.get? key = some position → position.netQuantity ≠ 0 →
    ∃ margin, position.marginInUse = some margin ∧ 0 ≤ margin
  statuses : ∀ id order, s.orders.get? id = some order → order.status ≠ .partiallyFilled
  drawn : ∀ id order, s.orders.get? id = some order → id < s.clock

/-! ## how a total changes -/

theorem Store.reserved_upsert {s s' : Store} {row : Order} (h : s'.orders = s.orders.upsert row)
    (scope : Scope) :
    s'.reserved scope = s.reserved scope +
      (row.reservedIn scope - ((s.orders.get? row.orderId).map (Order.reservedIn scope)).getD 0) := by
  rw [Store.reserved, h]
  exact sum_upsert s.orders row (Order.reservedIn scope)

theorem Store.realized_upsert {s s' : Store} {row : Position}
    (h : s'.positions = s.positions.upsert row) (scope : Scope) :
    s'.realized scope = s.realized scope + (row.realizedIn scope -
        ((s.positions.get? row.key).map (Position.realizedIn scope)).getD 0) := by
  rw [Store.realized, h]
  exact sum_upsert s.positions row (Position.realizedIn scope)

theorem Store.marginInUse_upsert {s s' : Store} {row : Position}
    (h : s'.positions = s.positions.upsert row) (scope : Scope) :
    s'.marginInUse scope = s.marginInUse scope +
      (row.marginIn scope - ((s.positions.get? row.key).map (Position.marginIn scope)).getD 0) := by
  rw [Store.marginInUse, h]
  exact sum_upsert s.positions row (Position.marginIn scope)

theorem Store.chargesPaid_append {s s' : Store} {trade : Trade} (h : s'.trades = s.trades ++ [trade])
    (scope : Scope) : s'.chargesPaid scope = s.chargesPaid scope + trade.chargesIn scope := by
  rw [Store.chargesPaid, h]
  simp [Store.chargesPaid]

/-- The four totals of an account are the same in both stores. -/
structure SameTotals (s s' : Store) (scope : Scope) : Prop where
  charges : s'.chargesPaid scope = s.chargesPaid scope
  realized : s'.realized scope = s.realized scope
  margin : s'.marginInUse scope = s.marginInUse scope
  reserved : s'.reserved scope = s.reserved scope

theorem Conserved.same {s s' : Store} {account : Account} (h : Conserved s account)
    (hsame : SameTotals s s' account.scope) : Conserved s' account :=
  ⟨by rw [hsame.charges]; exact h.funds, by rw [hsame.realized]; exact h.realized,
    by rw [hsame.margin, hsame.reserved]; exact h.blocked⟩

/-- The totals of one account change by these amounts. -/
structure Shifts (s s' : Store) (scope : Scope) (charges realized margin reserved : ℚ) : Prop where
  charges : ∀ other, s'.chargesPaid other = s.chargesPaid other + if scope = other then charges else 0
  realized : ∀ other, s'.realized other = s.realized other + if scope = other then realized else 0
  margin : ∀ other, s'.marginInUse other = s.marginInUse other + if scope = other then margin else 0
  reserved : ∀ other, s'.reserved other = s.reserved other + if scope = other then reserved else 0

theorem Shifts.of_orders {s s' : Store} {scope : Scope} {reserved : ℚ} (htrades : s'.trades = s.trades)
    (hpositions : s'.positions = s.positions)
    (hreserved : ∀ other, s'.reserved other = s.reserved other + if scope = other then reserved else 0) :
    Shifts s s' scope 0 0 0 reserved := by
  refine ⟨fun other => ?_, fun other => ?_, fun other => ?_, hreserved⟩
  · rw [Store.chargesPaid, htrades, ite_self, add_zero]
    rfl
  · rw [Store.realized, hpositions, ite_self, add_zero]
    rfl
  · rw [Store.marginInUse, hpositions, ite_self, add_zero]
    rfl

/-! ## margins -/

theorem requiredMargin_nonneg (upper : String → String) (side : Side) (product : String)
    (quantity : Int) (price : ℚ) (kind : String) :
    0 ≤ requiredMargin upper side product quantity price kind := by
  by_cases hnone : max (quantity : ℚ) 0 ≤ 0 ∨ price ≤ 0
  · simp only [requiredMargin, if_pos hnone]
    exact le_refl _
  · obtain ⟨hquantity, hprice⟩ := not_or.mp hnone
    have hnotional : 0 ≤ price * max (quantity : ℚ) 0 :=
      mul_nonneg (le_of_not_ge hprice) (le_of_not_ge hquantity)
    simp only [requiredMargin, if_neg hnone]
    split
    · cases side with
      | buy => exact hnotional
      | sell => exact mul_nonneg hnotional (by norm_num)
    · split
      · refine mul_nonneg hnotional ?_
        split <;> norm_num
      · split
        · exact mul_nonneg hnotional (by norm_num)
        · exact hnotional

theorem positionMargin_nonneg (upper : String → String) (position : Option Position)
    (kind : Option String) (price : ℚ) : 0 ≤ positionMargin upper position kind price := by
  cases position with
  | none => exact le_refl _
  | some position =>
    simp only [positionMargin]
    split
    · exact le_refl _
    · exact requiredMargin_nonneg _ _ _ _ _ _

namespace Balanced

variable {s s' : Store} {account : Account}

section Rows

variable
  (hmargins : ∀ key position, s'.positions.get? key = some position → position.netQuantity ≠ 0 →
    ∃ margin, position.marginInUse = some margin ∧ 0 ≤ margin)
  (hstatuses : ∀ id order, s'.orders.get? id = some order → order.status ≠ .partiallyFilled)
  (hdrawn : ∀ id order, s'.orders.get? id = some order → id < s'.clock)

include hmargins hstatuses hdrawn

theorem of_same (h : Balanced s) (haccounts : s'.accounts = s.accounts)
    (hsame : ∀ scope, SameTotals s s' scope) :
    Balanced s' := by
  refine ⟨fun scope account hget => ?_, fun scope hget => ?_, hmargins, hstatuses, hdrawn⟩
  · rw [haccounts] at hget
    exact (h.accounts scope account hget).same (hsame account.scope)
  · rw [haccounts] at hget
    rw [(hsame scope).charges, (hsame scope).realized, (hsame scope).margin, (hsame scope).reserved]
    exact h.absent scope hget

theorem of_account (h : Balanced s) (haccounts : ∀ scope, s'.accounts.get? scope =
      if scope = account.scope then some account else s.accounts.get? scope)
    (hconserved : Conserved s' account)
    (hsame : ∀ scope, scope ≠ account.scope → SameTotals s s' scope) :
    Balanced s' := by
  refine ⟨fun scope other hget => ?_, fun scope hget => ?_, hmargins, hstatuses, hdrawn⟩
  · rw [haccounts] at hget
    split at hget
    · cases hget
      exact hconserved
    · next hne =>
      have hscope : other.scope = scope := key_of_get? hget
      exact (h.accounts scope other hget).same (hsame other.scope (by rw [hscope]; exact hne))
  · rw [haccounts] at hget
    split at hget
    · simp at hget
    · next hne =>
      have hsame' := hsame scope hne
      rw [hsame'.charges, hsame'.realized, hsame'.margin, hsame'.reserved]
      exact h.absent scope hget

theorem of_shift (h : Balanced s) {updated : Account} {charges realized margin reserved : ℚ}
    (haccount : s.accounts.get? updated.scope = some account)
    (haccounts : ∀ scope, s'.accounts.get? scope =
      if scope = updated.scope then some updated else s.accounts.get? scope)
    (hshift : Shifts s s' updated.scope charges realized margin reserved)
    (hstart : updated.startingBalance = account.startingBalance)
    (hrealized : updated.realizedPnl = account.realizedPnl + realized)
    (hblocked : updated.blockedFunds = account.blockedFunds + (margin + reserved))
    (htotal : updated.availableFunds + updated.blockedFunds =
      account.availableFunds + account.blockedFunds + realized - charges) :
    Balanced s' := by
  have hbefore := h.accounts _ _ haccount
  have hscope : account.scope = updated.scope := key_of_get? haccount
  have hfunds := hbefore.funds
  have hprofit := hbefore.realized
  have hmargin := hbefore.blocked
  rw [hscope] at hfunds hprofit hmargin
  refine h.of_account hmargins hstatuses hdrawn haccounts ⟨?_, ?_, ?_⟩ fun scope hne => ?_
  · rw [htotal, hstart, hrealized, hshift.charges, if_pos rfl]
    linarith
  · rw [hrealized, hshift.realized, if_pos rfl, hprofit]
  · rw [hblocked, hshift.margin, hshift.reserved, if_pos rfl, if_pos rfl]
    linarith
  · have hother : ¬ updated.scope = scope := fun heq => hne heq.symm
    refine ⟨?_, ?_, ?_, ?_⟩
    · rw [hshift.charges, if_neg hother, add_zero]
    · rw [hshift.realized, if_neg hother, add_zero]
    · rw [hshift.margin, if_neg hother, add_zero]
    · rw [hshift.reserved, if_neg hother, add_zero]

end Rows

theorem undrawn (h : Balanced s) : s.orders.get? s.clock = none := by
  cases hget : s.orders.get? s.clock with
  | none => rfl
  | some order => exact absurd (h.drawn s.clock order hget) (Nat.lt_irrefl _)

variable {order : Order}

theorem pending_or_open (h : Balanced s) (hrow : s.orders.get? order.orderId = some order)
    (hpending : order.status.isPending) :
    order.status = .pending ∨ order.status = .open := by
  have hstatus := h.statuses order.orderId order hrow
  revert hpending hstatus
  cases order.status <;> simp [OrderStatus.isPending]

variable {row : Order}

theorem statuses_upsert (h : Balanced s) (horders : s'.orders = s.orders.upsert row)
    (hstatus : row.status ≠ .partiallyFilled) (id : Nat) (order : Order)
    (hget : s'.orders.get? id = some order) : order.status ≠ .partiallyFilled := by
  rw [horders, get?_upsert] at hget
  split at hget
  · cases hget
    exact hstatus
  · exact h.statuses id order hget

theorem drawn_upsert (h : Balanced s) (horders : s'.orders = s.orders.upsert row)
    (hid : row.orderId < s'.clock) (hclock : s.clock ≤ s'.clock) (id : Nat) (order : Order)
    (hget : s'.orders.get? id = some order) : id < s'.clock := by
  rw [horders, get?_upsert] at hget
  split at hget
  · next hkey => exact hkey ▸ hid
  · exact Nat.lt_of_lt_of_le (h.drawn id order hget) hclock

/-! ## moves -/

theorem opened (h : Balanced s) (svc : Service) {scope : Scope}
    (habsent : s.accounts.get? scope = none) :
    Balanced (s.upsertAccount (svc.freshAccount scope)) := by
  obtain ⟨hcharges, hrealized, hmargin, hreserved⟩ := h.absent scope habsent
  refine h.of_account h.margins h.statuses h.drawn
    (Store.Funded.upsert s (svc.freshAccount scope)).get? ⟨?_, ?_, ?_⟩ fun _ _ => ⟨rfl, rfl, rfl, rfl⟩
  · have hsame : (s.upsertAccount (svc.freshAccount scope)).chargesPaid
        (svc.freshAccount scope).scope = 0 := hcharges
    rw [hsame, sub_zero]
    rfl
  · exact hrealized.symm
  · have hsame : (s.upsertAccount (svc.freshAccount scope)).marginInUse
        (svc.freshAccount scope).scope = 0 := hmargin
    have hsame' : (s.upsertAccount (svc.freshAccount scope)).reserved
        (svc.freshAccount scope).scope = 0 := hreserved
    rw [hsame, hsame', add_zero]
    rfl

theorem rejected (h : Balanced s) {order : Order} (hstatus : order.status = .rejected) :
    Balanced (s.insertOrder order).2 := by
  have horders : (s.insertOrder order).2.orders = s.orders.upsert (order.withId s.clock) := rfl
  have hrow : (order.withId s.clock).status = .rejected := hstatus
  refine h.of_same h.margins (h.statuses_upsert horders (by simp [hrow]))
    (h.drawn_upsert horders (Nat.lt_succ_self _) (Nat.le_succ _)) rfl fun scope => ⟨rfl, rfl, rfl, ?_⟩
  rw [Store.reserved_upsert horders, show (order.withId s.clock).orderId = s.clock from rfl, h.undrawn]
  simp [Order.reservedIn, hrow]

/-- One order is written, and its account reserves that much more. -/
theorem reserve (h : Balanced s) (row : Order) (amount : ℚ) (hscope : account.scope = row.scope)
    (haccount : s.accounts.get? row.scope = some account)
    (haccounts : ∀ scope, s'.accounts.get? scope = if scope = account.scope then
      some (account.reserve amount) else s.accounts.get? scope)
    (htrades : s'.trades = s.trades) (hpositions : s'.positions = s.positions)
    (horders : s'.orders = s.orders.upsert row) (hstatus : row.status ≠ .partiallyFilled)
    (hid : row.orderId < s'.clock) (hclock : s.clock ≤ s'.clock)
    (hreserved : ∀ other, row.reservedIn other - ((s.orders.get? row.orderId).map
      (Order.reservedIn other)).getD 0 = if row.scope = other then amount else 0) : Balanced s' := by
  have hshift : Shifts s s' account.scope 0 0 0 amount := by
    refine Shifts.of_orders htrades hpositions fun other => ?_
    rw [Store.reserved_upsert horders, hreserved, hscope]
  have hheld : s.accounts.get? (account.reserve amount).scope = some account := by
    rw [← hscope] at haccount
    exact haccount
  refine h.of_shift ?_ (h.statuses_upsert horders hstatus) (h.drawn_upsert horders hid hclock)
    hheld haccounts hshift rfl ?_ ?_ ?_
  · rw [hpositions]
    exact h.margins
  · simp [Account.reserve]
  · simp [Account.reserve]
  · simp only [Account.reserve]
    ring

theorem booked (h : Balanced s) {order : Order} {account : Account} (hstatus : order.status = .pending)
    (haccount : s.accounts.get? order.scope = some account)
    (hfunded : (s.insertOrder order).2.Funded s' (account.reserve order.reservedMargin)) :
    Balanced s' := by
  have hclock : s'.clock = s.clock + 1 := hfunded.clock
  refine h.reserve (order.withId s.clock) _ (key_of_get? haccount) haccount hfunded.get?
    hfunded.trades hfunded.positions hfunded.orders (by simp [Order.withId, hstatus]) ?_ ?_ fun other => ?_
  · rw [hclock]
    exact Nat.lt_succ_self _
  · rw [hclock]
    exact Nat.le_succ _
  · rw [show (order.withId s.clock).orderId = s.clock from rfl, h.undrawn]
    simp [Order.reservedIn, hstatus, Order.withId]

theorem touched (h : Balanced s) {order updated : Order}
    (hrow : s.orders.get? order.orderId = some order) (hpending : order.status.isPending)
    (hupdated : updated = order.stopped ∨ updated = order.opened) : Balanced (s.updateOrder updated) := by
  have hopen := h.pending_or_open hrow hpending
  have hid : updated.orderId = order.orderId := by
    rcases hupdated with rfl | rfl
    · rfl
    · rfl
  have hsame : ∀ scope, updated.reservedIn scope = order.reservedIn scope := by
    intro scope
    rcases hupdated with rfl | rfl
    · rfl
    · simp [Order.reservedIn, Order.opened, hopen]
  have hbefore := h.statuses _ _ hrow
  have hstatus : updated.status ≠ .partiallyFilled := by
    rcases hupdated with rfl | rfl
    · exact hbefore
    · simp [Order.opened]
  have horders : (s.updateOrder updated).orders = s.orders.upsert updated :=
    Store.updateOrder_orders (by rw [hid]; exact hrow)
  refine h.of_same ?_ (h.statuses_upsert horders hstatus) (h.drawn_upsert horders ?_ ?_)
    (Store.updateOrder_accounts s updated) fun scope => ⟨?_, ?_, ?_, ?_⟩
  · simpa using h.margins
  · rw [Store.updateOrder_clock, hid]
    exact h.drawn _ _ hrow
  · rw [Store.updateOrder_clock]
  · simp [Store.chargesPaid]
  · simp [Store.realized]
  · simp [Store.marginInUse]
  · rw [Store.reserved_upsert horders, hid, hrow]
    simp [hsame]

theorem refused (h : Balanced s) {order : Order} {account : Account}
    (hrow : s.orders.get? order.orderId = some order) (hpending : order.status.isPending)
    (haccount : s.accounts.get? order.scope = some account)
    (hfunded : (s.updateOrder order.refused).Funded s' (account.reserve (-order.reservedMargin))) :
    Balanced s' := by
  have hopen := h.pending_or_open hrow hpending
  have hclock : s'.clock = s.clock := by
    rw [hfunded.clock, Store.updateOrder_clock]
  refine h.reserve order.refused (-order.reservedMargin) (key_of_get? haccount) haccount
    (fun scope => ?_) ?_ ?_ ?_ (by simp [Order.refused]) ?_ ?_ fun other => ?_
  · rw [hfunded.get?, Store.updateOrder_accounts]
    rfl
  · rw [hfunded.trades, Store.updateOrder_trades]
  · rw [hfunded.positions, Store.updateOrder_positions]
  · rw [hfunded.orders]
    exact Store.updateOrder_orders hrow
  · rw [hclock]
    exact h.drawn _ _ hrow
  · rw [hclock]
  · rw [show order.refused.orderId = order.orderId from rfl, hrow]
    by_cases hother : order.scope = other
    · simp [Order.reservedIn, Order.refused, hother, hopen]
    · simp [Order.reservedIn, Order.refused, hother]

theorem margins_upsert (h : Balanced s) {row : Position}
    (hpositions : s'.positions = s.positions.upsert row)
    (hrow : row.netQuantity ≠ 0 → ∃ margin, row.marginInUse = some margin ∧ 0 ≤ margin)
    (key : PositionKey) (position : Position) (hget : s'.positions.get? key = some position)
    (hopen : position.netQuantity ≠ 0) : ∃ margin, position.marginInUse = some margin ∧ 0 ≤ margin := by
  rw [hpositions, get?_upsert] at hget
  split at hget
  · cases hget
    exact hrow hopen
  · exact h.margins key position hget hopen

variable {position : Position} {price : ℚ}

theorem marked (h : Balanced s) (hrow : s.positions.get? position.key = some position) :
    Balanced (s.upsertPosition (position.marked price)) := by
  have hpositions : (s.upsertPosition (position.marked price)).positions =
      s.positions.upsert ((position.marked price).stamped s.clock) := rfl
  have hkey : ((position.marked price).stamped s.clock).key = position.key := rfl
  refine h.of_same (h.margins_upsert hpositions (h.margins _ position hrow)) h.statuses
    (fun id order hget => Nat.lt_succ_of_lt (h.drawn id order hget)) rfl
    fun scope => ⟨rfl, ?_, ?_, rfl⟩
  · rw [Store.realized_upsert hpositions, hkey, hrow]
    exact add_eq_left.mpr (sub_self _)
  · rw [Store.marginInUse_upsert hpositions, hkey, hrow]
    exact add_eq_left.mpr (sub_self _)

theorem scope_of_get? (hget : s.positions.get? order.key = some position) :
    position.scope = order.scope :=
  congrArg PositionKey.scope (key_of_get? hget)

theorem marginIn_stored (h : Balanced s) {key : PositionKey}
    (hrow : s.positions.get? key = some position) (upper : String → String) (kind : Option String)
    (price : ℚ) :
    position.marginIn key.scope = positionMarginInUse upper (some position) kind price := by
  have hscope : position.scope = key.scope := congrArg PositionKey.scope (key_of_get? hrow)
  by_cases hopen : position.netQuantity = 0
  · simp [Position.marginIn, positionMarginInUse, hopen]
  · obtain ⟨margin, hmargin, hnonneg⟩ := h.margins key position hrow hopen
    simp [Position.marginIn, positionMarginInUse, hscope, hopen, hmargin, hnonneg]

theorem filled_orders (price : ℚ) (plan : FillPlan) (hrow : s.orders.get? order.orderId = some order)
    (hfunded : s.Funded s' account) : (recordFillUow order price plan s').2.orders =
      s.orders.upsert (order.completed price) := by
  have hrow' : s'.orders.get? (order.completed price).orderId = some order := by
    rw [hfunded.orders]
    exact hrow
  rw [recordFillUow_orders, Store.updateOrder_orders hrow', hfunded.orders]

theorem filled_shifts (h : Balanced s) (svc : Service) {instrument : Instrument} {plan : FillPlan}
    (hrow : s.orders.get? order.orderId = some order) (hpending : order.status.isPending)
    (htoken : instrument.instrumentToken = order.instrumentToken)
    (hplan : plan = svc.fillPlan order (requestFromPaperOrder order) instrument price
      (s.getPosition order.key)) (hfunded : s.Funded s' account) :
    Shifts s (recordFillUow order price plan s').2 order.scope order.estimatedCharges
      plan.realizedDelta (plan.adjustment + order.reservedMargin) (-order.reservedMargin) := by
  obtain ⟨instant, hpositions⟩ := recordFillUow_positions order price plan s'
  rw [hfunded.positions] at hpositions
  have horders := filled_orders price plan hrow hfunded
  have htrades : (recordFillUow order price plan s').2.trades =
      s.trades ++ [{ order.trade price with tradeId := s'.clock }] := by
    rw [recordFillUow_trades, hfunded.trades]
  have hkey : ((plan.position.settled order plan.margin price).stamped instant).key = order.key := by
    rw [hplan]
    exact congrArg (fun token => PositionKey.mk order.scope token order.product) htoken
  refine ⟨fun other => ?_, fun other => ?_, fun other => ?_, fun other => ?_⟩
  · rw [Store.chargesPaid_append htrades]
    rfl
  · rw [Store.realized_upsert hpositions, hkey]
    have hdelta : plan.realizedDelta = plan.position.realizedPnl -
        ((s.positions.get? order.key).map Position.realizedPnl).getD 0 := by
      rw [hplan]
      rfl
    have hnew : ((plan.position.settled order plan.margin price).stamped instant).realizedIn other =
        if order.scope = other then plan.position.realizedPnl else 0 := rfl
    have hold : ((s.positions.get? order.key).map (Position.realizedIn other)).getD 0 =
        if order.scope = other then
          ((s.positions.get? order.key).map Position.realizedPnl).getD 0 else 0 := by
      cases hget : s.positions.get? order.key with
      | none => simp
      | some position => simp [Position.realizedIn, scope_of_get? hget]
    rw [hnew, hold, hdelta]
    split <;> simp
  · rw [Store.marginInUse_upsert hpositions, hkey]
    have hadjust : plan.adjustment + order.reservedMargin = plan.margin -
        positionMarginInUse svc.upper (s.positions.get? order.key) instrument.instrumentType price := by
      rw [hplan]
      simp only [fillPlan, Store.getPosition]
      ring
    have hflat : plan.position.netQuantity = 0 → plan.margin = 0 := by
      rw [hplan]
      intro hzero
      simp only [fillPlan, positionMargin] at hzero ⊢
      rw [if_pos hzero]
    have hnew : ((plan.position.settled order plan.margin price).stamped instant).marginIn other =
        if order.scope = other then plan.margin else 0 := by
      by_cases hzero : plan.position.netQuantity = 0
      · simp [Position.marginIn, Position.stamped, Position.settled, hzero, hflat hzero]
      · simp [Position.marginIn, Position.stamped, Position.settled, hzero]
    have hold : ((s.positions.get? order.key).map (Position.marginIn other)).getD 0 =
        if order.scope = other then
          positionMarginInUse svc.upper (s.positions.get? order.key) instrument.instrumentType price
        else 0 := by
      cases hget : s.positions.get? order.key with
      | none => simp [positionMarginInUse]
      | some position =>
        by_cases hother : order.scope = other
        · have hstored := h.marginIn_stored hget svc.upper instrument.instrumentType price
          rw [if_pos hother, ← hother]
          exact hstored
        · simp [Position.marginIn, scope_of_get? hget, hother]
    rw [hnew, hold, hadjust]
    split <;> simp
  · rw [Store.reserved_upsert horders, show (order.completed price).orderId = order.orderId from rfl, hrow]
    have hopen := h.pending_or_open hrow hpending
    by_cases hother : order.scope = other
    · simp [Order.reservedIn, Order.completed, hother, hopen]
    · simp [Order.reservedIn, Order.completed, hother]

theorem filled (h : Balanced s) (svc : Service) {order : Order} {account : Account}
    {instrument : Instrument} {price : ℚ} {plan : FillPlan}
    (hrow : s.orders.get? order.orderId = some order) (hpending : order.status.isPending)
    (haccount : s.accounts.get? order.scope = some account)
    (htoken : instrument.instrumentToken = order.instrumentToken)
    (hplan : plan = svc.fillPlan order (requestFromPaperOrder order) instrument price
      (s.getPosition order.key))
    (hfunded : s.Funded s'
      (account.settle plan.adjustment order.estimatedCharges plan.realizedDelta)) :
    Balanced (recordFillUow order price plan s').2 := by
  have hscope : account.scope = order.scope := key_of_get? haccount
  have hshift := h.filled_shifts svc hrow hpending htoken hplan hfunded
  rw [← hscope] at hshift haccount
  obtain ⟨instant, hpositions⟩ := recordFillUow_positions order price plan s'
  rw [hfunded.positions] at hpositions
  have horders := filled_orders price plan hrow hfunded
  have hclock : s.clock ≤ (recordFillUow order price plan s').2.clock := by
    rw [← hfunded.clock]
    exact recordFillUow_clock order price plan s'
  have hheld : s.accounts.get? (account.settle plan.adjustment order.estimatedCharges
      plan.realizedDelta).scope = some account := haccount
  refine h.of_shift (h.margins_upsert hpositions fun _ => ⟨plan.margin, rfl, ?_⟩)
    (h.statuses_upsert horders (by simp [Order.completed]))
    (h.drawn_upsert horders (Nat.lt_of_lt_of_le (h.drawn _ _ hrow) hclock) hclock) hheld ?_ hshift rfl
    rfl ?_ ?_
  · rw [hplan]
    exact positionMargin_nonneg _ _ _ _
  · intro scope
    rw [recordFillUow_accounts, hfunded.get?]
  · simp only [Account.settle]
    ring
  · simp only [Account.settle]
    ring

variable {T : Order → Store → Prop} {svc : Service}

theorem move (h : Balanced s) (hmove : Moves svc T s s') : Balanced s' := by
  cases hmove with
  | opened habsent => exact h.opened svc habsent
  | rejected hstatus => exact h.rejected hstatus
  | booked hstatus _ haccount hfunded => exact h.booked hstatus haccount hfunded
  | touched hrow hpending hupdated => exact h.touched hrow hpending hupdated
  | refused hrow hpending haccount hfunded => exact h.refused hrow hpending haccount hfunded
  | filled hrow hpending haccount htoken hplan hfunded _ =>
    exact h.filled svc hrow hpending haccount htoken hplan hfunded
  | marked hrow => exact h.marked hrow

theorem moves (h : Balanced s) (hmoves : MovesTo svc T s s') : Balanced s' := by
  induction hmoves with
  | refl => exact h
  | tail _ hmove ih => exact ih.move hmove

end Balanced

theorem Store.Fresh.balanced {s : Store} (h : s.Fresh) : Balanced s := by
  have hcharges : ∀ scope, s.chargesPaid scope = 0 := by
    intro scope
    simp [Store.chargesPaid, h.trades]
  have hrealized : ∀ scope, s.realized scope = 0 := by
    intro scope
    simp [Store.realized, h.positions]
  have hmargin : ∀ scope, s.marginInUse scope = 0 := by
    intro scope
    simp [Store.marginInUse, h.positions]
  have hreserved : ∀ scope, s.reserved scope = 0 := by
    intro scope
    simp [Store.reserved, h.orders]
  refine ⟨fun scope account hget => ?_, fun scope _ => ?_, ?_, ?_, ?_⟩
  · obtain ⟨havailable, hblocked, hprofit⟩ := h.accounts scope account hget
    refine ⟨?_, ?_, ?_⟩
    · rw [havailable, hblocked, hprofit, hcharges]
      ring
    · rw [hprofit, hrealized]
    · rw [hblocked, hmargin, hreserved, add_zero]
  · exact ⟨hcharges scope, hrealized scope, hmargin scope, hreserved scope⟩
  · intro key position hget
    simp [get?, h.positions] at hget
  · intro id order hget
    simp [get?, h.orders] at hget
  · intro id order hget
    simp [get?, h.orders] at hget

/-- After any calls that run one after another the books of every account balance. -/
theorem funds_conserved (svc : Service) {s : Store} (hfresh : s.Fresh) (calls : List Call)
    (scope : Scope) (account : Account)
    (haccount : (svc.serial calls s).accounts.get? scope = some account) :
    Conserved (svc.serial calls s) account :=
  (hfresh.balanced.moves (moves_serial svc (hfresh.knowsOrders svc)
    (serialAlong_true svc calls s))).accounts scope account haccount

/-- Ten are bought at 100 and four of them sold at 110. -/
def demoTrades : List Call :=
  [.placeOrder demoScope (demoOrder "BUY" 10) [] (demoMarket 100),
    .placeOrder demoScope (demoOrder "SELL" 4) [] (demoMarket 110)]

theorem funds_conserved_demo :
    ∃ account, (demoService.serial demoTrades demoStore).accounts.get? demoScope = some account ∧
      account.realizedPnl = 40 ∧ Conserved (demoService.serial demoTrades demoStore) account := by
  have hsome : ((demoService.serial demoTrades demoStore).accounts.get? demoScope).map
      Account.realizedPnl = some 40 := by
    decide +kernel
  obtain ⟨account, haccount, hrealized⟩ := Option.map_eq_some_iff.mp hsome
  exact ⟨account, haccount, hrealized,
    funds_conserved demoService fresh_demoStore demoTrades demoScope account haccount⟩

end KiteAlgo.Paper
