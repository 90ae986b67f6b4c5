import KiteAlgo.Paper.Service

/-!
# KiteAlgo.Paper.Effects

What the steps of the paper runtime do to the store.

Placement, fill, margin, cash and lots are written once over repository calls and once
over a unit of work.  Run alone, each repository program does what its unit-of-work
twin does (`run_settleFunds`, `run_recordFill`, …), and the effect of the twin is then
stated once: `Store.Funded` for what touches an account, `recordFillUow` for the order,
trade, lots and position of a fill.
-/

namespace KiteAlgo.Paper

open Prog
/-! ## orders from requests -/

/-- The enumerations know the side and the type of the request. -/
def Request.Valid (request : Request) : Prop :=
  (sideOf? request.transactionType).isSome ∧ (orderTypeOf? request.orderType).isSome

instance (request : Request) : Decidable request.Valid := inferInstanceAs (Decidable (_ ∧ _))

theorem paperOrder_of_valid {request : Request} (h : request.Valid) (scope : Scope) (token : Int)
    (status : OrderStatus) (attribution : Attribution) :
    ∃ order, paperOrder scope token request status attribution = .ok order := by
  obtain ⟨side, hside⟩ := Option.isSome_iff_exists.mp h.1
  obtain ⟨orderType, htype⟩ := Option.isSome_iff_exists.mp h.2
  rw [paperOrder, hside, htype]
  exact ⟨_, rfl⟩

variable {attribution : Attribution} {charges margin : ℚ} {scope : Scope}

theorem acceptedOrder_eq {request : Request} {instrument : Instrument} {order : Order}
    (h : acceptedOrder scope request instrument attribution margin charges = .ok order) :
    ∃ side orderType, sideOf? request.transactionType = some side ∧
      orderTypeOf? request.orderType = some orderType ∧ order =
        { scope := scope
          orderId := 0
          instrumentToken := instrument.instrumentToken
          exchange := request.exchange
          tradingsymbol := request.tradingsymbol
          product := request.product
          side := side
          orderType := orderType
          quantity := request.quantity
          quantity_pos := request.quantity_pos
          price := request.price
          triggerPrice := request.triggerPrice
          status := .pending
          attribution := attribution
          reservedMargin := margin
          estimatedCharges := charges
          instrumentType := instrument.kind } := by
  cases hside : sideOf? request.transactionType with
  | none => simp [acceptedOrder, paperOrder, hside, Except.map] at h
  | some side =>
    cases htype : orderTypeOf? request.orderType with
    | none => simp [acceptedOrder, paperOrder, hside, htype, Except.map] at h
    | some orderType =>
      simp only [acceptedOrder, paperOrder, hside, htype, Except.map, Except.ok.injEq] at h
      exact ⟨side, orderType, rfl, rfl, h.symm⟩

theorem valid_of_acceptedOrder {request : Request} {instrument : Instrument} {order : Order}
    (h : acceptedOrder scope request instrument attribution margin charges = .ok order) :
    request.Valid ∧ order.scope = scope := by
  obtain ⟨side, orderType, hside, htype, rfl⟩ := acceptedOrder_eq h
  exact ⟨⟨by rw [hside]; rfl, by rw [htype]; rfl⟩, rfl⟩

/-- The request asks for what the order holds. -/
structure Request.Describes (request : Request) (order : Order) : Prop where
  exchange : request.exchange = order.exchange
  tradingsymbol : request.tradingsymbol = order.tradingsymbol
  product : request.product = order.product
  quantity : request.quantity = order.quantity
  side : sideOf? request.transactionType = some order.side

theorem describes_requestFromPaperOrder (order : Order) :
    (requestFromPaperOrder order).Describes order :=
  ⟨rfl, rfl, rfl, rfl, by cases h : order.side <;> simp [requestFromPaperOrder, h, Side.text, sideOf?]⟩

theorem transactionType_of_sideOf? {transactionType : String} {side : Side}
    (h : sideOf? transactionType = some side) :
    transactionType = side.text := by
  unfold sideOf? at h
  split at h
  · next hbuy => cases h; exact hbuy
  · split at h
    · next hsell => cases h; exact hsell
    · simp at h

theorem fillPlan_of_describes (svc : Service) {request : Request} {order : Order}
    (h : request.Describes order) (instrument : Instrument) (price : ℚ)
    (existing : Option Position) :
    svc.fillPlan order request instrument price existing =
      svc.fillPlan order (requestFromPaperOrder order) instrument price existing := by
  obtain ⟨exchange, tradingsymbol, transactionType, product, orderType, quantity, hpos, price',
    triggerPrice⟩ := request
  obtain ⟨rfl, rfl, rfl, rfl, hside⟩ := h
  obtain rfl := transactionType_of_sideOf? hside
  rfl

namespace Service

open Repository

variable (svc : Service)

/-! ## twins -/

theorem run_applyAccountDelta (account : Account) (delta : ℚ) (orderId : Nat) (s : Store) :
    (applyAccountDelta account delta orderId).run s = applyAccountDeltaUow account delta orderId s := by
  unfold applyAccountDelta applyAccountDeltaUow
  split <;> rfl

theorem run_applyCashDelta (account : Account) (delta : ℚ) (entryType : EntryType) (orderId : Nat)
    (notes : String) (s : Store) :
    (applyCashDelta account delta entryType orderId notes).run s =
      applyCashDeltaUow account delta entryType orderId notes s := by
  unfold applyCashDelta applyCashDeltaUow
  split <;> rfl

theorem run_consumeLots (lots : List Lot) (remaining : Int) (s : Store) :
    (consumeLots lots remaining).run s = ((), consumeLotsUow lots remaining s) := by
  induction lots generalizing remaining s with
  | nil => rfl
  | cons lot lots ih =>
    unfold consumeLots consumeLotsUow
    split
    · rfl
    · split
      · exact ih remaining s
      · exact ih (lot.consume remaining).2 (s.updateLot (lot.consume remaining).1)

theorem run_consumePositionLots (key : PositionKey) (quantity : Int) (preferred : Option String)
    (strict : Bool) (s : Store) :
    (consumePositionLots key quantity preferred strict).run s =
      ((), consumePositionLotsUow key quantity preferred strict s) := by
  unfold consumePositionLots consumePositionLotsUow
  split
  · rfl
  · exact run_consumeLots _ _ s

theorem run_persistStopLimitTriggerState (label : Label) (order : Order) (request : Request)
    (snapshot : Snapshot) (s : Store) :
    (persistStopLimitTriggerState label order request snapshot).run s =
      persistStopLimitTriggerStateUow order request snapshot s := by
  unfold persistStopLimitTriggerState persistStopLimitTriggerStateUow
  repeat' split
  all_goals rfl

theorem run_settleFunds (order : Order) (account : Account) (plan : FillPlan) (s : Store) :
    (settleFunds order account plan).run s = settleFundsUow order account plan s := by
  have hadjust : ∀ s, (applyMarginAdjustment account plan.adjustment order.orderId).run s =
      if plan.adjustment ≠ 0 then applyAccountDeltaUow account plan.adjustment order.orderId s
      else (account, s) := by
    intro s
    unfold applyMarginAdjustment
    split
    · exact run_applyAccountDelta account plan.adjustment order.orderId s
    · rfl
  simp only [settleFunds, bind_eq, run_bind, hadjust, run_applyCashDelta]
  unfold applyRealizedDelta settleFundsUow
  split
  · rw [bind_eq, run_bind, run_applyCashDelta]
    rfl
  · rfl

theorem run_attributeLots (order : Order) (tradeId : Nat) (fillPrice : ℚ) (s : Store) :
    (attributeLots order tradeId fillPrice).run s = ((), attributeLotsUow order tradeId fillPrice s) := by
  unfold attributeLots attributeLotsUow
  cases order.side with
  | buy => rfl
  | sell => exact run_consumePositionLots _ _ _ _ s

theorem run_recordFill (order : Order) (fillPrice : ℚ) (plan : FillPlan) (s : Store) :
    (recordFill order fillPrice plan).run s = recordFillUow order fillPrice plan s := by
  simp only [recordFill, bind_eq, run_bind, run_attributeLots]
  rfl

theorem run_ensureAccount {scope : Scope} {account : Account} {s : Store}
    (h : s.accounts.get? scope = some account) :
    (svc.ensureAccount scope).run s = (account, s) := by
  simp only [ensureAccount, getAccount, bind_eq, run_bind, run_read, h]
  rfl

theorem run_ensureAccount_of_absent {scope : Scope} {s : Store} (h : s.accounts.get? scope = none) :
    (svc.ensureAccount scope).run s =
      (svc.freshAccount scope, s.upsertAccount (svc.freshAccount scope)) := by
  simp only [ensureAccount, getAccount, bind_eq, run_bind, run_read, h]
  rfl

theorem run_rejectOrder (scope : Scope) (request : Request) (attribution : Attribution)
    (reason : String) (s : Store) :
    (rejectOrder scope request attribution reason).run s =
      match rejectedOrder scope request attribution reason with
      | .error failure => (.error failure, s)
      | .ok order => (.ok (.rejected reason (s.insertOrder order).1), (s.insertOrder order).2) := by
  unfold rejectOrder
  cases rejectedOrder scope request attribution reason <;> rfl

section Fill

variable {account : Account} {order : Order} {request : Request} {instrument : Instrument}
  {price : ℚ} {existing : Option Position}

theorem run_fillOrder_rejected
    (h : account.availableFunds - (svc.fillPlan order request instrument price existing).adjustment -
      order.estimatedCharges < 0) (s : Store) :
    (svc.fillOrder order account request instrument price existing).run s =
      (.rejected fillRejection order.refused,
        (applyAccountDeltaUow account (-order.reservedMargin) order.orderId
          (s.updateOrder order.refused)).2) := by
  rw [fillOrder]
  simp only [if_pos h, bind_eq, run_bind, run_applyAccountDelta]
  rfl

theorem run_fillOrder_filled
    (h : ¬ account.availableFunds -
      (svc.fillPlan order request instrument price existing).adjustment -
      order.estimatedCharges < 0) (s : Store) :
    (svc.fillOrder order account request instrument price existing).run s =
      recordFillUow order price (svc.fillPlan order request instrument price existing)
        (settleFundsUow order account
          (svc.fillPlan order request instrument price existing) s).2 := by
  rw [fillOrder]
  simp only [if_neg h, bind_eq, run_bind, run_settleFunds, run_recordFill]

end Fill

end Service

/-! ## funds -/

/-- The account of a fill: the margin adjustment is blocked, the charges are paid and
the profit is credited. -/
def Account.settle (account : Account) (adjustment charges realized : ℚ) : Account :=
  { account with
    availableFunds := account.availableFunds - adjustment - charges + realized
    blockedFunds := account.blockedFunds + adjustment
    realizedPnl := account.realizedPnl + realized }

/-- `s'` is `s` with `account` as the row of its scope, up to the ledger. -/
structure Store.Funded (s s' : Store) (account : Account) : Prop where
  get? : ∀ scope, s'.accounts.get? scope =
    if scope = account.scope then some account else s.accounts.get? scope
  rest : s' = { s with accounts := s'.accounts, ledger := s'.ledger }

namespace Store.Funded

variable {s s' s'' : Store} {account account' : Account}

theorem refl (h : s.accounts.get? account.scope = some account) : s.Funded s account := by
  refine ⟨fun scope => ?_, rfl⟩
  split
  · next hscope => rw [hscope, h]
  · rfl

theorem trans (h : s.Funded s' account) (h' : s'.Funded s'' account')
    (hscope : account'.scope = account.scope) : s.Funded s'' account' := by
  refine ⟨fun scope => ?_, ?_⟩
  · rw [h'.get?, h.get?, hscope]
    split <;> rfl
  · rw [h'.rest, h.rest]

theorem upsert (s : Store) (account : Account) : s.Funded (s.upsertAccount account) account := by
  refine ⟨fun scope => ?_, rfl⟩
  rw [Store.upsertAccount, Keyed.get?_upsert]
  simp only [eq_comm]

theorem upsert_append (s : Store) (account : Account) (entry : LedgerEntry) :
    s.Funded ((s.upsertAccount account).appendFundLedgerEntry entry) account :=
  ⟨(upsert s account).get?, rfl⟩

theorem self (h : s.Funded s' account) : s'.accounts.get? account.scope = some account := by
  rw [h.get?, if_pos rfl]

theorem orders (h : s.Funded s' account) : s'.orders = s.orders := by rw [h.rest]

theorem trades (h : s.Funded s' account) : s'.trades = s.trades := by rw [h.rest]

theorem positions (h : s.Funded s' account) : s'.positions = s.positions := by rw [h.rest]

theorem lots (h : s.Funded s' account) : s'.lots = s.lots := by rw [h.rest]

theorem clock (h : s.Funded s' account) : s'.clock = s.clock := by rw [h.rest]

end Store.Funded

namespace Service

variable {s : Store} {account : Account}

theorem applyAccountDeltaUow_spec (h : s.accounts.get? account.scope = some account) (delta : ℚ)
    (orderId : Nat) :
    ∃ s', applyAccountDeltaUow account delta orderId s = (account.reserve delta, s') ∧
      s.Funded s' (account.reserve delta) := by
  unfold applyAccountDeltaUow
  split
  · next hzero =>
    have hself : account.reserve delta = account := by simp [Account.reserve, hzero]
    rw [hself]
    exact ⟨s, rfl, .refl h⟩
  · exact ⟨_, rfl, .upsert_append s _ _⟩

theorem applyCashDeltaUow_spec (h : s.accounts.get? account.scope = some account) (delta : ℚ)
    (entryType : EntryType) (orderId : Nat) (notes : String) :
    ∃ s', applyCashDeltaUow account delta entryType orderId notes s = (account.credit delta, s') ∧
      s.Funded s' (account.credit delta) := by
  unfold applyCashDeltaUow
  split
  · next hzero =>
    have hself : account.credit delta = account := by simp [Account.credit, hzero]
    rw [hself]
    exact ⟨s, rfl, .refl h⟩
  · exact ⟨_, rfl, .upsert_append s _ _⟩

theorem settleFundsUow_spec (h : s.accounts.get? account.scope = some account) (order : Order)
    (plan : FillPlan) :
    ∃ s', settleFundsUow order account plan s =
        (account.settle plan.adjustment order.estimatedCharges plan.realizedDelta, s') ∧
      s.Funded s' (account.settle plan.adjustment order.estimatedCharges plan.realizedDelta) := by
  have hadjust : ∃ s₁, (if plan.adjustment ≠ 0 then
        applyAccountDeltaUow account plan.adjustment order.orderId s else (account, s)) =
        (account.reserve plan.adjustment, s₁) ∧ s.Funded s₁ (account.reserve plan.adjustment) := by
    split
    · exact applyAccountDeltaUow_spec h plan.adjustment order.orderId
    · next hzero =>
      have hself : account.reserve plan.adjustment = account := by
        simp [Account.reserve, not_not.mp hzero]
      rw [hself]
      exact ⟨s, rfl, .refl h⟩
  obtain ⟨s₁, hreserve, h₁⟩ := hadjust
  obtain ⟨s₂, hcharges, h₂⟩ := applyCashDeltaUow_spec h₁.self (-order.estimatedCharges) .debit
    order.orderId "paper_trade_charges"
  have h₁₂ := h₁.trans h₂ rfl
  rw [settleFundsUow, hreserve]
  simp only [hcharges]
  split
  · obtain ⟨s₃, hrealized, h₃⟩ := applyCashDeltaUow_spec h₂.self plan.realizedDelta
      (if 0 < plan.realizedDelta then .credit else .debit) order.orderId "paper_realized_pnl"
    have hpaid : ({ ((account.reserve plan.adjustment).credit
          (-order.estimatedCharges)).credit plan.realizedDelta with
        realizedPnl := account.realizedPnl + plan.realizedDelta } : Account) =
        account.settle plan.adjustment order.estimatedCharges plan.realizedDelta := by
      simp [Account.settle, Account.reserve, Account.credit, sub_eq_add_neg]
    simp only [hrealized]
    refine ⟨_, Prod.ext hpaid rfl, ?_⟩
    have hwritten := ((h₁₂.trans h₃ rfl).trans (Store.Funded.upsert s₃ _) rfl :
      s.Funded (s₃.upsertAccount { ((account.reserve plan.adjustment).credit
          (-order.estimatedCharges)).credit plan.realizedDelta with
        realizedPnl := account.realizedPnl + plan.realizedDelta }) _)
    rw [← hpaid]
    exact hwritten
  · next hzero =>
    have hpaid : (account.reserve plan.adjustment).credit (-order.estimatedCharges) =
        account.settle plan.adjustment order.estimatedCharges plan.realizedDelta := by
      simp [Account.settle, Account.reserve, Account.credit, not_not.mp hzero, sub_eq_add_neg]
    rw [← hpaid]
    exact ⟨s₂, rfl, h₁₂⟩

end Service

def Position.stamped (position : Position) (instant : Nat) : Position :=
  { position with updatedAt := instant }

namespace Service

theorem consumeLotsUow_rest (lots : List Lot) (remaining : Int) (s : Store) :
    consumeLotsUow lots remaining s = { s with lots := (consumeLotsUow lots remaining s).lots } := by
  induction lots generalizing remaining s with
  | nil => rfl
  | cons lot lots ih =>
    unfold consumeLotsUow
    split
    · rfl
    · split
      · exact ih remaining s
      · rw [ih]
        rfl

theorem attributeLotsUow_rest (order : Order) (tradeId : Nat) (price : ℚ) (s : Store) :
    attributeLotsUow order tradeId price s = { s with
        lots := (attributeLotsUow order tradeId price s).lots
        clock := (attributeLotsUow order tradeId price s).clock } := by
  unfold attributeLotsUow
  cases order.side with
  | buy => rfl
  | sell =>
    simp only [consumePositionLotsUow]
    split
    · rfl
    · rw [consumeLotsUow_rest]

theorem recordFillUow_orders (order : Order) (price : ℚ) (plan : FillPlan) (s : Store) :
    (recordFillUow order price plan s).2.orders = (s.updateOrder (order.completed price)).orders := by
  simp only [recordFillUow, Store.upsertPosition_orders]
  rw [attributeLotsUow_rest]
  simp

theorem recordFillUow_trades (order : Order) (price : ℚ) (plan : FillPlan) (s : Store) :
    (recordFillUow order price plan s).2.trades =
      s.trades ++ [{ order.trade price with tradeId := s.clock }] := by
  simp only [recordFillUow, Store.upsertPosition_trades]
  rw [attributeLotsUow_rest]
  simp [Store.insertTrade]

theorem recordFillUow_positions (order : Order) (price : ℚ) (plan : FillPlan) (s : Store) :
    ∃ instant, (recordFillUow order price plan s).2.positions = s.positions.upsert
      ((plan.position.settled order plan.margin price).stamped instant) := by
  refine ⟨(attributeLotsUow order s.clock price
    ((s.updateOrder (order.completed price)).insertTrade (order.trade price)).2).clock, ?_⟩
  simp only [recordFillUow, Store.upsertPosition]
  rw [attributeLotsUow_rest]
  simp [Store.insertTrade, Position.stamped]

theorem recordFillUow_accounts (order : Order) (price : ℚ) (plan : FillPlan) (s : Store) :
    (recordFillUow order price plan s).2.accounts = s.accounts := by
  simp only [recordFillUow, Store.upsertPosition_accounts]
  rw [attributeLotsUow_rest]
  simp

theorem recordFillUow_clock (order : Order) (price : ℚ) (plan : FillPlan) (s : Store) :
    s.clock ≤ (recordFillUow order price plan s).2.clock := by
  have hlots : ∀ (tradeId : Nat) (s : Store), s.clock ≤ (attributeLotsUow order tradeId price s).clock := by
    intro tradeId s
    unfold attributeLotsUow
    cases order.side with
    | buy => exact Nat.le_succ _
    | sell =>
      simp only [consumePositionLotsUow]
      split
      · exact Nat.le_refl _
      · rw [consumeLotsUow_rest]
  have hstep := hlots s.clock ((s.updateOrder (order.completed price)).insertTrade (order.trade price)).2
  simp only [Store.insertTrade, Store.updateOrder_clock] at hstep
  simp only [recordFillUow, Store.upsertPosition, Store.insertTrade, Store.updateOrder_clock]
  omega

end Service

end KiteAlgo.Paper
