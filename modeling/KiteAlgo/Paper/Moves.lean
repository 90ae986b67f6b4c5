import KiteAlgo.Paper.Basket

/-!
# KiteAlgo.Paper.Moves

What calls that run one after another do to the store, as a chain of moves: an account
is opened, an order is turned down, booked, touched, refused or filled, a position is
marked.

`moves_program` says that every call of the service is such a chain.  An invariant of
serial runs is then one case per move.  What a run must meet at its fills is the
parameter `T`: a condition on the order and the store its trade is inserted in.
-/

namespace KiteAlgo.Paper

open List Repository Keyed
/-- The catalog gives the symbol of the order the instrument it was placed for. -/
def Service.Knows (svc : Service) (order : Order) : Prop :=
  ∃ instrument, svc.getInstrument order.exchange order.tradingsymbol = some instrument ∧
    instrument.instrumentToken = order.instrumentToken

/-- A condition on inserted trades, as one on labels. -/
def onTrade (T : Order → Store → Prop) : Label → Store → Prop
  | .trade order, s => T order s
  | _, _ => True

instance (T : Order → Store → Prop) [∀ order s, Decidable (T order s)] (label : Label) (s : Store) :
    Decidable (onTrade T label s) := by
  unfold onTrade
  split <;> infer_instance

inductive Moves (svc : Service) (T : Order → Store → Prop) : Store → Store → Prop where
  | opened {s : Store} {scope : Scope} (habsent : s.accounts.get? scope = none) :
      Moves svc T s (s.upsertAccount (svc.freshAccount scope))
  | rejected {s : Store} {order : Order} (hstatus : order.status = .rejected) :
      Moves svc T s (s.insertOrder order).2
  | booked {s s' : Store} {order : Order} {account : Account} (hstatus : order.status = .pending)
      (hknows : svc.Knows order) (haccount : s.accounts.get? order.scope = some account)
      (hfunded : (s.insertOrder order).2.Funded s' (account.reserve order.reservedMargin)) :
      Moves svc T s s'
  | touched {s : Store} {order updated : Order} (hrow : s.orders.get? order.orderId = some order)
      (hpending : order.status.isPending)
      (hupdated : updated = order.stopped ∨ updated = order.opened) :
      Moves svc T s (s.updateOrder updated)
  | refused {s s' : Store} {order : Order} {account : Account}
      (hrow : s.orders.get? order.orderId = some order) (hpending : order.status.isPending)
      (haccount : s.accounts.get? order.scope = some account)
      (hfunded : (s.updateOrder order.refused).Funded s'
        (account.reserve (-order.reservedMargin))) :
      Moves svc T s s'
  | filled {s s' : Store} {order : Order} {account : Account} {instrument : Instrument} {price : ℚ}
      {plan : FillPlan} (hrow : s.orders.get? order.orderId = some order)
      (hpending : order.status.isPending)
      (haccount : s.accounts.get? order.scope = some account)
      (htoken : instrument.instrumentToken = order.instrumentToken)
      (hplan : plan = svc.fillPlan order (requestFromPaperOrder order) instrument price
        (s.getPosition order.key))
      (hfunded : s.Funded s'
        (account.settle plan.adjustment order.estimatedCharges plan.realizedDelta))
      (hcond : T order (s'.updateOrder (order.completed price))) :
      Moves svc T s (Service.recordFillUow order price plan s').2
  | marked {s : Store} {position : Position} {price : ℚ}
      (hrow : s.positions.get? position.key = some position) :
      Moves svc T s (s.upsertPosition (position.marked price))

abbrev MovesTo (svc : Service) (T : Order → Store → Prop) : Store → Store → Prop :=
  Relation.ReflTransGen (Moves svc T)

namespace Service

variable (svc : Service) {T : Order → Store → Prop}

theorem ensureAccount_moves (scope : Scope) (s : Store) :
    ∃ account s', (svc.ensureAccount scope).run s = (account, s') ∧
      s'.accounts.get? scope = some account ∧ MovesTo svc T s s' ∧
      s'.orders = s.orders ∧ s'.positions = s.positions := by
  cases haccount : s.accounts.get? scope with
  | some account =>
    exact ⟨account, s, svc.run_ensureAccount haccount, haccount, .refl, rfl, rfl⟩
  | none =>
    exact ⟨_, _, svc.run_ensureAccount_of_absent haccount,
      get?_upsert_self s.accounts (svc.freshAccount scope), .single (.opened haccount), rfl, rfl⟩

theorem rejectOrder_moves (scope : Scope) (request : Request) (attribution : Attribution)
    (reason : String) (s : Store) :
    MovesTo svc T s ((rejectOrder scope request attribution reason).run s).2 := by
  rw [run_rejectOrder]
  cases horder : rejectedOrder scope request attribution reason with
  | error failure => exact .refl
  | ok order =>
    have hstatus : order.status = .rejected := by
      unfold rejectedOrder paperOrder at horder
      split at horder
      · simp only [Except.map, Except.ok.injEq] at horder
        rw [← horder]
      · simp [Except.map] at horder
    exact .single (.rejected hstatus)

theorem fillOrder_moves {order : Order} {account : Account} {request : Request}
    {instrument : Instrument} {price : ℚ} {s : Store}
    (hrow : s.orders.get? order.orderId = some order) (hpending : order.status.isPending)
    (haccount : s.accounts.get? order.scope = some account)
    (htoken : instrument.instrumentToken = order.instrumentToken)
    (hdescribes : request.Describes order)
    (halong : (svc.fillOrder order account request instrument price
      (s.getPosition order.key)).Along (onTrade T) s) :
    MovesTo svc T s
      ((svc.fillOrder order account request instrument price (s.getPosition order.key)).run s).2 := by
  have hscope : account.scope = order.scope := key_of_get? haccount
  have hplan := fillPlan_of_describes svc hdescribes instrument price (s.getPosition order.key)
  have hheld : s.accounts.get? account.scope = some account := by rw [hscope, haccount]
  by_cases hfunds : account.availableFunds -
      (svc.fillPlan order request instrument price (s.getPosition order.key)).adjustment -
      order.estimatedCharges < 0
  · rw [svc.run_fillOrder_rejected hfunds]
    have hupdated : (s.updateOrder order.refused).accounts.get? account.scope = some account := by
      rw [Store.updateOrder_accounts, hheld]
    obtain ⟨s', hreserve, hfunded⟩ := applyAccountDeltaUow_spec hupdated (-order.reservedMargin)
      order.orderId
    rw [hreserve]
    exact .single (.refused hrow hpending haccount hfunded)
  · rw [svc.run_fillOrder_filled hfunds]
    obtain ⟨s', hsettled, hfunded⟩ := settleFundsUow_spec hheld order
      (svc.fillPlan order request instrument price (s.getPosition order.key))
    have hcond : T order (s'.updateOrder (order.completed price)) := by
      rw [fillOrder] at halong
      simp only [if_neg hfunds, Prog.bind_eq, Prog.along_bind, run_settleFunds, hsettled] at halong
      simp only [recordFill, Prog.bind_eq, Prog.along_bind, updateOrder, Prog.along_call,
        Prog.run_call, insertTrade] at halong
      exact halong.2.2.1
    rw [hsettled]
    exact .single (.filled hrow hpending haccount htoken hplan hfunded hcond)

theorem persist_moves {order : Order} {s : Store} (hrow : s.orders.get? order.orderId = some order)
    (hpending : order.status.isPending) (request : Request) (snapshot : Snapshot) :
    ∃ stored s', persistStopLimitTriggerStateUow order request snapshot s = (stored, s') ∧
      (stored = order ∨ stored = order.stopped) ∧ s'.orders.get? order.orderId = some stored ∧
      MovesTo svc T s s' ∧ s'.accounts = s.accounts ∧ s'.positions = s.positions ∧
      ∀ id, id ≠ order.orderId → s'.orders.get? id = s.orders.get? id := by
  have hkept : ∃ stored s', (order, s) = (stored, s') ∧
      (stored = order ∨ stored = order.stopped) ∧ s'.orders.get? order.orderId = some stored ∧
      MovesTo svc T s s' ∧ s'.accounts = s.accounts ∧ s'.positions = s.positions ∧
      ∀ id, id ≠ order.orderId → s'.orders.get? id = s.orders.get? id :=
    ⟨order, s, rfl, .inl rfl, hrow, .refl, rfl, rfl, fun _ _ => rfl⟩
  unfold persistStopLimitTriggerStateUow
  split
  · exact hkept
  · split
    · exact hkept
    · split
      · exact hkept
      · have horders : (s.updateOrder order.stopped).orders = s.orders.upsert order.stopped :=
          Store.updateOrder_orders hrow
        refine ⟨order.stopped, _, rfl, .inr rfl, ?_, .single (.touched hrow hpending (.inl rfl)),
          Store.updateOrder_accounts s _, Store.updateOrder_positions s _, ?_⟩
        · rw [horders]
          exact get?_upsert_self s.orders order.stopped
        · intro id hid
          have hne : order.stopped.orderId ≠ id := fun h => hid h.symm
          rw [horders, get?_upsert_of_ne hne]

theorem bookOrder_moves {order : Order} {account : Account} {request : Request}
    {instrument : Instrument} {snapshot : Snapshot} {reference : ℚ} {s : Store}
    (hstatus : order.status = .pending) (hknows : svc.Knows order)
    (haccount : s.accounts.get? order.scope = some account)
    (htoken : instrument.instrumentToken = order.instrumentToken)
    (hdescribes : request.Describes order)
    (halong : (svc.bookOrder order account request instrument snapshot (s.getPosition order.key)
      reference).Along (onTrade T) s) :
    MovesTo svc T s ((svc.bookOrder order account request instrument snapshot
      (s.getPosition order.key) reference).run s).2 := by
  have hscope : account.scope = order.scope := key_of_get? haccount
  have hinserted : (s.insertOrder order).2.accounts.get? account.scope = some account := by
    rw [Store.insertOrder_accounts, hscope, haccount]
  obtain ⟨s₁, hreserve, hfunded⟩ := applyAccountDeltaUow_spec hinserted order.reservedMargin s.clock
  have hbooked : MovesTo svc T s s₁ := .single (.booked hstatus hknows haccount hfunded)
  have hrow₁ : s₁.orders.get? (order.withId s.clock).orderId = some (order.withId s.clock) := by
    rw [hfunded.orders]
    exact get?_upsert_self s.orders (order.withId s.clock)
  have hpending : (order.withId s.clock).status.isPending := by
    have hsame : (order.withId s.clock).status = .pending := hstatus
    rw [hsame]
    rfl
  obtain ⟨stored, s₂, hpersist, hstored, hrow₂, hmoves₂, haccounts, hpositions, -⟩ :=
    svc.persist_moves (T := T) hrow₁ hpending request snapshot
  have hinsert : (s.insertOrder order).1 = order.withId s.clock := rfl
  have hid : (order.withId s.clock).orderId = s.clock := rfl
  have hmargin : (order.withId s.clock).reservedMargin = order.reservedMargin := rfl
  rw [bookOrder] at halong ⊢
  simp only [Prog.bind_eq, Prog.run_bind, Prog.along_bind, run_applyAccountDelta,
    run_persistStopLimitTriggerState, insertOrder, Prog.run_call, hinsert, hid, hmargin,
    hreserve, hpersist] at halong ⊢
  -- what the fill reads of the stored order is what was booked
  have hsame : stored.scope = order.scope ∧ stored.key = order.key ∧
      stored.instrumentToken = order.instrumentToken ∧ stored.status.isPending ∧
      stored.orderId = s.clock ∧ request.Describes stored := by
    rcases hstored with rfl | rfl
    · exact ⟨rfl, rfl, rfl, hpending, rfl, ⟨hdescribes.exchange, hdescribes.tradingsymbol,
        hdescribes.product, hdescribes.quantity, hdescribes.side⟩⟩
    · exact ⟨rfl, rfl, rfl, hpending, rfl, ⟨hdescribes.exchange, hdescribes.tradingsymbol,
        hdescribes.product, hdescribes.quantity, hdescribes.side⟩⟩
  obtain ⟨hscope₂, hkey, htoken₂, hpending₂, hid₂, hdescribes₂⟩ := hsame
  have hrow : s₂.orders.get? stored.orderId = some stored := by rw [hid₂]; exact hrow₂
  split at halong
  · next hfill =>
    simp only [hfill, if_true]
    have hposition : s.getPosition order.key = s₂.getPosition stored.key := by
      rw [Store.getPosition, Store.getPosition, hpositions, hfunded.positions, hkey]
      rfl
    have haccount₂ : s₂.accounts.get? stored.scope = some (account.reserve order.reservedMargin) := by
      rw [haccounts, hscope₂, ← hscope]
      exact hfunded.self
    rw [hposition] at halong ⊢
    exact (hbooked.trans hmoves₂).trans (svc.fillOrder_moves hrow hpending₂ haccount₂
      (htoken.trans htoken₂.symm) hdescribes₂ halong.2.2.2)
  · next hfill =>
    simp only [hfill]
    exact (hbooked.trans hmoves₂).trans (.single (.touched hrow hpending₂ (.inr rfl)))

/-! ## placement -/

theorem placeRequest_moves {scope : Scope} {request : Request} {attribution : Attribution}
    {market : Int → Snapshot} {s : Store}
    (halong : (svc.placeRequest scope request attribution market).Along (onTrade T) s) :
    MovesTo svc T s ((svc.placeRequest scope request attribution market).run s).2 := by
  obtain ⟨account, s₁, hensure, haccount, hmoves, -, -⟩ :=
    svc.ensureAccount_moves (T := T) scope s
  rw [placeRequest] at halong ⊢
  simp only [Prog.bind_eq, Prog.run_bind, Prog.along_bind, hensure] at halong ⊢
  refine hmoves.trans ?_
  replace halong := halong.2
  cases hinstrument : svc.getInstrument request.exchange request.tradingsymbol with
  | none => exact svc.rejectOrder_moves scope request attribution _ s₁
  | some instrument =>
    simp only [hinstrument, Prog.run_bind, Prog.along_bind, getPosition,
      Prog.run_read] at halong ⊢
    replace halong := halong.2
    cases hscreen : svc.screenOrder scope account request instrument
        (market instrument.instrumentToken)
        (s₁.getPosition ⟨scope, instrument.instrumentToken, request.product⟩) with
    | error reason => exact svc.rejectOrder_moves scope request attribution reason s₁
    | ok terms =>
      simp only [hscreen] at halong ⊢
      cases horder : acceptedOrder scope request instrument attribution terms.margin
          terms.charges with
      | error failure => exact .refl
      | ok order =>
        simp only [horder, Prog.run_bind, Prog.along_bind] at halong ⊢
        obtain ⟨side, orderType, hside, -, rfl⟩ := acceptedOrder_eq horder
        exact svc.bookOrder_moves rfl ⟨instrument, hinstrument, rfl⟩ haccount rfl
          ⟨rfl, rfl, rfl, rfl, hside⟩ halong.1

theorem placeOrderLocked_moves {scope : Scope} {payload : OrderPayload} {attribution : Attribution}
    {market : Int → Snapshot} {s : Store}
    (halong : (svc.placeOrderLocked scope payload attribution market).Along (onTrade T) s) :
    MovesTo svc T s ((svc.placeOrderLocked scope payload attribution market).run s).2 := by
  unfold placeOrderLocked at halong ⊢
  cases hrequest : normalizeOrderRequest svc.upper payload with
  | error failure => exact .refl
  | ok request =>
    simp only [hrequest] at halong
    exact svc.placeRequest_moves halong

theorem placeSequence_moves {scope : Scope} {attribution : Attribution}
    {market : Nat → Int → Snapshot} {index : Nat} {payloads : List OrderPayload} {s : Store}
    (halong : (svc.placeSequence scope attribution market index payloads).Along (onTrade T) s) :
    MovesTo svc T s ((svc.placeSequence scope attribution market index payloads).run s).2 := by
  induction payloads generalizing index s with
  | nil => exact .refl
  | cons payload payloads ih =>
    rw [placeSequence] at halong ⊢
    simp only [Prog.bind_eq, Prog.run_bind, Prog.along_bind] at halong ⊢
    refine (svc.placeOrderLocked_moves halong.1).trans ?_
    replace halong := halong.2
    split at halong
    · exact .refl
    · simp only [Prog.run_bind, Prog.along_bind] at halong ⊢
      have hrest := ih halong.1
      split <;> exact hrest

theorem along_placeSequence_of_absent {scope : Scope} {attribution : Attribution}
    {market : Nat → Int → Snapshot} {index : Nat} {payloads : List OrderPayload} {s : Store}
    (habsent : s.accounts.get? scope = none)
    (halong : (svc.placeSequence scope attribution market index payloads).Along (onTrade T) s) :
    (svc.placeSequence scope attribution market index payloads).Along (onTrade T)
      (s.upsertAccount (svc.freshAccount scope)) := by
  have hstored : (s.upsertAccount (svc.freshAccount scope)).accounts.get? scope =
      some (svc.freshAccount scope) :=
    get?_upsert_self s.accounts (svc.freshAccount scope)
  have hensure : (svc.ensureAccount scope).Along (onTrade T)
      (s.upsertAccount (svc.freshAccount scope)) := by
    simp [ensureAccount, getAccount, hstored, onTrade]
  cases payloads with
  | nil => trivial
  | cons payload payloads =>
    rw [placeSequence] at halong ⊢
    simp only [Prog.bind_eq, Prog.along_bind, placeOrderLocked] at halong ⊢
    cases hrequest : normalizeOrderRequest svc.upper payload with
    | error failure => simp
    | ok request =>
      simp only [hrequest, placeRequest, Prog.bind_eq, Prog.run_bind, Prog.along_bind,
        svc.run_ensureAccount_of_absent habsent, svc.run_ensureAccount hstored] at halong ⊢
      exact ⟨⟨hensure, halong.1.2⟩, halong.2⟩

theorem allOrNone_moves {scope : Scope} {attribution : Attribution}
    {market : Nat → Int → Snapshot} {orders : List OrderPayload} {s : Store}
    (halong : (svc.placeSequence scope attribution market 0 orders).Along (onTrade T) s) :
    MovesTo svc T s ((svc.placeBasketAllOrNoneAtomic scope orders attribution market).run s).2 := by
  obtain ⟨account, s', haccount, hstart, hcase⟩ := svc.basketUow_start scope s
  rw [svc.run_placeBasketAllOrNoneAtomic hstart]
  cases houtcome : (svc.prepareLegs scope attribution market 0 orders).bind fun legs =>
      svc.placeLegsUow scope legs account s' with
  | error abort => exact .refl
  | ok out =>
    have hcommitted := svc.sequence_of_committed haccount houtcome
    rcases hcase with ⟨-, rfl⟩ | ⟨habsent, rfl⟩
    · have hmoves := svc.placeSequence_moves halong
      rw [hcommitted] at hmoves
      exact hmoves
    · have hmoves := svc.placeSequence_moves (svc.along_placeSequence_of_absent habsent halong)
      rw [hcommitted] at hmoves
      exact .head (.opened habsent) hmoves

/-! ## ticks -/

/-- The catalog knows every order that waits for the market. -/
def KnowsOrders (s : Store) : Prop :=
  ∀ id order, s.orders.get? id = some order → order.status.isPending = true → svc.Knows order

variable {svc} in
theorem KnowsOrders.upsert {s s' : Store} (h : svc.KnowsOrders s) {row : Order}
    (horders : s'.orders = s.orders.upsert row)
    (hrow : row.status.isPending → svc.Knows row) : svc.KnowsOrders s' := by
  intro id order hget hpending
  rw [horders, get?_upsert] at hget
  split at hget
  · cases hget
    exact hrow hpending
  · exact h id order hget hpending

variable {svc} in
theorem KnowsOrders.move {s s' : Store} (h : svc.KnowsOrders s) (hmove : Moves svc T s s') :
    svc.KnowsOrders s' := by
  cases hmove with
  | opened _ => exact h
  | @rejected order hstatus =>
    refine @KnowsOrders.upsert svc s _ h (order.withId s.clock) rfl fun hpending => ?_
    have hrejected : (order.withId s.clock).status = .rejected := hstatus
    rw [hrejected] at hpending
    simp [OrderStatus.isPending] at hpending
  | @booked _ order account hstatus hknows _ hfunded =>
    exact @KnowsOrders.upsert svc s _ h (order.withId s.clock) hfunded.orders fun _ => hknows
  | @touched order updated hrow hpending hupdated =>
    have hold : svc.Knows order := h _ _ hrow hpending
    have hknows : svc.Knows updated := by
      rcases hupdated with rfl | rfl
      · exact hold
      · exact hold
    have hstored : s.orders.get? updated.orderId = some order := by
      rcases hupdated with rfl | rfl
      · exact hrow
      · exact hrow
    exact h.upsert (Store.updateOrder_orders hstored) fun _ => hknows
  | @refused _ order account hrow _ _ hfunded =>
    refine @KnowsOrders.upsert svc s _ h order.refused
      (hfunded.orders.trans (Store.updateOrder_orders hrow)) fun hpending => ?_
    simp [Order.refused, OrderStatus.isPending] at hpending
  | @filled s₁ order account instrument price plan hrow _ _ _ _ hfunded _ =>
    have hrow₁ : s₁.orders.get? (order.completed price).orderId = some order := by
      rw [hfunded.orders]
      exact hrow
    have horders := (recordFillUow_orders order price plan s₁).trans
      (Store.updateOrder_orders hrow₁)
    rw [hfunded.orders] at horders
    refine h.upsert horders fun hpending => ?_
    simp [Order.completed, OrderStatus.isPending] at hpending
  | marked _ => exact h

variable {svc} in
theorem KnowsOrders.moves {s s' : Store} (h : svc.KnowsOrders s) (hmoves : MovesTo svc T s s') :
    svc.KnowsOrders s' := by
  induction hmoves with
  | refl => exact h
  | tail _ hmove ih => exact ih.move hmove

theorem fillOrder_orders {order : Order} {account : Account} {request : Request}
    {instrument : Instrument} {price : ℚ} {existing : Option Position} {s : Store}
    (hrow : s.orders.get? order.orderId = some order)
    (haccount : s.accounts.get? order.scope = some account) {id : Nat} (hid : id ≠ order.orderId) :
    ((svc.fillOrder order account request instrument price existing).run s).2.orders.get? id =
      s.orders.get? id := by
  have hscope : account.scope = order.scope := key_of_get? haccount
  have hheld : s.accounts.get? account.scope = some account := by rw [hscope, haccount]
  by_cases hfunds : account.availableFunds -
      (svc.fillPlan order request instrument price existing).adjustment - order.estimatedCharges < 0
  · have hupdated : (s.updateOrder order.refused).accounts.get? account.scope = some account := by
      rw [Store.updateOrder_accounts, hheld]
    obtain ⟨s', hreserve, hfunded⟩ := applyAccountDeltaUow_spec hupdated (-order.reservedMargin)
      order.orderId
    have hne : order.refused.orderId ≠ id := fun h => hid h.symm
    have horders : (s.updateOrder order.refused).orders = s.orders.upsert order.refused :=
      Store.updateOrder_orders hrow
    rw [svc.run_fillOrder_rejected hfunds, hreserve, hfunded.orders, horders, get?_upsert_of_ne hne]
  · obtain ⟨s', hsettled, hfunded⟩ := settleFundsUow_spec hheld order
      (svc.fillPlan order request instrument price existing)
    have hrow' : s'.orders.get? (order.completed price).orderId = some order := by
      rw [hfunded.orders]
      exact hrow
    have hne : (order.completed price).orderId ≠ id := fun h => hid h.symm
    rw [svc.run_fillOrder_filled hfunds, hsettled, recordFillUow_orders,
      Store.updateOrder_orders hrow', hfunded.orders, get?_upsert_of_ne hne]

theorem tickOrder_moves {tick : Tick} {order : Order} {s : Store}
    (hrow : s.orders.get? order.orderId = some order) (hpending : order.status.isPending)
    (hknows : svc.Knows order) (halong : (svc.tickOrder tick order).Along (onTrade T) s) :
    MovesTo svc T s ((svc.tickOrder tick order).run s).2 ∧ ∀ id, id ≠ order.orderId →
        ((svc.tickOrder tick order).run s).2.orders.get? id = s.orders.get? id := by
  obtain ⟨stored, s₁, hpersist, hstored, hrow₁, hmoves₁, -, -, hframe₁⟩ :=
    svc.persist_moves (T := T) hrow hpending (requestFromPaperOrder order) tick.snapshot
  have hsame : stored.orderId = order.orderId ∧ stored.status.isPending ∧ svc.Knows stored := by
    rcases hstored with rfl | rfl
    · exact ⟨rfl, hpending, hknows⟩
    · exact ⟨rfl, hpending, hknows⟩
  obtain ⟨hid, hpending₁, hknows₁⟩ := hsame
  rw [tickOrder] at halong ⊢
  simp only [Prog.bind_eq, Prog.run_bind, Prog.along_bind, run_persistStopLimitTriggerState,
    hpersist] at halong ⊢
  replace halong := halong.2
  split at halong
  · next htrigger =>
    simp only [htrigger, if_true, Prog.run_withLock, Prog.along_withLock] at halong ⊢
    obtain ⟨account, s₂, hensure, haccount, hmoves₂, horders₂, -⟩ :=
      svc.ensureAccount_moves (T := T) stored.scope s₁
    rw [fillListed] at halong ⊢
    simp only [Prog.bind_eq, Prog.run_bind, Prog.along_bind, hensure, getPosition,
      Prog.run_read] at halong ⊢
    replace halong := halong.2.2
    have hframe₂ : ∀ id, id ≠ order.orderId → s₂.orders.get? id = s.orders.get? id := by
      intro id hne
      rw [horders₂]
      exact hframe₁ id hne
    obtain ⟨instrument, hinstrument, htoken⟩ := hknows₁
    simp only [hinstrument, Prog.run_bind, Prog.along_bind] at halong ⊢
    have hrow₂ : s₂.orders.get? stored.orderId = some stored := by
      rw [horders₂, hid]
      exact hrow₁
    refine ⟨(hmoves₁.trans hmoves₂).trans (svc.fillOrder_moves hrow₂ hpending₁ haccount htoken
      (describes_requestFromPaperOrder stored) halong.1), fun id hne => ?_⟩
    rw [← hid] at hne
    exact (svc.fillOrder_orders hrow₂ haccount hne).trans (hframe₂ id (hid ▸ hne))
  · next htrigger =>
    simp only [htrigger]
    exact ⟨hmoves₁, hframe₁⟩

theorem tickOrders_moves {tick : Tick} {orders : List Order} {s : Store}
    (hknows : svc.KnowsOrders s)
    (hrows : ∀ order ∈ orders, s.orders.get? order.orderId = some order ∧ order.status.isPending)
    (hdistinct : (orders.map Order.orderId).Nodup)
    (halong : (svc.tickOrders tick orders).Along (onTrade T) s) :
    MovesTo svc T s ((svc.tickOrders tick orders).run s).2 := by
  induction orders generalizing s with
  | nil => exact .refl
  | cons order orders ih =>
    obtain ⟨hrow, hpending⟩ := hrows order (.head _)
    rw [map_cons, nodup_cons] at hdistinct
    rw [tickOrders] at halong ⊢
    simp only [Prog.bind_eq, Prog.run_bind, Prog.along_bind] at halong ⊢
    obtain ⟨hmoves, hframe⟩ := svc.tickOrder_moves hrow hpending (hknows _ _ hrow hpending)
      halong.1
    refine hmoves.trans (ih (hknows.moves hmoves) (fun other hother => ?_) hdistinct.2 halong.2)
    have hne : other.orderId ≠ order.orderId := by
      intro heq
      exact hdistinct.1 (heq ▸ mem_map_of_mem hother)
    rw [hframe other.orderId hne]
    exact hrows other (.tail _ hother)

theorem markPositions_moves {tick : Tick} {positions : List Position} {s : Store}
    (hrows : ∀ position ∈ positions, s.positions.get? position.key = some position)
    (hdistinct : (positions.map Position.key).Nodup) :
    MovesTo svc T s ((markPositions tick positions).run s).2 := by
  induction positions generalizing s with
  | nil => exact .refl
  | cons position positions ih =>
    rw [map_cons, nodup_cons] at hdistinct
    rw [markPositions]
    simp only [Prog.bind_eq, Prog.run_bind, Prog.run_withLock, markToMarket]
    split
    · exact ih (fun other hother => hrows other (.tail _ hother)) hdistinct.2
    · have hrow := hrows position (.head _)
      refine .head (.marked hrow) (ih (fun other hother => ?_) hdistinct.2)
      have hne : ({ position.marked tick.snapshot.last with
          updatedAt := s.clock } : Position).key ≠ other.key := by
        intro heq
        have hkey : position.key = other.key := heq
        exact hdistinct.1 (hkey ▸ mem_map_of_mem hother)
      rw [← hrows other (.tail _ hother)]
      exact get?_upsert_of_ne hne s.positions

theorem processTick_moves {tick : Tick} {s : Store} (hknows : svc.KnowsOrders s)
    (halong : (svc.processTick tick).Along (onTrade T) s) :
    MovesTo svc T s ((svc.processTick tick).run s).2 := by
  unfold processTick at halong ⊢
  split
  · exact .refl
  · next htoken =>
    simp only [if_neg htoken, Prog.bind_eq, Prog.run_bind, Prog.along_bind, Prog.run_read,
      listPendingOrdersForInstrument, listOpenPositionsForInstrument] at halong ⊢
    have horders := svc.tickOrders_moves hknows
      (fun order horder =>
        have hlisted := Store.mem_listPendingOrdersForInstrument horder
        ⟨hlisted.1, hlisted.2.1⟩)
      (Store.nodup_listPendingOrdersForInstrument s tick.instrumentToken) halong.2.1
    refine horders.trans (svc.markPositions_moves (fun position hposition => ?_) ?_)
    · exact Store.mem_listOpenPositionsForInstrument hposition
    · exact Store.nodup_listOpenPositionsForInstrument _ tick.instrumentToken

end Service

theorem Store.Fresh.knowsOrders {s : Store} (h : s.Fresh) (svc : Service) : svc.KnowsOrders s := by
  intro id order hget
  simp [get?, h.orders] at hget

/-! ## calls -/

/-- What a call meets at its fills.  An all-or-none basket commits what its orders write
one after another, so it is asked of them. -/
def Call.Along (svc : Service) (T : Order → Store → Prop) : Call → Store → Prop
  | .placeOrder scope payload attribution market, s =>
    (svc.placeOrder scope payload attribution market).Along (onTrade T) s
  | .placeBasket scope basket attribution market, s =>
    (svc.placeBasket scope { basket with allOrNone := false } attribution market).Along
      (onTrade T) s
  | .processTick tick, s => (svc.processTick tick).Along (onTrade T) s

theorem moves_program (svc : Service) {T : Order → Store → Prop} {call : Call} {s : Store}
    (hknows : svc.KnowsOrders s) (halong : call.Along svc T s) :
    MovesTo svc T s ((svc.program call).run s).2 := by
  cases call with
  | placeOrder scope payload attribution market =>
    simp only [Call.Along, Service.placeOrder, Prog.along_withLock] at halong
    simp only [Service.program, Service.placeOrder, Prog.bind_eq, Prog.run_bind, Prog.run_withLock]
    exact svc.placeOrderLocked_moves halong
  | placeBasket scope basket attribution market =>
    simp only [Call.Along, Service.placeBasket, Prog.along_withLock, Service.placeBasketLocked,
      Bool.false_eq_true, if_false, Prog.bind_eq, Prog.along_bind] at halong
    simp only [Service.program, Service.placeBasket, Prog.bind_eq, Prog.run_bind,
      Prog.run_withLock, Service.placeBasketLocked]
    split
    · exact svc.allOrNone_moves halong.1
    · rw [Prog.run_bind]
      exact svc.placeSequence_moves halong.1
  | processTick tick =>
    simp only [Service.program, Prog.bind_eq, Prog.run_bind]
    exact svc.processTick_moves hknows halong

/-- Every call of a serial run meets `T` at its fills. -/
def SerialAlong (svc : Service) (T : Order → Store → Prop) : List Call → Store → Prop
  | [], _ => True
  | call :: calls, s => call.Along svc T s ∧ SerialAlong svc T calls ((svc.program call).run s).2

instance (svc : Service) (T : Order → Store → Prop) [∀ order s, Decidable (T order s)]
    (call : Call) (s : Store) : Decidable (call.Along svc T s) := by
  cases call <;> exact Prog.decidableAlong _ _ _

instance decidableSerialAlong (svc : Service) (T : Order → Store → Prop)
    [∀ order s, Decidable (T order s)] :
    (calls : List Call) → (s : Store) → Decidable (SerialAlong svc T calls s)
  | [], _ => .isTrue trivial
  | call :: calls, s =>
    have := decidableSerialAlong svc T calls ((svc.program call).run s).2
    inferInstanceAs (Decidable
      (call.Along svc T s ∧ SerialAlong svc T calls ((svc.program call).run s).2))

theorem moves_serial (svc : Service) {T : Order → Store → Prop} {calls : List Call} {s : Store}
    (hknows : svc.KnowsOrders s) (halong : SerialAlong svc T calls s) :
    MovesTo svc T s (svc.serial calls s) := by
  induction calls generalizing s with
  | nil => exact .refl
  | cons call calls ih =>
    have hmoves := moves_program svc hknows halong.1
    exact hmoves.trans (ih (hknows.moves hmoves) halong.2)

theorem serialAlong_true (svc : Service) (calls : List Call) (s : Store) :
    SerialAlong svc (fun _ _ => True) calls s := by
  have htrue : onTrade (fun _ _ => True) = fun _ _ => True := by
    funext label s
    cases label <;> rfl
  induction calls generalizing s with
  | nil => trivial
  | cons call calls ih =>
    refine ⟨?_, ih _⟩
    cases call <;> (simp only [Call.Along, htrue]; exact Prog.along_true _ s)

end KiteAlgo.Paper
