import KiteAlgo.Paper.OwnLots

/-!
# KiteAlgo.Paper.Outlook

What an exit of a strategy will come to, said from the store alone.

`attributedQuantity` is what the trades of a strategy leave in a position, and what `get_run_state`
reports of it as long as its listings leave nothing out (`netOf_runState`).  `exitOutlook` follows an
exit up to its basket and asks whether the account takes the legs; `exitStrategy_result` says that
the exit ends so, and what its fills add.
-/

namespace KiteAlgo.Paper

open List
/-! ## what the trades of a run hold -/

/-- What a trade adds to the net quantity of its position. -/
def Trade.signedQuantity (trade : Trade) : Int :=
  match trade.side with
  | .buy => trade.quantity
  | .sell => -trade.quantity

/-- What a trade adds to a position for a strategy. -/
def Trade.adds (strategy : String) (key : PositionKey) (trade : Trade) : Int :=
  if trade.key = key ∧ strategyIdentity trade.attribution = some strategy then trade.signedQuantity
  else 0

/-- The net quantity that is attributed to a strategy in a position. -/
def Store.attributedQuantity (s : Store) (strategy : String) (key : PositionKey) : Int :=
  (s.trades.map (Trade.adds strategy key)).sum

/-- The strategy has a net quantity of zero in every instrument and product. -/
def Store.Flat (s : Store) (scope : Scope) (strategy : String) : Prop :=
  ∀ instrumentToken product, s.attributedQuantity strategy ⟨scope, instrumentToken, product⟩ = 0

/-- What a leg adds to the net quantity of a position. -/
def Service.Leg.adds (scope : Scope) (key : PositionKey) (leg : Service.Leg) : Int :=
  if leg.key scope = key then
    match sideOf? leg.request.transactionType with
    | some .buy => leg.request.quantity
    | some .sell => -leg.request.quantity
    | none => 0
  else 0

structure Trade.Fills (trade : Trade) (scope : Scope) (leg : Service.Leg) : Prop where
  key : trade.key = leg.key scope
  quantity : trade.quantity = leg.request.quantity
  side : sideOf? leg.request.transactionType = some trade.side
  attribution : trade.attribution = leg.attribution

variable {strategy : String} {trade : Trade}

theorem Trade.Fills.adds {scope : Scope} {leg : Service.Leg} (h : trade.Fills scope leg)
    (hown : strategyIdentity leg.attribution = some strategy) (key : PositionKey) :
    trade.adds strategy key = leg.adds scope key := by
  rw [Trade.adds, Service.Leg.adds, h.key, h.attribution, h.side]
  simp only [hown, and_true]
  split
  · rw [Trade.signedQuantity, h.quantity]
    cases trade.side <;> rfl
  · rfl

variable {trades : List Trade}

theorem sum_adds_of_fills {scope : Scope} {legs : List Service.Leg}
    (h : List.Forall₂ (fun trade leg => Trade.Fills trade scope leg) trades legs)
    (hown : ∀ leg ∈ legs, strategyIdentity leg.attribution = some strategy) (key : PositionKey) :
    (trades.map (Trade.adds strategy key)).sum = (legs.map (Service.Leg.adds scope key)).sum := by
  induction h with
  | nil => rfl
  | cons hfills _ ih =>
    rw [map_cons, map_cons, sum_cons, sum_cons,
      hfills.adds (hown _ (.head _)) key,
      ih fun leg hleg => hown leg (.tail _ hleg)]

theorem Store.attributedQuantity_append {s s' : Store} (h : s'.trades = s.trades ++ trades)
    (strategy : String) (key : PositionKey) :
    s'.attributedQuantity strategy key =
      s.attributedQuantity strategy key + (trades.map (Trade.adds strategy key)).sum := by
  rw [Store.attributedQuantity, h, map_append, sum_append, Store.attributedQuantity]

/-! ## what `get_run_state` reports -/

theorem LegState.netQuantity_trade (leg : LegState) (trade : Trade) :
    (leg.trade trade.side trade.quantity).netQuantity = leg.netQuantity + trade.signedQuantity := by
  cases hside : trade.side with
  | buy =>
    simp only [LegState.trade, Trade.signedQuantity, hside]
    rcases lt_trichotomy leg.netQuantity 0 with hneg | hzero | hpos
    · rw [abs_of_neg hneg]
      simp only [reduceCtorEq, and_false, or_false, if_true]
      repeat' split
      all_goals omega
    · simp [hzero]
    · simp [hpos]
  | sell =>
    simp only [LegState.trade, Trade.signedQuantity, hside]
    rcases lt_trichotomy leg.netQuantity 0 with hneg | hzero | hpos
    · simp [hneg]
    · simp [hzero]
    · rw [abs_of_pos hpos]
      simp only [reduceCtorEq, and_false, false_or, if_false]
      repeat' split
      all_goals omega

/-- The net quantity of a leg, none where there is no leg. -/
def netOf (legs : Dict (Int × String) LegState) (key : Int × String) : Int :=
  ((legs.get? key).map LegState.netQuantity).getD 0

/-- The orders of the trades have the products that the trades have. -/
def SameProducts (orders : List Order) (trades : List Trade) : Prop :=
  ∀ trade ∈ trades, ∀ order ∈ orders, order.orderId = trade.orderId → order.product = trade.product

def legAfter (orders : List Order) (legs : Dict (Int × String) LegState) (trade : Trade) :
    Dict (Int × String) LegState :=
  let order := orders.find? fun order => order.orderId = trade.orderId
  let product := (order.map Order.product).getD trade.product
  let fresh : LegState :=
    { instrumentToken := trade.instrumentToken
      product := product
      exchange := (order.map Order.exchange).getD trade.exchange
      tradingsymbol := (order.map Order.tradingsymbol).getD trade.tradingsymbol }
  let leg := (legs.get? (trade.instrumentToken, product)).getD fresh
  legs.set (trade.instrumentToken, product) (leg.trade trade.side trade.quantity)

theorem legStates_eq_foldl (orders : List Order) (trades : List Trade) :
    legStates orders trades =
      (sortBy (fun a b : Trade => a.tradeId ≤ b.tradeId) trades).foldl (legAfter orders) [] := rfl

variable {orders : List Order}

theorem netOf_legAfter
    (h : ∀ order ∈ orders, order.orderId = trade.orderId → order.product = trade.product)
    (legs : Dict (Int × String) LegState) (key : Int × String) :
    netOf (legAfter orders legs trade) key = netOf legs key +
      if (trade.instrumentToken, trade.product) = key then trade.signedQuantity else 0 := by
  have hproduct : ((orders.find? fun order => order.orderId = trade.orderId).map
      Order.product).getD trade.product = trade.product := by
    cases hfind : orders.find? fun order => order.orderId = trade.orderId with
    | none => rfl
    | some order =>
      have hid := find?_some hfind
      exact h order (mem_of_find?_eq_some hfind) (of_decide_eq_true hid)
  simp only [netOf, legAfter, hproduct, Dict.get?_set]
  split
  · next heq =>
      rw [← heq]
      simp only [Option.map_some, Option.getD_some, LegState.netQuantity_trade]
      cases legs.get? (trade.instrumentToken, trade.product) with
      | none => rfl
      | some leg => rfl
  · rw [add_zero]

theorem netOf_legStates (h : SameProducts orders trades) (key : Int × String) :
    netOf (legStates orders trades) key = (trades.map fun trade =>
        if (trade.instrumentToken, trade.product) = key then trade.signedQuantity else 0).sum := by
  have hfold : ∀ (sorted : List Trade) (legs : Dict (Int × String) LegState),
      SameProducts orders sorted → netOf (sorted.foldl (legAfter orders) legs) key =
        netOf legs key + (sorted.map fun trade =>
          if (trade.instrumentToken, trade.product) = key then trade.signedQuantity else 0).sum := by
    intro sorted
    induction sorted with
    | nil => exact fun legs _ => (add_zero _).symm
    | cons trade sorted ih =>
      intro legs hproducts
      rw [foldl_cons, ih _ fun other hother => hproducts other (.tail _ hother),
        netOf_legAfter (hproducts trade (.head _)), map_cons, sum_cons, add_assoc]
  have hperm := perm_sortBy (fun a b : Trade => a.tradeId ≤ b.tradeId) trades
  rw [legStates_eq_foldl, hfold _ _ fun trade htrade => h trade (hperm.mem_iff.mp htrade),
    (hperm.map _).sum_eq]
  exact zero_add _

theorem netOf_runState {s : Store} {scope : Scope} {limit : Nat} (hlimit : s.trades.length ≤ limit)
    (hproducts : SameProducts s.orders.rows s.trades) (instrumentToken : Int) (product : String) :
    netOf (legStates (s.listOrders scope limit) ((s.listTrades scope limit).filter fun trade =>
        strategyIdentity trade.attribution = some strategy)) (instrumentToken, product) =
      s.attributedQuantity strategy ⟨scope, instrumentToken, product⟩ := by
  have hall : s.listTrades scope limit = (s.trades.filter fun trade => trade.scope = scope).reverse := by
    refine take_of_length_le ?_
    rw [length_reverse]
    exact (length_filter_le _ _).trans hlimit
  have hlisted : SameProducts (s.listOrders scope limit) ((s.listTrades scope limit).filter
      fun trade => strategyIdentity trade.attribution = some strategy) := by
    intro trade htrade order horder
    refine hproducts trade ?_ order ?_
    · rw [hall] at htrade
      exact (mem_filter.mp (mem_reverse.mp (mem_filter.mp htrade).1)).1
    · exact (mem_filter.mp (mem_reverse.mp (mem_of_mem_take horder))).1
  rw [netOf_legStates hlisted, hall, filter_reverse, map_reverse, sum_reverse,
    filter_filter, Store.attributedQuantity]
  induction s.trades with
  | nil => rfl
  | cons trade trades ih =>
    rw [filter_cons, map_cons, sum_cons, ← ih]
    split
    · next hlists =>
        rw [Bool.and_eq_true, decide_eq_true_eq, decide_eq_true_eq] at hlists
        rw [map_cons, sum_cons]
        simp [Trade.adds, Trade.key, hlists.1, hlists.2]
    · next hlists =>
        have hother : trade.adds strategy ⟨scope, instrumentToken, product⟩ = 0 := by
          rw [Trade.adds, if_neg]
          rintro ⟨hkey, hown⟩
          have hscope : trade.scope = scope := congrArg PositionKey.scope hkey
          exact hlists (by simp [hscope, hown])
        rw [hother, zero_add]

/-! ## the trades of a basket -/

namespace Service

variable {svc : Service} {s s' : Store} {scope : Scope} {account account' : Account}
  {order : Order} {leg : Leg} {legs : List Leg} {result : Placed} {results : List Placed}

theorem applyAccountDeltaUow_trades (account : Account) (delta : ℚ) (orderId : Nat) (s : Store) :
    (applyAccountDeltaUow account delta orderId s).2.trades = s.trades := by
  unfold applyAccountDeltaUow
  split <;> rfl

theorem applyCashDeltaUow_trades (account : Account) (delta : ℚ) (entryType : EntryType)
    (orderId : Nat) (notes : String) (s : Store) :
    (applyCashDeltaUow account delta entryType orderId notes s).2.trades = s.trades := by
  unfold applyCashDeltaUow
  split <;> rfl

theorem settleFundsUow_trades (order : Order) (account : Account) (plan : FillPlan) (s : Store) :
    (settleFundsUow order account plan s).2.trades = s.trades := by
  have hadjust : (if plan.adjustment ≠ 0 then
      applyAccountDeltaUow account plan.adjustment order.orderId s else (account, s)).2.trades =
      s.trades := by
    split
    · exact applyAccountDeltaUow_trades account plan.adjustment order.orderId s
    · rfl
  rw [settleFundsUow]
  generalize (if plan.adjustment ≠ 0 then
    applyAccountDeltaUow account plan.adjustment order.orderId s else (account, s)) = adjusted
    at hadjust ⊢
  simp only
  split
  · rw [Store.upsertAccount_trades, applyCashDeltaUow_trades, applyCashDeltaUow_trades, hadjust]
  · rw [applyCashDeltaUow_trades, hadjust]

theorem persistUow_trades (order : Order) (request : Request) (snapshot : Snapshot) (s : Store) :
    (persistStopLimitTriggerStateUow order request snapshot s).2.trades = s.trades := by
  unfold persistStopLimitTriggerStateUow
  repeat' split
  · rfl
  · rfl
  · rfl
  · exact Store.updateOrder_trades s order.stopped

def LegTrades (scope : Scope) (leg : Leg) (result : Placed) (s s' : Store) : Prop :=
  s'.trades = s.trades ∧
      (result.isRejected = true ∨ shouldFillImmediately leg.request leg.snapshot = false) ∨
    ∃ trade, s'.trades = s.trades ++ [trade] ∧ trade.Fills scope leg

variable {existing : Option Position}

theorem fillOrderUow_trades {request : Request} {instrument : Instrument} {price : ℚ}
    (h : svc.fillOrderUow order account request instrument price existing s =
      .ok ((result, account'), s')) :
    result.isRejected ∧ s'.trades = s.trades ∨
      ∃ tradeId, s'.trades = s.trades ++ [{ order.trade price with tradeId := tradeId }] := by
  unfold fillOrderUow at h
  simp only at h
  split at h
  · left
    cases hrejected : buildRejectedResult order.scope request order.attribution fillRejection with
    | error failure =>
      rw [hrejected] at h
      cases h
    | ok answer =>
      rw [hrejected] at h
      cases h
      exact ⟨isRejected_buildRejectedResult hrejected, rfl⟩
  · right
    cases h
    rw [recordFillUow_trades, settleFundsUow_trades]
    exact ⟨_, rfl⟩

theorem bookOrderUow_trades {reference : ℚ} (hplaces : order.Places scope leg)
    (h : svc.bookOrderUow order account leg existing reference s = .ok ((result, account'), s')) :
    LegTrades scope leg result s s' := by
  have hpersisted := (persistUow_trades (s.insertOrder order).1 leg.request leg.snapshot _).trans
    (applyAccountDeltaUow_trades account (s.insertOrder order).1.reservedMargin
      (s.insertOrder order).1.orderId (s.insertOrder order).2)
  have hinserted : (s.insertOrder order).1.Places scope leg :=
    ⟨hplaces.key, hplaces.quantity, hplaces.side, hplaces.attribution⟩
  have hstopped := places_persistUow hinserted
    (applyAccountDeltaUow account (s.insertOrder order).1.reservedMargin
      (s.insertOrder order).1.orderId (s.insertOrder order).2).2
  unfold bookOrderUow at h
  simp only at h
  split at h
  · next hwaits =>
    cases h
    rw [Store.insertOrder_trades] at hpersisted
    exact .inl ⟨by rw [Store.updateOrder_trades, hpersisted], .inr (by simpa using hwaits)⟩
  · obtain ⟨hrejected, hsame⟩ | ⟨tradeId, htraded⟩ := fillOrderUow_trades h
    · exact .inl ⟨hsame.trans hpersisted, .inl hrejected⟩
    · rw [hpersisted, Store.insertOrder_trades] at htraded
      exact .inr ⟨_, htraded, hstopped.key, hstopped.quantity, hstopped.side, hstopped.attribution⟩

theorem placeOrderLockedUow_trades
    (h : svc.placeOrderLockedUow scope account leg s = .ok ((result, account'), s')) :
    LegTrades scope leg result s s' := by
  unfold placeOrderLockedUow at h
  simp only at h
  split at h
  · next reason hscreened =>
    cases hrejected : buildRejectedResult scope leg.request leg.attribution reason with
    | error failure =>
      rw [hrejected] at h
      cases h
    | ok answer =>
      rw [hrejected] at h
      cases h
      exact .inl ⟨rfl, .inl (isRejected_buildRejectedResult hrejected)⟩
  · split at h
    · cases h
    · next order haccepted =>
      obtain ⟨side, orderType, hside, -, rfl⟩ := acceptedOrder_eq haccepted
      exact bookOrderUow_trades ⟨rfl, rfl, hside, rfl⟩ h

theorem placeLegsUow_trades (h : svc.placeLegsUow scope legs account s = .ok (results, s'))
    (himmediate : ∀ leg ∈ legs, shouldFillImmediately leg.request leg.snapshot) :
    ∃ trades, s'.trades = s.trades ++ trades ∧
      List.Forall₂ (fun trade leg => Trade.Fills trade scope leg) trades legs := by
  induction legs generalizing account s results with
  | nil =>
    rw [placeLegsUow] at h
    cases h
    exact ⟨[], (append_nil _).symm, .nil⟩
  | cons leg legs ih =>
    rw [placeLegsUow] at h
    split at h
    · cases h
    · next result account' s₁ hleg =>
      split at h
      · cases h
      · next hnotRejected =>
        cases hlegs : svc.placeLegsUow scope legs account' s₁ with
        | error abort =>
          rw [hlegs] at h
          cases h
        | ok rest =>
          rw [hlegs] at h
          cases h
          obtain ⟨trades, htrades, hfills⟩ := ih hlegs fun other hother =>
            himmediate other (mem_cons_of_mem leg hother)
          obtain ⟨-, hwhy⟩ | ⟨trade, htrade, hfill⟩ := placeOrderLockedUow_trades hleg
          · rw [himmediate leg mem_cons_self] at hwhy
            rcases hwhy with hrejected | hwaits
            · exact absurd hrejected hnotRejected
            · cases hwaits
          · rw [htrade, append_assoc] at htrades
            exact ⟨trade :: trades, htrades, .cons hfill hfills⟩

end Service

/-! ## what an exit comes to -/

/-- What an exit comes to: it raises, is blocked or rejected, finds nothing, or places its legs. -/
inductive ExitOutlook where
  | raises
  | refused
  | nothing
  | sells (legs : List Service.Leg)

def ExitOutlook.replies : ExitOutlook → Bool
  | .raises => false
  | .refused | .nothing | .sells _ => true

/-- The exit leaves nothing of what it has planned. -/
def ExitOutlook.succeeds : ExitOutlook → Bool
  | .raises | .refused => false
  | .nothing | .sells _ => true

/-- What the legs of the exit add to the net quantity of a position. -/
def ExitOutlook.adds (scope : Scope) (key : PositionKey) : ExitOutlook → Int
  | .sells legs => (legs.map (Service.Leg.adds scope key)).sum
  | .raises | .refused | .nothing => 0

/-- What leaves the unit of work of a basket. -/
def Service.Abort.outlook : Service.Abort → ExitOutlook
  | .rejected _ => .refused
  | .raised _ => .raises

/-- The `status` of a reply. -/
def ExitReply.status : ExitReply → String
  | .blocked _ _ => "blocked"
  | .noop _ => "noop"
  | .placed result =>
    match result.status with
    | .success => "success"
    | .mixed => "partial"
    | .failed => "failed"

/-- The statuses after which a run is closed. -/
def closingStatuses : List String := ["success", "closed", "noop"]

def ExitReply.closes (reply : ExitReply) : Bool := closingStatuses.contains reply.status

namespace Service

variable (svc : Service) (scope : Scope) (strategyId : String) (newest : List Attribution → Nat)
  (market : Nat → Int → Snapshot)

/-- What an exit from a store comes to: its plan, the instruments of its orders, and whether the
account takes them one after another. -/
def exitOutlook (s : Store) : ExitOutlook :=
  let strategy := Text.strip strategyId
  if strategy = "" then .raises
  else if Text.startsWith strategy "manual:" || Text.startsWith strategy "unsupported:" then .refused
  else
    match ((planExit scope strategy newest).run s).1 with
    | .error (.noop _) => .nothing
    | .error _ => .refused
    | .ok plan =>
      match svc.prepareLegs scope (mergedAttribution plan.attribution []) market 0 plan.orders with
      | .error abort => abort.outlook
      | .ok legs =>
        match svc.basketUow scope legs s with
        | .error abort => abort.outlook
        | .ok _ => .sells legs

/-- How an exit ends that comes to an outlook. -/
inductive ExitResult (strategy : String) (s : Store) :
    ExitOutlook → Except Failure ExitReply × Store → Prop
  | raised (failure : Failure) : ExitResult strategy s .raises (.error failure, s)
  | refused {reply : ExitReply} (hstatus : reply.closes = false) :
      ExitResult strategy s .refused (.ok reply, s)
  | nothing (message : String) : ExitResult strategy s .nothing (.ok (.noop message), s)
  | sold {legs : List Leg} {result : BasketResult} {s' : Store} {trades : List Trade}
      (hstatus : result.status = .success) (htrades : s'.trades = s.trades ++ trades)
      (hfills : List.Forall₂ (fun trade leg => Trade.Fills trade scope leg) trades legs)
      (hown : ∀ leg ∈ legs, strategyIdentity leg.attribution = some strategy) :
      ExitResult strategy s (.sells legs) (.ok (.placed result), s')

variable {svc scope strategyId newest market}

theorem ExitResult.of_abort {strategy : String} {s : Store} (abort : Abort) :
    ExitResult scope strategy s abort.outlook (abort.reply.map ExitReply.placed, s) := by
  cases abort with
  | rejected placed => exact .refused rfl
  | raised failure => exact .raised failure

theorem exitStrategy_result (hmarket : svc.upper "MARKET" = "MARKET") (s : Store) :
    ExitResult scope (Text.strip strategyId) s (svc.exitOutlook scope strategyId newest market s)
      ((svc.exitStrategy scope strategyId newest market).run s) := by
  have hread := (readOnly_planExit scope newest (Text.strip strategyId)).run s
  simp only [exitStrategy, exitOutlook]
  split
  · exact .raised _
  · next hnamed =>
    cases hmanual : Text.startsWith (Text.strip strategyId) "manual:" with
    | true =>
      simp only [Bool.true_or, if_true]
      exact .refused rfl
    | false =>
      simp only [Bool.false_or, Bool.false_eq_true, if_false]
      split
      · exact .refused rfl
      · simp only [Prog.bind_eq, Prog.run_bind, hread]
        cases hplan : ((planExit scope (Text.strip strategyId) newest).run s).1 with
        | error reply =>
          cases reply with
          | blocked message reasons => exact .refused rfl
          | noop message => exact .nothing message
          | placed result => exact absurd rfl (planExit_error scope newest hplan result)
        | ok plan =>
          have hbasket : (svc.placeBasket scope { orders := plan.orders, allOrNone := true }
              plan.attribution market).run s = (svc.placeBasketAllOrNoneAtomic scope plan.orders
                (mergedAttribution plan.attribution []) market).run s := by
            rw [placeBasket, Prog.run_withLock]
            rfl
          obtain ⟨account, s₀, -, hstart, hcase⟩ := svc.basketUow_start scope s
          simp only [Prog.run_bind, hbasket, svc.run_placeBasketAllOrNoneAtomic hstart]
          cases hlegs : svc.prepareLegs scope (mergedAttribution plan.attribution []) market 0
              plan.orders with
          | error abort => exact .of_abort abort
          | ok legs =>
            have hown := exitLegs_own hmarket hnamed hplan hlegs
            simp only [hstart, Except.bind]
            cases hrun : svc.placeLegsUow scope legs account s₀ with
            | error abort => exact .of_abort abort
            | ok done =>
              obtain ⟨results, s'⟩ := done
              obtain ⟨trades, htrades, hfills⟩ := placeLegsUow_trades hrun
                fun leg hleg => (hown leg hleg).1
              have hsame : s₀.trades = s.trades := by
                rcases hcase with ⟨-, rfl⟩ | ⟨-, rfl⟩
                · rfl
                · rfl
              rw [hsame] at htrades
              exact .sold rfl htrades hfills fun leg hleg =>
                identity_of_run hnamed (hown leg hleg).2.1

theorem ExitResult.attributedQuantity {strategy : String} {s : Store} {outlook : ExitOutlook}
    {result : Except Failure ExitReply × Store} (h : ExitResult scope strategy s outlook result)
    (key : PositionKey) :
    result.2.attributedQuantity strategy key =
      s.attributedQuantity strategy key + outlook.adds scope key := by
  cases h with
  | raised failure => exact (add_zero _).symm
  | refused hstatus => exact (add_zero _).symm
  | nothing message => exact (add_zero _).symm
  | sold hstatus htrades hfills hown =>
    rw [Store.attributedQuantity_append htrades, sum_adds_of_fills hfills hown]
    rfl

end Service

end KiteAlgo.Paper
