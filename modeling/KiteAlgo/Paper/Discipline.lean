import KiteAlgo.Paper.Moves

/-!
# KiteAlgo.Paper.Discipline

The calls of the service among other calls.

A `Discipline` names an assertion for each point of a call: outside the locks (`out`),
under the lock of an account (`held`), with the position read (`seen`), before the fill of
an order (`ready`), and what is known of an order that a tick has listed (`listed`).  Its
`Rules` say what each repository call makes of them.  `Rules.safe` goes through the
programs once: every call of a disciplined service keeps the protocol.
-/

namespace KiteAlgo.Paper

theorem Request.Describes.stored {request : Request} {order stored : Order} {id : Nat}
    (hdescribes : request.Describes order)
    (h : stored = order.withId id ∨ stored = (order.withId id).stopped) :
    stored.scope = order.scope ∧ stored.exchange = order.exchange ∧
      stored.tradingsymbol = order.tradingsymbol ∧ request.Describes stored := by
  rcases h with rfl | rfl
  · exact ⟨rfl, rfl, rfl, hdescribes.1, hdescribes.2, hdescribes.3, hdescribes.4, hdescribes.5⟩
  · exact ⟨rfl, rfl, rfl, hdescribes.1, hdescribes.2, hdescribes.3, hdescribes.4, hdescribes.5⟩

/-- A protocol, and an assertion for each point of a call of thread `i`. -/
structure Discipline where
  guar : Nat → World Scope Store → World Scope Store → Prop
  cond : Label → Store → Prop
  out : Nat → World Scope Store → Prop
  held : Nat → Scope → World Scope Store → Prop
  seen : Nat → PositionKey → Option Position → World Scope Store → Prop
  ready : Nat → Order → Option Position → World Scope Store → Prop
  listed : Order → World Scope Store → Prop

namespace Discipline

/-- The protocol of steps that find what they may. -/
abbrev protocol (D : Discipline) : Protocol Scope Label Store := { guar := D.guar, cond := D.cond }

abbrev unconditional (D : Discipline) : Protocol Scope Label Store := { guar := D.guar }

/-! ## what is not watched -/

/-- Accounts, lots and the ledger are not watched. -/
def Unwatched (D : Discipline) : Prop :=
  ∀ i w w', w'.holder = w.holder → w'.store.orders = w.store.orders →
    w'.store.trades = w.store.trades → w'.store.positions = w.store.positions →
    w.store.clock ≤ w'.store.clock → D.guar i w w'

namespace Unwatched

variable {D : Discipline} {svc : Service} (h : D.Unwatched)

include h

open Service Repository

theorem neutral_read {α : Type} (label : Label) (f : Store → α) :
    (Prog.read label f : Task α).Neutral D.unconditional :=
  .call fun j w => h j w _ rfl rfl rfl rfl (Nat.le_refl _)

theorem neutral_upsertAccount (account : Account) :
    (upsertAccount account).Neutral D.unconditional :=
  .call fun j w => h j w _ rfl rfl rfl rfl (Nat.le_refl _)

theorem neutral_appendFundLedgerEntry (entry : LedgerEntry) :
    (appendFundLedgerEntry entry).Neutral D.unconditional :=
  .call fun j w => h j w _ rfl rfl rfl rfl (Nat.le_refl _)

theorem neutral_insertLot (lot : Lot) : (insertLot lot).Neutral D.unconditional :=
  .call fun j w => h j w _ rfl rfl rfl rfl (Nat.le_succ _)

theorem neutral_updateLot (lot : Lot) : (updateLot lot).Neutral D.unconditional :=
  .call fun j w => h j w _ rfl rfl rfl rfl (Nat.le_refl _)

theorem neutral_ensureAccount (scope : Scope) :
    (svc.ensureAccount scope).Neutral D.unconditional := by
  refine Prog.Neutral.bind (h.neutral_read _ _) fun account => ?_
  cases account with
  | none => exact h.neutral_upsertAccount _
  | some account => exact .ret account

theorem neutral_applyAccountDelta (account : Account) (delta : ℚ) (orderId : Nat) :
    (applyAccountDelta account delta orderId).Neutral D.unconditional := by
  unfold applyAccountDelta
  split
  · exact .ret account
  · exact (h.neutral_upsertAccount _).bind fun updated =>
      (h.neutral_appendFundLedgerEntry _).bind fun _ => .ret updated

theorem neutral_applyCashDelta (account : Account) (delta : ℚ) (entryType : EntryType)
    (orderId : Nat) (notes : String) :
    (applyCashDelta account delta entryType orderId notes).Neutral D.unconditional := by
  unfold applyCashDelta
  split
  · exact .ret account
  · exact (h.neutral_upsertAccount _).bind fun updated =>
      (h.neutral_appendFundLedgerEntry _).bind fun _ => .ret updated

theorem neutral_settleFunds (order : Order) (account : Account) (plan : FillPlan) :
    (settleFunds order account plan).Neutral D.unconditional := by
  have hadjust : (applyMarginAdjustment account plan.adjustment order.orderId).Neutral
      D.unconditional := by
    unfold applyMarginAdjustment
    split
    · exact h.neutral_applyAccountDelta account plan.adjustment order.orderId
    · exact .ret account
  refine hadjust.bind fun account => (h.neutral_applyCashDelta account _ _ _ _).bind fun account => ?_
  unfold applyRealizedDelta
  split
  · exact (h.neutral_applyCashDelta account _ _ _ _).bind fun account => h.neutral_upsertAccount _
  · exact .ret account

theorem neutral_consumeLots (lots : List Lot) (remaining : Int) :
    (consumeLots lots remaining).Neutral D.unconditional := by
  induction lots generalizing remaining with
  | nil => exact .ret ()
  | cons lot lots ih =>
    unfold consumeLots
    split
    · exact .ret ()
    · split
      · exact ih remaining
      · exact (h.neutral_updateLot _).bind fun _ => ih _

theorem neutral_attributeLots (order : Order) (tradeId : Nat) (price : ℚ) :
    (attributeLots order tradeId price).Neutral D.unconditional := by
  unfold attributeLots
  cases order.side with
  | buy => exact h.neutral_insertLot _
  | sell =>
    simp only [consumePositionLots]
    split
    · exact .ret ()
    · exact (h.neutral_read _ _).bind fun lots => h.neutral_consumeLots _ _

end Unwatched

open Service Repository in
/-- What each repository call makes of the assertions. -/
structure Rules (D : Discipline) (svc : Service) : Prop where
  closed : ∀ i w w', Relation.ReflTransGen (D.guar i) w w' → D.guar i w w'
  unwatched : D.Unwatched
  stable_out : ∀ i, D.unconditional.Stable i (D.out i)
  stable_held : ∀ i scope, D.unconditional.Stable i (D.held i scope)
  stable_seen : ∀ i key existing, D.unconditional.Stable i (D.seen i key existing)
  stable_ready : ∀ i order existing, D.unconditional.Stable i (D.ready i order existing)
  listed_kept : ∀ order i w w', D.guar i w w' → D.listed order w → D.listed order w'
  take : ∀ i scope w, D.out i w → w.holder scope = none →
    D.guar i w (w.take scope i) ∧ D.held i scope (w.take scope i)
  drop : ∀ i scope w, D.held i scope w → D.guar i w (w.drop scope) ∧ D.out i (w.drop scope)
  held_of_seen : ∀ i key existing w, D.seen i key existing w → D.held i key.scope w
  turnDown : ∀ i scope order, order.status = .rejected →
    Triple D.unconditional i (D.held i scope) (insertOrder order) fun _ => D.held i scope
  look : ∀ i key, Triple D.unconditional i (D.held i key.scope) (getPosition .plain key)
    fun existing => D.seen i key existing
  book : ∀ i order existing, order.status = .pending → svc.Knows order →
    Triple D.unconditional i (D.seen i order.key existing) (insertOrder order) fun stored w =>
      (∃ id, stored = order.withId id) ∧ D.ready i stored existing w
  stop : ∀ i order existing, Triple D.unconditional i (D.ready i order existing)
    (updateOrder .plain order.stopped) fun stored w =>
      stored = order.stopped ∧ D.ready i stored existing w
  await : ∀ i order existing, Triple D.unconditional i (D.ready i order existing)
    (updateOrder .plain order.opened) fun _ => D.held i order.scope
  refuse : ∀ i order existing, Triple D.unconditional i (D.ready i order existing)
    (updateOrder .plain order.refused) fun rejected w =>
      rejected = order.refused ∧ D.held i order.scope w
  record : ∀ i order existing request instrument price,
    svc.getInstrument order.exchange order.tradingsymbol = some instrument → request.Describes order →
    Triple D.unconditional i (D.ready i order existing)
      (recordFill order price (svc.fillPlan order request instrument price existing))
      fun _ => D.held i order.scope
  list : ∀ i token, Triple D.protocol i (D.out i) (listPendingOrdersForInstrument token)
    fun orders w => D.out i w ∧ ∀ order ∈ orders, D.listed order w
  stopListed : ∀ i order, Triple D.protocol i (fun w => D.out i w ∧ D.listed order w)
    (updateOrder (.stopState order) order.stopped) fun stored w =>
      stored = order.stopped ∧ D.out i w ∧ D.listed stored w
  lookListed : ∀ i order,
    Triple D.protocol i (fun w => D.held i order.scope w ∧ D.listed order w)
      (getPosition (.fillListed order) order.key) fun existing w => D.held i order.scope w ∧
        (svc.getInstrument order.exchange order.tradingsymbol ≠ none → D.ready i order existing w)
  mark : ∀ i position price, Triple D.protocol i (D.held i position.scope)
    (upsertPosition (.mark position) (position.marked price)) fun _ => D.held i position.scope

namespace Rules

variable {D : Discipline} {svc : Service} (R : D.Rules svc)

include R

open Service Repository

variable {α : Type} {p : Task α}

omit R in
theorem conditional {i : Nat} {P : World Scope Store → Prop} {Q : α → World Scope Store → Prop}
    (h : Triple D.unconditional i P p Q) : Triple D.protocol i P p Q :=
  Triple.of_unconditional (π := D.unconditional) (C := D.cond) h

variable {i : Nat} {order : Order} {existing : Option Position}

variable {account : Account} {instrument : Instrument} {request : Request}

theorem fillOrder {price : ℚ}
    (hinstrument : svc.getInstrument order.exchange order.tradingsymbol = some instrument)
    (hdescribes : request.Describes order) :
    Triple D.unconditional i (D.ready i order existing)
      (svc.fillOrder order account request instrument price existing)
      fun _ => D.held i order.scope := by
  unfold Service.fillOrder
  simp only
  split
  · refine .bind (R.refuse i order existing) fun rejected => ?_
    refine .bind (.neutral ((D.unconditional.stable_const _).and (R.stable_held i order.scope))
      (R.unwatched.neutral_applyAccountDelta account _ _)) fun _ => ?_
    exact .pre (fun w hw => hw.2) (.ret (R.stable_held i order.scope))
  · exact .bind (.neutral (R.stable_ready i order existing) (R.unwatched.neutral_settleFunds order account _))
      fun _ => R.record i order existing request instrument price hinstrument hdescribes

theorem persist (request : Request) (snapshot : Snapshot) :
    Triple D.unconditional i (D.ready i order existing)
      (persistStopLimitTriggerState .plain order request snapshot) fun stored w =>
        (stored = order ∨ stored = order.stopped) ∧ D.ready i stored existing w := by
  have hkept : Triple D.unconditional i (D.ready i order existing) (.ret order) fun stored w =>
      (stored = order ∨ stored = order.stopped) ∧ D.ready i stored existing w :=
    .pre (fun w hw => ⟨.inl rfl, hw⟩)
      (.ret ((D.unconditional.stable_const _).and (R.stable_ready i order existing)))
  unfold persistStopLimitTriggerState
  split
  · exact hkept
  · split
    · exact hkept
    · split
      · exact hkept
      · exact .post (fun stored w hw => ⟨.inr hw.1, hw.2⟩) (R.stop i order existing)

variable {snapshot : Snapshot}

theorem bookOrder {reference : ℚ} (hstatus : order.status = .pending) (hknows : svc.Knows order)
    (hinstrument : svc.getInstrument order.exchange order.tradingsymbol = some instrument)
    (hdescribes : request.Describes order) :
    Triple D.unconditional i (D.seen i order.key existing)
      (svc.bookOrder order account request instrument snapshot existing reference)
      fun _ => D.held i order.scope := by
  refine .bind (R.book i order existing hstatus hknows) fun stored => ?_
  refine .bind (.neutral ((D.unconditional.stable_const _).and (R.stable_ready i stored existing))
    (R.unwatched.neutral_applyAccountDelta account _ _)) fun _ => ?_
  rintro w ⟨⟨id, rfl⟩, hready⟩
  refine (Triple.bind (R.persist request snapshot) fun stored => ?_) w hready
  intro w hw
  obtain ⟨hscope, hexchange, hsymbol, hdescribes'⟩ := hdescribes.stored hw.1
  rw [← hscope]
  rw [← hexchange, ← hsymbol] at hinstrument
  split
  · exact R.fillOrder hinstrument hdescribes' w hw.2
  · refine (Triple.bind (R.await i stored existing) fun pendingOrder => ?_) w hw.2
    exact .ret (R.stable_held i stored.scope)

variable {attribution : Attribution} {scope : Scope}

theorem rejectOrder {reason : String} :
    Triple D.unconditional i (D.held i scope) (rejectOrder scope request attribution reason)
      fun _ => D.held i scope := by
  unfold Service.rejectOrder
  cases horder : rejectedOrder scope request attribution reason with
  | error failure => exact .ret (R.stable_held i scope)
  | ok order =>
    have hstatus : order.status = .rejected := by
      unfold rejectedOrder paperOrder at horder
      split at horder
      · simp only [Except.map, Except.ok.injEq] at horder
        rw [← horder]
      · simp [Except.map] at horder
    exact .bind (R.turnDown i scope order hstatus) fun _ => .ret (R.stable_held i scope)

theorem placeRequest {market : Int → Snapshot} :
    Triple D.unconditional i (D.held i scope)
      (svc.placeRequest scope request attribution market) fun _ => D.held i scope := by
  refine .bind (.neutral (R.stable_held i scope) (R.unwatched.neutral_ensureAccount scope)) fun account => ?_
  cases hinstrument : svc.getInstrument request.exchange request.tradingsymbol with
  | none => exact R.rejectOrder
  | some instrument =>
    refine .bind (R.look i ⟨scope, instrument.instrumentToken, request.product⟩) fun existing => ?_
    simp only
    cases svc.screenOrder scope account request instrument
        (market instrument.instrumentToken) existing with
    | error reason => exact .pre (R.held_of_seen i _ existing) R.rejectOrder
    | ok terms =>
      simp only
      cases horder : acceptedOrder scope request instrument attribution terms.margin
          terms.charges with
      | error failure => exact .pre (R.held_of_seen i _ existing) (.ret (R.stable_held i scope))
      | ok order =>
        obtain ⟨side, orderType, hside, -, heq⟩ := acceptedOrder_eq horder
        have hstatus : order.status = .pending := by rw [heq]
        have hknows : svc.Knows order := by
          rw [heq]
          exact ⟨instrument, hinstrument, rfl⟩
        have hlookup : svc.getInstrument order.exchange order.tradingsymbol = some instrument := by
          rw [heq]
          exact hinstrument
        have hdescribes : request.Describes order := by
          rw [heq]
          exact ⟨rfl, rfl, rfl, rfl, hside⟩
        have hkey : order.key = ⟨scope, instrument.instrumentToken, request.product⟩ := by
          rw [heq]
          rfl
        have hscope : order.scope = scope := congrArg PositionKey.scope hkey
        refine .bind (.pre (fun w hw => ?_) (.post (fun _ w hw => ?_)
          (R.bookOrder hstatus hknows hlookup hdescribes))) fun placed =>
            .ret (R.stable_held i scope)
        · rw [hkey]
          exact hw
        · rw [← hscope]
          exact hw

theorem placeOrderLocked {payload : OrderPayload} {market : Int → Snapshot} :
    Triple D.unconditional i (D.held i scope)
      (svc.placeOrderLocked scope payload attribution market) fun _ => D.held i scope := by
  unfold Service.placeOrderLocked
  cases normalizeOrderRequest svc.upper payload with
  | error failure => exact .ret (R.stable_held i scope)
  | ok request => exact R.placeRequest

variable {market : Nat → Int → Snapshot}

theorem placeSequence {index : Nat} {payloads : List OrderPayload} :
    Triple D.unconditional i (D.held i scope)
      (svc.placeSequence scope attribution market index payloads) fun _ => D.held i scope := by
  induction payloads generalizing index with
  | nil => exact .ret (R.stable_held i scope)
  | cons payload payloads ih =>
    refine .bind R.placeOrderLocked fun result => ?_
    cases result with
    | error failure => exact .ret (R.stable_held i scope)
    | ok placed =>
      refine .bind ih fun results => ?_
      cases results <;> exact .ret (R.stable_held i scope)

/-! ## baskets -/

theorem lockFree_fillOrder (order : Order) (account : Account) (request : Request)
    (instrument : Instrument) (price : ℚ) (existing : Option Position) :
    (svc.fillOrder order account request instrument price existing).LockFree := by
  unfold Service.fillOrder
  simp only
  split
  · exact (Prog.lockFree_call _ _).bind fun rejected =>
      (R.unwatched.neutral_applyAccountDelta account _ _).lockFree.bind fun _ => trivial
  · refine (R.unwatched.neutral_settleFunds order account _).lockFree.bind fun _ => ?_
    exact (Prog.lockFree_call _ _).bind fun completed => (Prog.lockFree_call _ _).bind fun trade =>
      (R.unwatched.neutral_attributeLots order trade.tradeId price).lockFree.bind fun _ =>
        (Prog.lockFree_call _ _).bind fun position => trivial

theorem lockFree_bookOrder (order : Order) (account : Account) (request : Request)
    (instrument : Instrument) (snapshot : Snapshot) (existing : Option Position) (reference : ℚ) :
    (svc.bookOrder order account request instrument snapshot existing reference).LockFree := by
  refine (Prog.lockFree_call _ _).bind fun stored => ?_
  refine (R.unwatched.neutral_applyAccountDelta account _ _).lockFree.bind fun account => ?_
  have hpersist : (persistStopLimitTriggerState .plain stored request snapshot).LockFree := by
    unfold persistStopLimitTriggerState
    repeat' split
    · exact trivial
    · exact trivial
    · exact trivial
    · exact Prog.lockFree_call _ _
  refine hpersist.bind fun stored => ?_
  split
  · exact R.lockFree_fillOrder stored account request instrument _ existing
  · exact (Prog.lockFree_call _ _).bind fun _ => trivial

theorem lockFree_placeOrderLocked (scope : Scope) (payload : OrderPayload)
    (attribution : Attribution) (market : Int → Snapshot) :
    (svc.placeOrderLocked scope payload attribution market).LockFree := by
  have hreject : ∀ request attribution reason,
      (Service.rejectOrder scope request attribution reason).LockFree := by
    intro request attribution reason
    unfold Service.rejectOrder
    split
    · exact trivial
    · exact (Prog.lockFree_call _ _).bind fun _ => trivial
  unfold Service.placeOrderLocked
  split
  · exact trivial
  · next request _ =>
    refine (R.unwatched.neutral_ensureAccount scope).lockFree.bind fun account => ?_
    split
    · exact hreject request _ _
    · refine (Prog.lockFree_call _ _).bind fun existing => ?_
      simp only
      split
      · exact hreject request _ _
      · split
        · exact trivial
        · exact (R.lockFree_bookOrder _ account request _ _ existing _).bind fun _ => trivial

theorem lockFree_placeSequence (scope : Scope) (attribution : Attribution)
    (market : Nat → Int → Snapshot) (index : Nat) (payloads : List OrderPayload) :
    (svc.placeSequence scope attribution market index payloads).LockFree := by
  induction payloads generalizing index with
  | nil => exact trivial
  | cons payload payloads ih =>
    refine (R.lockFree_placeOrderLocked scope payload _ _).bind fun result => ?_
    cases result with
    | error failure => exact trivial
    | ok placed =>
      refine (ih (index + 1)).bind fun results => ?_
      cases results <;> exact trivial

theorem held_of_unwatched {w w' : World Scope Store} (hheld : D.held i scope w)
    (hholder : w'.holder = w.holder) (horders : w'.store.orders = w.store.orders)
    (htrades : w'.store.trades = w.store.trades)
    (hpositions : w'.store.positions = w.store.positions)
    (hclock : w.store.clock ≤ w'.store.clock) : D.guar i w w' ∧ D.held i scope w' :=
  ⟨R.unwatched i w w' hholder horders htrades hpositions hclock,
    R.stable_held i scope (i + 1) w w' (Nat.succ_ne_self i)
      (R.unwatched (i + 1) w w' hholder horders htrades hpositions hclock) hheld⟩

variable {orders : List OrderPayload}

theorem unitOfWork_held {legs : List Leg} {w : World Scope Store}
    (hlegs : svc.prepareLegs scope attribution market 0 orders = .ok legs)
    (hheld : D.held i scope w) :
    D.guar i w (w.act fun s => (unitOfWork (svc.basketUow scope legs) s).2) ∧
      D.held i scope (w.act fun s => (unitOfWork (svc.basketUow scope legs) s).2) := by
  obtain ⟨account, s', haccount, hstart, hcase⟩ := svc.basketUow_start scope w.store
  cases houtcome : svc.placeLegsUow scope legs account s' with
  | error abort =>
    have hsame : (unitOfWork (svc.basketUow scope legs) w.store).2 = w.store := by
      rw [unitOfWork, hstart, houtcome]
    refine R.held_of_unwatched hheld rfl ?_ ?_ ?_ ?_ <;> rw [World.act_store, hsame]
  | ok out =>
    have hcommitted : (unitOfWork (svc.basketUow scope legs) w.store).2 = out.2 := by
      rw [unitOfWork, hstart, houtcome]
    have hsequence : (svc.placeSequence scope attribution market 0 orders).run s' = (.ok out.1, out.2) := by
      refine svc.sequence_of_committed haccount ?_
      rw [hlegs]
      exact houtcome
    have hopened : D.guar i w (w.act fun _ => s') ∧ D.held i scope (w.act fun _ => s') := by
      rcases hcase with ⟨-, rfl⟩ | ⟨-, rfl⟩
      · exact R.held_of_unwatched hheld rfl rfl rfl rfl (Nat.le_refl _)
      · exact R.held_of_unwatched hheld rfl rfl rfl rfl (Nat.le_refl _)
    obtain ⟨hsteps, hafter⟩ := Prog.Safe.run
      (R.lockFree_placeSequence scope attribution market 0 orders)
      (R.placeSequence (w.act fun _ => s') hopened.2) (Prog.along_true _ _)
    have hworld : ((w.act fun _ => s').act fun s =>
        ((svc.placeSequence scope attribution market 0 orders).run s).2) =
        w.act fun s => (unitOfWork (svc.basketUow scope legs) s).2 := by
      simp only [World.act, hsequence, hcommitted]
    rw [hworld] at hsteps hafter
    exact ⟨R.closed i _ _ (.head hopened.1 hsteps), hafter⟩

theorem placeBasketAllOrNoneAtomic :
    Triple D.unconditional i (D.held i scope)
      (svc.placeBasketAllOrNoneAtomic scope orders attribution market) fun _ => D.held i scope := by
  unfold Service.placeBasketAllOrNoneAtomic
  cases hlegs : svc.prepareLegs scope attribution market 0 orders with
  | error abort => exact .ret (R.stable_held i scope)
  | ok legs =>
    refine .bind (.call (R.stable_held i scope) (fun _ => R.stable_held i scope)
      fun w hheld _ => R.unitOfWork_held hlegs hheld) fun result => ?_
    cases result <;> exact .ret (R.stable_held i scope)

theorem placeBasketLocked {basket : BasketPayload} :
    Triple D.unconditional i (D.held i scope)
      (svc.placeBasketLocked scope basket attribution market) fun _ => D.held i scope := by
  unfold Service.placeBasketLocked
  simp only
  split
  · exact R.placeBasketAllOrNoneAtomic
  · exact .bind R.placeSequence fun results => .ret (R.stable_held i scope)

theorem withLock (hp : Triple D.protocol i (D.held i scope) p fun _ => D.held i scope) :
    Triple D.protocol i (D.out i) (.withLock scope p) fun _ => D.out i :=
  .withLock (R.stable_out i) (fun _ => R.stable_out i) (fun _ => R.stable_held i scope)
    (fun w hout hfree => R.take i scope w hout hfree) hp fun _ w hheld => R.drop i scope w hheld

theorem withLock_listed {order : Order}
    (hp : Triple D.protocol i (fun w => D.held i scope w ∧ D.listed order w) p
      fun _ => D.held i scope) :
    Triple D.protocol i (fun w => D.out i w ∧ D.listed order w) (.withLock scope p)
      fun _ => D.out i := by
  refine .withLock ((R.stable_out i).and fun j w w' _ => R.listed_kept order j w w')
    (fun _ => R.stable_out i) (fun _ => R.stable_held i scope) (fun w hw hfree => ?_) hp
    fun _ w hheld => R.drop i scope w hheld
  obtain ⟨hguar, hheld⟩ := R.take i scope w hw.1 hfree
  exact ⟨hguar, hheld, R.listed_kept order i _ _ hguar hw.2⟩

/-! ## ticks -/

variable {tick : Tick}

theorem fillListed {order : Order} :
    Triple D.protocol i (fun w => D.held i order.scope w ∧ D.listed order w)
      (svc.fillListed tick order) fun _ => D.held i order.scope := by
  refine .bind (conditional (.neutral
    ((R.stable_held i order.scope).and fun j w w' _ => R.listed_kept order j w w')
    (R.unwatched.neutral_ensureAccount order.scope))) fun account => ?_
  refine .bind (R.lookListed i order) fun existing => ?_
  cases hinstrument : svc.getInstrument order.exchange order.tradingsymbol with
  | none => exact .pre (fun w hw => hw.1) (.ret (R.stable_held i order.scope))
  | some instrument =>
    refine .bind (.pre (fun w hw => hw.2 (by simp)) (conditional
      (R.fillOrder hinstrument (describes_requestFromPaperOrder order)))) fun _ => ?_
    exact .ret (R.stable_held i order.scope)

theorem persistListed {order : Order} :
    Triple D.protocol i (fun w => D.out i w ∧ D.listed order w)
      (persistStopLimitTriggerState (.stopState order) order request snapshot)
      fun stored w => D.out i w ∧ D.listed stored w := by
  have hkept : Triple D.protocol i (fun w => D.out i w ∧ D.listed order w) (.ret order)
      fun stored w => D.out i w ∧ D.listed stored w :=
    .ret (Q := fun stored w => D.out i w ∧ D.listed stored w)
      ((R.stable_out i).and fun j w w' _ => R.listed_kept order j w w')
  unfold persistStopLimitTriggerState
  split
  · exact hkept
  · split
    · exact hkept
    · split
      · exact hkept
      · exact .post (fun stored w hw => hw.2) (R.stopListed i order)

theorem tickOrder (order : Order) :
    Triple D.protocol i (fun w => D.out i w ∧ D.listed order w) (svc.tickOrder tick order)
      fun _ => D.out i := by
  refine .bind R.persistListed fun stored => ?_
  split
  · exact R.withLock_listed R.fillListed
  · exact .pre (fun w hw => hw.1) (.ret (R.stable_out i))

theorem tickOrders {orders : List Order} :
    Triple D.protocol i (fun w => D.out i w ∧ ∀ order ∈ orders, D.listed order w)
      (svc.tickOrders tick orders) fun _ => D.out i := by
  induction orders with
  | nil => exact .pre (fun w hw => hw.1) (.ret (R.stable_out i))
  | cons order orders ih =>
    have hrest : ∀ j w w', D.guar j w w' → (∀ other ∈ orders, D.listed other w) →
        ∀ other ∈ orders, D.listed other w' :=
      fun j w w' hguar hlisted other hother =>
        R.listed_kept other j w w' hguar (hlisted other hother)
    refine .bind (.pre (fun w hw => ⟨⟨hw.1, hw.2 order (.head _)⟩,
      fun other hother => hw.2 other (.tail _ hother)⟩)
      (Triple.frame hrest (R.tickOrder order))) fun _ => ih

theorem markPositions {positions : List Position} :
    Triple D.protocol i (D.out i) (Service.markPositions tick positions) fun _ => D.out i := by
  induction positions with
  | nil => exact .ret (R.stable_out i)
  | cons position positions ih =>
    refine .bind (R.withLock ?_) fun _ => ih
    unfold markToMarket
    split
    · exact .ret (R.stable_held i position.scope)
    · exact .bind (R.mark i position tick.snapshot.last) fun _ => .ret (R.stable_held i position.scope)

theorem processTick : Triple D.protocol i (D.out i) (svc.processTick tick) fun _ => D.out i := by
  unfold Service.processTick
  split
  · exact .ret (R.stable_out i)
  · refine .bind (R.list i tick.instrumentToken) fun orders => ?_
    refine .bind R.tickOrders fun _ => ?_
    exact .bind (conditional (.neutral (R.stable_out i) (R.unwatched.neutral_read _ _))) fun positions => R.markPositions

theorem safe (call : Call) : Triple D.protocol i (D.out i) (svc.program call) fun _ => D.out i := by
  cases call with
  | placeOrder scope payload attribution market =>
    exact .bind (R.withLock (conditional R.placeOrderLocked)) fun _ => .ret (R.stable_out i)
  | placeBasket scope basket attribution market =>
    exact .bind (R.withLock (conditional R.placeBasketLocked)) fun _ => .ret (R.stable_out i)
  | processTick tick =>
    exact .bind R.processTick fun _ => .ret (R.stable_out i)

end Rules

end Discipline

end KiteAlgo.Paper
