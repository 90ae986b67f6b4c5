import KiteAlgo.Lib.Growth
import KiteAlgo.Paper.Exit

/-!
# KiteAlgo.Paper.OwnLots

Which exits take the strategy's own lots and nothing else.

Orders, baskets, ticks, exits and resets run in any schedule; the identifiers of all lots have been
drawn in every store they reach (`lotsDrawn_of_run`), so that a lot that a fill opens is none
of those that are there.  From such a store an exit that succeeds leaves the lots of others
alone and takes from the strategy's what it sells exactly when the strategy's lots come first
(`exit_takes_own_lots_iff`).
-/

namespace KiteAlgo.Paper

open List Option Config Growth
/-! ## identifiers of lots -/

/-- Every operation keeps the identifiers of lots drawn, and draws more. -/
def drawing : Growth Store where
  inv := Store.LotsDrawn
  grows s s' := s.clock ≤ s'.clock
  refl _ := le_rfl

def always (_ : Label) (_ : Store) : Prop := True

/-- The program keeps to it in any schedule. -/
def Draws {α : Type} (p : Task α) : Prop :=
  Growth.Spec drawing always (fun _ => True) p fun _ _ => True

namespace Draws

variable {α β : Type} {label : Label}

theorem call {f : Store → α × Store}
    (h : ∀ s, s.LotsDrawn → (f s).2.LotsDrawn ∧ s.clock ≤ (f s).2.clock) : Draws (.call label f) :=
  Growth.Spec.call (kept_const True) (fun _ => kept_const True)
    fun s hs _ _ => ⟨(h s hs).1, (h s hs).2, trivial⟩

theorem same {f : Store → α × Store} (h : ∀ s : Store, s.SameLots (f s).2) : Draws (.call label f) :=
  .call fun s hs => ⟨(h s).drawn hs, (h s).clock⟩

theorem read {f : Store → α} : Draws (.read label f) := .same fun s => .refl s

theorem ret (a : α) : Draws (.ret a) := Growth.Spec.ret (Q := fun _ _ => True) (kept_const True)

variable {p : Task α}

theorem bind {k : α → Task β} (hp : Draws p) (hk : ∀ a, Draws (k a)) : Draws (p.bind k) :=
  Growth.Spec.bind hp hk

theorem withLock {scope : Scope} (hp : Draws p) : Draws (.withLock scope p) :=
  Growth.Spec.withLock (kept_const True) (fun _ => kept_const True) hp

theorem of_readOnly (hp : p.ReadOnly) : Draws p :=
  Growth.Spec.of_readOnly (kept_const True) hp

end Draws

namespace Service

open Repository

variable (svc : Service)

/-! ### the pieces of a placement -/

theorem draws_upsertAccount (account : Account) : Draws (upsertAccount account) :=
  .same fun _ => ⟨rfl, le_rfl⟩

theorem draws_insertOrder (order : Order) : Draws (insertOrder order) :=
  .same fun _ => ⟨rfl, Nat.le_succ _⟩

theorem draws_updateOrder (label : Label) (order : Order) : Draws (updateOrder label order) :=
  .same fun s => sameLots_updateOrder s order

theorem draws_insertTrade (label : Label) (trade : Trade) : Draws (insertTrade label trade) :=
  .same fun _ => ⟨rfl, Nat.le_succ _⟩

theorem draws_upsertPosition (label : Label) (position : Position) :
    Draws (upsertPosition label position) :=
  .same fun _ => ⟨rfl, Nat.le_succ _⟩

theorem draws_appendFundLedgerEntry (entry : LedgerEntry) : Draws (appendFundLedgerEntry entry) :=
  .same fun _ => ⟨rfl, le_rfl⟩

theorem draws_insertLot (lot : Lot) : Draws (insertLot lot) := by
  refine .call fun s hs => ⟨fun row hrow => ?_, Nat.le_succ _⟩
  rcases Keyed.mem_rows_upsert hrow with rfl | ⟨hold, -⟩
  · exact Nat.lt_succ_self _
  · exact Nat.lt_succ_of_lt (hs row hold)

theorem draws_ensureAccount (scope : Scope) : Draws (svc.ensureAccount scope) := by
  refine .bind .read fun account => ?_
  cases account with
  | some account => exact .ret account
  | none => exact draws_upsertAccount _

theorem draws_rejectOrder (scope : Scope) (request : Request) (attribution : Attribution)
    (reason : String) : Draws (rejectOrder scope request attribution reason) := by
  unfold rejectOrder
  split
  · exact .ret _
  · exact .bind (draws_insertOrder _) fun order => .ret _

theorem draws_applyAccountDelta (account : Account) (delta : ℚ) (orderId : Nat) :
    Draws (applyAccountDelta account delta orderId) := by
  unfold applyAccountDelta
  split
  · exact .ret _
  · exact .bind (draws_upsertAccount _) fun updated =>
      .bind (draws_appendFundLedgerEntry _) fun _ => .ret updated

theorem draws_applyCashDelta (account : Account) (delta : ℚ) (entryType : EntryType) (orderId : Nat)
    (notes : String) : Draws (applyCashDelta account delta entryType orderId notes) := by
  unfold applyCashDelta
  split
  · exact .ret _
  · exact .bind (draws_upsertAccount _) fun updated =>
      .bind (draws_appendFundLedgerEntry _) fun _ => .ret updated

theorem draws_settleFunds (order : Order) (account : Account) (plan : FillPlan) :
    Draws (settleFunds order account plan) := by
  refine .bind ?_ fun adjusted => .bind (draws_applyCashDelta _ _ _ _ _) fun charged => ?_
  · unfold applyMarginAdjustment
    split
    · exact draws_applyAccountDelta _ _ _
    · exact .ret _
  · unfold applyRealizedDelta
    split
    · exact .bind (draws_applyCashDelta _ _ _ _ _) fun account => draws_upsertAccount _
    · exact .ret _

/-- The identifiers of these lots have been drawn. -/
def Drawn (lots : List Lot) (s : Store) : Prop := ∀ lot ∈ lots, lot.lotId < s.clock

theorem kept_drawn (lots : List Lot) : drawing.Kept (Drawn lots) :=
  fun _ _ _ hgrows hdrawn lot hlot => lt_of_lt_of_le (hdrawn lot hlot) hgrows

theorem spec_consumeLots (lots : List Lot) (remaining : Int) :
    Growth.Spec drawing always (Drawn lots) (consumeLots lots remaining) fun _ _ => True := by
  have hdone : ∀ {lots : List Lot}, Growth.Spec (κ := Scope) drawing always (Drawn lots) (.ret ())
      fun _ _ => True :=
    .pre (fun _ _ => trivial) (Draws.ret ())
  induction lots generalizing remaining with
  | nil => exact hdone
  | cons lot lots ih =>
    have htail : ∀ s, Drawn (lot :: lots) s → Drawn lots s := fun s hdrawn other hother =>
      hdrawn other (mem_cons_of_mem lot hother)
    rw [consumeLots]
    split
    · exact hdone
    · split
      · exact (ih remaining).pre htail
      · refine .bind (Q := fun _ => Drawn lots) (.call (kept_drawn _) (fun _ => kept_drawn _)
          fun s hs hdrawn _ => ⟨fun row hrow => ?_, le_rfl, htail s hdrawn⟩) fun _ => ih _
        rcases Keyed.mem_rows_upsert hrow with rfl | ⟨hold, -⟩
        · exact hdrawn lot (.head _)
        · exact hs row hold

theorem draws_attributeLots (order : Order) (tradeId : Nat) (price : ℚ) :
    Draws (attributeLots order tradeId price) := by
  unfold attributeLots
  cases order.side with
  | buy => exact draws_insertLot _
  | sell =>
    simp only [consumePositionLots]
    split
    · exact .ret ()
    · refine Growth.Spec.bind (Q := Drawn) (.read (kept_const True) kept_drawn
        fun s hs _ lot hlot => hs lot (mem_of_mem_filter hlot)) fun lots => ?_
      refine (spec_consumeLots _ _).pre fun s hdrawn lot hlot => hdrawn lot ?_
      unfold orderedLotsForConsumption at hlot
      grind

/-! ### placements -/

theorem draws_fillOrder (order : Order) (account : Account) (request : Request)
    (instrument : Instrument) (price : ℚ) (existing : Option Position) :
    Draws (svc.fillOrder order account request instrument price existing) := by
  simp only [fillOrder]
  split
  · exact .bind (draws_updateOrder _ _) fun rejected =>
      .bind (draws_applyAccountDelta _ _ _) fun _ => .ret _
  · exact .bind (draws_settleFunds _ _ _) fun _ => .bind (draws_updateOrder _ _) fun completed =>
      .bind (draws_insertTrade _ _) fun trade => .bind (draws_attributeLots _ _ _) fun _ =>
      .bind (draws_upsertPosition _ _) fun position => .ret _

theorem draws_persist (label : Label) (order : Order) (request : Request) (snapshot : Snapshot) :
    Draws (persistStopLimitTriggerState label order request snapshot) := by
  unfold persistStopLimitTriggerState
  split
  · exact .ret _
  · split
    · exact .ret _
    · split
      · exact .ret _
      · exact draws_updateOrder _ _

theorem draws_bookOrder (order : Order) (account : Account) (request : Request)
    (instrument : Instrument) (snapshot : Snapshot) (existing : Option Position) (reference : ℚ) :
    Draws (svc.bookOrder order account request instrument snapshot existing reference) := by
  refine .bind (draws_insertOrder _) fun order => .bind (draws_applyAccountDelta _ _ _) fun account =>
    .bind (draws_persist _ _ _ _) fun order => ?_
  split
  · exact draws_fillOrder svc _ _ _ _ _ _
  · exact .bind (draws_updateOrder _ _) fun pending => .ret _

theorem draws_placeRequest (scope : Scope) (request : Request) (attribution : Attribution)
    (market : Int → Snapshot) : Draws (svc.placeRequest scope request attribution market) := by
  refine .bind (draws_ensureAccount svc scope) fun account => ?_
  split
  · exact draws_rejectOrder _ _ _ _
  · refine .bind .read fun existing => ?_
    simp only
    split
    · exact draws_rejectOrder _ _ _ _
    · split
      · exact .ret _
      · exact .bind (draws_bookOrder svc _ _ _ _ _ _ _) fun placed => .ret _

theorem draws_placeOrderLocked (scope : Scope) (payload : OrderPayload) (attribution : Attribution)
    (market : Int → Snapshot) : Draws (svc.placeOrderLocked scope payload attribution market) := by
  unfold placeOrderLocked
  split
  · exact .ret _
  · exact draws_placeRequest svc _ _ _ _

theorem draws_placeSequence (scope : Scope) (attribution : Attribution)
    (market : Nat → Int → Snapshot) (index : Nat) (payloads : List OrderPayload) :
    Draws (svc.placeSequence scope attribution market index payloads) := by
  induction payloads generalizing index with
  | nil => exact .ret _
  | cons payload payloads ih =>
    refine .bind (draws_placeOrderLocked svc _ _ _ _) fun placed => ?_
    cases placed with
    | error failure => exact .ret _
    | ok placed =>
      refine .bind (ih _) fun results => ?_
      cases results with
      | error failure => exact .ret _
      | ok results => exact .ret _

theorem draws_placeBasketAllOrNoneAtomic (scope : Scope) (orders : List OrderPayload)
    (attribution : Attribution) (market : Nat → Int → Snapshot) :
    Draws (svc.placeBasketAllOrNoneAtomic scope orders attribution market) := by
  unfold placeBasketAllOrNoneAtomic
  split
  · exact .ret _
  · next legs _ =>
    refine .bind (.call fun s hs => ?_) fun results => ?_
    · obtain ⟨account, s₀, -, hstart, hcase⟩ := svc.basketUow_start scope s
      rw [unitOfWork, hstart]
      cases hlegs : svc.placeLegsUow scope legs account s₀ with
      | error abort => exact ⟨hs, le_rfl⟩
      | ok done =>
        obtain ⟨results, s'⟩ := done
        obtain ⟨orders, hattributed, -⟩ := placeLegsUow_lots hlegs
        exact (hattributed.before (sameLots_of_start hcase)).drawn hs
    · cases results with
      | error abort => exact .ret _
      | ok results => exact .ret _

theorem draws_placeBasket (scope : Scope) (basket : BasketPayload) (attribution : Attribution)
    (market : Nat → Int → Snapshot) : Draws (svc.placeBasket scope basket attribution market) := by
  refine .withLock ?_
  simp only [placeBasketLocked]
  split
  · exact draws_placeBasketAllOrNoneAtomic svc _ _ _ _
  · exact .bind (draws_placeSequence svc _ _ _ _ _) fun results => .ret _

/-! ### ticks -/

theorem draws_tickOrders (tick : Tick) (orders : List Order) : Draws (svc.tickOrders tick orders) := by
  induction orders with
  | nil => exact .ret ()
  | cons order orders ih =>
    refine .bind (.bind (draws_persist _ _ _ _) fun order => ?_) fun _ => ih
    split
    · refine .withLock (.bind (draws_ensureAccount svc _) fun account => .bind .read fun existing => ?_)
      split
      · exact .ret ()
      · exact .bind (draws_fillOrder svc _ _ _ _ _ _) fun _ => .ret ()
    · exact .ret ()

theorem draws_markPositions (tick : Tick) (positions : List Position) :
    Draws (markPositions tick positions) := by
  induction positions with
  | nil => exact .ret ()
  | cons position positions ih =>
    refine .bind (.withLock ?_) fun _ => ih
    unfold markToMarket
    split
    · exact .ret ()
    · exact .bind (draws_upsertPosition _ _) fun _ => .ret ()

theorem draws_program (call : Call) : Draws (svc.program call) := by
  cases call with
  | placeOrder scope payload attribution market =>
    exact .bind (.withLock (draws_placeOrderLocked svc _ _ _ _)) fun _ => .ret _
  | placeBasket scope basket attribution market =>
    exact .bind (draws_placeBasket svc _ _ _ _) fun _ => .ret _
  | processTick tick =>
    refine .bind ?_ fun _ => .ret _
    unfold processTick
    split
    · exact .ret ()
    · exact .bind .read fun orders => .bind (draws_tickOrders svc tick orders) fun _ =>
        .bind .read fun positions => draws_markPositions tick positions

theorem draws_exitStrategy (scope : Scope) (strategyId : String) (newest : List Attribution → Nat)
    (market : Nat → Int → Snapshot) : Draws (svc.exitStrategy scope strategyId newest market) := by
  simp only [exitStrategy]
  split
  · exact .ret _
  · split
    · exact .ret _
    · split
      · exact .ret _
      · refine .bind (.of_readOnly (readOnly_planExit scope newest _)) fun plan => ?_
        cases plan with
        | error reply => exact .ret _
        | ok plan => exact .bind (draws_placeBasket svc _ _ _ _) fun result => .ret _

theorem draws_resetAccount (scope : Scope) (startingBalance : Option ℚ) :
    Draws (svc.resetAccount scope startingBalance) := by
  refine .bind (.call fun s hs => ⟨fun lot hlot => ?_, le_rfl⟩) fun _ => draws_upsertAccount _
  exact hs lot (mem_of_mem_filter hlot)

end Service

/-! ## schedules with exits -/

/-- A call of the service, the exit of a strategy, or a new start of the account. -/
inductive AccountCall where
  | call (call : Call)
  | resetAccount (scope : Scope) (startingBalance : Option ℚ)
  | exitStrategy (scope : Scope) (strategyId : String) (newest : List Attribution → Nat)
      (market : Nat → Int → Snapshot)

inductive AccountReply where
  | reply (reply : Reply)
  | reset (account : Account)
  | exited (result : Except Failure ExitReply)

def Service.accountProgram (svc : Service) : AccountCall → Task AccountReply
  | .call call => do
    return .reply (← svc.program call)
  | .resetAccount scope startingBalance => do
    return .reset (← svc.resetAccount scope startingBalance)
  | .exitStrategy scope strategyId newest market => do
    return .exited (← svc.exitStrategy scope strategyId newest market)

theorem Store.Fresh.lotsDrawn {s : Store} (h : s.Fresh) : s.LotsDrawn := by
  intro lot hlot
  rw [h.lots] at hlot
  cases hlot

theorem lotsDrawn_of_run (svc : Service) {s : Store} (hfresh : s.Fresh)
    {events : List (Event AccountCall)} {cfg : Config Scope Label Store AccountReply}
    (hrun : (idle s).run svc.accountProgram events = some cfg) : cfg.world.store.LotsDrawn := by
  have hprogram : ∀ request, Draws (svc.accountProgram request) := by
    intro request
    cases request with
    | call call => exact Draws.bind (svc.draws_program call) fun reply => Draws.ret _
    | resetAccount scope startingBalance =>
      exact Draws.bind (svc.draws_resetAccount scope startingBalance) fun account => Draws.ret _
    | exitStrategy scope strategyId newest market =>
      exact Draws.bind (svc.draws_exitStrategy scope strategyId newest market) fun result =>
        Draws.ret _
  have hmeets : (idle s).MeetsAlong svc.accountProgram always events :=
    meetsAlong_of_forall (fun _ _ => trivial) _ events
  exact Growth.run hprogram hfresh.lotsDrawn hrun hmeets

/-! ## own lots only -/

/-- The exit touched the strategy's own lots only.

`exitable`: the check of open lots that an exit of another strategy makes still passes where it
passed before. -/
structure OwnLotsOnly (strategy : String) (result : BasketResult) (s s' : Store) : Prop where
  others : ∀ id lot other, s.lots.get? id = some lot →
    strategyIdentity lot.attribution = some other → other ≠ strategy →
    (s'.lots.get? id).map Lot.remainingQuantity = some lot.remainingQuantity
  own : ∀ key, s'.strategyQuantity key strategy =
    s.strategyQuantity key strategy - (result.results.map (Placed.sells key)).sum
  exitable : ∀ key position other, other ≠ strategy →
    lotAmbiguity other position (s.listOpenPositionLots key) = [] →
    lotAmbiguity other position (s'.listOpenPositionLots key) = []

/-- The exit sells only, and for all that it sells of a position the strategy's lots come before
the first lot of another. -/
structure Service.ExitCovered (svc : Service) (scope : Scope) (strategyId : String)
    (newest : List Attribution → Nat) (market : Nat → Int → Snapshot) (s : Store) : Prop where
  sells : ∀ leg ∈ svc.exitLegs scope strategyId newest market s, leg.request.transactionType = "SELL"
  front : ∀ key, ((svc.exitLegs scope strategyId newest market s).map
    (Service.Leg.sells scope key)).sum ≤ s.frontQuantity key (Text.strip strategyId)

section Quantities

variable {strategy other : String} {lots lots' : List Lot}

theorem get?_lotQuantities (lots : List Lot) (identity : Option String) :
    ((lotQuantities lots).get? identity).getD 0 =
      remainingOf (lots.filter fun lot => strategyIdentity lot.attribution = identity) := by
  have hfold : ∀ (quantities : Dict (Option String) Int),
      ((lots.foldl (fun quantities lot => quantities.set (strategyIdentity lot.attribution)
        ((quantities.get? (strategyIdentity lot.attribution)).getD 0 + lot.remainingQuantity))
          quantities).get? identity).getD 0 =
        (quantities.get? identity).getD 0 +
          remainingOf (lots.filter fun lot => strategyIdentity lot.attribution = identity) := by
    induction lots with
    | nil => exact fun quantities => (add_zero _).symm
    | cons lot lots ih =>
      intro quantities
      rw [foldl_cons, ih, filter_cons]
      by_cases hidentity : strategyIdentity lot.attribution = identity
      · rw [hidentity, Dict.get?_set_self]
        simp only [decide_true, if_true, getD_some, remainingOf_cons]
        omega
      · rw [Dict.get?_set_of_ne hidentity]
        simp only [hidentity, decide_false, Bool.false_eq_true, if_false]
  rw [lotQuantities, hfold]
  exact zero_add _

theorem lotAmbiguity_eq_nil_iff {position : ExitPosition} :
    lotAmbiguity strategy position lots = [] ↔ lots = [] ∨
        (remainingOf (lots.filter fun lot => strategyIdentity lot.attribution = none) ≤ 0 ∧
          |position.netQuantity| ≤
            remainingOf (lots.filter fun lot => strategyIdentity lot.attribution = some strategy)) := by
  unfold lotAmbiguity
  split
  · next hnone => simp [hnone]
  · next hsome =>
    simp only [get?_lotQuantities, hsome, false_or, append_eq_nil_iff, ite_eq_right_iff,
      cons_ne_nil, imp_false, not_lt, not_and]
    constructor
    · rintro ⟨⟨hunknown, -⟩, hmatching⟩
      exact ⟨hunknown, hmatching⟩
    · rintro ⟨hunknown, hmatching⟩
      exact ⟨⟨hunknown, fun _ => hmatching⟩, hmatching⟩

theorem filter_identity {identity : Option String} (hidentity : identity ≠ some strategy)
    (hothers : (lots'.filter fun lot => !lot.isOf strategy) = lots.filter fun lot => !lot.isOf strategy) :
    (lots'.filter fun lot => strategyIdentity lot.attribution = identity) =
      lots.filter fun lot => strategyIdentity lot.attribution = identity := by
  have hinside : ∀ lots : List Lot,
      ((lots.filter fun lot => !lot.isOf strategy).filter fun lot =>
        strategyIdentity lot.attribution = identity) =
        lots.filter fun lot => strategyIdentity lot.attribution = identity := by
    intro lots
    rw [List.filter_filter]
    refine List.filter_congr fun lot _ => ?_
    by_cases hlot : strategyIdentity lot.attribution = identity
    · simp [Lot.isOf, hlot, hidentity]
    · simp [hlot]
  rw [← hinside lots', hothers, hinside]

end Quantities
namespace Service

variable {svc : Service} {scope : Scope} {strategyId : String} {newest : List Attribution → Nat}
  {market : Nat → Int → Snapshot} {s s' : Store}

theorem sum_legSells {orders : List Order} {legs : List Leg}
    (hplaces : List.Forall₂ (fun order leg => order.Places scope leg) orders legs) (key : PositionKey) :
    (legs.map (Leg.sells scope key)).sum = soldBy orders key := by
  induction hplaces with
  | nil => rfl
  | cons hleg _ ih => rw [map_cons, sum_cons, ih, hleg.sells, soldBy_cons]

theorem exitCovered_iff_covers {orders : List Order}
    (hplaces : List.Forall₂ (fun order leg => order.Places scope leg) orders
      (svc.exitLegs scope strategyId newest market s)) :
    svc.ExitCovered scope strategyId newest market s ↔ Covers (Text.strip strategyId) orders s := by
  have hsells : (∀ order ∈ orders, order.side = .sell) ↔
      ∀ leg ∈ svc.exitLegs scope strategyId newest market s, leg.request.transactionType = "SELL" :=
    forall_mem_iff_of_forall₂ (fun order leg h => (sideOf?_eq_sell h.side).symm) hplaces
  constructor
  · intro h
    refine ⟨hsells.mpr h.sells, fun key => ?_⟩
    rw [← sum_legSells hplaces]
    exact h.front key
  · intro h
    refine ⟨hsells.mp h.sells, fun key => ?_⟩
    rw [sum_legSells hplaces]
    exact h.front key

theorem front_iff (legs : List Leg) (scope : Scope) (strategy : String) (s : Store) :
    (∀ key, (legs.map (Leg.sells scope key)).sum ≤ s.frontQuantity key strategy) ↔
      ∀ leg ∈ legs, (legs.map (Leg.sells scope (leg.key scope))).sum ≤
        s.frontQuantity (leg.key scope) strategy := by
  constructor
  · exact fun h leg _ => h (leg.key scope)
  · intro h key
    by_cases hkey : ∃ leg ∈ legs, leg.key scope = key
    · obtain ⟨leg, hleg, rfl⟩ := hkey
      exact h leg hleg
    · have hzero : (legs.map (Leg.sells scope key)).sum = 0 := by
        refine sum_eq_zero fun quantity hquantity => ?_
        obtain ⟨leg, hleg, rfl⟩ := mem_map.mp hquantity
        exact if_neg fun hsold => hkey ⟨leg, hleg, hsold.2⟩
      rw [hzero]
      exact frontOf_nonneg (consumable_listOpenPositionLots s key).isOpen

instance : Decidable (svc.ExitCovered scope strategyId newest market s) :=
  decidable_of_iff
    ((∀ leg ∈ svc.exitLegs scope strategyId newest market s, leg.request.transactionType = "SELL") ∧
      ∀ leg ∈ svc.exitLegs scope strategyId newest market s,
        ((svc.exitLegs scope strategyId newest market s).map (Leg.sells scope (leg.key scope))).sum ≤
          s.frontQuantity (leg.key scope) (Text.strip strategyId))
    ⟨fun h => ⟨h.1, (front_iff _ _ _ _).mpr h.2⟩, fun h => ⟨h.sells, (front_iff _ _ _ _).mp h.front⟩⟩

theorem exitable_of_kept {strategy other : String} {position : ExitPosition} {key : PositionKey}
    (hother : other ≠ strategy) (hkept : OthersKept strategy s s')
    (hfewer : s'.strategyQuantity key strategy ≤ s.strategyQuantity key strategy)
    (h : lotAmbiguity other position (s.listOpenPositionLots key) = []) :
    lotAmbiguity other position (s'.listOpenPositionLots key) = [] := by
  have hlisted := hkept.listed key
  rw [lotAmbiguity_eq_nil_iff] at h ⊢
  rcases h with hnone | ⟨hunknown, hmatching⟩
  · left
    have hforeign : ∀ lot ∈ s'.listOpenPositionLots key, lot.isOf strategy := by
      rw [hnone, filter_nil, filter_eq_nil_iff] at hlisted
      simpa using hlisted
    have hopen := (consumable_listOpenPositionLots s' key).isOpen
    change ownOf strategy (s'.listOpenPositionLots key) ≤ ownOf strategy (s.listOpenPositionLots key)
      at hfewer
    rw [hnone, ownOf, filter_eq_self.mpr hforeign] at hfewer
    cases hlots : s'.listOpenPositionLots key with
    | nil => rfl
    | cons lot lots =>
      rw [hlots] at hfewer hopen
      have hlot := hopen lot (.head _)
      have hrest := remainingOf_nonneg fun other hother => hopen other (mem_cons_of_mem lot hother)
      rw [remainingOf_cons] at hfewer
      change lot.remainingQuantity + remainingOf lots ≤ 0 at hfewer
      omega
  · right
    have hidentity : (some other : Option String) ≠ some strategy := fun heq => hother (some.inj heq)
    rw [filter_identity (by simp) hlisted, filter_identity hidentity hlisted]
    exact ⟨hunknown, hmatching⟩

end Service

/-- From every store that orders, baskets, ticks, exits and resets reach in any schedule, an exit that
succeeds touches the strategy's own lots only if and only if it sells only and they come first. -/
theorem exit_takes_own_lots_iff (svc : Service) (hmarket : svc.upper "MARKET" = "MARKET") {s : Store}
    (hfresh : s.Fresh) {events : List (Event AccountCall)}
    {cfg : Config Scope Label Store AccountReply}
    (hrun : (Config.idle s).run svc.accountProgram events = some cfg) {scope : Scope}
    {strategyId : String} {newest : List Attribution → Nat} {market : Nat → Int → Snapshot}
    {result : BasketResult} {last : Store}
    (hexit : (svc.exitStrategy scope strategyId newest market).run cfg.world.store =
      (.ok (.placed result), last)) (hsuccess : result.status = .success) :
    OwnLotsOnly (Text.strip strategyId) result cfg.world.store last ↔
      svc.ExitCovered scope strategyId newest market cfg.world.store := by
  have hdrawn := lotsDrawn_of_run svc hfresh hrun
  have hplaced := congrArg Prod.fst hexit
  obtain ⟨orders, hattributed, hexits, hlegs, hsold⟩ :=
    Service.exitStrategy_success hmarket hplaced hsuccess
  rw [hexit] at hattributed
  rw [Service.exitCovered_iff_covers hlegs]
  constructor
  · intro h
    exact hattributed.covers hdrawn hexits fun key => by rw [h.own key, hsold]
  · intro h
    obtain ⟨hkept, hquantities⟩ := hattributed.of_covers hexits h
    refine ⟨fun id lot other hlot hidentity hother => ?_, fun key => ?_, ?_⟩
    · have hforeign : lot.isOf (Text.strip strategyId) = false := by
        simp [Lot.isOf, hidentity, hother]
      rw [hkept.rows id lot hlot hforeign]
      rfl
    · rw [hquantities, hsold]
    · intro key position other hother hclear
      have hfewer : last.strategyQuantity key (Text.strip strategyId) ≤
          cfg.world.store.strategyQuantity key (Text.strip strategyId) := by
        rw [hquantities]
        exact sub_le_self _ (soldBy_nonneg orders key)
      exact Service.exitable_of_kept hother hkept hfewer hclear

/-! ### two strategies in one instrument -/

def demoBuy (strategy : String) : AccountCall :=
  .call (.placeOrder demoScope (demoOrder "BUY" 10 none [("strategy_run_id", strategy)]) []
    (demoMarket 100))

def demoAlone : List (Event AccountCall) := .start (demoBuy "alpha") :: List.replicate 13 (.step 0)

def demoShared : List (Event AccountCall) :=
  demoAlone ++ Event.start (demoBuy "beta") :: List.replicate 13 (.step 1)

def demoExit (strategy : String) : Task (Except Failure ExitReply) :=
  demoService.exitStrategy demoScope strategy (fun _ => 0) fun _ => demoMarket 100

/-- The result of an exit that placed its basket. -/
def ExitReply.placed? : Except Failure ExitReply → Option BasketResult
  | .ok (.placed result) => some result
  | _ => none

theorem ExitReply.placed?_eq_some {reply : Except Failure ExitReply} {result : BasketResult}
    (h : ExitReply.placed? reply = some result) : reply = .ok (.placed result) := by
  unfold ExitReply.placed? at h
  split at h
  · rw [some.inj h]
  · cases h

theorem exit_takes_own_lots_iff_demo :
    ∃ (cfg : Config Scope Label Store AccountReply) (result : BasketResult),
      (Config.idle demoStore).run demoService.accountProgram demoAlone = some cfg ∧
      ((demoExit "alpha").run cfg.world.store).1 = .ok (.placed result) ∧
      OwnLotsOnly "alpha" result cfg.world.store ((demoExit "alpha").run cfg.world.store).2 := by
  have hfacts : ((Config.idle demoStore).run demoService.accountProgram demoAlone).map
      (fun cfg => ((ExitReply.placed? ((demoExit "alpha").run cfg.world.store).1).map BasketResult.status,
        decide (demoService.ExitCovered demoScope "alpha" (fun _ => 0) (fun _ => demoMarket 100)
          cfg.world.store))) = some (some .success, true) := by
    decide +kernel
  obtain ⟨cfg, hrun, hexit⟩ := Option.map_eq_some_iff.mp hfacts
  obtain ⟨hstatus, hcovered⟩ := Prod.mk.inj hexit
  obtain ⟨result, hplaced, hsuccess⟩ := Option.map_eq_some_iff.mp hstatus
  have hreply := ExitReply.placed?_eq_some hplaced
  exact ⟨cfg, result, hrun, hreply, (exit_takes_own_lots_iff demoService (by decide +kernel) fresh_demoStore
    hrun (Prod.ext hreply rfl) hsuccess).mpr (of_decide_eq_true hcovered)⟩

/-- The second strategy to buy sells the lot of the first. -/
theorem exit_takes_lots_of_another :
    ¬ ∀ (s : Store) (_ : s.Fresh) (events : List (Event AccountCall))
      (cfg : Config Scope Label Store AccountReply)
      (_ : (Config.idle s).run demoService.accountProgram events = some cfg)
      (_ : ∀ lot ∈ cfg.world.store.lots.rows, 0 < lot.remainingQuantity →
        (strategyIdentity lot.attribution).isSome = true)
      (strategyId : String) (newest : List Attribution → Nat) (market : Nat → Int → Snapshot)
      (result : BasketResult) (last : Store)
      (_ : (demoService.exitStrategy demoScope strategyId newest market).run cfg.world.store =
        (.ok (.placed result), last)) (_ : result.status = .success),
      OwnLotsOnly (Text.strip strategyId) result cfg.world.store last := by
  have hfacts : ((Config.idle demoStore).run demoService.accountProgram demoShared).map
      (fun cfg => (decide (∀ lot ∈ cfg.world.store.lots.rows, 0 < lot.remainingQuantity →
          (strategyIdentity lot.attribution).isSome = true),
        (ExitReply.placed? ((demoExit "beta").run cfg.world.store).1).map BasketResult.status)) =
      some (true, some .success) := by
    decide +kernel
  have hlots : ((Config.idle demoStore).run demoService.accountProgram demoShared).map
      (fun cfg => ((cfg.world.store.lots.get? 2).map fun lot =>
          (strategyIdentity lot.attribution, lot.remainingQuantity),
        (((demoExit "beta").run cfg.world.store).2.lots.get? 2).map Lot.remainingQuantity)) =
      some (some (some "alpha", 10), some 0) := by
    decide +kernel
  obtain ⟨cfg, hrun, hexit⟩ := Option.map_eq_some_iff.mp hfacts
  rw [hrun] at hlots
  obtain ⟨hidentified, hstatus⟩ := Prod.mk.inj hexit
  obtain ⟨hbefore, hafter⟩ := Prod.mk.inj (Option.some.inj hlots)
  obtain ⟨result, hplaced, hsuccess⟩ := Option.map_eq_some_iff.mp hstatus
  obtain ⟨lot, hlot, hten⟩ := Option.map_eq_some_iff.mp hbefore
  obtain ⟨hidentity, hquantity⟩ := Prod.mk.inj hten
  intro h
  have hstrip : Text.strip "beta" = "beta" := by decide +kernel
  have hown := h demoStore fresh_demoStore demoShared cfg hrun (of_decide_eq_true hidentified) "beta" _ _
    result _ (Prod.ext (ExitReply.placed?_eq_some hplaced) rfl) hsuccess
  have hkept := hown.others 2 lot "alpha" hlot hidentity (by rw [hstrip]; decide)
  rw [hquantity] at hkept
  have hsold : some (0 : Int) = some 10 := hafter.symm.trans hkept
  cases hsold

end KiteAlgo.Paper
