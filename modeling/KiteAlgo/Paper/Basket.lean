import KiteAlgo.Paper.Effects

/-!
# KiteAlgo.Paper.Basket

An all-or-none basket against the same orders placed one after another.

The unit of work and the repository path agree order by order (`Agree`): where the unit
of work accepts or fills an order, the repository path writes the same rows, and where
it rejects one, so does the repository path.  Hence the basket commits exactly what the
orders would have written one by one, when none of them is rejected.
-/

namespace KiteAlgo.Paper

open List Prog
/-- How one order goes on the two paths: `uow` in the unit of work, `alone` over the
repository. -/
def Agree (scope : Scope) (uow : Except Failure ((Placed × Account) × Store))
    (alone : Except Failure Placed × Store) : Prop :=
  match uow with
  | .error failure => alone.1 = .error failure
  | .ok ((result, account), s) =>
    if result.isRejected then ∃ placed, alone.1 = .ok placed ∧ placed.isRejected
    else alone = (.ok result, s) ∧ s.accounts.get? scope = some account

namespace Service

variable (svc : Service)

theorem agree_reject (scope : Scope) (request : Request) (attribution : Attribution)
    (reason : String) (account : Account) (s : Store) :
    Agree scope
      ((buildRejectedResult scope request attribution reason).map fun result =>
        ((result, account), s))
      ((rejectOrder scope request attribution reason).run s) := by
  rw [run_rejectOrder, buildRejectedResult]
  cases rejectedOrder scope request attribution reason with
  | error failure => rfl
  | ok order => exact ⟨_, rfl, rfl⟩

variable {account : Account} {request : Request} {s : Store}

theorem agree_fill {order : Order} (hscope : account.scope = order.scope)
    (haccount : s.accounts.get? order.scope = some account) (hvalid : request.Valid)
    (instrument : Instrument) (price : ℚ) (existing : Option Position) :
    Agree order.scope (svc.fillOrderUow order account request instrument price existing s)
      (.ok ((svc.fillOrder order account request instrument price existing).run s).1,
        ((svc.fillOrder order account request instrument price existing).run s).2) := by
  by_cases hfunds : account.availableFunds -
      (svc.fillPlan order request instrument price existing).adjustment -
      order.estimatedCharges < 0
  · obtain ⟨rejected, hrejected⟩ := paperOrder_of_valid hvalid order.scope 0 .rejected
      order.attribution
    rw [svc.run_fillOrder_rejected hfunds, fillOrderUow]
    simp only [if_pos hfunds, buildRejectedResult, rejectedOrder, hrejected]
    exact ⟨_, rfl, rfl⟩
  · rw [← hscope] at haccount
    obtain ⟨s', hfunded, hs'⟩ := settleFundsUow_spec haccount order
      (svc.fillPlan order request instrument price existing)
    rw [svc.run_fillOrder_filled hfunds, fillOrderUow]
    simp only [if_neg hfunds, hfunded]
    refine ⟨rfl, ?_⟩
    have hkept := recordFillUow_accounts order price
      (svc.fillPlan order request instrument price existing) s'
    rw [hkept, ← hscope]
    exact hs'.self

theorem agree_book {account : Account} {order : Order} {leg : Leg} {s : Store}
    (hscope : account.scope = order.scope) (haccount : s.accounts.get? order.scope = some account)
    (hvalid : leg.request.Valid) (existing : Option Position) (reference : ℚ) :
    Agree order.scope (svc.bookOrderUow order account leg existing reference s)
      (.ok ((svc.bookOrder order account leg.request leg.instrument leg.snapshot existing
          reference).run s).1,
        ((svc.bookOrder order account leg.request leg.instrument leg.snapshot existing
          reference).run s).2) := by
  have hinserted : (s.insertOrder order).2.accounts.get? account.scope = some account := by
    rw [Store.insertOrder_accounts, hscope, haccount]
  obtain ⟨s₁, hreserve, hfunded⟩ := applyAccountDeltaUow_spec hinserted order.reservedMargin s.clock
  have hstop : ∃ stored s₂, persistStopLimitTriggerStateUow (s.insertOrder order).1 leg.request
      leg.snapshot s₁ = (stored, s₂) ∧ stored.scope = order.scope ∧ s₂.accounts = s₁.accounts := by
    unfold persistStopLimitTriggerStateUow
    repeat' split
    · exact ⟨_, _, rfl, rfl, rfl⟩
    · exact ⟨_, _, rfl, rfl, rfl⟩
    · exact ⟨_, _, rfl, rfl, rfl⟩
    · exact ⟨_, _, rfl, rfl, Store.updateOrder_accounts _ _⟩
  obtain ⟨stored, s₂, hpersist, hstored, haccounts⟩ := hstop
  have hheld : s₂.accounts.get? stored.scope = some (account.reserve order.reservedMargin) := by
    rw [haccounts, hstored, ← hscope]
    exact hfunded.self
  rw [bookOrder, bookOrderUow]
  simp only [bind_eq, run_bind, run_applyAccountDelta, run_persistStopLimitTriggerState,
    Repository.insertOrder, run_call]
  have hid : (s.insertOrder order).1.orderId = s.clock := rfl
  have hmargin : (s.insertOrder order).1.reservedMargin = order.reservedMargin := rfl
  simp only [hid, hmargin, hreserve, hpersist]
  by_cases hfill : shouldFillImmediately leg.request leg.snapshot
  · simp only [hfill, not_true_eq_false, if_false, if_true]
    rw [← hstored]
    have hreserved : (account.reserve order.reservedMargin).scope = stored.scope :=
      hscope.trans hstored.symm
    exact svc.agree_fill hreserved hheld hvalid leg.instrument _ existing
  · simp only [hfill]
    refine ⟨rfl, ?_⟩
    rw [Store.updateOrder_accounts, ← hstored]
    exact hheld

variable {scope : Scope}

theorem agree_place {instrument : Instrument} (haccount : s.accounts.get? scope = some account)
    (hinstrument : svc.getInstrument request.exchange request.tradingsymbol = some instrument)
    (attribution : Attribution) (market : Int → Snapshot) :
    Agree scope
      (svc.placeOrderLockedUow scope account
        ⟨request, instrument, market instrument.instrumentToken, attribution⟩ s)
      ((svc.placeRequest scope request attribution market).run s) := by
  have hscope : account.scope = scope := Keyed.key_of_get? haccount
  rw [placeRequest, placeOrderLockedUow]
  simp only [bind_eq, run_bind, svc.run_ensureAccount haccount, hinstrument,
    Repository.getPosition, run_read]
  split
  · exact agree_reject scope request attribution _ account s
  · next terms _ =>
    split
    · rfl
    · next order horder =>
      obtain ⟨hvalid, horderScope⟩ := valid_of_acceptedOrder horder
      have hheld : s.accounts.get? order.scope = some account := by rw [horderScope, haccount]
      have hbook := @agree_book svc account order
        ⟨request, instrument, market instrument.instrumentToken, attribution⟩ s
        (hscope.trans horderScope.symm) hheld hvalid
        (s.getPosition ⟨scope, instrument.instrumentToken, request.product⟩) terms.reference
      rw [horderScope] at hbook
      rw [run_bind]
      exact hbook

/-! ## baskets -/

theorem placeRequest_ok (hvalid : request.Valid) (scope : Scope) (attribution : Attribution)
    (market : Int → Snapshot) (s : Store) :
    ∃ placed, ((svc.placeRequest scope request attribution market).run s).1 = .ok placed := by
  have hreject : ∀ reason (s : Store),
      ∃ placed, ((rejectOrder scope request attribution reason).run s).1 = .ok placed := by
    intro reason s
    obtain ⟨order, horder⟩ := paperOrder_of_valid hvalid scope 0 .rejected attribution
    rw [run_rejectOrder, rejectedOrder, horder]
    exact ⟨_, rfl⟩
  rw [placeRequest]
  simp only [bind_eq, run_bind]
  split
  · exact hreject _ _
  · next instrument hinstrument =>
    simp only [run_bind, Repository.getPosition, run_read]
    split
    · exact hreject _ _
    · split
      · next failure hfailure =>
        obtain ⟨order, horder⟩ := paperOrder_of_valid hvalid scope instrument.instrumentToken
          .pending attribution
        rw [acceptedOrder, horder] at hfailure
        simp [Except.map] at hfailure
      · rw [run_bind]
        exact ⟨_, rfl⟩

/-- Every payload is accepted by `_normalize_order_request`, with a side and a type that
the enumerations know. -/
def Accepts (payloads : List OrderPayload) : Prop :=
  ∀ payload ∈ payloads, ∃ request, normalizeOrderRequest svc.upper payload = .ok request ∧ request.Valid

variable {payloads : List OrderPayload}

theorem placeSequence_ok (haccepts : svc.Accepts payloads) (scope : Scope)
    (attribution : Attribution) (market : Nat → Int → Snapshot) (index : Nat) (s : Store) :
    ∃ results, ((svc.placeSequence scope attribution market index payloads).run s).1 = .ok results := by
  induction payloads generalizing index s with
  | nil => exact ⟨[], rfl⟩
  | cons payload payloads ih =>
    obtain ⟨request, hrequest, hvalid⟩ := haccepts payload (.head _)
    obtain ⟨placed, hplaced⟩ := svc.placeRequest_ok hvalid scope
      (mergedAttribution (mergedAttribution attribution payload.metadata) payload.metadata)
      (market index) s
    rw [placeSequence]
    simp only [bind_eq, run_bind, placeOrderLocked, hrequest, hplaced]
    obtain ⟨results, hresults⟩ := ih (fun p hp => haccepts p (.tail _ hp))
      (index + 1) ((svc.placeRequest scope request (mergedAttribution
        (mergedAttribution attribution payload.metadata) payload.metadata) (market index)).run s).2
    rw [hresults]
    exact ⟨_, rfl⟩

/-- What the unit of work says about the orders placed one after another. -/
def SequenceAgrees (uow : Except Abort (List Placed × Store))
    (alone : Except Failure (List Placed) × Store) : Prop :=
  match uow with
  | .ok (results, s) => alone = (.ok results, s) ∧ ∀ r ∈ results, r.isRejected = false
  | .error (.rejected _) => ∃ results, alone.1 = .ok results ∧ ∃ r ∈ results, r.isRejected = true
  | .error (.raised _) => False

theorem SequenceAgrees.cons {uow : Except Abort (List Placed × Store)}
    {alone : Except Failure (List Placed) × Store} (h : SequenceAgrees uow alone) {result : Placed}
    (hresult : result.isRejected = false) :
    SequenceAgrees (uow.map fun rest => (result :: rest.1, rest.2))
      (alone.1.map (result :: ·), alone.2) := by
  cases uow with
  | ok out =>
    obtain ⟨results, s⟩ := out
    obtain ⟨rfl, hall⟩ := h
    refine ⟨rfl, fun r hr => ?_⟩
    rcases mem_cons.mp hr with rfl | hr
    · exact hresult
    · exact hall r hr
  | error abort =>
    cases abort with
    | rejected _ =>
      obtain ⟨results, hresults, r, hr, hrejected⟩ := h
      exact ⟨result :: results, by rw [hresults]; rfl, r, mem_cons_of_mem _ hr, hrejected⟩
    | raised _ => exact h.elim

variable {s' : Store}

theorem run_placeSequence_cons {payload : OrderPayload}
    (hrequest : normalizeOrderRequest svc.upper payload = .ok request) (scope : Scope)
    (attribution : Attribution) (market : Nat → Int → Snapshot) (index : Nat)
    (payloads : List OrderPayload) (s : Store) {placed : Placed}
    (hplaced : (svc.placeRequest scope request (mergedAttribution attribution payload.metadata)
      (market index)).run s = (.ok placed, s')) :
    (svc.placeSequence scope attribution market index (payload :: payloads)).run s =
      (((svc.placeSequence scope attribution market (index + 1) payloads).run s').1.map
          (placed :: ·),
        ((svc.placeSequence scope attribution market (index + 1) payloads).run s').2) := by
  rw [placeSequence]
  simp only [bind_eq, run_bind, placeOrderLocked, hrequest, mergedAttribution_self, hplaced]
  split <;> simp_all [Except.map]

variable {results : List Placed}

theorem sequence_of_committed (haccount : s.accounts.get? scope = some account)
    {attribution : Attribution} {market : Nat → Int → Snapshot} {index : Nat}
    (h : ((svc.prepareLegs scope attribution market index payloads).bind fun legs =>
      svc.placeLegsUow scope legs account s) = .ok (results, s')) :
    (svc.placeSequence scope attribution market index payloads).run s = (.ok results, s') := by
  induction payloads generalizing index account s results with
  | nil =>
    simp only [prepareLegs, Except.bind, placeLegsUow, Except.ok.injEq, Prod.mk.injEq] at h
    obtain ⟨rfl, rfl⟩ := h
    rfl
  | cons payload payloads ih =>
    rw [prepareLegs] at h
    cases hrequest : normalizeOrderRequest svc.upper payload with
    | error failure => simp [hrequest, Except.bind] at h
    | ok request =>
      cases hinstrument : svc.getInstrument request.exchange request.tradingsymbol with
      | none =>
        simp only [hrequest, hinstrument] at h
        split at h <;> simp [Except.bind] at h
      | some instrument =>
        simp only [hrequest, hinstrument] at h
        cases hlegs : svc.prepareLegs scope attribution market (index + 1) payloads with
        | error abort => simp [hlegs, Except.map, Except.bind] at h
        | ok legs =>
          simp only [hlegs, Except.map, Except.bind, placeLegsUow] at h
          have hagree := svc.agree_place haccount hinstrument
            (mergedAttribution attribution payload.metadata) (market index)
          split at h
          · simp at h
          · next result account' s₁ huow =>
            rw [huow] at hagree
            simp only [Agree] at hagree
            split at h
            · simp at h
            · next hrejected =>
              rw [if_neg hrejected] at hagree
              cases hrest : svc.placeLegsUow scope legs account' s₁ with
              | error abort => simp [hrest] at h
              | ok out =>
                simp only [hrest, Except.ok.injEq, Prod.mk.injEq] at h
                obtain ⟨rfl, rfl⟩ := h
                have hnext := ih hagree.2 (by rw [hlegs]; exact hrest)
                rw [svc.run_placeSequence_cons hrequest scope attribution market index
                  payloads s hagree.1, hnext]
                rfl
theorem sequence_agrees (haccepts : svc.Accepts payloads)
    (haccount : s.accounts.get? scope = some account) (attribution : Attribution)
    (market : Nat → Int → Snapshot) (index : Nat) :
    SequenceAgrees
      ((svc.prepareLegs scope attribution market index payloads).bind fun legs =>
        svc.placeLegsUow scope legs account s)
      ((svc.placeSequence scope attribution market index payloads).run s) := by
  induction payloads generalizing index account s with
  | nil => exact ⟨rfl, fun r hr => by simp at hr⟩
  | cons payload payloads ih =>
    obtain ⟨request, hrequest, hvalid⟩ := haccepts payload (.head _)
    have hrest : svc.Accepts payloads := fun p hp => haccepts p (.tail _ hp)
    obtain ⟨placed, hplaced⟩ := svc.placeRequest_ok hvalid scope
      (mergedAttribution attribution payload.metadata) (market index) s
    have hrun := svc.run_placeSequence_cons hrequest scope attribution market index payloads s
      (Prod.ext hplaced rfl)
    -- a rejected first order is a rejection among the results
    have hrejects : placed.isRejected → ∃ results,
        ((svc.placeSequence scope attribution market index (payload :: payloads)).run s).1 =
          .ok results ∧ ∃ r ∈ results, r.isRejected := by
      intro hrejected
      obtain ⟨results, hresults⟩ := svc.placeSequence_ok hrest scope attribution market (index + 1)
        ((svc.placeRequest scope request (mergedAttribution attribution payload.metadata)
          (market index)).run s).2
      rw [hrun, hresults]
      exact ⟨_, rfl, placed, (.head _), hrejected⟩
    cases hinstrument : svc.getInstrument request.exchange request.tradingsymbol with
    | none =>
      obtain ⟨unknown, hunknown⟩ := paperOrder_of_valid hvalid scope 0 .rejected attribution
      obtain ⟨order, horder⟩ := paperOrder_of_valid hvalid scope 0 .rejected
        (mergedAttribution attribution payload.metadata)
      have hrejected : placed.isRejected := by
        rw [placeRequest] at hplaced
        simp only [bind_eq, run_bind, hinstrument, run_rejectOrder, rejectedOrder,
          horder, Except.map, Except.ok.injEq] at hplaced
        rw [← hplaced]
        rfl
      simp only [prepareLegs, hrequest, hinstrument, buildRejectedResult, rejectedOrder,
        hunknown, Except.map, Except.bind]
      exact hrejects hrejected
    | some instrument =>
      have hagree := svc.agree_place haccount hinstrument
        (mergedAttribution attribution payload.metadata) (market index)
      simp only [prepareLegs, hrequest, hinstrument]
      cases huow : svc.placeOrderLockedUow scope account ⟨request, instrument,
          market index instrument.instrumentToken, mergedAttribution attribution payload.metadata⟩ s with
      | error failure =>
        rw [huow] at hagree
        have hraised : _ = Except.error failure := hagree
        rw [hplaced] at hraised
        simp at hraised
      | ok out =>
        obtain ⟨⟨result, account'⟩, s'⟩ := out
        rw [huow] at hagree
        simp only [Agree] at hagree
        by_cases hrejected : result.isRejected
        · rw [if_pos hrejected] at hagree
          obtain ⟨placed', hplaced', hrejected'⟩ := hagree
          rw [hplaced] at hplaced'
          have hsame : placed = placed' := by simpa using hplaced'
          have hresults := hrejects (by rw [hsame]; exact hrejected')
          have hprepared := ih hrest haccount (index + 1)
          cases hlegs : svc.prepareLegs scope attribution market (index + 1) payloads with
          | error abort =>
            rw [hlegs] at hprepared
            cases abort with
            | rejected _ => exact hresults
            | raised _ => exact hprepared.elim
          | ok legs =>
            simp only [Except.map, Except.bind, placeLegsUow, huow, hrejected, if_true]
            exact hresults
        · rw [if_neg hrejected] at hagree
          obtain ⟨halone, hstored⟩ := hagree
          have hresult : result.isRejected = false := by simpa using hrejected
          have hnext := ih hrest hstored (index + 1)
          rw [svc.run_placeSequence_cons hrequest scope attribution market index payloads s
            halone]
          cases hlegs : svc.prepareLegs scope attribution market (index + 1) payloads with
          | error abort =>
            rw [hlegs] at hnext
            exact SequenceAgrees.cons hnext hresult
          | ok legs =>
            rw [hlegs] at hnext
            simp only [Except.map, Except.bind, placeLegsUow, huow, hresult] at hnext ⊢
            exact SequenceAgrees.cons hnext hresult

theorem run_placeSequence_of_absent (haccepts : svc.Accepts payloads) (hne : payloads ≠ [])
    (habsent : s.accounts.get? scope = none) (attribution : Attribution)
    (market : Nat → Int → Snapshot) (index : Nat) :
    (svc.placeSequence scope attribution market index payloads).run s =
      (svc.placeSequence scope attribution market index payloads).run
        (s.upsertAccount (svc.freshAccount scope)) := by
  obtain ⟨payload, payloads, rfl⟩ := exists_cons_of_ne_nil hne
  obtain ⟨request, hrequest, -⟩ := haccepts payload (.head _)
  have hstored : (s.upsertAccount (svc.freshAccount scope)).accounts.get? scope =
      some (svc.freshAccount scope) :=
    Keyed.get?_upsert_self s.accounts (svc.freshAccount scope)
  rw [placeSequence]
  simp only [bind_eq, run_bind, placeOrderLocked, hrequest, placeRequest,
    svc.run_ensureAccount_of_absent habsent, svc.run_ensureAccount hstored]

/-- An all-or-none basket either fails and leaves the store alone, or commits what the
same orders write one after another; and it commits exactly when none is rejected. -/
def RefinesSequence (scope : Scope) (orders : List OrderPayload) (metadata attribution : Attribution)
    (market : Nat → Int → Snapshot) (s : Store) : Prop :=
  let atomic := (svc.placeBasket scope ⟨orders, true, metadata⟩ attribution market).run s
  let alone := (svc.placeBasket scope ⟨orders, false, metadata⟩ attribution market).run s
  (∃ result, atomic.1 = .ok result ∧ ((result.status = .failed ∧ atomic.2 = s) ∨
      (result.status = .success ∧ atomic.2 = alone.2))) ∧
  ((∃ result, atomic.1 = .ok result ∧ result.status = .success) ↔
    ∃ result, alone.1 = .ok result ∧ result.errors = [])

theorem basketUow_start (scope : Scope) (s : Store) :
    ∃ account s', s'.accounts.get? scope = some account ∧
      (∀ legs, svc.basketUow scope legs s = svc.placeLegsUow scope legs account s') ∧
      ((s.accounts.get? scope ≠ none ∧ s' = s) ∨
        (s.accounts.get? scope = none ∧ s' = s.upsertAccount (svc.freshAccount scope))) := by
  cases haccount : s.accounts.get? scope with
  | some account => exact ⟨account, s, haccount, fun legs => by rw [basketUow, haccount], by simp⟩
  | none =>
    exact ⟨svc.freshAccount scope, _, Keyed.get?_upsert_self s.accounts (svc.freshAccount scope),
      fun legs => by rw [basketUow, haccount], by simp⟩

theorem run_placeBasketAllOrNoneAtomic
    (hstart : ∀ legs, svc.basketUow scope legs s = svc.placeLegsUow scope legs account s')
    (orders : List OrderPayload) (attribution : Attribution) (market : Nat → Int → Snapshot) :
    (svc.placeBasketAllOrNoneAtomic scope orders attribution market).run s =
      match (svc.prepareLegs scope attribution market 0 orders).bind fun legs =>
          svc.placeLegsUow scope legs account s' with
      | .ok (results, s'') => (.ok { status := .success, results := results, errors := [] }, s'')
      | .error abort => (abort.reply, s) := by
  rw [placeBasketAllOrNoneAtomic]
  cases hlegs : svc.prepareLegs scope attribution market 0 orders with
  | error abort => rfl
  | ok legs =>
    simp only [bind_eq, run_bind, run_call, unitOfWork, hstart, Except.bind]
    cases svc.placeLegsUow scope legs account s' <;> rfl

theorem errors_basketResult :
    (basketResult results).errors = [] ↔ ∀ r ∈ results, r.isRejected = false := by
  simp [basketResult, filter_eq_nil_iff]

theorem basket_refines_sequence {orders : List OrderPayload} (haccepts : svc.Accepts orders)
    {scope : Scope} {s : Store} (hstored : s.accounts.get? scope ≠ none ∨ orders ≠ [])
    (metadata attribution : Attribution) (market : Nat → Int → Snapshot) :
    svc.RefinesSequence scope orders metadata attribution market s := by
  obtain ⟨account, s', haccount, hstart, hcase⟩ := svc.basketUow_start scope s
  have hsame : (svc.placeSequence scope (mergedAttribution attribution metadata) market 0
      orders).run s' = (svc.placeSequence scope (mergedAttribution attribution metadata) market 0
      orders).run s := by
    rcases hcase with ⟨-, rfl⟩ | ⟨habsent, rfl⟩
    · rfl
    · exact (svc.run_placeSequence_of_absent haccepts (hstored.resolve_left fun h => h habsent)
        habsent _ market 0).symm
  have hagrees := svc.sequence_agrees haccepts haccount (mergedAttribution attribution metadata)
    market 0
  rw [hsame] at hagrees
  unfold RefinesSequence
  simp only [placeBasket, Prog.run_withLock, placeBasketLocked, if_true, Bool.false_eq_true,
    if_false, Prog.bind_eq, Prog.run_bind, svc.run_placeBasketAllOrNoneAtomic hstart]
  generalize (svc.placeSequence scope (mergedAttribution attribution metadata) market 0
      orders).run s = alone at hagrees ⊢
  cases houtcome : (svc.prepareLegs scope (mergedAttribution attribution metadata) market 0
      orders).bind fun legs => svc.placeLegsUow scope legs account s' with
  | ok out =>
    obtain ⟨results, s''⟩ := out
    rw [houtcome] at hagrees
    obtain ⟨rfl, hall⟩ := hagrees
    refine ⟨⟨_, rfl, .inr ⟨rfl, rfl⟩⟩, fun _ => ⟨_, rfl, errors_basketResult.mpr hall⟩,
      fun _ => ⟨_, rfl, rfl⟩⟩
  | error abort =>
    rw [houtcome] at hagrees
    cases abort with
    | raised failure => exact hagrees.elim
    | rejected result =>
      obtain ⟨results, hresults, r, hr, hrejected⟩ := hagrees
      refine ⟨⟨_, rfl, .inl ⟨rfl, rfl⟩⟩, ?_, ?_⟩
      · rintro ⟨_, heq, hsuccess⟩
        simp only [Abort.reply, Except.ok.injEq] at heq
        rw [← heq] at hsuccess
        simp at hsuccess
      · rintro ⟨result', hresult', herrors⟩
        have hbasket : basketResult results = result' := by
          simpa [hresults, Except.map] using hresult'
        rw [← hbasket] at herrors
        rw [errors_basketResult.mp herrors r hr] at hrejected
        simp at hrejected

theorem accepts_of_all
    (h : payloads.all (fun payload => (normalizeOrderRequest svc.upper payload).toOption.any
      fun request => decide request.Valid)) : svc.Accepts payloads := by
  intro payload hpayload
  have hany := all_eq_true.mp h payload hpayload
  cases hrequest : normalizeOrderRequest svc.upper payload with
  | error failure => simp [hrequest, Except.toOption] at hany
  | ok request => exact ⟨request, rfl, by simpa [hrequest, Except.toOption] using hany⟩

def demoBasket : List OrderPayload := [demoOrder "BUY" 10, demoOrder "SELL" 4]

theorem accepts_demoBasket : demoService.Accepts demoBasket :=
  accepts_of_all demoService (by decide +kernel)

theorem basket_refines_demoBasket :
    demoService.RefinesSequence demoScope demoBasket [] [] (fun _ => demoMarket 100) {} :=
  basket_refines_sequence demoService accepts_demoBasket (.inr (by decide)) [] [] _

/-- `HOLD` passes `_normalize_order_request`, but no order can be built from it: the
basket raises.  And an all-or-none basket without orders creates an absent account. -/
theorem unknown_side_and_empty_basket :
    (∃ request, normalizeOrderRequest demoService.upper (demoOrder "HOLD" 10) = .ok request) ∧
    ¬ demoService.RefinesSequence demoScope [demoOrder "HOLD" 10] [] [] (fun _ => demoMarket 100)
      demoStore ∧
    ¬ demoService.RefinesSequence demoScope [] [] [] (fun _ => demoMarket 100) {} := by
  refine ⟨?_, fun h => ?_, fun h => ?_⟩
  · have hok : (normalizeOrderRequest demoService.upper (demoOrder "HOLD" 10)).toOption.isSome :=
      by decide +kernel
    cases hrequest : normalizeOrderRequest demoService.upper (demoOrder "HOLD" 10) with
    | error failure => simp [hrequest, Except.toOption] at hok
    | ok request => exact ⟨request, rfl⟩
  · have hraised : ((demoService.placeBasket demoScope ⟨[demoOrder "HOLD" 10], true, []⟩ []
        (fun _ => demoMarket 100)).run demoStore).1.toOption = none := by decide +kernel
    obtain ⟨⟨result, hresult, -⟩, -⟩ := h
    rw [hresult] at hraised
    simp [Except.toOption] at hraised
  · have hcreated : ((demoService.placeBasket demoScope ⟨[], true, []⟩ []
        (fun _ => demoMarket 100)).run {}).2 ≠ {} := by decide +kernel
    obtain ⟨⟨result, hresult, hfailed | hsame⟩, -⟩ := h
    · exact hcreated hfailed.2
    · exact hcreated hsame.2

end Service

end KiteAlgo.Paper
