import KiteAlgo.Baskets.Activity

/-!
# KiteAlgo.Baskets.Placement

`OrdersService.place_basket` (`orders/service.py`): the orders of a basket are placed one
after the other, each leg is marked in the tables, and the first failure of an all-or-none
basket cancels what was placed before it.

Every call the loop makes may fail, and `Outcomes` says what each of them answers.  A
placement is refused by the broker, or accepted with or without its answer reaching the
caller; a statement that raises may still have been committed.  `World` keeps what the
broker saw.  An order enters the list of orders to cancel only after its leg was marked
working, so the rollback is complete exactly when the leg at which the loop stopped was
refused (`rollback_complete_iff`).
-/

namespace KiteAlgo.Baskets

open List
/-- The outcome of a database session: `kept` says that the commit went through although
it raised. -/
inductive Commit where
  | ok
  | failed (kept : Bool) (error : String)
  deriving DecidableEq

/-- What the calls of one `place_basket` answer. -/
structure Outcomes where
  margins : Option String
  create : Commit
  placeOrder : Nat → Placement
  markWorking : Nat → Commit
  markSubmitFailed : Nat → Commit
  /-- The error of the `n`-th cancellation. -/
  cancelOrder : Nat → Option String
  finalize : Commit

/-- The tables, the orders the broker accepted for each leg, those whose id was returned,
and the cancellations attempted. -/
structure World where
  tables : Tables
  accepted : List (Nat × String) := []
  returned : List (Nat × String) := []
  cancels : List (String × Bool) := []

/-- A statement in a session of its own: its error, if it raises, and the world after it. -/
def World.execute (w : World) (c : Commit) (f : Tables → Tables) : Option String × World :=
  match c with
  | .ok => (none, { w with tables := f w.tables })
  | .failed true error => (some error, { w with tables := f w.tables })
  | .failed false error => (some error, w)

/-! ## requests and responses -/

/-- A `PlaceOrderRequest`, as far as the basket reads it. -/
structure LegOrder where
  tradingsymbol : String
  variety : String
  quantity : Int
  tag : String := ""
  deriving DecidableEq

/-- `BasketOrderRequest`. -/
structure BasketRequest where
  orders : List LegOrder
  allOrNone : Bool := false
  dryRun : Bool := false
  deriving DecidableEq

/-- The statuses of a response; `partlyPlaced` is the text `partial`. -/
inductive ResponseStatus where
  | success
  | partlyPlaced
  | failed
  | dryRun
  deriving DecidableEq, Repr

/-- `BasketOrderResultItem`. -/
structure ResultItem where
  index : Nat
  tradingsymbol : String
  orderId : Option String := none
  error : Option String := none
  deriving DecidableEq

/-- `BasketOrderResponse`. -/
structure Response where
  status : ResponseStatus
  results : List ResultItem := []
  errors : List ResultItem := []
  note : Option String := none
  basketExecutionId : Option String := none
  basketStatus : Option BasketStatus := none
  actionRequired : Bool := false
  actionReason : Option String := none
  deriving DecidableEq

structure Placed where
  index : Nat
  orderId : String
  variety : String
  deriving DecidableEq

structure Progress where
  results : List ResultItem := []
  placed : List Placed := []
  errors : List ResultItem := []

/-! ## placing a basket -/

/-- One leg: the placement and the mark; the error if either raises. -/
def submitLeg (out : Outcomes) (basket : Option String) (idx : Nat) (order : LegOrder) (w : World) :
    Except String String × World :=
  match out.placeOrder idx with
  | .refused error => (.error error, w)
  | .lost orderId error => (.error error, { w with accepted := w.accepted ++ [(idx, orderId)] })
  | .returned orderId =>
    let w := { w with
      accepted := w.accepted ++ [(idx, orderId)]
      returned := w.returned ++ [(idx, orderId)] }
    match basket with
    | none => (.ok orderId, w)
    | some b =>
      match w.execute (out.markWorking idx) (Tables.markLegWorking b idx orderId
          (if order.tag = "" then none else some order.tag)) with
      | (none, w) => (.ok orderId, w)
      | (some error, w) => (.error error, w)

/-- The rollback: cancel the placed orders, from the `n`-th cancellation on. -/
def cancelPlaced (out : Outcomes) : Nat → List Placed → World → Bool × World
  | _, [], w => (false, w)
  | n, p :: placed, w =>
    let failed := (out.cancelOrder n).isSome
    let (rest, w) := cancelPlaced out (n + 1) placed
      { w with cancels := w.cancels ++ [(p.orderId, !failed)] }
    (failed || rest, w)

/-- `finalize_submission` in a session of its own, and the response read from the snapshot
it returns. -/
def finalizeWith (out : Outcomes) (basket : Option String) (rollbackStatus : RollbackStatus)
    (actionRequired : Bool) (actionReason : Option String) (response : Response) (w : World) :
    Except String Response × World :=
  match basket with
  | none => (.ok response, w)
  | some b =>
    match w.execute out.finalize
        (Tables.finalizeSubmission b rollbackStatus actionRequired actionReason) with
    | (some error, w) => (.error error, w)
    | (none, w) =>
      match w.tables.baskets.get? b with
      | some row =>
        (.ok { response with
          basketStatus := some row.status
          actionRequired := row.actionRequired
          actionReason := row.actionReason }, w)
      | none => (.ok response, w)

/-- The all-or-none branch after the failed leg was recorded. -/
def rollback (out : Outcomes) (basket : Option String) (p : Progress) (w : World) :
    Except String Response × World :=
  let (failed, w) := cancelPlaced out 0 p.placed w
  finalizeWith out basket (if failed then .failed else .completed) failed
    (if failed then some "rollback_incomplete" else none)
    { status := .failed
      results := p.results
      errors := p.errors
      note := some "Best-effort rollback attempted; some orders may already be executed."
      basketExecutionId := basket } w

/-- The record of a failed leg; raises if the statement does. -/
def recordFailure (out : Outcomes) (basket : Option String) (idx : Nat) (error : String) (w : World) :
    Option String × World :=
  match basket with
  | none => (none, w)
  | some b => w.execute (out.markSubmitFailed idx) (Tables.markLegSubmitFailed b idx (some error))

/-- The loop over the orders, from the leg `idx` on. -/
def placeLegs (req : BasketRequest) (out : Outcomes) (basket : Option String) :
    Nat → List LegOrder → Progress → World → Except String Response × World
  | _, [], p, w =>
    finalizeWith out basket .none false none
      { status := if p.errors.isEmpty then .success else .partlyPlaced
        results := p.results
        errors := p.errors
        basketExecutionId := basket } w
  | idx, order :: orders, p, w =>
    match submitLeg out basket idx order w with
    | (.ok orderId, w) =>
      placeLegs req out basket (idx + 1) orders
        { p with
          results := p.results ++
            [{ index := idx, tradingsymbol := order.tradingsymbol, orderId := some orderId }]
          placed := p.placed ++ [{ index := idx, orderId, variety := order.variety }] } w
    | (.error error, w) =>
      let item : ResultItem :=
        { index := idx, tradingsymbol := order.tradingsymbol, error := some error }
      let p := { p with results := p.results ++ [item], errors := p.errors ++ [item] }
      match recordFailure out basket idx error w with
      | (some raised, w) => (.error raised, w)
      | (none, w) =>
        if req.allOrNone then rollback out basket p w
        else placeLegs req out basket (idx + 1) orders p w

/-- The session of a live basket: the run, the account, and the id a new row gets. -/
structure Session where
  strategyRunId : String
  accountId : String
  newId : String
  deriving DecidableEq

/-- The basket row of a live basket, created unless its id is given. -/
def openBasket (req : BasketRequest) (out : Outcomes) (session : Option Session)
    (basket : Option String) (w : World) : Except String (Option String) × World :=
  match session, basket with
  | some session, none =>
    match w.tables.createLiveBasketExecution session.newId session.strategyRunId
        session.accountId req.allOrNone (req.orders.map LegOrder.quantity) with
    | none => (.error "duplicate key value violates unique constraint", w)
    | some t =>
      match w.execute out.create fun _ => t with
      | (none, w) => (.ok (some session.newId), w)
      | (some error, w) => (.error error, w)
  | _, basket => (.ok basket, w)

def placeBasket (req : BasketRequest) (out : Outcomes) (session : Option Session)
    (basket : Option String) (w : World) : Except String Response × World :=
  if req.orders.isEmpty then (.ok { status := .success }, w)
  else if req.dryRun then
    match out.margins with
    | none => (.ok { status := .dryRun }, w)
    | some error => (.error s!"Failed to preview margins: {error}", w)
  else
    match openBasket req out session basket w with
    | (.error error, w) => (.error error, w)
    | (.ok basket, w) => placeLegs req out basket 0 req.orders {} w

/-! ## the rollback -/

/-- What a failed all-or-none basket `b` promises: a cancellation was attempted for every
order id returned, no leg recorded as `submit_failed` has an order at the broker, and
action is required unless every such cancellation succeeded. -/
structure RolledBack (b : String) (response : Response) (w : World) : Prop where
  attempted : ∀ i orderId, (i, orderId) ∈ w.returned → ∃ ok, (orderId, ok) ∈ w.cancels
  recorded : ∀ leg ∈ w.tables.legsOf b, leg.status = .submitFailed →
    ∀ orderId, (leg.legIndex, orderId) ∉ w.accepted
  flagged : response.actionRequired = true ∨ ∀ i orderId, (i, orderId) ∈ w.returned →
      (orderId, true) ∈ w.cancels ∧ (orderId, false) ∉ w.cancels

def Outcomes.submits (out : Outcomes) (i : Nat) : Bool :=
  match out.placeOrder i, out.markWorking i with
  | .returned _, .ok => true
  | _, _ => false

def Outcomes.refuses (out : Outcomes) (i : Nat) : Bool :=
  match out.placeOrder i with
  | .refused _ => true
  | _ => false

/-- The first of `n` legs that is not placed and marked, if there is one, was refused. -/
def Outcomes.StopsRefused (out : Outcomes) (n : Nat) : Prop :=
  ∀ i < n, (∀ j < i, out.submits j = true) → out.submits i = false → out.refuses i = true

instance (out : Outcomes) (n : Nat) : Decidable (out.StopsRefused n) :=
  inferInstanceAs (Decidable (∀ i < n, (∀ j < i, out.submits j = true) → out.submits i = false →
    out.refuses i = true))

/-- The basket `b` and its `n` legs are stored, and no leg failed. -/
structure Stored (b : String) (n : Nat) (t : Tables) : Prop where
  basket : (t.baskets.get? b).isSome = true
  legs : ∀ i < n, ∃ leg ∈ t.legsOf b, leg.legIndex = i
  unfailed : ∀ leg ∈ t.legsOf b, leg.status ≠ .submitFailed

theorem legsOf_markLegWorking (t : Tables) (b : String) (i : Nat) (o : String) (r : Option String) :
    (t.markLegWorking b i o r).legsOf b = stepLeg i (.working o r) (t.legsOf b) := by
  have h := legsOf_modify t (b, i) (.working o r) b (Leg.key_working o r) fun _ => rfl
  rw [if_pos rfl] at h
  exact h

theorem legsOf_markLegSubmitFailed (t : Tables) (b : String) (i : Nat) (e : Option String) :
    (t.markLegSubmitFailed b i e).legsOf b = stepLeg i (.submitFailed e) (t.legsOf b) := by
  have h := legsOf_modify t (b, i) (.submitFailed e) b (Leg.key_submitFailed e) fun _ => rfl
  rw [if_pos rfl] at h
  exact h

theorem index_step (leg : Leg) (s : LegStep) : (leg.step s).legIndex = leg.legIndex := by
  cases s <;> rfl

theorem exists_index_stepLeg {legs : List Leg} {i j : Nat} (s : LegStep)
    (h : ∃ leg ∈ legs, leg.legIndex = j) : ∃ leg ∈ stepLeg i s legs, leg.legIndex = j := by
  obtain ⟨leg, hmem, hj⟩ := h
  by_cases hi : leg.legIndex = i
  · exact ⟨leg.step s, mem_stepLeg.mpr (.inl ⟨leg, hmem, hi, rfl⟩), (index_step leg s).trans hj⟩
  · exact ⟨leg, mem_stepLeg.mpr (.inr ⟨hmem, hi⟩), hj⟩

variable {b : String} {n : Nat} {t : Tables}

theorem Stored.markLegWorking (h : Stored b n t) (i : Nat) (o : String)
    (r : Option String) : Stored b n (t.markLegWorking b i o r) where
  basket := h.basket
  legs j hj := by
    rw [legsOf_markLegWorking]
    exact exists_index_stepLeg _ (h.legs j hj)
  unfailed := by
    intro leg hmem
    rw [legsOf_markLegWorking] at hmem
    cases mem_stepLeg.mp hmem with
    | inl hmarked =>
      obtain ⟨old, -, -, rfl⟩ := hmarked
      simp [Leg.step, Leg.working]
    | inr hother => exact h.unfailed leg hother.1

/-- The loop before its first failure: the orders to cancel are those the broker accepted. -/
structure Placing (b : String) (n i : Nat) (p : Progress) (w : World) : Prop where
  stored : Stored b n w.tables
  returned : w.returned = p.placed.map fun x => (x.index, x.orderId)
  accepted : w.accepted = w.returned
  earlier : ∀ x ∈ p.placed, x.index < i
  uncancelled : w.cancels = []

theorem cancelPlaced_spec (out : Outcomes) (n : Nat) (placed : List Placed) (w : World) :
    ∃ attempts : List (String × Bool),
      (cancelPlaced out n placed w).2 = { w with cancels := w.cancels ++ attempts } ∧
      attempts.map Prod.fst = placed.map Placed.orderId ∧
      ((cancelPlaced out n placed w).1 = false → ∀ a ∈ attempts, a.2) := by
  induction placed generalizing n w with
  | nil => exact ⟨[], by simp [cancelPlaced], rfl, by simp⟩
  | cons p placed ih =>
    obtain ⟨attempts, hworld, hids, hok⟩ := ih (n + 1)
      { w with cancels := w.cancels ++ [(p.orderId, !(out.cancelOrder n).isSome)] }
    refine ⟨(p.orderId, !(out.cancelOrder n).isSome) :: attempts, ?_, ?_, ?_⟩
    · simp only [cancelPlaced, hworld, append_assoc, singleton_append]
    · rw [map_cons, map_cons, hids]
    · intro hfailed a ha
      simp only [cancelPlaced, Bool.or_eq_false_iff] at hfailed
      cases mem_cons.mp ha with
      | inl heq => rw [heq, hfailed.1]; rfl
      | inr hmem => exact hok hfailed.2 a hmem

variable {c : Commit} {f : Tables → Tables} {w w' : World}

theorem execute_none (h : w.execute c f = (none, w')) :
    c = .ok ∧ w' = { w with tables := f w.tables } := by
  cases c with
  | ok => exact ⟨rfl, (Prod.mk.inj h).2.symm⟩
  | failed kept error =>
    cases kept <;> exact absurd (Prod.mk.inj h).1 (by simp)

variable {error : String}

theorem execute_some (h : w.execute c f = (some error, w')) :
    c ≠ .ok ∧ (w' = w ∨ w' = { w with tables := f w.tables }) := by
  cases c with
  | ok => exact absurd (Prod.mk.inj h).1 (by simp)
  | failed kept error =>
    cases kept with
    | false => exact ⟨by simp, .inl (Prod.mk.inj h).2.symm⟩
    | true => exact ⟨by simp, .inr (Prod.mk.inj h).2.symm⟩

variable {idx : Nat} {order : LegOrder} {orderId : String} {out : Outcomes}

theorem submitLeg_ok (h : submitLeg out (some b) idx order w = (.ok orderId, w')) :
    out.submits idx ∧ ∃ ref, w' = { w with
      tables := w.tables.markLegWorking b idx orderId ref
      accepted := w.accepted ++ [(idx, orderId)]
      returned := w.returned ++ [(idx, orderId)] } := by
  unfold submitLeg at h
  cases hplace : out.placeOrder idx with
  | refused error => simp [hplace] at h
  | lost lostId error => simp [hplace] at h
  | returned answer =>
    simp only [hplace] at h
    split at h
    · next hexec =>
      obtain ⟨hok, hworld⟩ := Prod.mk.inj h
      obtain ⟨hcommit, hw⟩ := execute_none hexec
      obtain rfl := Except.ok.inj hok
      refine ⟨by simp [Outcomes.submits, hplace, hcommit],
        if order.tag = "" then none else some order.tag, ?_⟩
      rw [← hworld, hw]
    · exact absurd (Prod.mk.inj h).1 (by simp)

theorem submitLeg_error (h : submitLeg out (some b) idx order w = (.error error, w')) :
    out.submits idx = false ∧ (out.refuses idx ∧ w' = w ∨
        out.refuses idx = false ∧ (∃ orderId, (idx, orderId) ∈ w'.accepted) ∧
          (w'.tables = w.tables ∨ ∃ o r, w'.tables = w.tables.markLegWorking b idx o r)) := by
  unfold submitLeg at h
  cases hplace : out.placeOrder idx with
  | refused answer =>
    simp only [hplace] at h
    exact ⟨by simp [Outcomes.submits, hplace],
      .inl ⟨by simp [Outcomes.refuses, hplace], (Prod.mk.inj h).2.symm⟩⟩
  | lost orderId answer =>
    simp only [hplace] at h
    rw [← (Prod.mk.inj h).2]
    exact ⟨by simp [Outcomes.submits, hplace],
      .inr ⟨by simp [Outcomes.refuses, hplace], ⟨orderId, by simp⟩, .inl rfl⟩⟩
  | returned orderId =>
    simp only [hplace] at h
    split at h
    · exact absurd (Prod.mk.inj h).1 (by simp)
    · next raised w'' hexec =>
      obtain ⟨hcommit, hw⟩ := execute_some hexec
      rw [← (Prod.mk.inj h).2]
      refine ⟨?_, .inr ⟨by simp [Outcomes.refuses, hplace], ?_, ?_⟩⟩
      · unfold Outcomes.submits
        rw [hplace]
        cases hmark : out.markWorking idx with
        | ok => exact absurd hmark hcommit
        | failed kept error => rfl
      · cases hw with
        | inl hw => exact ⟨orderId, by simp [hw]⟩
        | inr hw => exact ⟨orderId, by simp [hw]⟩
      · cases hw with
        | inl hw => exact .inl (by rw [hw])
        | inr hw => exact .inr ⟨orderId, _, by rw [hw]⟩

theorem get?_finalizeSubmission (hrow : (t.baskets.get? b).isSome)
    (rollback : RollbackStatus) (required : Bool) (reason : Option String) :
    ∃ row, (t.finalizeSubmission b rollback required reason).baskets.get? b = some row ∧
      row.actionRequired = required := by
  obtain ⟨row, hget⟩ := Option.isSome_iff_exists.mp hrow
  simp only [Tables.finalizeSubmission, Tables.recomputeAndUpdate, Keyed.get?_modify_self, hget,
    Option.map_some, Option.some.injEq, exists_eq_left']
  rfl

variable {p : Progress} {response : Response}

theorem rollback_spec (hrow : (w.tables.baskets.get? b).isSome)
    (h : rollback out (some b) p w = (.ok response, w')) :
    ∃ attempts : List (String × Bool), attempts.map Prod.fst = p.placed.map Placed.orderId ∧
      w'.cancels = w.cancels ++ attempts ∧ w'.accepted = w.accepted ∧ w'.returned = w.returned ∧
      w'.tables.legsOf b = w.tables.legsOf b ∧
      (response.actionRequired ∨ ∀ a ∈ attempts, a.2) := by
  unfold rollback at h
  obtain ⟨attempts, hworld, hids, hok⟩ := cancelPlaced_spec out 0 p.placed w
  cases hcancel : cancelPlaced out 0 p.placed w with
  | mk failed after =>
    rw [hcancel] at hworld hok
    simp only at hworld hok
    subst hworld
    simp only [hcancel, finalizeWith] at h
    split at h
    · exact absurd (Prod.mk.inj h).1 (by simp)
    · next w'' hexec =>
      obtain ⟨-, hw⟩ := execute_none hexec
      obtain ⟨row, hget, hrequired⟩ := get?_finalizeSubmission hrow
        (if failed then .failed else .completed) failed
        (if failed then some "rollback_incomplete" else none)
      have hget' : w''.tables.baskets.get? b = some row := by rw [hw]; exact hget
      rw [hget'] at h
      obtain ⟨hresponse, hafter⟩ := Prod.mk.inj h
      refine ⟨attempts, hids, ?_, ?_, ?_, ?_, ?_⟩
      · rw [← hafter, hw]
      · rw [← hafter, hw]
      · rw [← hafter, hw]
      · rw [← hafter, hw]
        rfl
      · rw [← Except.ok.inj hresponse]
        simp only [hrequired]
        cases hf : failed with
        | true => exact .inl rfl
        | false => exact .inr (hok hf)

variable {p' : Progress}

theorem Placing.submitted (h : Placing b n idx p w)
    (hplaced : p'.placed = p.placed ++ [{ index := idx, orderId, variety := order.variety }])
    (hleg : submitLeg out (some b) idx order w = (.ok orderId, w')) :
    Placing b n (idx + 1) p' w' := by
  obtain ⟨-, ref, rfl⟩ := submitLeg_ok hleg
  refine ⟨h.stored.markLegWorking idx orderId ref, ?_, ?_, ?_, h.uncancelled⟩
  · rw [hplaced, h.returned, map_append]
    rfl
  · simp only [h.accepted]
  · intro x hx
    rw [hplaced, mem_append] at hx
    cases hx with
    | inl hx => exact Nat.lt_succ_of_lt (h.earlier x hx)
    | inr hx => rw [mem_singleton.mp hx]; exact Nat.lt_succ_self idx

theorem rolledBack_iff {w₁ w₂ : World} (h : Placing b n idx p w) (hidx : idx < n)
    (hplaced : p'.placed = p.placed)
    (hleg : submitLeg out (some b) idx order w = (.error error, w₁))
    (hrecord : recordFailure out (some b) idx error w₁ = (none, w₂))
    (hback : rollback out (some b) p' w₂ = (.ok response, w')) :
    RolledBack b response w' ↔ out.refuses idx := by
  obtain ⟨-, hcases⟩ := submitLeg_error hleg
  obtain ⟨-, hw₂⟩ := execute_none hrecord
  have hlegs₂ : w₂.tables.legsOf b = stepLeg idx (.submitFailed (some error)) (w₁.tables.legsOf b) := by
    rw [hw₂]
    exact legsOf_markLegSubmitFailed w₁.tables b idx (some error)
  have hrow₁ : (w₁.tables.baskets.get? b).isSome := by
    cases hcases with
    | inl hrefused => rw [hrefused.2]; exact h.stored.basket
    | inr haccepted =>
      cases haccepted.2.2 with
      | inl heq => rw [heq]; exact h.stored.basket
      | inr hmarked =>
        obtain ⟨o, r, heq⟩ := hmarked
        rw [heq]
        exact h.stored.basket
  have hrow₂ : (w₂.tables.baskets.get? b).isSome := by
    rw [hw₂]
    exact hrow₁
  obtain ⟨attempts, hids, hcancels, haccepted', hreturned', hlegs', hflag⟩ := rollback_spec hrow₂ hback
  rw [hplaced] at hids
  rw [hlegs₂] at hlegs'
  have hacc : w'.accepted = w₁.accepted := by rw [haccepted', hw₂]
  cases hcases with
  | inl hrefused =>
    obtain ⟨hrefuses, rfl⟩ := hrefused
    refine iff_of_true ?_ hrefuses
    have hret : w'.returned = p.placed.map fun x => (x.index, x.orderId) := by
      rw [hreturned', hw₂]
      exact h.returned
    have hcan : w'.cancels = attempts := by
      rw [hcancels, hw₂]
      simp only [h.uncancelled, nil_append]
    have hattempt : ∀ i orderId, (i, orderId) ∈ w'.returned → ∃ ok, (orderId, ok) ∈ attempts := by
      intro i orderId hmem
      rw [hret, mem_map] at hmem
      obtain ⟨x, hx, heq⟩ := hmem
      have hid : orderId ∈ attempts.map Prod.fst := by
        rw [hids, ← (Prod.mk.inj heq).2]
        exact mem_map_of_mem hx
      obtain ⟨a, ha, rfl⟩ := mem_map.mp hid
      exact ⟨a.2, ha⟩
    refine ⟨fun i orderId hmem => hcan ▸ hattempt i orderId hmem, ?_, hflag.imp_right ?_⟩
    · intro leg hmem hstatus orderId hacc'
      rw [hlegs'] at hmem
      have hindex : leg.legIndex = idx := by
        cases mem_stepLeg.mp hmem with
        | inl hmarked =>
          obtain ⟨old, -, hi, rfl⟩ := hmarked
          exact (index_step old _).trans hi
        | inr hother => exact absurd hstatus (h.stored.unfailed leg hother.1)
      rw [hacc, h.accepted, h.returned, mem_map] at hacc'
      obtain ⟨x, hx, heq⟩ := hacc'
      have hlt := h.earlier x hx
      rw [(Prod.mk.inj heq).1, hindex] at hlt
      exact Nat.lt_irrefl idx hlt
    · intro hall i orderId hmem
      obtain ⟨ok, hok⟩ := hattempt i orderId hmem
      have htrue : ok := hall _ hok
      rw [hcan]
      exact ⟨htrue ▸ hok, fun hfalse => absurd (hall _ hfalse) (by simp)⟩
  | inr haccept =>
    obtain ⟨hrefuses, ⟨orderId, hmem⟩, htables⟩ := haccept
    refine iff_of_false ?_ (by simp [hrefuses])
    intro hrolled
    -- the leg that failed is stored as failed, and the broker has its order
    have hstored : ∃ leg ∈ w₁.tables.legsOf b, leg.legIndex = idx := by
      cases htables with
      | inl heq => rw [heq]; exact h.stored.legs idx hidx
      | inr hmarked =>
        obtain ⟨o, r, heq⟩ := hmarked
        rw [heq, legsOf_markLegWorking]
        exact exists_index_stepLeg _ (h.stored.legs idx hidx)
    obtain ⟨leg, hleg', hindex⟩ := hstored
    have hfailed : leg.submitFailed (some error) ∈ w'.tables.legsOf b := by
      rw [hlegs']
      exact mem_stepLeg.mpr (.inl ⟨leg, hleg', hindex, rfl⟩)
    refine hrolled.recorded _ hfailed rfl orderId ?_
    rw [hacc]
    exact hindex.symm ▸ hmem

theorem placeLegs_failed {req : BasketRequest} {orders : List LegOrder}
    (hall : req.allOrNone) (hn : idx + orders.length = n) (h : Placing b n idx p w)
    (hplace : placeLegs req out (some b) idx orders p w = (.ok response, w'))
    (hstatus : response.status = .failed) :
    ∃ k, idx ≤ k ∧ k < n ∧ (∀ j, idx ≤ j → j < k → out.submits j) ∧
      out.submits k = false ∧ (RolledBack b response w' ↔ out.refuses k) := by
  induction orders generalizing idx p w with
  | nil =>
    simp only [placeLegs, finalizeWith] at hplace
    split at hplace
    · exact absurd (Prod.mk.inj hplace).1 (by simp)
    · split at hplace
      all_goals
        rw [← Except.ok.inj (Prod.mk.inj hplace).1] at hstatus
        simp only at hstatus
        split at hstatus <;> exact absurd hstatus (by simp)
  | cons order orders ih =>
    rw [length_cons] at hn
    unfold placeLegs at hplace
    cases hleg : submitLeg out (some b) idx order w with
    | mk answer w₁ =>
      cases answer with
      | ok orderId =>
        simp only [hleg] at hplace
        obtain ⟨k, hle, hlt, hbefore, hk, hiff⟩ :=
          ih (by omega) (h.submitted rfl hleg) hplace
        refine ⟨k, by omega, hlt, ?_, hk, hiff⟩
        intro j hj hjk
        by_cases heq : j = idx
        · rw [heq]
          exact (submitLeg_ok hleg).1
        · exact hbefore j (by omega) hjk
      | error error =>
        simp only [hleg, hall, if_true] at hplace
        split at hplace
        · exact absurd (Prod.mk.inj hplace).1 (by simp)
        · next w₂ hrecord =>
          refine ⟨idx, le_refl _, by omega, by omega, (submitLeg_error hleg).1, ?_⟩
          refine rolledBack_iff h (by omega) ?_ hleg hrecord hplace
          rfl

/-- A failed all-or-none basket is rolled back if and only if the leg at which it stopped
was refused by the broker. -/
theorem rollback_complete_iff {req : BasketRequest} {out : Outcomes} {session : Option Session}
    {basket : Option String} {b : String} {w w₁ w' : World} {response : Response}
    (hall : req.allOrNone = true) (hopen : openBasket req out session basket w = (.ok (some b), w₁))
    (hstored : Stored b req.orders.length w₁.tables)
    (hnew : w₁.accepted = [] ∧ w₁.returned = [] ∧ w₁.cancels = [])
    (hplace : placeBasket req out session basket w = (.ok response, w'))
    (hstatus : response.status = .failed) :
    RolledBack b response w' ↔ out.StopsRefused req.orders.length := by
  unfold placeBasket at hplace
  split at hplace
  · rw [← Except.ok.inj (Prod.mk.inj hplace).1] at hstatus
    exact absurd hstatus (by simp)
  · split at hplace
    · split at hplace
      · rw [← Except.ok.inj (Prod.mk.inj hplace).1] at hstatus
        exact absurd hstatus (by simp)
      · exact absurd (Prod.mk.inj hplace).1 (by simp)
    · rw [hopen] at hplace
      have hstart : Placing b req.orders.length 0 {} w₁ :=
        ⟨hstored, hnew.2.1, hnew.1.trans hnew.2.1.symm, by simp, hnew.2.2⟩
      obtain ⟨k, -, hk, hbefore, hfailed, hiff⟩ :=
        placeLegs_failed hall (by simp) hstart hplace hstatus
      rw [hiff]
      constructor
      · intro hrefused i hi hbefore' hfailed'
        have heq : i = k := by
          rcases Nat.lt_trichotomy i k with hlt | heq | hgt
          · rw [hbefore i (Nat.zero_le i) hlt] at hfailed'
            exact absurd hfailed' (by simp)
          · exact heq
          · rw [hbefore' k hgt] at hfailed
            exact absurd hfailed (by simp)
        rw [heq]
        exact hrefused
      · intro hstops
        exact hstops k hk (fun j hj => hbefore j (Nat.zero_le j) hj) hfailed

/-! ## runs -/

def demoRequest : BasketRequest where
  orders := [{ tradingsymbol := "INFY", variety := "regular", quantity := 10 },
    { tradingsymbol := "TCS", variety := "regular", quantity := 10 }]
  allOrNone := true

/-- Every call succeeds, but the second leg is refused. -/
def demoOutcomes : Outcomes where
  margins := none
  create := .ok
  placeOrder i := if i = 0 then .returned "O1" else .refused "insufficient funds"
  markWorking _ := .ok
  markSubmitFailed _ := .ok
  cancelOrder _ := none
  finalize := .ok

/-- Every call succeeds, but the mark of the second leg raises. -/
def demoOutage : Outcomes :=
  { demoOutcomes with
    placeOrder := fun i => .returned (if i = 0 then "O1" else "O2")
    markWorking := fun i => if i = 0 then .ok else .failed false "connection reset" }

/-- The response of a failed `place_basket`. -/
def failedResponse (result : Except String Response × World) : Option Response :=
  match result.1 with
  | .ok response => if response.status = .failed then some response else none
  | .error _ => none

theorem stored_demoPair : Stored "b" 2 demoPair where
  basket := by decide +kernel
  legs := by decide +kernel
  unfailed := by decide +kernel

theorem rollback_complete_demo :
    ∃ response w', placeBasket demoRequest demoOutcomes none (some "b") { tables := demoPair } =
        (.ok response, w') ∧ response.status = .failed ∧ RolledBack "b" response w' := by
  have hplace : (failedResponse (placeBasket demoRequest demoOutcomes none (some "b")
      { tables := demoPair })).isSome = true := by
    decide +kernel
  cases hresult : placeBasket demoRequest demoOutcomes none (some "b") { tables := demoPair } with
  | mk answer w' =>
    rw [hresult] at hplace
    cases answer with
    | error error => exact absurd hplace (by simp [failedResponse])
    | ok response =>
      have hstatus : response.status = .failed := by
        by_contra hne
        simp [failedResponse, hne] at hplace
      refine ⟨response, w', rfl, hstatus, ?_⟩
      refine (rollback_complete_iff rfl rfl stored_demoPair ⟨rfl, rfl, rfl⟩ hresult
        hstatus).mpr ?_
      decide +kernel

/-- The broker accepts both orders, but marking the second leg raises: the basket fails,
`O2` is never cancelled, its leg is recorded as failed, and no action is required. -/
theorem accepted_order_left_behind :
    ((failedResponse (placeBasket demoRequest demoOutage none (some "b")
        { tables := demoPair })).map Response.actionRequired) = some false ∧
      (placeBasket demoRequest demoOutage none (some "b") { tables := demoPair }).2.returned =
        [(0, "O1"), (1, "O2")] ∧
      (placeBasket demoRequest demoOutage none (some "b") { tables := demoPair }).2.cancels =
        [("O1", true)] ∧
      ((placeBasket demoRequest demoOutage none (some "b")
        { tables := demoPair }).2.tables.legsOf "b").map (fun leg => (leg.legIndex, leg.status)) =
        [(0, .working), (1, .submitFailed)] := by
  decide +kernel

end KiteAlgo.Baskets
