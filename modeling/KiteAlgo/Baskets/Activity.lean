import KiteAlgo.Baskets.Legs
import KiteAlgo.Lib.Run

/-!
# KiteAlgo.Baskets.Activity

Is a basket still active?  `has_active_basket_execution` reads the stored aggregate, which
is recomputed only by order updates and by `finalize_submission`, while the legs also move
by the marks of the submitting thread.

Of the tables a basket is a `View`: its stored status and its legs.  Every operation acts
on a view by a step of its own (`view_step`), and `View.exact_step` says of each step
exactly when the stored status still tells the truth afterwards.
-/

namespace KiteAlgo.Baskets

open Keyed LegStatus
/-! ## the view of one basket -/

/-- The stored status of a basket and its legs. -/
structure View where
  status : BasketStatus
  legs : List Leg

inductive BasketStep where
  | working (legIndex : Nat) (brokerOrderId : String) (clientOrderRef : Option String)
  | submitFailed (legIndex : Nat) (errorMessage : Option String)
  | update (legIndex : Nat) (event : OrderEvent)
  | finalize

def stepLeg (legIndex : Nat) (s : LegStep) (legs : List Leg) : List Leg :=
  legs.map fun leg => if leg.legIndex = legIndex then leg.step s else leg

def View.step (v : View) : BasketStep → View
  | .working i brokerOrderId clientOrderRef =>
    { v with legs := stepLeg i (.working brokerOrderId clientOrderRef) v.legs }
  | .submitFailed i errorMessage =>
    { v with legs := stepLeg i (.submitFailed errorMessage) v.legs }
  | .update i event =>
    { status := (recomputeBasketStatus (stepLeg i (.update event) v.legs)).status
      legs := stepLeg i (.update event) v.legs }
  | .finalize => { v with status := Tables.finalStatus (recomputeBasketStatus v.legs).status }

def Tables.view (t : Tables) (b : String) : Option View :=
  (t.baskets.get? b).map fun basket => ⟨basket.status, t.legsOf b⟩

/-- The step an operation makes on the basket `b`. -/
def Op.basketStep? (b : String) (t : Tables) : Op → Option BasketStep
  | .markLegWorking b' i brokerOrderId clientOrderRef =>
    if b' = b then some (.working i brokerOrderId clientOrderRef) else none
  | .markLegSubmitFailed b' i errorMessage =>
    if b' = b then some (.submitFailed i errorMessage) else none
  | .applyOrderEvent event =>
    (t.linkedLeg event).bind fun k =>
      if k.1 = b ∧ (t.legs.get? k).isSome = true then some (.update k.2 event) else none
  | .finalizeSubmission b' _ _ _ => if b' = b then some .finalize else none
  | _ => none

variable {f : Leg → Leg}

theorem filter_modifyRows (k : String × Nat) (s : LegStep) (b : String)
    (hf : ∀ leg, f leg = leg.step s) (rows : List Leg) :
    ((rows.map fun leg => if leg.key = k then f leg else leg).filter fun leg =>
        leg.basketExecutionId = b) =
      if k.1 = b then stepLeg k.2 s (rows.filter fun leg => leg.basketExecutionId = b)
      else rows.filter fun leg => leg.basketExecutionId = b := by
  have hid : ∀ leg : Leg, (leg.step s).basketExecutionId = leg.basketExecutionId := by
    intro leg
    cases s <;> rfl
  unfold stepLeg
  induction rows with
  | nil => simp
  | cons leg rows ih =>
    rw [List.map_cons, List.filter_cons, List.filter_cons, ih]
    by_cases hk : leg.key = k
    · subst hk
      by_cases hb : leg.basketExecutionId = b
      · simp [hid, hb, Leg.key, hf]
      · simp [hid, hb, Leg.key, hf]
    · by_cases hb : leg.basketExecutionId = b
      · simp only [hk, hb, decide_true, if_true, if_false, List.map_cons]
        split
        · next hkb =>
          have hi : leg.legIndex ≠ k.2 := fun hi => hk (Prod.ext (hb.trans hkb.symm) hi)
          rw [if_neg hi]
        · rfl
      · simp [hk, hb]

theorem legsOf_modify (t : Tables) (k : String × Nat) (s : LegStep) (b : String)
    (hkey : ∀ leg, (f leg).key = leg.key) (hf : ∀ leg, f leg = leg.step s) :
    Tables.legsOf { t with legs := t.legs.modify k f hkey } b =
      if k.1 = b then stepLeg k.2 s (t.legsOf b) else t.legsOf b :=
  filter_modifyRows k s b hf t.legs.rows

theorem view_of_legs (t : Tables) (k : String × Nat) (s : LegStep) (b : String)
    (hkey : ∀ leg, (f leg).key = leg.key) (hf : ∀ leg, f leg = leg.step s) :
    Tables.view { t with legs := t.legs.modify k f hkey } b =
      if k.1 = b then (t.view b).map fun v => { v with legs := stepLeg k.2 s v.legs }
      else t.view b := by
  unfold Tables.view
  rw [legsOf_modify t k s b hkey hf]
  split <;> simp [Function.comp_def]

theorem view_step (b : String) (op : Op) (t : Tables) :
    (step op t).view b = (t.view b).map fun v => (op.basketStep? b t).elim v v.step := by
  cases op with
  | createLiveOrderIntent intent =>
    simp [step, Op.basketStep?, Tables.view, Tables.legsOf, Function.comp_def]
  | markLiveOrderIntentPlaced ref id =>
    simp [step, Op.basketStep?, Tables.view, Tables.legsOf, Function.comp_def]
  | markLegWorking b' i brokerOrderId clientOrderRef =>
    simp only [step, Tables.markLegWorking, Op.basketStep?]
    rw [view_of_legs t (b', i) (.working brokerOrderId clientOrderRef) b
      (f := Leg.working brokerOrderId clientOrderRef) _ fun _ => rfl]
    split <;> simp [View.step]
  | markLegSubmitFailed b' i errorMessage =>
    simp only [step, Tables.markLegSubmitFailed, Op.basketStep?]
    rw [view_of_legs t (b', i) (.submitFailed errorMessage) b
      (f := Leg.submitFailed errorMessage) _ fun _ => rfl]
    split <;> simp [View.step]
  | finalizeSubmission b' rollback required reason =>
    simp only [step, Tables.finalizeSubmission, Tables.recomputeAndUpdate, Op.basketStep?,
      Tables.view, get?_modify, eq_comm (a := b)]
    by_cases hb : b' = b
    · subst hb
      simp [View.step, Tables.legsOf, Basket.finalized, Function.comp_def]
    · simp [hb, Tables.legsOf, Function.comp_def]
  | applyOrderEvent event =>
    simp only [step, Tables.applyOrderEvent, Op.basketStep?]
    cases hlink : t.linkedLeg event with
    | none => simp
    | some k =>
      simp only [Option.bind_some]
      by_cases hleg : (t.legs.get? k).isSome = true
      · rw [if_pos hleg]
        simp only [hleg, and_true]
        have hlegs := legsOf_modify t k (.update event) b (Leg.key_updated event) fun _ => rfl
        simp only [Tables.recomputeAndUpdate, Tables.view, get?_modify, eq_comm (a := b)]
        by_cases hb : k.1 = b
        · subst hb
          rw [if_pos rfl] at hlegs
          have hsame : ∀ baskets, Tables.legsOf ⟨t.intents, baskets,
              t.legs.modify k (Leg.updated event) (Leg.key_updated event)⟩ k.1 =
              stepLeg k.2 (.update event) (t.legsOf k.1) := fun _ => hlegs
          simp [View.step, hsame, Basket.recomputed, Function.comp_def]
        · rw [if_neg hb] at hlegs
          have hsame : ∀ baskets, Tables.legsOf ⟨t.intents, baskets,
              t.legs.modify k (Leg.updated event) (Leg.key_updated event)⟩ b = t.legsOf b := fun _ => hlegs
          simp [hb, hsame, Function.comp_def]
      · rw [if_neg hleg]
        simp [hleg]
  | markProjectionInconsistent event =>
    simp only [step, Tables.markProjectionInconsistent, Op.basketStep?]
    split
    · simp
    · split
      · simp
      · next b' _ =>
        simp only [Tables.view, get?_modify]
        split <;> simp [Tables.legsOf, Basket.inconsistent, Function.comp_def]

theorem strategyRunId_step (b : String) (op : Op) (t : Tables) :
    ((step op t).baskets.get? b).map Basket.strategyRunId =
      (t.baskets.get? b).map Basket.strategyRunId := by
  cases op with
  | createLiveOrderIntent intent => rfl
  | markLiveOrderIntentPlaced ref id => rfl
  | markLegWorking b' i brokerOrderId clientOrderRef => rfl
  | markLegSubmitFailed b' i errorMessage => rfl
  | finalizeSubmission b' rollback required reason =>
    simp only [step, Tables.finalizeSubmission, Tables.recomputeAndUpdate, get?_modify]
    split <;> simp [Basket.finalized, Basket.recomputed, Function.comp_def]
  | applyOrderEvent event =>
    simp only [step, Tables.applyOrderEvent]
    split
    · rfl
    · split
      · simp only [Tables.recomputeAndUpdate, get?_modify]
        split <;> simp [Basket.recomputed, Function.comp_def]
      · rfl
  | markProjectionInconsistent event =>
    simp only [step, Tables.markProjectionInconsistent]
    split
    · rfl
    · split
      · rfl
      · simp only [get?_modify]
        split <;> simp [Basket.inconsistent, Function.comp_def]

/-! ## when the stored status tells the truth -/

/-- `status IN ('submitting', 'active')`. -/
def BasketStatus.reported (status : BasketStatus) : Bool :=
  decide (status = .submitting) || decide (status = .active)

/-- The stored status tells the truth: a live leg shows, and once the submission is
finalized a basket without one does not. -/
structure View.Exact (finalized : Bool) (v : View) : Prop where
  shown : (∃ leg ∈ v.legs, leg.live = true) → v.status.reported = true
  cleared : finalized = true → (∀ leg ∈ v.legs, leg.status.terminal = true) → v.status.reported = false

/-- What a step must meet: an update finds no leg still to be submitted, unless some leg
works at the broker after it; a leg is marked working while the basket is reported; and
the submission is not finalized on settled legs of which some, but not all, filled. -/
def View.Meets (v : View) : BasketStep → Prop
  | .working i _ _ => (∃ leg ∈ v.legs, leg.legIndex = i) → v.status.reported = true
  | .submitFailed _ _ => True
  | .update i event =>
    (∃ leg ∈ stepLeg i (.update event) v.legs, leg.status = .working) ∨
      ∀ leg ∈ stepLeg i (.update event) v.legs, leg.status ≠ .pendingSubmit
  | .finalize => (∀ leg ∈ v.legs, leg.status.terminal = true) →
      v.legs ≠ [] ∧ ((∀ leg ∈ v.legs, leg.complete = true) ∨ totalFilled v.legs = 0)

instance (v : View) : ∀ s, Decidable (v.Meets s)
  | .working i _ _ => inferInstanceAs (Decidable
      ((∃ leg ∈ v.legs, leg.legIndex = i) → v.status.reported = true))
  | .submitFailed _ _ => isTrue trivial
  | .update i event => inferInstanceAs (Decidable
      ((∃ leg ∈ stepLeg i (.update event) v.legs, leg.status = .working) ∨
        ∀ leg ∈ stepLeg i (.update event) v.legs, leg.status ≠ .pendingSubmit))
  | .finalize => inferInstanceAs (Decidable ((∀ leg ∈ v.legs, leg.status.terminal = true) →
      v.legs ≠ [] ∧ ((∀ leg ∈ v.legs, leg.complete = true) ∨ totalFilled v.legs = 0)))

variable {leg : Leg}

theorem live_iff : leg.live = true ↔ leg.status = .pendingSubmit ∨ leg.status = .working := by
  unfold Leg.live terminal
  cases leg.status <;> simp

variable {legs : List Leg}

theorem recompute_active_iff :
    (recomputeBasketStatus legs).status = .active ↔ ∃ leg ∈ legs, leg.status = .working := by
  unfold recomputeBasketStatus
  simp only
  split
  · next h => simpa using h
  · next h =>
    have hnone : ¬ ∃ leg ∈ legs, leg.status = .working := by simpa using h
    simp only [hnone, iff_false]
    repeat' split
    all_goals simp

theorem recompute_ne_submitting (legs : List Leg) :
    (recomputeBasketStatus legs).status ≠ .submitting := by
  unfold recomputeBasketStatus
  simp only
  repeat' split
  all_goals simp

theorem recompute_reported_iff :
    (recomputeBasketStatus legs).status.reported = true ↔ ∃ leg ∈ legs, leg.status = .working := by
  rw [← recompute_active_iff]
  simp [BasketStatus.reported, recompute_ne_submitting]

theorem recompute_partlyFilled_iff (hsettled : ∀ leg ∈ legs, leg.status.terminal = true) :
    (recomputeBasketStatus legs).status = .partlyFilled ↔
      ¬ (legs ≠ [] ∧ ((∀ leg ∈ legs, leg.complete = true) ∨ totalFilled legs = 0)) := by
  have hworking : ¬ (legs.any fun leg => decide (leg.status = .working)) = true := by
    rw [List.any_eq_true]
    rintro ⟨leg, hmem, hstatus⟩
    have hterm := hsettled leg hmem
    rw [of_decide_eq_true hstatus] at hterm
    exact absurd hterm (by simp [terminal])
  have hcount : (legs.countP fun leg => leg.status.terminal) = legs.length :=
    List.countP_eq_length.mpr hsettled
  unfold recomputeBasketStatus
  simp only [hcount, true_and, List.countP_eq_length, List.length_pos_iff]
  rw [if_neg hworking]
  by_cases hnil : legs = []
  · simp [hnil]
  · simp only [hnil, ne_eq, not_false_eq_true, true_and]
    split
    · next h => exact iff_of_false (by simp) fun hnot => hnot (.inl h)
    · next h => split <;> simp_all

def BasketStep.final : BasketStep → Bool
  | .finalize => true
  | _ => false

theorem mem_stepLeg {i : Nat} {s : LegStep} :
    leg ∈ stepLeg i s legs ↔
      (∃ old ∈ legs, old.legIndex = i ∧ leg = old.step s) ∨ (leg ∈ legs ∧ leg.legIndex ≠ i) := by
  unfold stepLeg
  rw [List.mem_map]
  constructor
  · rintro ⟨old, hmem, rfl⟩
    by_cases hi : old.legIndex = i
    · rw [if_pos hi]
      exact .inl ⟨old, hmem, hi, rfl⟩
    · rw [if_neg hi]
      exact .inr ⟨hmem, hi⟩
  · rintro (⟨old, hmem, hi, rfl⟩ | ⟨hmem, hi⟩)
    · exact ⟨old, hmem, if_pos hi⟩
    · exact ⟨leg, hmem, if_neg hi⟩

namespace View

variable {v : View} {finalized : Bool}

variable {i : Nat}

theorem exact_working {brokerOrderId : String} {clientOrderRef : Option String}
    (h : v.Exact false) :
    (v.step (.working i brokerOrderId clientOrderRef)).Exact false ↔
      v.Meets (.working i brokerOrderId clientOrderRef) := by
  constructor
  · rintro ⟨hshown, -⟩ ⟨leg, hmem, hi⟩
    exact hshown ⟨leg.working brokerOrderId clientOrderRef,
      mem_stepLeg.mpr (.inl ⟨leg, hmem, hi, rfl⟩), rfl⟩
  · intro hmeets
    refine ⟨?_, by simp⟩
    rintro ⟨leg, hmem, hlive⟩
    cases mem_stepLeg.mp hmem with
    | inl hmarked =>
      obtain ⟨old, hold, hi, -⟩ := hmarked
      exact hmeets ⟨old, hold, hi⟩
    | inr hother => exact h.shown ⟨leg, hother.1, hlive⟩

theorem exact_submitFailed {errorMessage : Option String} (h : v.Exact false) :
    (v.step (.submitFailed i errorMessage)).Exact false := by
  refine ⟨?_, by simp⟩
  rintro ⟨leg, hmem, hlive⟩
  cases mem_stepLeg.mp hmem with
  | inl hmarked =>
    obtain ⟨old, -, -, rfl⟩ := hmarked
    exact absurd hlive (by simp [Leg.step, Leg.submitFailed, Leg.live, terminal])
  | inr hother => exact h.shown ⟨leg, hother.1, hlive⟩

theorem exact_update {event : OrderEvent} :
    (v.step (.update i event)).Exact finalized ↔ v.Meets (.update i event) := by
  constructor
  · rintro ⟨hshown, -⟩
    simp only [step, recompute_reported_iff] at hshown
    by_cases hpending : ∃ leg ∈ stepLeg i (.update event) v.legs, leg.status = .pendingSubmit
    · obtain ⟨leg, hmem, hstatus⟩ := hpending
      exact .inl (hshown ⟨leg, hmem, live_iff.mpr (.inl hstatus)⟩)
    · exact .inr fun leg hmem hstatus => hpending ⟨leg, hmem, hstatus⟩
  · intro hmeets
    refine ⟨?_, ?_⟩
    · rintro ⟨leg, hmem, hlive⟩
      rw [step, recompute_reported_iff]
      cases hmeets with
      | inl hworking => exact hworking
      | inr hnone => exact ⟨leg, hmem, (live_iff.mp hlive).resolve_left (hnone leg hmem)⟩
    · intro _ hsettled
      rw [Bool.eq_false_iff, step, ne_eq, recompute_reported_iff]
      rintro ⟨leg, hmem, hworking⟩
      have hterm := hsettled leg hmem
      rw [hworking] at hterm
      exact absurd hterm (by simp [terminal])

variable {legs : List Leg}

theorem finalStatus_reported_iff :
    (Tables.finalStatus (recomputeBasketStatus legs).status).reported = true ↔
      (∃ leg ∈ legs, leg.status = .working) ∨ (recomputeBasketStatus legs).status = .partlyFilled := by
  have hsub := recompute_ne_submitting legs
  rw [← recompute_active_iff]
  cases hstatus : (recomputeBasketStatus legs).status <;>
    simp_all [Tables.finalStatus, BasketStatus.reported]

/-- Nothing of a leg still to be submitted has filled. -/
def Unfilled (legs : List Leg) : Prop :=
  ∀ leg ∈ legs, leg.status = .pendingSubmit → leg.complete = false

theorem unfilled_stepLeg {s : LegStep} (h : Unfilled legs) : Unfilled (stepLeg i s legs) := by
  intro leg hmem hstatus
  cases mem_stepLeg.mp hmem with
  | inl hmarked =>
    obtain ⟨old, -, -, rfl⟩ := hmarked
    cases s with
    | working o r => exact absurd hstatus (by simp [Leg.step, Leg.working])
    | submitFailed e => exact absurd hstatus (by simp [Leg.step, Leg.submitFailed])
    | update event =>
      have hstate := legState_mem old.requestedQuantity event
      simp only [Leg.step, Leg.updated] at hstatus
      rw [OrderEvent.legState, hstatus] at hstate
      exact absurd hstate (by simp [settledStates])
  | inr hother => exact h leg hother.1 hstatus

theorem unfilled_step (h : Unfilled v.legs) (s : BasketStep) : Unfilled (v.step s).legs := by
  cases s with
  | working i o r => exact unfilled_stepLeg h
  | submitFailed i e => exact unfilled_stepLeg h
  | update i event => exact unfilled_stepLeg h
  | finalize => exact h

theorem recompute_of_pending (hworking : ¬ ∃ leg ∈ legs, leg.status = .working)
    (hdone : Unfilled legs) (hpending : ∃ leg ∈ legs, leg.status = .pendingSubmit) :
    (recomputeBasketStatus legs).status = .partlyFilled := by
  obtain ⟨leg, hmem, hstatus⟩ := hpending
  have hany : ¬ (legs.any fun leg => decide (leg.status = .working)) = true := by
    simpa using hworking
  have hcomplete : legs.countP Leg.complete ≠ legs.length := by
    intro heq
    have hall := List.countP_eq_length.mp heq leg hmem
    rw [hdone leg hmem hstatus] at hall
    exact absurd hall (by simp)
  have hterminal : (legs.countP fun leg => leg.status.terminal) ≠ legs.length := by
    intro heq
    have hall := List.countP_eq_length.mp heq leg hmem
    simp [hstatus, terminal] at hall
  unfold recomputeBasketStatus
  simp only [hcomplete, hterminal, false_and, and_false, if_false]
  rw [if_neg hany]

theorem exact_finalize (hdone : Unfilled v.legs) :
    (v.step .finalize).Exact true ↔ v.Meets .finalize := by
  constructor
  · rintro ⟨-, hcleared⟩ hsettled
    have hreported := hcleared rfl hsettled
    rw [step, Bool.eq_false_iff, ne_eq, finalStatus_reported_iff, not_or,
      recompute_partlyFilled_iff hsettled, not_not] at hreported
    exact hreported.2
  · intro hmeets
    refine ⟨?_, ?_⟩
    · rintro ⟨leg, hmem, hlive⟩
      rw [step, finalStatus_reported_iff]
      by_cases hworking : ∃ leg ∈ v.legs, leg.status = .working
      · exact .inl hworking
      · have hstatus : leg.status = .pendingSubmit :=
          (live_iff.mp hlive).resolve_right fun h => hworking ⟨leg, hmem, h⟩
        exact .inr (recompute_of_pending hworking hdone ⟨leg, hmem, hstatus⟩)
    · intro _ (hsettled : ∀ leg ∈ v.legs, leg.status.terminal = true)
      rw [step, Bool.eq_false_iff, ne_eq, finalStatus_reported_iff, not_or,
        recompute_partlyFilled_iff hsettled, not_not]
      refine ⟨?_, hmeets hsettled⟩
      rintro ⟨leg, hmem, hworking⟩
      have hterm := hsettled leg hmem
      rw [hworking] at hterm
      exact absurd hterm (by simp [terminal])

/-- A step keeps the stored status exact if and only if it meets its condition, where the
marks and the finalization come before the submission is final. -/
theorem exact_step {s : BasketStep} (h : v.Exact finalized) (hdone : Unfilled v.legs)
    (hopen : finalized = true → ∃ i event, s = .update i event) :
    (v.step s).Exact (finalized || s.final) ↔ v.Meets s := by
  cases s with
  | update i event => exact exact_update
  | working i o r =>
    cases finalized with
    | false => exact exact_working h
    | true => obtain ⟨_, _, hs⟩ := hopen rfl; exact absurd hs (by simp)
  | submitFailed i e =>
    cases finalized with
    | false => exact iff_of_true (exact_submitFailed h) trivial
    | true => obtain ⟨_, _, hs⟩ := hopen rfl; exact absurd hs (by simp)
  | finalize =>
    cases finalized with
    | false => exact exact_finalize hdone
    | true => obtain ⟨_, _, hs⟩ := hopen rfl; exact absurd hs (by simp)

end View

/-! ## runs -/

/-- Does the operation close the submission of `b`? -/
def Op.finalizes (b : String) : Op → Bool
  | .finalizeSubmission b' _ _ _ => decide (b' = b)
  | _ => false

/-- Does the operation belong to the submission of `b`? -/
def Op.submits (b : String) : Op → Bool
  | .markLegWorking b' _ _ _ | .markLegSubmitFailed b' _ _ | .finalizeSubmission b' _ _ _ =>
    decide (b' = b)
  | _ => false

/-- The submission of `b` ends with its finalization. -/
def SubmittedOnce (b : String) (ops : List Op) : Prop :=
  ops.Pairwise fun op later => op.finalizes b = true → later.submits b = false

/-- The activity query of the run selects the basket `b`. -/
def Tables.selects (t : Tables) (strategyRunId b : String) : Prop :=
  ∃ basket ∈ t.activeBaskets strategyRunId, basket.basketExecutionId = b

/-- `has_active_basket_execution` is exact for the basket `b`: it is true for it while a leg
is still to be submitted or working, and false for it once the submission is finalized and
every leg is terminal. -/
structure ActivityExact (strategyRunId b : String) (finalized : Bool) (t : Tables) : Prop where
  shown : (∃ leg ∈ t.legsOf b, leg.status = .pendingSubmit ∨ leg.status = .working) →
    t.selects strategyRunId b
  cleared : finalized = true → (∀ leg ∈ t.legsOf b, leg.status.terminal = true) →
    ¬ t.selects strategyRunId b

/-- The operation meets the condition of the step it makes on `b`, if it makes one. -/
def Op.Meets (b : String) (op : Op) (t : Tables) : Prop :=
  ∀ s, op.basketStep? b t = some s → ∀ v, t.view b = some v → v.Meets s

instance (b : String) (op : Op) (t : Tables) : Decidable (op.Meets b t) :=
  decidable_of_iff (∀ s ∈ op.basketStep? b t, ∀ v ∈ t.view b, v.Meets s) Iff.rfl

variable {b strategyRunId : String} {basket : Basket} {t : Tables}

theorem selects_iff (hget : t.baskets.get? b = some basket)
    (hrun : basket.strategyRunId = strategyRunId) :
    t.selects strategyRunId b ↔ basket.status.reported = true := by
  unfold Tables.selects Tables.activeBaskets
  constructor
  · rintro ⟨row, hrow, hid⟩
    rw [List.mem_filter, Bool.and_eq_true] at hrow
    have hsame : t.baskets.get? b = some row := by
      rw [← hid]
      exact mem_rows_iff.mp hrow.1
    rw [hget] at hsame
    obtain rfl := Option.some.inj hsame
    exact hrow.2.2
  · intro hreported
    refine ⟨basket, List.mem_filter.mpr ⟨mem_rows_of_get? hget, ?_⟩, key_of_get? hget⟩
    rw [Bool.and_eq_true]
    exact ⟨decide_eq_true hrun, hreported⟩

theorem activityExact_iff {finalized : Bool} (hget : t.baskets.get? b = some basket)
    (hrun : basket.strategyRunId = strategyRunId) :
    ActivityExact strategyRunId b finalized t ↔ View.Exact finalized ⟨basket.status, t.legsOf b⟩ := by
  have hselects := selects_iff hget hrun
  constructor
  · rintro ⟨hshown, hcleared⟩
    refine ⟨?_, ?_⟩
    · rintro ⟨leg, hmem, hlive⟩
      exact hselects.mp (hshown ⟨leg, hmem, live_iff.mp hlive⟩)
    · intro hfinal hsettled
      rw [Bool.eq_false_iff, ne_eq, ← hselects]
      exact hcleared hfinal hsettled
  · rintro ⟨hshown, hcleared⟩
    refine ⟨?_, ?_⟩
    · rintro ⟨leg, hmem, hstatus⟩
      exact hselects.mpr (hshown ⟨leg, hmem, live_iff.mpr hstatus⟩)
    · intro hfinal hsettled
      rw [hselects, hcleared hfinal hsettled]
      simp

/-- A basket none of whose legs has been submitted. -/
structure Fresh (strategyRunId b : String) (t : Tables) : Prop where
  basket : ∃ basket, t.baskets.get? b = some basket ∧ basket.strategyRunId = strategyRunId ∧
    basket.status = .submitting
  legs : ∀ leg ∈ t.legsOf b, leg.status = .pendingSubmit ∧ leg.lastSeenFilledQuantity = 0

theorem view_run (hfresh : Fresh strategyRunId b t)
    (ops : List Op) : ∃ basket, (run ops t).baskets.get? b = some basket ∧
      basket.strategyRunId = strategyRunId ∧ View.Unfilled ((run ops t).legsOf b) := by
  induction ops using List.reverseRecOn with
  | nil =>
    obtain ⟨basket, hget, hrun, -⟩ := hfresh.basket
    refine ⟨basket, hget, hrun, fun leg hmem _ => ?_⟩
    simp only [Leg.complete, (hfresh.legs leg hmem).2, Bool.and_eq_false_iff, decide_eq_false_iff_not]
    omega
  | append_singleton ops op ih =>
    obtain ⟨basket, hget, hrun, hdone⟩ := ih
    rw [run_append]
    have hview := view_step b op (run ops t)
    have hid := strategyRunId_step b op (run ops t)
    rw [Tables.view, Tables.view, hget, Option.map_some, Option.map_some, Option.map_eq_some_iff] at hview
    obtain ⟨basket', hget', hview⟩ := hview
    rw [hget', hget, Option.map_some, Option.map_some] at hid
    refine ⟨basket', hget', (Option.some.inj hid).trans hrun, ?_⟩
    have hlegs := congrArg View.legs hview
    simp only at hlegs
    rw [show run [op] (run ops t) = step op (run ops t) from rfl, hlegs]
    cases op.basketStep? b (run ops t) with
    | none => exact hdone
    | some s => exact View.unfilled_step hdone s

theorem finalizes_of_step {b : String} {t : Tables} {op : Op} :
    op.finalizes b = (op.basketStep? b t).elim false BasketStep.final := by
  cases op with
  | finalizeSubmission b' rollback required reason =>
    by_cases hb : b' = b <;> simp [Op.finalizes, Op.basketStep?, hb, BasketStep.final]
  | markLegWorking b' i o r =>
    by_cases hb : b' = b <;> simp [Op.finalizes, Op.basketStep?, hb, BasketStep.final]
  | markLegSubmitFailed b' i e =>
    by_cases hb : b' = b <;> simp [Op.finalizes, Op.basketStep?, hb, BasketStep.final]
  | applyOrderEvent event =>
    simp only [Op.finalizes, Op.basketStep?]
    cases t.linkedLeg event with
    | none => rfl
    | some k =>
      rw [Option.bind_some]
      split <;> rfl
  | createLiveOrderIntent intent => rfl
  | markLiveOrderIntentPlaced ref id => rfl
  | markProjectionInconsistent event => rfl

variable {op : Op}

theorem update_of_not_submits {s : BasketStep} (h : op.submits b = false)
    (hs : op.basketStep? b t = some s) : ∃ i event, s = .update i event := by
  cases op with
  | applyOrderEvent event =>
    simp only [Op.basketStep?] at hs
    cases hlink : t.linkedLeg event with
    | none => simp [hlink] at hs
    | some k =>
      rw [hlink, Option.bind_some] at hs
      split at hs
      · exact ⟨k.2, event, (Option.some.inj hs).symm⟩
      · exact absurd hs (by simp)
  | finalizeSubmission b' rollback required reason =>
    simp [Op.basketStep?, of_decide_eq_false h] at hs
  | markLegWorking b' i o r => simp [Op.basketStep?, of_decide_eq_false h] at hs
  | markLegSubmitFailed b' i e => simp [Op.basketStep?, of_decide_eq_false h] at hs
  | createLiveOrderIntent intent => simp [Op.basketStep?] at hs
  | markLiveOrderIntentPlaced ref id => simp [Op.basketStep?] at hs
  | markProjectionInconsistent event => simp [Op.basketStep?] at hs

theorem activityExact_step {finalized : Bool} (hget : t.baskets.get? b = some basket)
    (hrun : basket.strategyRunId = strategyRunId) (hdone : View.Unfilled (t.legsOf b))
    (hopen : finalized = true → op.submits b = false)
    (h : ActivityExact strategyRunId b finalized t) :
    ActivityExact strategyRunId b (finalized || op.finalizes b) (step op t) ↔ op.Meets b t := by
  have hview := view_step b op t
  have hid := strategyRunId_step b op t
  rw [Tables.view, Tables.view, hget, Option.map_some, Option.map_some, Option.map_eq_some_iff] at hview
  obtain ⟨basket', hget', hview⟩ := hview
  rw [hget', hget, Option.map_some, Option.map_some] at hid
  rw [activityExact_iff hget' ((Option.some.inj hid).trans hrun), hview, @finalizes_of_step b t op]
  rw [activityExact_iff hget hrun] at h
  have hsome : t.view b = some ⟨basket.status, t.legsOf b⟩ := by
    rw [Tables.view, hget, Option.map_some]
  unfold Op.Meets
  cases hs : op.basketStep? b t with
  | none => simpa using h
  | some s =>
    have hstep := View.exact_step h hdone (s := s) fun hfinal =>
      update_of_not_submits (hopen hfinal) hs
    simp only [Option.elim_some, hsome, Option.some.injEq, forall_eq']
    exact hstep

/-- Along the run of a fresh basket the activity query is exact in every state reached if
and only if every operation meets its condition in the state it finds. -/
theorem activity_exact_iff {t : Tables} {strategyRunId b : String}
    (hfresh : Fresh strategyRunId b t) {ops : List Op} (hops : SubmittedOnce b ops) :
    (∀ before, before <+: ops →
        ActivityExact strategyRunId b (before.any (Op.finalizes b)) (run before t)) ↔
      ∀ before op, before ++ [op] <+: ops → op.Meets b (run before t) := by
  induction ops using List.reverseRecOn with
  | nil =>
    simp only [List.prefix_nil, forall_eq, List.append_eq_nil_iff, List.cons_ne_nil, and_false,
      false_implies, implies_true, iff_true]
    obtain ⟨basket, hget, hrun, hstatus⟩ := hfresh.basket
    rw [run, activityExact_iff hget hrun]
    exact ⟨fun _ => by simp [BasketStatus.reported, hstatus], by simp⟩
  | append_singleton ops op ih =>
    have hsub : SubmittedOnce b ops := (List.pairwise_append.mp hops).1
    have hopen : ops.any (Op.finalizes b) = true → op.submits b = false := by
      rw [List.any_eq_true]
      rintro ⟨earlier, hmem, hfinal⟩
      exact (List.pairwise_append.mp hops).2.2 earlier hmem op (by simp) hfinal
    obtain ⟨basket, hget, hrun, hdone⟩ := view_run hfresh ops
    have hlast := fun h => activityExact_step hget hrun hdone hopen h
    have hrun' : run (ops ++ [op]) t = step op (run ops t) := run_append ops [op] t
    constructor
    · intro hall before op' hinit
      have hmeets := (ih hsub).mp fun before hbefore =>
        hall before (hbefore.trans (List.prefix_append ops [op]))
      rw [List.prefix_concat_iff] at hinit
      cases hinit with
      | inl heq =>
        obtain ⟨rfl, hop⟩ := List.append_inj' heq rfl
        rw [(List.cons.inj hop).1]
        have hnow := hall (before ++ [op]) (List.prefix_refl _)
        rw [hrun', List.any_append, List.any_cons, List.any_nil, Bool.or_false] at hnow
        exact (hlast (hall before (List.prefix_append before [op]))).mp hnow
      | inr hbefore => exact hmeets before op' hbefore
    · intro hmeets before hinit
      have hexact := (ih hsub).mpr fun before op' hbefore =>
        hmeets before op' (hbefore.trans (List.prefix_append ops [op]))
      rw [List.prefix_concat_iff] at hinit
      cases hinit with
      | inl heq =>
        rw [heq, hrun', List.any_append, List.any_cons, List.any_nil, Bool.or_false]
        exact (hlast (hexact ops (List.prefix_refl ops))).mpr
          (hmeets ops op (List.prefix_refl _))
      | inr hbefore => exact hexact before hbefore

/-- A basket of two legs of ten, the first of which the broker knows as `O1`. -/
def demoPair : Tables where
  intents :=
    [{ clientOrderRef := "KA1", accountId := "kite:a", strategyRunId := "r",
       brokerOrderId := some "O1", basketExecutionId := some "b", basketLegIndex := some 0 }]
  baskets := Keyed.empty.upsert { basketExecutionId := "b", strategyRunId := "r", accountId := "kite:a" }
  legs := (Keyed.empty.upsert
      { basketExecutionId := "b", legIndex := 0, requestedQuantity := 10 }).upsert
    { basketExecutionId := "b", legIndex := 1, requestedQuantity := 10 }

theorem fresh_demoPair : Fresh "r" "b" demoPair where
  basket := ⟨{ basketExecutionId := "b", strategyRunId := "r", accountId := "kite:a" },
    by decide +kernel, rfl, rfl⟩
  legs := by decide +kernel

/-- Both legs submitted before the first fills, and the basket finalized while it works. -/
def demoSubmission : List Op :=
  [.markLegWorking "b" 0 "O1" none, .markLegWorking "b" 1 "O2" none,
    .finalizeSubmission "b" .none false none, demoUpdate "COMPLETE" 10]

theorem activity_exact_demo :
    ActivityExact "r" "b" (demoSubmission.any (Op.finalizes "b")) (run demoSubmission demoPair) :=
  (activity_exact_iff fresh_demoPair (by unfold SubmittedOnce; decide +kernel)).mpr
    (AtEach.concat_prefix (by decide +kernel)) demoSubmission List.prefix_rfl

/-- The first leg fills while the second is still to be submitted: the basket is no longer
reported.  Both legs end before the finalization, one of them unfilled: the basket is
reported although every leg is terminal. -/
theorem activity_lost_and_stuck :
    (∃ leg ∈ (run [.markLegWorking "b" 0 "O1" none, demoUpdate "COMPLETE" 10] demoPair).legsOf "b",
        leg.status = .pendingSubmit) ∧
      (run [.markLegWorking "b" 0 "O1" none, demoUpdate "COMPLETE" 10]
        demoPair).hasActiveBasketExecution "r" = false ∧
      (∀ leg ∈ (run [.markLegWorking "b" 0 "O1" none, .markLegSubmitFailed "b" 1 none,
        demoUpdate "COMPLETE" 10, .finalizeSubmission "b" .none false none] demoPair).legsOf "b",
        leg.status.terminal = true) ∧
      (run [.markLegWorking "b" 0 "O1" none, .markLegSubmitFailed "b" 1 none,
        demoUpdate "COMPLETE" 10, .finalizeSubmission "b" .none false none]
        demoPair).hasActiveBasketExecution "r" = true := by
  decide +kernel

end KiteAlgo.Baskets
