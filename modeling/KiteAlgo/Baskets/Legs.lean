import KiteAlgo.Baskets
import Mathlib.Data.List.Induction

/-!
# KiteAlgo.Baskets.Legs

How a leg row moves.  Whatever happens to the tables, one leg sees a sequence of its own
steps (`get?_run`): the two submission marks and the updates of its order.  The row keeps
what the last of them wrote, so it moves forward exactly as far as the steps come in order.

`InOrder` says which orders are good: updates as the broker issued them, the marks before
anything final.  Along such a sequence `Describes` reads the row off the *set* of steps
seen so far, from which monotonicity, stability and confluence follow; the row is not a
join of the updates, as the order projection is (`OrderState.replay_of_same`), and a late
update reopens it (`late_update_reopens`).
-/

namespace KiteAlgo.Baskets

open List Option Keyed
/-! ## the steps of one leg -/

inductive LegStep where
  | working (brokerOrderId : String) (clientOrderRef : Option String)
  | submitFailed (errorMessage : Option String)
  | update (event : OrderEvent)
  deriving DecidableEq

def Leg.step (leg : Leg) : LegStep → Leg
  | .working brokerOrderId clientOrderRef => leg.working brokerOrderId clientOrderRef
  | .submitFailed errorMessage => leg.submitFailed errorMessage
  | .update event => leg.updated event

def Leg.run (leg : Leg) (steps : List LegStep) : Leg := steps.foldl Leg.step leg

/-- The step an operation makes on the leg `k`. -/
def Op.legStep? (k : String × Nat) (t : Tables) : Op → Option LegStep
  | .markLegWorking b i brokerOrderId clientOrderRef =>
    if k = (b, i) then some (.working brokerOrderId clientOrderRef) else none
  | .markLegSubmitFailed b i errorMessage =>
    if k = (b, i) then some (.submitFailed errorMessage) else none
  | .applyOrderEvent event => if t.linkedLeg event = some k then some (.update event) else none
  | _ => none

/-- The steps a run makes on the leg `k`. -/
def legSteps (k : String × Nat) : List Op → Tables → List LegStep
  | [], _ => []
  | op :: ops, t => (op.legStep? k t).toList ++ legSteps k ops (step op t)

theorem get?_step (k : String × Nat) (op : Op) (t : Tables) :
    (step op t).legs.get? k = (t.legs.get? k).map fun leg => leg.run (op.legStep? k t).toList := by
  cases op with
  | markLegWorking b i brokerOrderId clientOrderRef =>
    simp only [step, Tables.markLegWorking, get?_modify, Op.legStep?]
    split <;> simp [Leg.run, Leg.step]
  | markLegSubmitFailed b i errorMessage =>
    simp only [step, Tables.markLegSubmitFailed, get?_modify, Op.legStep?]
    split <;> simp [Leg.run, Leg.step]
  | applyOrderEvent event =>
    simp only [step, Tables.applyOrderEvent, Op.legStep?]
    cases hlink : t.linkedLeg event with
    | none => simp [Leg.run]
    | some k' =>
      by_cases hk : k = k'
      · subst hk
        cases hleg : t.legs.get? k with
        | none => simp [hleg]
        | some leg =>
          simp [Tables.recomputeAndUpdate, get?_modify, hleg, Leg.run, Leg.step]
      · have hne : ¬ some k' = some k := fun h => hk (some.inj h).symm
        simp only [hne, if_false, toList_none]
        split <;> simp [Tables.recomputeAndUpdate, get?_modify, hk, Leg.run]
  | markProjectionInconsistent event =>
    simp only [step, Tables.markProjectionInconsistent, Op.legStep?]
    split
    · simp [Leg.run]
    · split <;> simp [Leg.run]
  | createLiveOrderIntent intent => simp [step, Op.legStep?, Leg.run]
  | markLiveOrderIntentPlaced ref id => simp [step, Op.legStep?, Leg.run]
  | finalizeSubmission b rollback required reason =>
    simp [step, Tables.finalizeSubmission, Tables.recomputeAndUpdate, Op.legStep?, Leg.run]

theorem get?_run (k : String × Nat) (ops : List Op) (t : Tables) :
    (run ops t).legs.get? k = (t.legs.get? k).map fun leg => leg.run (legSteps k ops t) := by
  induction ops generalizing t with
  | nil => simp [run, legSteps, Leg.run]
  | cons op ops ih =>
    rw [run, ih, get?_step, Option.map_map]
    simp [legSteps, Leg.run, Function.comp_def, List.foldl_append]

theorem legSteps_append (k : String × Nat) (ops ops' : List Op) (t : Tables) :
    legSteps k (ops ++ ops') t = legSteps k ops t ++ legSteps k ops' (run ops t) := by
  induction ops generalizing t with
  | nil => rfl
  | cons op ops ih => rw [cons_append, legSteps, ih, legSteps, append_assoc, run]

/-! ## steps in order -/

/-- The leg state an update reports for a leg of `q` requested. -/
def OrderEvent.legState (q : Int) (event : OrderEvent) : LegStatus :=
  normalizeLegState event.status event.filled q

/-- An update reports a quantity, and a final one leaves nothing open. -/
def LegStep.Settled (q : Int) : LegStep → Prop
  | .update event =>
    0 ≤ event.filled ∧ (event.terminal = true → OrderEvent.legState q event ≠ .working)
  | _ => True

/-- The first step may come before the second: updates in the broker's order, no mark after
a final update, and no failure mark after a sign that the order was accepted. -/
def LegStep.Precedes (q : Int) : LegStep → LegStep → Prop
  | .update event, .update event' => event.filled ≤ event'.filled ∧
      (event.terminal = true → OrderEvent.legState q event' = OrderEvent.legState q event)
  | .update event, .working _ _ => event.terminal = false
  | .update _, .submitFailed _ => False
  | .working _ _, .submitFailed _ => False
  | _, _ => True

def InOrder (q : Int) (steps : List LegStep) : Prop :=
  (∀ s ∈ steps, s.Settled q) ∧ steps.Pairwise (LegStep.Precedes q)

instance (q : Int) : ∀ s, Decidable (LegStep.Settled q s)
  | .update event => inferInstanceAs (Decidable
      (0 ≤ event.filled ∧ (event.terminal = true → OrderEvent.legState q event ≠ .working)))
  | .working _ _ => isTrue trivial
  | .submitFailed _ => isTrue trivial

instance (q : Int) : ∀ s s', Decidable (LegStep.Precedes q s s')
  | .update event, .update event' => inferInstanceAs (Decidable (event.filled ≤ event'.filled ∧
      (event.terminal = true → OrderEvent.legState q event' = OrderEvent.legState q event)))
  | .update event, .working _ _ => inferInstanceAs (Decidable (event.terminal = false))
  | .update _, .submitFailed _ => isFalse id
  | .working _ _, .submitFailed _ => isFalse id
  | .working _ _, .working _ _ => isTrue trivial
  | .working _ _, .update _ => isTrue trivial
  | .submitFailed _, .working _ _ => isTrue trivial
  | .submitFailed _, .submitFailed _ => isTrue trivial
  | .submitFailed _, .update _ => isTrue trivial

instance (q : Int) (steps : List LegStep) : Decidable (InOrder q steps) :=
  inferInstanceAs (Decidable ((∀ s ∈ steps, s.Settled q) ∧ steps.Pairwise (LegStep.Precedes q)))

theorem InOrder.of_append {q : Int} {steps steps' : List LegStep} (h : InOrder q (steps ++ steps')) :
    InOrder q steps :=
  ⟨fun s hs => h.1 s (mem_append_left steps' hs), (pairwise_append.mp h.2).1⟩

/-! ## the row a set of steps leaves -/

/-- The states of a leg whose order is over at the broker. -/
def settledStates : List LegStatus := [.filled, .cancelled, .rejected, .partialTerminal]

theorem legState_of_not_terminal {q : Int} {event : OrderEvent} (h : event.terminal = false) :
    OrderEvent.legState q event = .working := by
  have hword : Text.upper event.status ∉ terminalOrderStatuses := by
    rw [OrderEvent.terminal, OrderEvent.word] at h
    exact of_decide_eq_false h
  simp [OrderEvent.legState, normalizeLegState, hword]

theorem legState_mem (q : Int) (event : OrderEvent) :
    OrderEvent.legState q event = .working ∨ OrderEvent.legState q event ∈ settledStates := by
  unfold OrderEvent.legState normalizeLegState
  simp only
  repeat' split
  all_goals simp [settledStates]

theorem terminal_of_mem_settledStates {status : LegStatus} (h : status ∈ settledStates) :
    status.terminal := by
  simp only [settledStates, mem_cons, not_mem_nil, or_false] at h
  obtain rfl | rfl | rfl | rfl := h <;> rfl

def LegStep.failure : LegStep → Bool
  | .submitFailed _ => true
  | _ => false

/-- The status of a leg without a final update. -/
def openStatus (steps : List LegStep) : LegStatus :=
  if steps.isEmpty then .pendingSubmit
  else if steps.all LegStep.failure then .submitFailed
  else .working

theorem openStatus_of_same {steps steps' : List LegStep} (hsame : ∀ s, s ∈ steps ↔ s ∈ steps') :
    openStatus steps = openStatus steps' := by
  have hempty : steps.isEmpty = steps'.isEmpty := by
    rw [Bool.eq_iff_iff]
    simp only [List.isEmpty_iff, List.eq_nil_iff_forall_not_mem, hsame]
  have hall : steps.all LegStep.failure = steps'.all LegStep.failure := by
    rw [Bool.eq_iff_iff]
    simp only [List.all_eq_true, hsame]
  rw [openStatus, openStatus, hempty, hall]

theorem openStatus_of_mem {steps : List LegStep} {s : LegStep} (hmem : s ∈ steps)
    (hs : s.failure = false) : openStatus steps = .working := by
  have hempty : ¬ steps.isEmpty = true := by
    rw [List.isEmpty_iff]
    exact List.ne_nil_of_mem hmem
  have hall : ¬ steps.all LegStep.failure = true := by
    rw [List.all_eq_true]
    intro hall
    rw [hall s hmem] at hs
    exact absurd hs (by simp)
  rw [openStatus, if_neg hempty, if_neg hall]

theorem openStatus_not_mem (steps : List LegStep) : openStatus steps ∉ settledStates := by
  unfold openStatus
  split
  · simp [settledStates]
  · split <;> simp [settledStates]

/-- The row of a leg of `q` requested is read off the set of steps seen so far. -/
structure Describes (q : Int) (steps : List LegStep) (leg : Leg) : Prop where
  requested : leg.requestedQuantity = q
  nonneg : 0 ≤ leg.lastSeenFilledQuantity
  largest : ∀ event, .update event ∈ steps → event.filled ≤ leg.lastSeenFilledQuantity
  attained : leg.lastSeenFilledQuantity = 0 ∨
    ∃ event, .update event ∈ steps ∧ leg.lastSeenFilledQuantity = event.filled
  final : ∀ event, .update event ∈ steps → event.terminal = true → leg.status = OrderEvent.legState q event
  open' : (∀ event, .update event ∈ steps → event.terminal = false) → leg.status = openStatus steps

namespace Describes

variable {q : Int} {steps steps' : List LegStep} {leg leg' : Leg}

theorem fresh (hstatus : leg.status = .pendingSubmit) (hfilled : leg.lastSeenFilledQuantity = 0) :
    Describes leg.requestedQuantity [] leg where
  requested := rfl
  nonneg := hfilled.ge
  largest := by simp
  attained := .inl hfilled
  final := by simp
  open' := by
    intro _
    rw [hstatus]
    rfl

theorem step {s : LegStep} (h : Describes q steps leg) (hord : InOrder q (steps ++ [s])) :
    Describes q (steps ++ [s]) (leg.step s) := by
  have hsettled : s.Settled q := hord.1 s (by simp)
  have hbefore : ∀ r ∈ steps, r.Precedes q s := fun r hr =>
    (pairwise_append.mp hord.2).2.2 r hr s (by simp)
  cases s with
  | working brokerOrderId clientOrderRef =>
    have hopen : ∀ event, .update event ∈ steps → event.terminal = false :=
      fun event hmem => hbefore _ hmem
    refine ⟨h.requested, h.nonneg, ?_, ?_, ?_, ?_⟩
    · simpa [Leg.step, Leg.working] using h.largest
    · simpa [Leg.step, Leg.working] using h.attained
    · intro event hmem hterm
      have hmem : .update event ∈ steps := by simpa using hmem
      rw [hopen event hmem] at hterm
      exact absurd hterm (by simp)
    · intro _
      rw [openStatus_of_mem (s := .working brokerOrderId clientOrderRef) (by simp) rfl]
      rfl
  | submitFailed errorMessage =>
    have hfailed : ∀ r ∈ steps, r.failure := by
      intro r hr
      cases r with
      | working _ _ => exact (hbefore _ hr).elim
      | submitFailed m => rfl
      | update _ => exact (hbefore _ hr).elim
    have hnone : ∀ event, .update event ∉ steps ++ [LegStep.submitFailed errorMessage] := by
      intro event hmem
      have hfail := hfailed (.update event) (by simpa using hmem)
      exact absurd hfail (by simp [LegStep.failure])
    refine ⟨h.requested, h.nonneg, ?_, ?_, ?_, ?_⟩
    · exact fun event hmem => absurd hmem (hnone event)
    · refine .inl (h.attained.resolve_right ?_)
      rintro ⟨event, hmem, -⟩
      exact hnone event (mem_append_left _ hmem)
    · exact fun event hmem => absurd hmem (hnone event)
    · intro _
      have hall : (steps ++ [LegStep.submitFailed errorMessage]).all LegStep.failure := by
        rw [all_append, all_eq_true.mpr hfailed]
        rfl
      rw [openStatus, if_neg (by simp), if_pos hall]
      rfl
  | update event =>
    have hstatus : (leg.step (.update event)).status = OrderEvent.legState q event := by
      rw [← h.requested]
      rfl
    have hle : ∀ event', .update event' ∈ steps → event'.filled ≤ event.filled :=
      fun event' hmem => (hbefore _ hmem).1
    refine ⟨h.requested, hsettled.1, ?_, .inr ⟨event, by simp, rfl⟩, ?_, ?_⟩
    · intro event' hmem
      cases mem_append.mp hmem with
      | inl hmem => exact hle event' hmem
      | inr hmem => rw [LegStep.update.inj (mem_singleton.mp hmem)]; exact le_refl _
    · intro event' hmem hterm
      rw [hstatus]
      cases mem_append.mp hmem with
      | inl hmem => exact (hbefore _ hmem).2 hterm
      | inr hmem => rw [LegStep.update.inj (mem_singleton.mp hmem)]
    · intro hopen
      rw [hstatus, legState_of_not_terminal (hopen event (by simp)),
        openStatus_of_mem (s := .update event) (by simp) rfl]

theorem of_inOrder (hstatus : leg.status = .pendingSubmit) (hfilled : leg.lastSeenFilledQuantity = 0)
    (hord : InOrder leg.requestedQuantity steps) :
    Describes leg.requestedQuantity steps (leg.run steps) := by
  induction steps using reverseRecOn with
  | nil => exact fresh hstatus hfilled
  | append_singleton steps s ih =>
    rw [Leg.run, foldl_concat]
    exact (ih hord.of_append).step hord

theorem filled_le (h : Describes q steps leg) (h' : Describes q steps' leg')
    (hsub : ∀ s ∈ steps, s ∈ steps') : leg.lastSeenFilledQuantity ≤ leg'.lastSeenFilledQuantity := by
  cases h.attained with
  | inl hzero => rw [hzero]; exact h'.nonneg
  | inr hevent =>
    obtain ⟨event, hmem, hfilled⟩ := hevent
    rw [hfilled]
    exact h'.largest event (hsub _ hmem)

theorem exists_final (h : Describes q steps leg) (hstatus : leg.status ∈ settledStates) :
    ∃ event, .update event ∈ steps ∧ event.terminal := by
  by_contra hnone
  have hopen : ∀ event, .update event ∈ steps → event.terminal = false := fun event hmem =>
    Bool.eq_false_iff.mpr fun hterm => hnone ⟨event, hmem, hterm⟩
  rw [h.open' hopen] at hstatus
  exact openStatus_not_mem steps hstatus

theorem status_of_settled (h : Describes q steps leg) (h' : Describes q steps' leg')
    (hsub : ∀ s ∈ steps, s ∈ steps') (hstatus : leg.status ∈ settledStates) :
    leg'.status = leg.status := by
  obtain ⟨event, hmem, hterm⟩ := h.exists_final hstatus
  rw [h.final event hmem hterm, h'.final event (hsub _ hmem) hterm]

theorem agree (h : Describes q steps leg) (h' : Describes q steps' leg')
    (hsame : ∀ s, s ∈ steps ↔ s ∈ steps') :
    leg'.status = leg.status ∧ leg'.lastSeenFilledQuantity = leg.lastSeenFilledQuantity := by
  refine ⟨?_, le_antisymm (h'.filled_le h fun s => (hsame s).mpr)
    (h.filled_le h' fun s => (hsame s).mp)⟩
  by_cases hfinal : ∃ event, .update event ∈ steps ∧ event.terminal
  · obtain ⟨event, hmem, hterm⟩ := hfinal
    rw [h.final event hmem hterm, h'.final event ((hsame _).mp hmem) hterm]
  · have hopen : ∀ event, .update event ∈ steps → event.terminal = false := fun event hmem =>
      Bool.eq_false_iff.mpr fun hterm => hfinal ⟨event, hmem, hterm⟩
    rw [h.open' hopen, h'.open' fun event hmem => hopen event ((hsame _).mpr hmem),
      openStatus_of_same hsame]

end Describes

/-! ## legs move forward -/

/-- A leg whose steps come in order never loses filled quantity or a settled status, is
terminal after every final update, and ends where any other order of the same steps
ends. -/
theorem leg_moves_forward {t : Tables} {k : String × Nat} {leg : Leg}
    (hleg : t.legs.get? k = some leg) (hstatus : leg.status = .pendingSubmit)
    (hfilled : leg.lastSeenFilledQuantity = 0) {ops : List Op}
    (hord : InOrder leg.requestedQuantity (legSteps k ops t)) :
    ∃ last, (run ops t).legs.get? k = some last ∧
      (∀ before after, ops = before ++ after → ∃ seen, (run before t).legs.get? k = some seen ∧
        seen.lastSeenFilledQuantity ≤ last.lastSeenFilledQuantity ∧
        (seen.status ∈ settledStates → last.status = seen.status)) ∧
      (∀ before event after, ops = before ++ .applyOrderEvent event :: after →
        (run before t).linkedLeg event = some k → event.terminal = true →
        ∃ seen, (run (before ++ [.applyOrderEvent event]) t).legs.get? k = some seen ∧
          seen.status.terminal = true) ∧
      (∀ t' ops', t'.legs.get? k = some leg → InOrder leg.requestedQuantity (legSteps k ops' t') →
        (∀ s, s ∈ legSteps k ops t ↔ s ∈ legSteps k ops' t') →
        ∃ last', (run ops' t').legs.get? k = some last' ∧ last'.status = last.status ∧
          last'.lastSeenFilledQuantity = last.lastSeenFilledQuantity) := by
  have hend := Describes.of_inOrder hstatus hfilled hord
  have hreach : ∀ t' ops', t'.legs.get? k = some leg →
      (run ops' t').legs.get? k = some (leg.run (legSteps k ops' t')) := by
    intro t' ops' hleg'
    rw [get?_run, hleg', Option.map_some]
  refine ⟨_, hreach t ops hleg, ?_, ?_, ?_⟩
  · rintro before after rfl
    rw [legSteps_append] at hord hend
    have hseen := Describes.of_inOrder hstatus hfilled hord.of_append
    refine ⟨_, hreach t before hleg, ?_⟩
    rw [legSteps_append]
    exact ⟨hseen.filled_le hend fun s => List.mem_append_left _,
      hseen.status_of_settled hend fun s => List.mem_append_left _⟩
  · rintro before event after rfl hlink hterm
    have hsplit : before ++ Op.applyOrderEvent event :: after =
        (before ++ [.applyOrderEvent event]) ++ after := by simp
    rw [hsplit, legSteps_append] at hord
    have hseen := Describes.of_inOrder hstatus hfilled hord.of_append
    have hmem : LegStep.update event ∈ legSteps k (before ++ [.applyOrderEvent event]) t := by
      rw [legSteps_append]
      simp [legSteps, Op.legStep?, hlink]
    have hne : OrderEvent.legState leg.requestedQuantity event ≠ .working :=
      (hord.of_append.1 _ hmem).2 hterm
    refine ⟨_, hreach t _ hleg, terminal_of_mem_settledStates ?_⟩
    rw [hseen.final event hmem hterm]
    exact (legState_mem leg.requestedQuantity event).resolve_left hne
  · intro t' ops' hleg' hord' hsame
    exact ⟨_, hreach t' ops' hleg', hend.agree (Describes.of_inOrder hstatus hfilled hord') hsame⟩

/-- One leg of ten whose order the broker knows as `O1`. -/
def demoTables : Tables where
  intents :=
    [{ clientOrderRef := "KA1", accountId := "kite:a", strategyRunId := "r",
       brokerOrderId := some "O1", basketExecutionId := some "b", basketLegIndex := some 0 }]
  baskets := Keyed.empty.upsert { basketExecutionId := "b", strategyRunId := "r", accountId := "kite:a" }
  legs := Keyed.empty.upsert { basketExecutionId := "b", legIndex := 0, requestedQuantity := 10 }

/-- An update of the order `O1`. -/
def demoUpdate (status : String) (filled : Int) : Op :=
  .applyOrderEvent
    { accountId := "kite:a", orderId := "O1", status, filledQuantity := some filled }

theorem leg_moves_forward_demo :
    ∃ last, (run [.markLegWorking "b" 0 "O1" none, demoUpdate "OPEN" 4, demoUpdate "COMPLETE" 10,
        demoUpdate "COMPLETE" 10] demoTables).legs.get? ("b", 0) = some last ∧
      last.status = .filled ∧ last.lastSeenFilledQuantity = 10 := by
  have hleg : demoTables.legs.get? ("b", 0) =
      some { basketExecutionId := "b", legIndex := 0, requestedQuantity := 10 } := by
    decide +kernel
  obtain ⟨last, hlast, -⟩ := @leg_moves_forward demoTables ("b", 0) _ hleg rfl rfl
    [.markLegWorking "b" 0 "O1" none, demoUpdate "OPEN" 4, demoUpdate "COMPLETE" 10,
      demoUpdate "COMPLETE" 10] (by decide +kernel)
  refine ⟨last, hlast, ?_⟩
  have hfinal : (run [.markLegWorking "b" 0 "O1" none, demoUpdate "OPEN" 4,
      demoUpdate "COMPLETE" 10, demoUpdate "COMPLETE" 10] demoTables).legs.get? ("b", 0) =
      some { basketExecutionId := "b", legIndex := 0, status := .filled, requestedQuantity := 10,
             brokerOrderId := some "O1", latestBrokerStatus := some "COMPLETE",
             lastSeenFilledQuantity := 10 } := by
    decide +kernel
  rw [hfinal] at hlast
  rw [← Option.some.inj hlast]
  exact ⟨rfl, rfl⟩

/-- The same two updates: in the broker's order the leg ends filled, in the other order the
filled leg falls back to working with four of ten. -/
theorem late_update_reopens :
    (((run [demoUpdate "COMPLETE" 10] demoTables).legs.get? ("b", 0)).map fun leg =>
        (leg.status, leg.lastSeenFilledQuantity)) = some (.filled, 10) ∧
      (((run [demoUpdate "COMPLETE" 10, demoUpdate "OPEN" 4] demoTables).legs.get? ("b", 0)).map
        fun leg => (leg.status, leg.lastSeenFilledQuantity)) = some (.working, 4) ∧
      (((run [demoUpdate "OPEN" 4, demoUpdate "COMPLETE" 10] demoTables).legs.get? ("b", 0)).map
        fun leg => (leg.status, leg.lastSeenFilledQuantity)) = some (.filled, 10) := by
  decide +kernel

end KiteAlgo.Baskets
