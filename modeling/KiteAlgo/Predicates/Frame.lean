import KiteAlgo.Predicates

/-!
# KiteAlgo.Predicates.Frame

What evaluation leaves alone.  Conditions write `epoch_id` and `conds`; a stage
machine writes the entry of its stage in `stage_advanced`; the trigger
bookkeeping, the bar time and the receipt of ticks pass through unchanged.
-/

namespace KiteAlgo

variable {F : Type} [PyFloat F]

/-- `t` differs from `s` in the condition state only. -/
def KeepsMachines (s t : EvalState F) : Prop :=
  t = { s with epochId := t.epochId, conds := t.conds }

/-- `t` differs from `s` in the condition state and the stage machines only. -/
def KeepsLifecycle (s t : EvalState F) : Prop :=
  t = { s with epochId := t.epochId, conds := t.conds, stageAdvanced := t.stageAdvanced }

variable {s t u : EvalState F}

omit [PyFloat F] in
theorem KeepsMachines.trans (hst : KeepsMachines s t) (htu : KeepsMachines t u) :
    KeepsMachines s u := by
  rw [KeepsMachines, htu, hst]

omit [PyFloat F] in
theorem KeepsMachines.stageAdvanced (h : KeepsMachines s t) :
    t.stageAdvanced = s.stageAdvanced := by
  rw [h]

omit [PyFloat F] in
theorem KeepsMachines.lifecycle (h : KeepsMachines s t) : KeepsLifecycle s t := by
  rw [KeepsLifecycle, h]

omit [PyFloat F] in
theorem KeepsLifecycle.trans (hst : KeepsLifecycle s t) (htu : KeepsLifecycle t u) :
    KeepsLifecycle s u := by
  rw [KeepsLifecycle, htu, hst]

variable {input : EvalInput F} {r : PredicateResult F} {state : EvalState F}

theorem keepsMachines_of_evaluateCondition {cond : Condition F}
    (h : evaluateCondition cond input state = .ok r) : KeepsMachines state r.state := by
  simp only [evaluateCondition, bind_eq_ok] at h
  obtain ⟨outcome, _, h⟩ := h
  cases outcome with
  | none =>
    obtain rfl := Except.ok.inj h
    rfl
  | some o =>
    obtain rfl := Except.ok.inj h
    rfl

theorem keepsMachines_of_evaluateConditions {conds : List (Condition F)}
    {run : List (PredicateResult F) × EvalState F}
    (h : evaluateConditions input conds state = .ok run) : KeepsMachines state run.2 := by
  induction conds generalizing state run with
  | nil =>
    obtain rfl := Except.ok.inj h
    rfl
  | cons cond conds ih =>
    simp only [evaluateConditions, bind_eq_ok] at h
    obtain ⟨result, hresult, rest, hrest, h⟩ := h
    obtain rfl := Except.ok.inj h
    have hkeep := ih hrest
    exact (keepsMachines_of_evaluateCondition hresult).trans hkeep

theorem keepsMachines_of_runGroups {groups : List (ConditionGroup F)} {run : GroupsOutcome F}
    (h : runGroups input groups state = .ok run) : KeepsMachines state run.state := by
  induction groups generalizing state run with
  | nil =>
    obtain rfl := Except.ok.inj h
    rfl
  | cons group groups ih =>
    simp only [runGroups, bind_eq_ok] at h
    obtain ⟨own, hown, rest, hrest, h⟩ := h
    obtain rfl := Except.ok.inj h
    have hkeep := ih hrest
    exact (keepsMachines_of_evaluateConditions hown).trans hkeep

theorem keepsMachines_of_applySequence {sequence : SequenceSpec F} {sub : AdvancedState}
    {working : EvalState F} {step : MachineStep × EvalState F}
    (h : applySequence sequence input sub working = .ok step) : KeepsMachines working step.2 := by
  simp only [applySequence] at h
  split at h
  · simp only [completeSequence, bind_eq_ok] at h
    obtain ⟨leg, hleg, h⟩ := h
    obtain rfl := Except.ok.inj h
    exact keepsMachines_of_runGroups hleg
  · simp only [armSequence, bind_eq_ok] at h
    obtain ⟨leg, hleg, h⟩ := h
    obtain rfl := Except.ok.inj h
    exact keepsMachines_of_runGroups hleg

theorem frame_of_evaluateStage {stage : Stage F} (h : evaluateStage stage input state = .ok r) :
    KeepsLifecycle state r.state ∧
      ∀ id, id ≠ stage.id → r.state.stageAdvanced.get? id = state.stageAdvanced.get? id := by
  have hcommit : ∀ {working : EvalState F} (sub : AdvancedState), KeepsMachines state working →
      KeepsLifecycle state (commitAdvancedState working stage.id sub input.obs) ∧ ∀ id, id ≠ stage.id →
          (commitAdvancedState working stage.id sub input.obs).stageAdvanced.get? id =
            state.stageAdvanced.get? id := by
    intro working sub hworking
    refine ⟨?_, fun id hid => ?_⟩
    · rw [KeepsLifecycle, commitAdvancedState, hworking]
    · rw [commitAdvancedState, hworking.stageAdvanced]
      exact Dict.get?_set_of_ne (Ne.symm hid) _ _
  simp only [evaluateStage, bind_eq_ok] at h
  obtain ⟨own, hown, h⟩ := h
  have howned := keepsMachines_of_runGroups hown
  split at h
  · obtain rfl := Except.ok.inj h
    exact hcommit _ howned
  · simp only [bind_eq_ok] at h
    obtain ⟨step, hstep, h⟩ := h
    obtain rfl := Except.ok.inj h
    exact hcommit _ (howned.trans (keepsMachines_of_applySequence hstep))
  · obtain rfl := Except.ok.inj h
    exact ⟨howned.lifecycle, fun id _ => by rw [howned.stageAdvanced]⟩

end KiteAlgo
