import KiteAlgo.Predicates
import Mathlib.Data.List.Forall2
import Mathlib.Data.List.Nodup

/-!
# KiteAlgo.Predicates.Isolation

A condition's sub-state as a private slot.  `slotStep` is one evaluation of a
condition on its slot alone; evaluating a stage gives every condition the
verdicts of its own slot, provided no other condition the stage evaluates has
the same key.
-/

namespace KiteAlgo

open List
variable {F : Type} [PyFloat F]

/-! ## one condition on its slot -/

def PredicateResult.verdict (r : PredicateResult F) : Option Bool × Bool := (r.matched, r.fired)

/-- The sub-state an evaluation starts from, read off the stored slot. -/
def openSlot (slot : Option (CondState F)) (obs : Observation F) : CondState F :=
  let sub := slot.getD {}
  match sub.epochId with
  | some epoch => if epoch = obs.epochId then sub else { epochId := some epoch }
  | none => sub

/-- One evaluation of a condition on its slot: the verdict and the slot left
behind. -/
def slotStep (cond : Condition F) (input : EvalInput F) (slot : Option (CondState F)) :
    Except PyErr ((Option Bool × Bool) × Option (CondState F)) := do
  let outcome ← conditionOutcome cond input (openSlot slot input.obs)
  match outcome with
  | none => .ok ((none, false), slot)
  | some o =>
    .ok ((some o.matched, o.fired), some { o.sub with epochId := some input.obs.epochId })

variable {cond : Condition F} {input : EvalInput F} {state : EvalState F}

theorem slotStep_of_evaluateCondition {r : PredicateResult F}
    (h : evaluateCondition cond input state = .ok r) :
    slotStep cond input (state.conds.get? (condKey cond)) =
        .ok (r.verdict, r.state.conds.get? (condKey cond)) ∧
      ∀ k, k ≠ condKey cond → r.state.conds.get? k = state.conds.get? k := by
  have hopen : beginObservation state (condKey cond) input.obs =
      openSlot (state.conds.get? (condKey cond)) input.obs := rfl
  simp only [evaluateCondition, bind_eq_ok, hopen] at h
  obtain ⟨outcome, hout, h⟩ := h
  rw [slotStep, hout]
  cases outcome with
  | none =>
    obtain rfl := Except.ok.inj h
    exact ⟨rfl, fun _ _ => rfl⟩
  | some o =>
    obtain rfl := Except.ok.inj h
    refine ⟨?_, fun k hk => ?_⟩
    · simp [PredicateResult.verdict, commitSubstate]
    · simp [commitSubstate, Dict.get?_set_of_ne hk.symm]

theorem evaluateCondition_of_slotStep {out : (Option Bool × Bool) × Option (CondState F)}
    (h : slotStep cond input (state.conds.get? (condKey cond)) = .ok out) :
    ∃ r, evaluateCondition cond input state = .ok r ∧ r.verdict = out.1 ∧
      r.state.conds.get? (condKey cond) = out.2 := by
  cases hr : evaluateCondition cond input state with
  | ok r =>
    obtain ⟨hslot, _⟩ := slotStep_of_evaluateCondition hr
    obtain rfl := Except.ok.inj (hslot.symm.trans h)
    exact ⟨r, rfl, rfl, rfl⟩
  | error e =>
    simp only [slotStep, bind_eq_ok] at h
    obtain ⟨outcome, hout, _⟩ := h
    have hopen : beginObservation state (condKey cond) input.obs =
        openSlot (state.conds.get? (condKey cond)) input.obs := rfl
    rw [evaluateCondition, hopen, hout] at hr
    cases outcome <;> simp at hr

/-! ## evaluating the same condition again -/

/-- Evaluating an operator again on the sub-state it left changes nothing more. -/
def Settles (evaluate : CondState F → Except PyErr (Option (OpOutcome F))) : Prop :=
  ∀ sub o, evaluate sub = .ok (some o) → ∀ e, ∃ o', evaluate { o.sub with epochId := e } = .ok (some o') ∧
      o'.sub = { o.sub with epochId := e }

omit [PyFloat F] in
theorem settles_of_pure {f : CondState F → OpOutcome F}
    (h : ∀ sub e, (f { (f sub).sub with epochId := e }).sub = { (f sub).sub with epochId := e }) :
    Settles fun sub => .ok (some (f sub)) := by
  intro sub o ho e
  obtain rfl := Option.some.inj (Except.ok.inj ho)
  exact ⟨_, rfl, h sub e⟩

theorem settles_withRight {evaluate : F → CondState F → Except PyErr (Option (OpOutcome F))}
    (h : ∀ level, Settles (evaluate level)) :
    Settles fun sub => withRight input cond fun level => evaluate level sub := by
  intro sub o ho e
  simp only [withRight, bind_eq_ok] at ho
  obtain ⟨level, hlevel, ho⟩ := ho
  cases level with
  | none => simp at ho
  | some level =>
    obtain ⟨o', ho', hsub⟩ := h level sub o ho e
    exact ⟨o', by simp [withRight, hlevel, ho'], hsub⟩

theorem settles_level (op : Op) (cond : Condition F) (cur level : F) :
    Settles fun sub => .ok (some (evaluateLevelOp op cond cur level sub)) := by
  refine settles_of_pure fun sub e => ?_
  cases hh : cond.hysteresis with
  | none => simp [evaluateLevelOp, hh]
  | some h =>
    simp only [evaluateLevelOp, hh, applyHysteresis]
    generalize compareLevel op cur level = raw
    generalize (if op = .gt ∨ op = .gte then PyFloat.lt h.release level
      else PyFloat.lt level h.release) = consistent
    generalize (if op = .gt ∨ op = .gte then PyFloat.lt h.release cur
      else PyFloat.lt cur h.release) = beyond
    cases consistent with
    | false => rfl
    | true => cases raw <;> cases beyond <;> simp

theorem settles_cross (isAbove : Bool) (cond : Condition F) (cur level : F) :
    Settles fun sub => .ok (some (evaluateCrossOp isAbove cond cur level sub)) :=
  settles_of_pure fun _ _ => rfl

theorem settles_within (cond : Condition F) (cur : F) : Settles (evaluateWithin cond cur) := by
  intro sub o ho e
  unfold evaluateWithin at ho ⊢
  split at ho
  · simp only [bind_eq_ok] at ho
    obtain ⟨matched, hm, ho⟩ := ho
    obtain rfl := Option.some.inj (Except.ok.inj ho)
    exact ⟨_, by rw [hm]; rfl, rfl⟩
  · simp at ho

theorem settles_pct (isRise : Bool) (cond : Condition F) (obs : Observation F)
    (cur threshold : F) : Settles (evaluatePctOp isRise cond obs cur threshold) := by
  intro sub o ho e
  unfold evaluatePctOp at ho
  cases hb : baselineFor obs cur sub with
  | none => simp [hb] at ho
  | some p =>
    obtain ⟨baseline, sub'⟩ := p
    simp only [hb] at ho
    have hstored : sub'.baseline = some baseline := by
      unfold baselineFor at hb
      split at hb
      · next hs =>
          obtain ⟨rfl, rfl⟩ := Prod.mk.inj (Option.some.inj hb)
          exact hs
      · split at hb
        · simp at hb
        · obtain ⟨rfl, rfl⟩ := Prod.mk.inj (Option.some.inj hb)
          rfl
    split at ho
    · simp at ho
    · next hz =>
        obtain rfl := Option.some.inj (Except.ok.inj ho)
        have hagain : baselineFor obs cur
            { (pctOutcome isRise cond cur baseline threshold sub').sub with epochId := e } = some (baseline,
              { (pctOutcome isRise cond cur baseline threshold sub').sub with epochId := e }) := by
          simp [baselineFor, pctOutcome, hstored]
        refine ⟨pctOutcome isRise cond cur baseline threshold
          { (pctOutcome isRise cond cur baseline threshold sub').sub with epochId := e }, ?_, rfl⟩
        rw [evaluatePctOp, hagain]
        simp [hz]

theorem settles_break (isHigh : Bool) (cond : Condition F) (cur level : F) :
    Settles fun sub => .ok (some (evaluateBreakOp isHigh cond cur level sub)) := by
  refine settles_of_pure fun sub e => ?_
  cases isHigh with
  | true =>
    simp only [evaluateBreakOp, if_true]
    split
    · rfl
    · split <;> rfl
  | false =>
    simp only [evaluateBreakOp, Bool.false_eq_true, if_false]
    split
    · rfl
    · split <;> rfl

theorem settles_evaluateOp (op : Op) (input : EvalInput F) (cond : Condition F) (cur : F) :
    Settles (evaluateOp op input cond cur) := by
  cases op with
  | gt | gte | lt | lte => exact settles_withRight fun level => settles_level _ cond cur level
  | crossesAbove => exact settles_withRight fun level => settles_cross true cond cur level
  | crossesBelow => exact settles_withRight fun level => settles_cross false cond cur level
  | within => exact settles_within cond cur
  | risesPct => exact settles_withRight fun level => settles_pct true cond input.obs cur level
  | fallsPct => exact settles_withRight fun level => settles_pct false cond input.obs cur level
  | breaksPrevHigh => exact settles_withRight fun level => settles_break true cond cur level
  | breaksPrevLow => exact settles_withRight fun level => settles_break false cond cur level

theorem slotStep_again {slot : Option (CondState F)}
    {out : (Option Bool × Bool) × Option (CondState F)} (h : slotStep cond input slot = .ok out) :
    ∃ v, slotStep cond input out.2 = .ok (v, out.2) := by
  have hstep := h
  simp only [slotStep, bind_eq_ok] at h
  obtain ⟨outcome, hout, h⟩ := h
  cases outcome with
  | none =>
    obtain rfl := Except.ok.inj h
    exact ⟨_, hstep⟩
  | some o =>
    obtain rfl := Except.ok.inj h
    simp only [conditionOutcome, bind_eq_ok] at hout
    obtain ⟨left, hleft, hout⟩ := hout
    cases left with
    | none => simp at hout
    | some cur =>
      cases hop : cond.op with
      | other s hs => simp [hop] at hout
      | known op =>
        simp only [hop] at hout
        obtain ⟨o', ho', hsub⟩ :=
          settles_evaluateOp op input cond cur _ o hout (some input.obs.epochId)
        refine ⟨(some o'.matched, o'.fired), ?_⟩
        simp [slotStep, conditionOutcome, hleft, hop, openSlot, ho', hsub]

variable {conds : List (Condition F)} {out : List (PredicateResult F) × EvalState F}

theorem get?_conds_of_evaluateConditions (h : evaluateConditions input conds state = .ok out)
    {k : String} (hk : ∀ c ∈ conds, k ≠ condKey c) : out.2.conds.get? k = state.conds.get? k := by
  induction conds generalizing state out with
  | nil =>
    obtain rfl := Except.ok.inj h
    rfl
  | cons c conds ih =>
    simp only [evaluateConditions, bind_eq_ok] at h
    obtain ⟨r, hr, rest, hrest, h⟩ := h
    obtain rfl := Except.ok.inj h
    have hhead := (slotStep_of_evaluateCondition hr).2 k (hk c (.head _))
    have htail := ih hrest fun c hc => hk c (.tail _ hc)
    exact htail.trans hhead

theorem slotSteps_of_evaluateConditions (h : evaluateConditions input conds state = .ok out)
    (hkeys : (conds.map condKey).Nodup) :
    List.Forall₂ (fun c r => slotStep c input (state.conds.get? (condKey c)) =
      .ok (r.verdict, out.2.conds.get? (condKey c))) conds out.1 := by
  induction conds generalizing state out with
  | nil =>
    obtain rfl := Except.ok.inj h
    exact .nil
  | cons c conds ih =>
    simp only [evaluateConditions, bind_eq_ok] at h
    obtain ⟨r, hr, rest, hrest, h⟩ := h
    obtain rfl := Except.ok.inj h
    obtain ⟨hnot, hnodup⟩ := nodup_cons.mp hkeys
    obtain ⟨hslot, hframe⟩ := slotStep_of_evaluateCondition hr
    have hkeep : rest.2.conds.get? (condKey c) = r.state.conds.get? (condKey c) :=
      get?_conds_of_evaluateConditions hrest fun d hd he =>
        hnot (he ▸ mem_map_of_mem hd)
    have hsteps := (forall₂_and_left (p := (· ∈ conds)) conds rest.1).mpr
      ⟨fun _ hd => hd, ih hrest hnodup⟩
    refine .cons ?_ (hsteps.imp fun d _ hstep => ?_)
    · rw [hslot, hkeep]
    · have hne : condKey d ≠ condKey c := fun he => hnot (he ▸ mem_map_of_mem hstep.1)
      rw [← hframe _ hne]
      exact hstep.2

variable {c : Condition F} {v : Option Bool × Bool}

theorem get?_conds_of_settled (h : evaluateConditions input conds state = .ok out)
    (hc : ∀ d ∈ conds, condKey c = condKey d → c = d)
    (hsettled : slotStep c input (state.conds.get? (condKey c)) = .ok (v, state.conds.get? (condKey c))) :
    out.2.conds.get? (condKey c) = state.conds.get? (condKey c) := by
  induction conds generalizing state out with
  | nil =>
    obtain rfl := Except.ok.inj h
    rfl
  | cons d conds ih =>
    simp only [evaluateConditions, bind_eq_ok] at h
    obtain ⟨r, hr, rest, hrest, h⟩ := h
    obtain rfl := Except.ok.inj h
    obtain ⟨hslot, hframe⟩ := slotStep_of_evaluateCondition hr
    have hhead : r.state.conds.get? (condKey c) = state.conds.get? (condKey c) := by
      by_cases he : condKey c = condKey d
      · obtain rfl := hc d (.head _) he
        exact congrArg Prod.snd (Except.ok.inj (hslot.symm.trans hsettled))
      · exact hframe _ he
    have htail := ih hrest (fun d hd => hc d (.tail _ hd))
      (by rw [hhead]; exact hsettled)
    exact htail.trans hhead

theorem evaluateConditions_append {cs ds : List (Condition F)}
    {first second : List (PredicateResult F) × EvalState F}
    (hfirst : evaluateConditions input cs state = .ok first)
    (hsecond : evaluateConditions input ds first.2 = .ok second) :
    evaluateConditions input (cs ++ ds) state = .ok (first.1 ++ second.1, second.2) := by
  induction cs generalizing state first with
  | nil =>
    obtain rfl := Except.ok.inj hfirst
    exact hsecond
  | cons c cs ih =>
    simp only [evaluateConditions, bind_eq_ok] at hfirst
    obtain ⟨r, hr, rest, hrest, h⟩ := hfirst
    obtain rfl := Except.ok.inj h
    simp only [cons_append, evaluateConditions, hr, ok_bind, ih hrest hsecond]

theorem evaluateConditions_of_runGroups {groups : List (ConditionGroup F)} {run : GroupsOutcome F}
    (h : runGroups input groups state = .ok run) :
    evaluateConditions input (groupConditions groups) state = .ok (run.results, run.state) := by
  induction groups generalizing state run with
  | nil =>
    obtain rfl := Except.ok.inj h
    rfl
  | cons g groups ih =>
    simp only [runGroups, bind_eq_ok] at h
    obtain ⟨first, hfirst, rest, hrest, h⟩ := h
    obtain rfl := Except.ok.inj h
    exact evaluateConditions_append hfirst (ih hrest)

omit [PyFloat F] in
theorem groupConditions_groupPairs (stage : Stage F) :
    groupConditions stage.groupPairs = stage.ownConditions := by
  unfold Stage.groupPairs Stage.ownConditions groupConditions
  cases stage.anyConditions <;> cases stage.notConditions <;> simp

/-- No other condition that the stage evaluates, in its groups or in the legs of
its sequence, has the key of one of its groups' conditions. -/
def Stage.KeysIsolate (stage : Stage F) : Prop :=
  ∀ c ∈ stage.ownConditions, ∀ d ∈ stage.ownConditions ++ stage.sequenceConditions,
    condKey c = condKey d → c = d

variable {stage : Stage F}

theorem get?_conds_of_applySequence {sequence : SequenceSpec F}
    (hseq : stage.sequence = some sequence) (hkeys : stage.KeysIsolate) {sub : AdvancedState}
    {working : EvalState F} {out : MachineStep × EvalState F}
    (h : applySequence sequence input sub working = .ok out) (hc : c ∈ stage.ownConditions)
    (hsettled : slotStep c input (working.conds.get? (condKey c)) =
      .ok (v, working.conds.get? (condKey c))) :
    out.2.conds.get? (condKey c) = working.conds.get? (condKey c) := by
  have hleg : ∀ groups leg, runGroups input groups working = .ok leg →
      (∀ d ∈ groupConditions groups, d ∈ stage.sequenceConditions) →
      leg.state.conds.get? (condKey c) = working.conds.get? (condKey c) := by
    intro groups leg hrun hmem
    exact get?_conds_of_settled (evaluateConditions_of_runGroups hrun)
      (fun d hd => hkeys c hc d (mem_append_right _ (hmem d hd))) hsettled
  have hfirst : ∀ d ∈ groupConditions sequence.first, d ∈ stage.sequenceConditions := by
    intro d hd
    simp [Stage.sequenceConditions, hseq, hd]
  have hthen : ∀ d ∈ groupConditions sequence.andThen, d ∈ stage.sequenceConditions := by
    intro d hd
    simp [Stage.sequenceConditions, hseq, hd]
  simp only [applySequence] at h
  split at h
  · simp only [completeSequence, bind_eq_ok] at h
    obtain ⟨leg, hrun, h⟩ := h
    obtain rfl := Except.ok.inj h
    exact hleg _ _ hrun hthen
  · simp only [armSequence, bind_eq_ok] at h
    obtain ⟨leg, hrun, h⟩ := h
    obtain rfl := Except.ok.inj h
    exact hleg _ _ hrun hfirst

theorem slotSteps_of_evaluateStage (hdiff : stage.ownConditions.Nodup) (hkeys : stage.KeysIsolate)
    {own : GroupsOutcome F} {res : PredicateResult F}
    (hown : runGroups input stage.groupPairs state = .ok own)
    (hres : evaluateStage stage input state = .ok res) :
    List.Forall₂ (fun c r => slotStep c input (state.conds.get? (condKey c)) =
      .ok (r.verdict, res.state.conds.get? (condKey c))) stage.ownConditions own.results := by
  have hrun := evaluateConditions_of_runGroups hown
  rw [groupConditions_groupPairs] at hrun
  have hnodup : (stage.ownConditions.map condKey).Nodup :=
    hdiff.map_on fun c hc d hd => hkeys c hc d (mem_append_left _ hd)
  have hsteps := (forall₂_and_left (p := (· ∈ stage.ownConditions)) _ _).mpr
    ⟨fun _ hc => hc, slotSteps_of_evaluateConditions hrun hnodup⟩
  refine hsteps.imp fun c _ ⟨hc, hstep⟩ => ?_
  have hkeep : res.state.conds.get? (condKey c) = own.state.conds.get? (condKey c) := by
    simp only [evaluateStage, hown, ok_bind] at hres
    split at hres
    · obtain rfl := Except.ok.inj hres
      rfl
    · next sequence _ hseq =>
        simp only [bind_eq_ok] at hres
        obtain ⟨step, hstep', hres⟩ := hres
        obtain rfl := Except.ok.inj hres
        obtain ⟨v, hsettled⟩ := slotStep_again hstep
        exact get?_conds_of_applySequence hseq hkeys hstep' hc hsettled
    · obtain rfl := Except.ok.inj hres
      rfl
  rw [hkeep]
  exact hstep

/-! ## runs -/

def slotRun (cond : Condition F) : List (EvalInput F) → Option (CondState F) →
    Except PyErr (List (Option Bool × Bool) × Option (CondState F))
  | [], slot => .ok ([], slot)
  | input :: inputs, slot => do
    let step ← slotStep cond input slot
    let rest ← slotRun cond inputs step.2
    .ok (step.1 :: rest.1, rest.2)

/-- A run of a stage, each evaluation on the state the previous one left: for
each observation the verdicts of the conditions of its groups, in order. -/
def runStage (stage : Stage F) : List (EvalInput F) → EvalState F →
    Except PyErr (List (List (Option Bool × Bool)) × EvalState F)
  | [], state => .ok ([], state)
  | input :: inputs, state => do
    let own ← runGroups input stage.groupPairs state
    let res ← evaluateStage stage input state
    let rest ← runStage stage inputs res.state
    .ok (own.results.map PredicateResult.verdict :: rest.1, rest.2)

/-- The stage with a single condition and no machine. -/
def Stage.only (stage : Stage F) (cond : Condition F) : Stage F :=
  { stage with
    conditions := [cond], anyConditions := [], notConditions := [], sequence := none,
    consecutiveBars := none }

variable {j : Nat}

omit [PyFloat F] in
theorem exists_getElem?_of_forall₂ {α β : Type} {R : α → β → Prop} {as : List α} {bs : List β}
    (h : List.Forall₂ R as bs) {a : α} (ha : as[j]? = some a) : ∃ b, bs[j]? = some b ∧ R a b := by
  induction h generalizing j with
  | nil => simp at ha
  | @cons a' b' _ _ hhead _ ih =>
    cases j with
    | zero =>
      obtain rfl : a' = a := by simpa using ha
      exact ⟨b', rfl, hhead⟩
    | succ j => exact ih (by simpa using ha)

variable {inputs : List (EvalInput F)}

theorem slotRun_of_runStage (hdiff : stage.ownConditions.Nodup) (hkeys : stage.KeysIsolate)
    {out : List (List (Option Bool × Bool)) × EvalState F}
    (h : runStage stage inputs state = .ok out) (hc : stage.ownConditions[j]? = some c) :
    ∃ vs, slotRun c inputs (state.conds.get? (condKey c)) =
        .ok (vs, out.2.conds.get? (condKey c)) ∧ out.1.map (·[j]?) = vs.map some := by
  induction inputs generalizing state out with
  | nil =>
    obtain rfl := Except.ok.inj h
    exact ⟨[], rfl, rfl⟩
  | cons input inputs ih =>
    simp only [runStage, bind_eq_ok] at h
    obtain ⟨own, hown, res, hres, rest, hrest, h⟩ := h
    obtain rfl := Except.ok.inj h
    obtain ⟨r, hr, hstep⟩ :=
      exists_getElem?_of_forall₂ (slotSteps_of_evaluateStage hdiff hkeys hown hres) hc
    obtain ⟨vs, hvs, hmap⟩ := ih hrest
    refine ⟨r.verdict :: vs, ?_, ?_⟩
    · simp [slotRun, hstep, hvs]
    · simp [hr, hmap]

theorem runStage_only (stage : Stage F) {out : List (Option Bool × Bool) × Option (CondState F)}
    (h : slotRun cond inputs (state.conds.get? (condKey cond)) = .ok out) :
    ∃ alone, runStage (stage.only cond) inputs state = .ok alone ∧
      alone.1 = out.1.map (fun v => [v]) ∧ alone.2.conds.get? (condKey cond) = out.2 := by
  induction inputs generalizing state out with
  | nil =>
    obtain rfl := Except.ok.inj h
    exact ⟨([], state), rfl, rfl, rfl⟩
  | cons input inputs ih =>
    simp only [slotRun, bind_eq_ok] at h
    obtain ⟨step, hstep, rest, hrest, h⟩ := h
    obtain rfl := Except.ok.inj h
    obtain ⟨r, hr, hverdict, hslot⟩ := evaluateCondition_of_slotStep hstep
    rw [← hslot] at hrest
    obtain ⟨alone, halone, hvs, hlast⟩ := ih hrest
    refine ⟨([r.verdict] :: alone.1, alone.2), ?_, ?_, hlast⟩
    · have hgroups : runGroups input (stage.only cond).groupPairs state =
          .ok ⟨[r], [combineAll [r.matched]], r.state⟩ := by
        simp [Stage.groupPairs, Stage.only, runGroups, evaluateConditions, hr, GroupKind.combine]
      have hstage : ∃ res, evaluateStage (stage.only cond) input state = .ok res ∧ res.state = r.state := by
        rw [evaluateStage, hgroups]
        exact ⟨_, rfl, rfl⟩
      obtain ⟨res, hres, hstate⟩ := hstage
      rw [← hstate] at halone
      simp only [runStage, hgroups, hres, halone, ok_bind, map_cons, map_nil]
    · simp [hverdict, hvs]

/-- Isolation over every run: when no other condition of the stage has its key,
a condition gets inside the stage exactly the verdicts, and leaves exactly the
sub-state, that it gets and leaves alone. -/
theorem condition_isolation {stage : Stage F} (hdiff : stage.ownConditions.Nodup)
    (hkeys : stage.KeysIsolate) {inputs : List (EvalInput F)} {state : EvalState F}
    {out : List (List (Option Bool × Bool)) × EvalState F}
    (hrun : runStage stage inputs state = .ok out) {j : Nat} {c : Condition F}
    (hc : stage.ownConditions[j]? = some c) :
    ∃ alone, runStage (stage.only c) inputs state = .ok alone ∧ alone.1.map (·[0]?) = out.1.map (·[j]?) ∧
      alone.2.conds.get? (condKey c) = out.2.conds.get? (condKey c) := by
  obtain ⟨vs, hvs, hmap⟩ := slotRun_of_runStage hdiff hkeys hrun hc
  obtain ⟨alone, halone, hverdicts, hslot⟩ := runStage_only stage hvs
  refine ⟨alone, halone, ?_, hslot⟩
  rw [hverdicts, hmap, List.map_map]
  rfl

/-! ## conditions that share a key -/

/-- `ltp within [100, hi]`: the key leaves out the upper bound. -/
def rangeTo (hi : ℚ) : Condition ℚ where
  left := { kind := .field, name := some "ltp" }
  op := .known .within
  right := { kind := .value, value := some 100, params := [("hi", .float hi)] }

/-- A stage that holds while the price is in every one of the ranges. -/
def rangeStage (conditions : List (Condition ℚ)) : Stage ℚ where
  id := "ranges"
  type := .known .signal
  clock := .known .ltp
  timeframe := none
  conditions

def tick (ts : Int) (price : ℚ) : EvalInput ℚ where
  obs := { ts, epochId := "e1", ltp := some price }

/-- `ltp crosses_above level`. -/
def crossing (level : ℚ) : Condition ℚ where
  left := { kind := .field, name := some "ltp" }
  op := .known .crossesAbove
  right := { kind := .value, value := some level }

/-- A range and a crossing of the same price have different keys, and the
crossing fires as if it were alone. -/
theorem range_and_crossing_isolated :
    let stage := rangeStage [rangeTo 110, crossing 105]
    let ticks := [tick 0 90, tick 1 106, tick 2 107]
    ∃ out alone, runStage stage ticks {} = .ok out ∧
      runStage (stage.only (crossing 105)) ticks {} = .ok alone ∧ alone.1.map (·[0]?) = out.1.map (·[1]?) ∧
      out.1.map (·[1]?) = [some (some false, false), some (some true, true), some (some true, false)] := by
  intro stage ticks
  have hkey : condKey (rangeTo 110) ≠ condKey (crossing 105) := by decide +kernel
  have hne : rangeTo 110 ≠ crossing 105 := fun h => hkey (congrArg condKey h)
  have hdiff : stage.ownConditions.Nodup := by simp [stage, rangeStage, Stage.ownConditions, hne]
  have hkeys : stage.KeysIsolate := by
    intro c hc d hd hcd
    simp only [stage, rangeStage, Stage.ownConditions, Stage.sequenceConditions, List.append_nil,
      List.mem_cons, List.not_mem_nil, or_false] at hc hd
    rcases hc with rfl | rfl <;> rcases hd with rfl | rfl
    · rfl
    · exact absurd hcd hkey
    · exact absurd hcd.symm hkey
    · rfl
  have hout : ((runStage stage ticks {}).map Prod.fst).toOption = some
      [[(some false, false), (some false, false)], [(some true, true), (some true, true)],
        [(some true, false), (some true, false)]] := by decide +kernel
  cases h : runStage stage ticks {} with
  | error e => simp [h, Except.map, Except.toOption] at hout
  | ok out =>
    simp only [h, Except.map, Except.toOption, Option.some.injEq] at hout
    obtain ⟨alone, halone, heq, _⟩ := condition_isolation hdiff hkeys h (j := 1) rfl
    exact ⟨out, alone, rfl, halone, heq, by rw [hout]; rfl⟩

/-- Two ranges with the same lower bound share their sub-state: the wider one
fires again at the third tick, though the price never left it. -/
theorem ranges_share_state :
    let stage := rangeStage [rangeTo 110, rangeTo 120]
    let ticks := [tick 0 90, tick 1 115, tick 2 116]
    stage.ownConditions.Nodup ∧ stage.ownConditions[1]? = some (rangeTo 120) ∧
      ∃ out alone, runStage stage ticks {} = .ok out ∧
        runStage (stage.only (rangeTo 120)) ticks {} = .ok alone ∧
        alone.1.map (·[0]?) ≠ out.1.map (·[1]?) := by
  intro stage ticks
  have hne : rangeTo 110 ≠ rangeTo 120 := by
    intro h
    have hparams := congrArg (fun c => c.right.params) h
    simp [rangeTo] at hparams
  refine ⟨by simp [stage, rangeStage, Stage.ownConditions, hne], rfl, ?_⟩
  have hout : ((runStage stage ticks {}).map Prod.fst).toOption = some
      [[(some false, false), (some false, false)], [(some false, false), (some true, true)],
        [(some false, false), (some true, true)]] := by decide +kernel
  have halone : ((runStage (stage.only (rangeTo 120)) ticks {}).map Prod.fst).toOption = some
      [[(some false, false)], [(some true, true)], [(some true, false)]] := by decide +kernel
  cases h : runStage stage ticks {} with
  | error e => simp [h, Except.map, Except.toOption] at hout
  | ok out =>
    cases h' : runStage (stage.only (rangeTo 120)) ticks {} with
    | error e => simp [h', Except.map, Except.toOption] at halone
    | ok alone =>
      simp only [h, h', Except.map, Except.toOption, Option.some.injEq] at hout halone
      exact ⟨out, alone, rfl, rfl, by rw [hout, halone]; decide⟩

end KiteAlgo
