import KiteAlgo.Lib.Run
import KiteAlgo.Predicates.Isolation

/-!
# KiteAlgo.Predicates.Transitions

Runs of one condition: calls of `evaluate_condition`, each on the state the last one
left.  What an operator stores belongs to the epoch of the last known observation, so a
condition fires only on a transition it has seen.

* `evaluateCondition_cases` — a call leaves the state unchanged or commits an outcome;
* `fired_of_cleared` — on a cleared sub-state no operator fires;
* `atEach_conditionSteps` — the induction over a run: what the sub-state says about the
  known observations so far, kept by every known call.
-/

namespace KiteAlgo

open List Machine
variable {F : Type} [PyFloat F]

/-! ## runs of one condition -/

/-- A call of `evaluate_condition`: the state it found, what it was given and what it
reported. -/
structure ConditionStep (F : Type) where
  before : EvalState F
  input : EvalInput F
  result : PredicateResult F

namespace ConditionStep

def known (step : ConditionStep F) : Bool := step.result.matched.isSome

def epoch (step : ConditionStep F) : String := step.input.obs.epochId

def value (step : ConditionStep F) (cond : Condition F) : Option F :=
  (resolveOperand step.input cond.left).toOption.join

def level (step : ConditionStep F) (cond : Condition F) : Option F :=
  (resolveOperand step.input cond.right).toOption.join

end ConditionStep

def conditionCall (cond : Condition F) (input : EvalInput F) (state : EvalState F) :
    Except PyErr (ConditionStep F × EvalState F) := do
  let result ← evaluateCondition cond input state
  .ok (⟨state, input, result⟩, result.state)

/-- The calls of a run, each on the state the last one left. -/
def conditionSteps (cond : Condition F) (inputs : List (EvalInput F)) (state : EvalState F) :
    List (ConditionStep F) :=
  (Machine.ofReturning (conditionCall cond)).trace inputs state

def conditionState (cond : Condition F) (inputs : List (EvalInput F)) (state : EvalState F) :
    EvalState F :=
  (Machine.ofReturning (conditionCall cond)).run inputs state

/-- The steps at which the condition evaluated to known. -/
def knownSteps (past : List (ConditionStep F)) : List (ConditionStep F) :=
  past.filter ConditionStep.known

def lastKnown (past : List (ConditionStep F)) : Option (ConditionStep F) :=
  (knownSteps past).getLast?

variable {past : List (ConditionStep F)} {step : ConditionStep F}

omit [PyFloat F] in
theorem knownSteps_concat_of_known (h : step.known) :
    knownSteps (past ++ [step]) = knownSteps past ++ [step] := by
  simp [knownSteps, h]

omit [PyFloat F] in
theorem knownSteps_concat_of_unknown (h : step.known = false) :
    knownSteps (past ++ [step]) = knownSteps past := by
  simp [knownSteps, h]

omit [PyFloat F] in
theorem lastKnown_concat_of_known (h : step.known) :
    lastKnown (past ++ [step]) = some step := by
  simp [lastKnown, knownSteps_concat_of_known h]

omit [PyFloat F] in
theorem lastKnown_concat_of_unknown (h : step.known = false) :
    lastKnown (past ++ [step]) = lastKnown past := by
  rw [lastKnown, lastKnown, knownSteps_concat_of_unknown h]

/-! ## what one call does -/

/-- A known call: the operator's outcome, committed under the condition's key. -/
structure KnownCall (cond : Condition F) (step : ConditionStep F) where
  op : Op
  cur : F
  outcome : OpOutcome F
  op_eq : cond.op = .known op
  value_eq : resolveOperand step.input cond.left = .ok (some cur)
  outcome_eq : evaluateOp op step.input cond cur
    (openSlot (step.before.conds.get? (condKey cond)) step.input.obs) = .ok (some outcome)
  matched_eq : step.result.matched = some outcome.matched
  fired_eq : step.result.fired = outcome.fired
  slot_eq : step.result.state.conds.get? (condKey cond) =
    some { outcome.sub with epochId := some step.epoch }

/-- An unknown call: nothing fires, and the whole state stays. -/
structure UnknownCall (cond : Condition F) (step : ConditionStep F) : Prop where
  outcome_eq : conditionOutcome cond step.input
    (openSlot (step.before.conds.get? (condKey cond)) step.input.obs) = .ok none
  matched_eq : step.result.matched = none
  fired_eq : step.result.fired = false
  state_eq : step.result.state = step.before

theorem evaluateCondition_cases {cond : Condition F}
    (h : evaluateCondition cond step.input step.before = .ok step.result) :
    Nonempty (KnownCall cond step) ∨ UnknownCall cond step := by
  simp only [evaluateCondition, bind_eq_ok] at h
  obtain ⟨outcome, hout, h⟩ := h
  cases outcome with
  | none =>
    have hresult := Except.ok.inj h
    exact .inr ⟨hout, by rw [← hresult], by rw [← hresult], by rw [← hresult]⟩
  | some o =>
    have hresult := Except.ok.inj h
    simp only [conditionOutcome, bind_eq_ok] at hout
    obtain ⟨left, hleft, hout⟩ := hout
    cases left with
    | none => simp at hout
    | some cur =>
      cases hop : cond.op with
      | known op =>
        rw [hop] at hout
        refine .inl ⟨⟨op, cur, o, hop, hleft, hout, ?_, ?_, ?_⟩⟩
        · rw [← hresult]
        · rw [← hresult]
        · rw [← hresult]
          simp [commitSubstate, ConditionStep.epoch]
      | _ => simp [hop] at hout

theorem KnownCall.known_eq {cond : Condition F} (call : KnownCall cond step) :
    step.known := by
  simp [ConditionStep.known, call.matched_eq]

theorem UnknownCall.known_eq {cond : Condition F} (call : UnknownCall cond step) :
    step.known = false := by
  simp [ConditionStep.known, call.matched_eq]

theorem KnownCall.value {cond : Condition F} (call : KnownCall cond step) :
    step.value cond = some call.cur := by
  rw [ConditionStep.value, call.value_eq]
  rfl

variable {input : EvalInput F} {o : OpOutcome F}

theorem withRight_some {cond : Condition F} {evaluate : F → Except PyErr (Option (OpOutcome F))}
    (h : withRight input cond evaluate = .ok (some o)) :
    ∃ level, resolveOperand input cond.right = .ok (some level) ∧ evaluate level = .ok (some o) := by
  simp only [withRight, bind_eq_ok] at h
  obtain ⟨level, hlevel, h⟩ := h
  cases level with
  | none => simp at h
  | some level => exact ⟨level, hlevel, h⟩

theorem resolve_iff_toOption {operand : Operand F} {v : F} :
    (resolveOperand input operand).toOption.join = some v ↔
      resolveOperand input operand = .ok (some v) := by
  cases resolveOperand input operand with
  | error e => simp [Except.toOption]
  | ok r => simp [Except.toOption]

theorem level_of_resolve {cond : Condition F} {level : F}
    (h : resolveOperand step.input cond.right = .ok (some level)) : step.level cond = some level := by
  rw [ConditionStep.level, h]
  rfl

theorem evaluateLevelOp_fired (op : Op) (cond : Condition F) (cur level : F) (sub : CondState F) :
    (evaluateLevelOp op cond cur level sub).fired = false := by
  unfold evaluateLevelOp
  cases cond.hysteresis <;> rfl

theorem fired_of_cleared {op : Op} {cond : Condition F} {cur : F} {e : Option String}
    (h : evaluateOp op input cond cur { epochId := e } = .ok (some o)) : o.fired = false := by
  cases op with
  | gt | gte | lt | lte =>
    obtain ⟨level, -, h⟩ := withRight_some h
    obtain rfl := Option.some.inj (Except.ok.inj h)
    exact evaluateLevelOp_fired _ cond cur level _
  | crossesAbove | crossesBelow | breaksPrevHigh | breaksPrevLow =>
    obtain ⟨level, -, h⟩ := withRight_some h
    obtain rfl := Option.some.inj (Except.ok.inj h)
    rfl
  | within =>
    simp only [evaluateOp, evaluateWithin] at h
    split at h
    · simp only [bind_eq_ok] at h
      obtain ⟨matched, -, h⟩ := h
      obtain rfl := Option.some.inj (Except.ok.inj h)
      rfl
    · simp at h
  | risesPct | fallsPct =>
    obtain ⟨level, -, h⟩ := withRight_some h
    simp only [evaluatePctOp, baselineFor] at h
    by_cases hzero : PyFloat.eqQ cur 0
    · simp [hzero] at h
    · simp only [hzero, Bool.false_eq_true, if_false] at h
      obtain rfl := Option.some.inj (Except.ok.inj h)
      rfl

section Run

variable {cond : Condition F}

/-- The sub-state a call opens: cleared, unless the last known observation was of the
same epoch; then it is the one that observation left. -/
inductive Opened (K : List (ConditionStep F) → CondState F → Prop)
    (known : List (ConditionStep F)) (step : ConditionStep F) : CondState F → Prop
  | cleared (e : Option String)
      (other : ∀ last, known.getLast? = some last → last.epoch ≠ step.epoch) :
      Opened K known step { epochId := e }
  | same {last : ConditionStep F} {sub : CondState F} (hlast : known.getLast? = some last)
      (epoch : last.epoch = step.epoch) (kept : K known sub) : Opened K known step sub

/-- The stored sub-state is that of the last known observation, and `K` holds of it. -/
structure Tracks (cond : Condition F) (K : List (ConditionStep F) → CondState F → Prop)
    (past : List (ConditionStep F)) (state : EvalState F) : Prop where
  fresh : lastKnown past = none → state.conds.get? (condKey cond) = none
  stored : ∀ last, lastKnown past = some last → ∃ sub,
    state.conds.get? (condKey cond) = some sub ∧ sub.epochId = some last.epoch ∧ K (knownSteps past) sub

variable {K : List (ConditionStep F) → CondState F → Prop}

theorem Tracks.opened {past : List (ConditionStep F)} {step : ConditionStep F}
    (h : Tracks cond K past step.before) :
    Opened K (knownSteps past) step
      (openSlot (step.before.conds.get? (condKey cond)) step.input.obs) := by
  cases hlast : lastKnown past with
  | none =>
    rw [h.fresh hlast]
    refine .cleared none fun last hlast' => ?_
    rw [lastKnown] at hlast
    simp [hlast] at hlast'
  | some last =>
    obtain ⟨sub, hslot, hepoch, hK⟩ := h.stored last hlast
    rw [lastKnown] at hlast
    rw [hslot]
    by_cases hsame : last.epoch = step.epoch
    · have hopen : openSlot (some sub) step.input.obs = sub := by
        simp only [openSlot, Option.getD_some, hepoch]
        exact if_pos hsame
      rw [hopen]
      exact .same hlast hsame hK
    · have hopen : openSlot (some sub) step.input.obs = { epochId := some last.epoch } := by
        simp only [openSlot, Option.getD_some, hepoch]
        exact if_neg hsame
      rw [hopen]
      refine .cleared _ fun last' hlast' => ?_
      rw [hlast] at hlast'
      obtain rfl := Option.some.inj hlast'
      exact hsame

theorem atEach_conditionSteps {P : List (ConditionStep F) → ConditionStep F → Prop}
    (hknown : ∀ {past step} (call : KnownCall cond step), Opened K (knownSteps past) step
          (openSlot (step.before.conds.get? (condKey cond)) step.input.obs) →
        P past step ∧ K (knownSteps past ++ [step]) { call.outcome.sub with epochId := some step.epoch })
    (hunknown : ∀ {past step}, UnknownCall cond step → P past step) {state : EvalState F}
    (hfresh : state.conds.get? (condKey cond) = none) (inputs : List (EvalInput F)) :
    AtEach P (conditionSteps cond inputs state) := by
  refine atEach_ofReturning (I := Tracks cond K) ?_
    ⟨fun _ => hfresh, by simp [lastKnown, knownSteps]⟩ inputs
  intro past input state step state' hI hcall
  simp only [conditionCall, bind_eq_ok] at hcall
  obtain ⟨result, hresult, hcall⟩ := hcall
  obtain ⟨rfl, rfl⟩ := Prod.mk.inj (Except.ok.inj hcall)
  have hcases : Nonempty (KnownCall cond ⟨state, input, result⟩) ∨
      UnknownCall cond ⟨state, input, result⟩ := evaluateCondition_cases hresult
  rcases hcases with ⟨⟨call⟩⟩ | call
  · have hopened : Opened K (knownSteps past) ⟨state, input, result⟩ _ := Tracks.opened hI
    obtain ⟨hP, hK⟩ := hknown call hopened
    refine ⟨hP, fun hnone => ?_, fun last hlast => ?_⟩
    · rw [lastKnown_concat_of_known call.known_eq] at hnone
      simp at hnone
    · rw [lastKnown_concat_of_known call.known_eq] at hlast
      obtain rfl := Option.some.inj hlast
      rw [knownSteps_concat_of_known call.known_eq]
      exact ⟨_, call.slot_eq, rfl, hK⟩
  · have hsame : result.state = state := call.state_eq
    refine ⟨hunknown call, fun hnone => ?_, fun last hlast => ?_⟩
    · rw [lastKnown_concat_of_unknown call.known_eq] at hnone
      rw [hsame]
      exact hI.fresh hnone
    · rw [lastKnown_concat_of_unknown call.known_eq] at hlast
      rw [hsame, knownSteps_concat_of_unknown call.known_eq]
      exact hI.stored last hlast

end Run

/-! ## genuine transitions -/

def crossOp (isAbove : Bool) : Op := if isAbove then .crossesAbove else .crossesBelow

def breakOp (isHigh : Bool) : Op := if isHigh then .breaksPrevHigh else .breaksPrevLow

/-- From strictly one side of the level to the level or beyond. -/
def goesAcross (isAbove : Bool) (prev cur level : F) : Bool :=
  if isAbove then PyFloat.lt prev level && PyFloat.le level cur
  else PyFloat.lt level prev && PyFloat.le cur level

/-- The value was known and strictly on the other side of its level. -/
def ConditionStep.IsBack (cond : Condition F) (isHigh : Bool) (step : ConditionStep F) : Prop :=
  step.known = true ∧ ∃ cur level, step.value cond = some cur ∧ step.level cond = some level ∧
    (if isHigh then PyFloat.lt cur level else PyFloat.lt level cur) = true

/-- What a step of a run may report, given the steps before it. -/
structure GenuineStep (cond : Condition F) (past : List (ConditionStep F))
    (step : ConditionStep F) : Prop where
  /-- A crossing fires exactly when the last known observation was of the same epoch and on
  the other side of the present level. -/
  crosses : ∀ isAbove, cond.op = .known (crossOp isAbove) →
    (step.result.fired = true ↔ ∃ last, lastKnown past = some last ∧ last.epoch = step.epoch ∧
      ∃ prev cur level, last.value cond = some prev ∧ step.value cond = some cur ∧
        step.level cond = some level ∧ goesAcross isAbove prev cur level = true)
  /-- Nothing fires on the first known observation of an epoch. -/
  initialized : step.result.fired = true → ∃ last, lastKnown past = some last ∧ last.epoch = step.epoch
  /-- A break fires again only after the value was back, unless the epoch changed. -/
  returns : ∀ isHigh, cond.op = .known (breakOp isHigh) → ∀ before fire between,
    past = before ++ fire :: between → fire.result.fired = true → step.result.fired = true →
      fire.epoch = step.epoch → (∀ s ∈ between, s.known = true → s.epoch = step.epoch) →
        ∃ s ∈ between, s.IsBack cond isHigh
  /-- An unknown result leaves the whole state unchanged. -/
  unknown : step.known = false → step.result.state = step.before

section Genuine

variable {cond : Condition F}

variable {isAbove : Bool} {step : ConditionStep F}

theorem KnownCall.cross (call : KnownCall cond step)
    (hop : cond.op = .known (crossOp isAbove)) : ∃ level, step.level cond = some level ∧
      call.outcome = evaluateCrossOp isAbove cond call.cur level
        (openSlot (step.before.conds.get? (condKey cond)) step.input.obs) := by
  have heval := call.outcome_eq
  have hsame : call.op = crossOp isAbove := OpenName.known.inj (call.op_eq.symm.trans hop)
  rw [hsame] at heval
  cases isAbove with
  | true =>
    obtain ⟨level, hlevel, h⟩ := withRight_some heval
    exact ⟨level, level_of_resolve hlevel, (Option.some.inj (Except.ok.inj h)).symm⟩
  | false =>
    obtain ⟨level, hlevel, h⟩ := withRight_some heval
    exact ⟨level, level_of_resolve hlevel, (Option.some.inj (Except.ok.inj h)).symm⟩

variable {cur level : F}

theorem UnknownCall.cross (call : UnknownCall cond step) (hop : cond.op = .known (crossOp isAbove))
    (hvalue : step.value cond = some cur) (hlevel : step.level cond = some level) : False := by
  have hout := call.outcome_eq
  have hleft := resolve_iff_toOption.mp hvalue
  have hright := resolve_iff_toOption.mp hlevel
  rw [conditionOutcome, hleft, hop] at hout
  cases isAbove with
  | true =>
    simp only [ok_bind, crossOp, if_true, evaluateOp, withRight, hright] at hout
    simp at hout
  | false =>
    simp only [ok_bind, crossOp, evaluateOp, withRight, hright] at hout
    simp at hout

variable {isHigh : Bool}

theorem KnownCall.break_ (call : KnownCall cond step)
    (hop : cond.op = .known (breakOp isHigh)) : ∃ level, step.level cond = some level ∧
      call.outcome = evaluateBreakOp isHigh cond call.cur level
        (openSlot (step.before.conds.get? (condKey cond)) step.input.obs) := by
  have heval := call.outcome_eq
  have hsame : call.op = breakOp isHigh := OpenName.known.inj (call.op_eq.symm.trans hop)
  rw [hsame] at heval
  cases isHigh with
  | true =>
    obtain ⟨level, hlevel, h⟩ := withRight_some heval
    exact ⟨level, level_of_resolve hlevel, (Option.some.inj (Except.ok.inj h)).symm⟩
  | false =>
    obtain ⟨level, hlevel, h⟩ := withRight_some heval
    exact ⟨level, level_of_resolve hlevel, (Option.some.inj (Except.ok.inj h)).symm⟩

variable {state : EvalState F}

theorem initialized_of_run (hfresh : state.conds.get? (condKey cond) = none)
    (inputs : List (EvalInput F)) :
    AtEach (fun past step => step.result.fired = true →
      ∃ last, lastKnown past = some last ∧ last.epoch = step.epoch)
      (conditionSteps cond inputs state) := by
  refine atEach_conditionSteps (K := fun _ _ => True) ?_ ?_ hfresh inputs
  · intro past step call hopened
    refine ⟨fun hfired => ?_, trivial⟩
    have heval := call.outcome_eq
    generalize openSlot (step.before.conds.get? (condKey cond)) step.input.obs = sub at hopened heval
    cases hopened with
    | cleared e =>
      rw [call.fired_eq, fired_of_cleared heval] at hfired
      simp at hfired
    | same hlast epoch => exact ⟨_, hlast, epoch⟩
  · intro past step call hfired
    rw [call.fired_eq] at hfired
    simp at hfired

theorem crosses_of_run (hop : cond.op = .known (crossOp isAbove))
    (hfresh : state.conds.get? (condKey cond) = none) (inputs : List (EvalInput F)) :
    AtEach (fun past step => step.result.fired = true ↔
      ∃ last, lastKnown past = some last ∧ last.epoch = step.epoch ∧
        ∃ prev cur level, last.value cond = some prev ∧ step.value cond = some cur ∧
          step.level cond = some level ∧ goesAcross isAbove prev cur level)
      (conditionSteps cond inputs state) := by
  refine atEach_conditionSteps
    (K := fun known sub => ∀ last, known.getLast? = some last → sub.prev = last.value cond)
    ?_ ?_ hfresh inputs
  · intro past step call hopened
    obtain ⟨level, hlevel, hout⟩ := call.cross hop
    have hfired := call.fired_eq
    rw [hout] at hfired
    refine ⟨?_, fun last hlast => ?_⟩
    · generalize openSlot (step.before.conds.get? (condKey cond)) step.input.obs = sub
        at hopened hfired
      cases hopened with
      | cleared e other =>
        rw [hfired]
        refine ⟨fun h => by simp [evaluateCrossOp] at h, fun ⟨last, hlast, hepoch, _⟩ => ?_⟩
        exact absurd hepoch (other last hlast)
      | @same last sub hlast epoch kept =>
        have hprev := kept last hlast
        rw [hfired, evaluateCrossOp, hprev]
        constructor
        · intro h
          refine ⟨last, hlast, epoch, ?_⟩
          cases hvalue : last.value cond with
          | none => simp [hvalue] at h
          | some prev =>
            refine ⟨prev, call.cur, level, rfl, call.value, hlevel, ?_⟩
            cases isAbove <;> simpa [hvalue, goesAcross] using h
        · rintro ⟨last', hlast', -, prev, cur, level', hvalue, hcur, hlevel', hacross⟩
          obtain rfl : last = last' := Option.some.inj (hlast.symm.trans hlast')
          obtain rfl : call.cur = cur := Option.some.inj (call.value.symm.trans hcur)
          obtain rfl : level = level' := Option.some.inj (hlevel.symm.trans hlevel')
          cases isAbove <;> simpa [hvalue, goesAcross] using hacross
    · rw [getLast?_concat] at hlast
      obtain rfl := Option.some.inj hlast
      rw [call.value, hout]
      rfl
  · intro past step call
    refine ⟨fun h => by simp [call.fired_eq] at h, ?_⟩
    rintro ⟨last, -, -, prev, cur, level, -, hcur, hlevel, -⟩
    exact (call.cross hop hcur hlevel).elim

omit [PyFloat F] in
theorem last_epoch_eq {known before between : List (ConditionStep F)} {fire : ConditionStep F}
    (h : known = before ++ fire :: between) (hepoch : ∀ s ∈ between, s.epoch = fire.epoch) :
    ∃ last, known.getLast? = some last ∧ last.epoch = fire.epoch := by
  cases between using reverseRecOn with
  | nil => exact ⟨fire, by simp [h], rfl⟩
  | append_singleton between last =>
    have hlast : known = (before ++ fire :: between) ++ [last] := by simp [h]
    exact ⟨last, by rw [hlast, getLast?_concat], hepoch last (by simp)⟩

/-- After a fire, with every value since of its epoch and none back. -/
def AwaitsReturn (cond : Condition F) (isHigh : Bool) (fire : ConditionStep F)
    (between : List (ConditionStep F)) : Prop :=
  fire.result.fired = true ∧ ∀ s ∈ between, s.epoch = fire.epoch ∧ ¬ s.IsBack cond isHigh

def CondState.broken (isHigh : Bool) (sub : CondState F) : Bool :=
  if isHigh then sub.prevDayHighBroken else sub.prevDayLowBroken

theorem broken_evaluateBreakOp (isHigh : Bool) (cond : Condition F) (cur level : F)
    (sub : CondState F) (e : Option String) :
    ({ (evaluateBreakOp isHigh cond cur level sub).sub with epochId := e } : CondState F).broken isHigh =
      if (evaluateBreakOp isHigh cond cur level sub).matched then true
      else if (if isHigh then PyFloat.lt cur level else PyFloat.lt level cur) then false
      else sub.broken isHigh := by
  cases isHigh <;> rfl

theorem fired_evaluateBreakOp {cond : Condition F} {sub : CondState F}
    (h : (evaluateBreakOp isHigh cond cur level sub).fired) :
    (evaluateBreakOp isHigh cond cur level sub).matched ∧ sub.broken isHigh = false := by
  cases isHigh <;> simp_all [evaluateBreakOp, CondState.broken]

theorem returns_of_run (hop : cond.op = .known (breakOp isHigh))
    (hfresh : state.conds.get? (condKey cond) = none) (inputs : List (EvalInput F)) :
    AtEach (fun past step => step.result.fired = true →
      ¬ Since (fun fire between => AwaitsReturn cond isHigh fire between ∧ fire.epoch = step.epoch)
        (knownSteps past)) (conditionSteps cond inputs state) := by
  refine atEach_conditionSteps
    (K := fun known sub => Since (AwaitsReturn cond isHigh) known → sub.broken isHigh)
    ?_ ?_ hfresh inputs
  · intro past step call hopened
    obtain ⟨level, hlevel, hout⟩ := call.break_ hop
    have hfired := call.fired_eq
    rw [hout] at hfired ⊢
    generalize openSlot (step.before.conds.get? (condKey cond)) step.input.obs = sub
      at hopened hfired
    refine ⟨fun hnow hsince => ?_, fun hsince => ?_⟩
    · rw [hfired] at hnow
      obtain ⟨-, hunbroken⟩ := fired_evaluateBreakOp hnow
      cases hopened with
      | cleared e => cases isHigh <;> simp [evaluateBreakOp] at hnow
      | same hlast epoch kept =>
        have hbroken := kept (hsince.mono fun _ _ h => h.1)
        rw [hunbroken] at hbroken
        simp at hbroken
    · rw [broken_evaluateBreakOp]
      rcases since_concat.mp hsince with ⟨hnow, -⟩ | ⟨before, fire, between, hknown, hnow, hall⟩
      · rw [hfired] at hnow
        rw [if_pos (fired_evaluateBreakOp hnow).1]
      · obtain ⟨hepoch, hback⟩ := hall step (by simp)
        have hbetween : ∀ s ∈ between, s.epoch = fire.epoch ∧ ¬ s.IsBack cond isHigh :=
          fun s hs => hall s (by simp [hs])
        have hahead : (if isHigh then PyFloat.lt call.cur level else PyFloat.lt level call.cur) = false := by
          rw [← Bool.not_eq_true]
          exact fun h => hback ⟨call.known_eq, call.cur, level, call.value, hlevel, h⟩
        cases hopened with
        | cleared e other =>
          obtain ⟨last, hlast, hsame⟩ := last_epoch_eq hknown fun s hs => (hbetween s hs).1
          exact absurd (hsame.trans hepoch.symm) (other last hlast)
        | same hlast epoch kept =>
          have hbroken := kept ⟨before, fire, between, hknown, hnow, hbetween⟩
          rw [hahead, hbroken]
          simp
  · intro past step call hfired
    rw [call.fired_eq] at hfired
    simp at hfired

theorem unknown_of_run (hfresh : state.conds.get? (condKey cond) = none)
    (inputs : List (EvalInput F)) :
    AtEach (fun _ step => step.known = false → step.result.state = step.before ∧ step.result.fired = false)
      (conditionSteps cond inputs state) := by
  refine atEach_conditionSteps (K := fun _ _ => True) ?_ ?_ hfresh inputs
  · intro past step call hopened
    refine ⟨fun hunknown => ?_, trivial⟩
    rw [call.known_eq] at hunknown
    simp at hunknown
  · intro past step call _
    exact ⟨call.state_eq, call.fired_eq⟩

theorem conditionSteps_without_unknown {first rest : List (EvalInput F)} {input : EvalInput F}
    {result : PredicateResult F}
    (h : evaluateCondition cond input (conditionState cond first state) = .ok result)
    (hunknown : result.matched = none) :
    (conditionSteps cond (first ++ input :: rest) state).eraseIdx
        (conditionSteps cond first state).length =
      conditionSteps cond (first ++ rest) state := by
  have hsame : result.state = conditionState cond first state := by
    have hcases : Nonempty (KnownCall cond ⟨_, input, result⟩) ∨
        UnknownCall cond ⟨_, input, result⟩ := evaluateCondition_cases h
    rcases hcases with ⟨⟨call⟩⟩ | call
    · have hmatched := call.matched_eq
      rw [hunknown] at hmatched
      simp at hmatched
    · exact call.state_eq
  have hcall : conditionCall cond input (conditionState cond first state) =
      .ok (⟨conditionState cond first state, input, result⟩, conditionState cond first state) := by
    rw [conditionCall, h, ok_bind, hsame]
  have hafter : conditionSteps cond (input :: rest) (conditionState cond first state) =
      ⟨conditionState cond first state, input, result⟩ ::
        conditionSteps cond rest (conditionState cond first state) := by
    simp only [conditionSteps, trace, ofReturning, hcall, singleton_append]
  have hsplit : ∀ more, conditionSteps cond (first ++ more) state = conditionSteps cond first state ++
        conditionSteps cond more (conditionState cond first state) :=
    fun more => trace_append _ first more state
  rw [hsplit, hsplit, hafter, eraseIdx_append_of_length_le (le_refl _), Nat.sub_self,
    eraseIdx_cons_zero]

/-- No transition is manufactured: every step of a run from a state without the condition's
sub-state is genuine. -/
theorem genuine_of_run (cond : Condition F) {state : EvalState F}
    (hfresh : state.conds.get? (condKey cond) = none) (inputs : List (EvalInput F)) :
    AtEach (GenuineStep cond) (conditionSteps cond inputs state) := by
  intro past step rest hsteps
  have hunknown := unknown_of_run hfresh inputs
  refine ⟨fun isAbove hop => ?_, ?_,
    fun isHigh hop before fire between hpast hfire hnow hsame hepochs => ?_, fun h => ?_⟩
  · exact crosses_of_run hop hfresh inputs past step rest hsteps
  · exact initialized_of_run hfresh inputs past step rest hsteps
  · have hreturns := returns_of_run hop hfresh inputs past step rest hsteps hnow
    have hknown : fire.known = true := by
      rw [← Bool.not_eq_false]
      intro h
      have hsplit : conditionSteps cond inputs state = before ++ fire :: (between ++ step :: rest) := by
        rw [hsteps, hpast]
        simp
      have hquiet := (hunknown before fire _ hsplit h).2
      rw [hquiet] at hfire
      simp at hfire
    by_contra hback
    refine hreturns ⟨knownSteps before, fire, knownSteps between, ?_, ⟨hfire, fun s hs => ?_⟩, hsame⟩
    · simp [hpast, knownSteps, hknown]
    · obtain ⟨hmem, hsknown⟩ := List.mem_filter.mp hs
      exact ⟨(hepochs s hmem hsknown).trans hsame.symm, fun h => hback ⟨s, hmem, h⟩⟩
  · exact (hunknown past step rest hsteps h).1

end Genuine

/-! ## an epoch that comes back -/

def epochTick (epochId : String) (price : ℚ) : EvalInput ℚ where
  obs := { ts := 0, epochId, ltp := some price }

/-- `ltp breaks_prev_high 100`. -/
def breaksHundred : Condition ℚ where
  left := { kind := .field, name := some "ltp" }
  op := .known .breaksPrevHigh
  right := { kind := .value, value := some 100 }

/-- What the conditions on two fires are about. -/
def ConditionStep.summary (cond : Condition ℚ) (step : ConditionStep ℚ) :
    Bool × String × Option ℚ × Option ℚ :=
  (step.result.fired, step.epoch, step.value cond, step.level cond)

/-- The guard of an epoch does not outlive it: when epoch A comes back after one tick of epoch B,
a break at 101 fires again although the price never went below the level. -/
theorem breaks_again_in_returning_epoch :
    ¬ ∀ (cond : Condition ℚ) (isHigh : Bool) (state : EvalState ℚ) (inputs : List (EvalInput ℚ)),
      cond.op = .known (breakOp isHigh) → state.conds.get? (condKey cond) = none →
        AtEach (fun past step => ∀ before fire between, past = before ++ fire :: between →
          fire.result.fired = true → step.result.fired = true → fire.epoch = step.epoch →
            ∃ s ∈ between, s.IsBack cond isHigh) (conditionSteps cond inputs state) := by
  intro h
  let ticks := [epochTick "A" 99, epochTick "A" 101, epochTick "B" 101, epochTick "A" 100,
    epochTick "A" 101]
  have hrun : (conditionSteps breaksHundred ticks {}).map (·.summary breaksHundred) =
      [(false, "A", some 99, some 100), (true, "A", some 101, some 100),
        (false, "B", some 101, some 100), (false, "A", some 100, some 100),
        (true, "A", some 101, some 100)] := by decide +kernel
  obtain ⟨s₁, rest₁, hsteps, -, hrun⟩ := List.map_eq_cons_iff.mp hrun
  obtain ⟨s₂, rest₂, rfl, h₂, hrun⟩ := List.map_eq_cons_iff.mp hrun
  obtain ⟨s₃, rest₃, rfl, h₃, hrun⟩ := List.map_eq_cons_iff.mp hrun
  obtain ⟨s₄, rest₄, rfl, h₄, hrun⟩ := List.map_eq_cons_iff.mp hrun
  obtain ⟨s₅, rest₅, rfl, h₅, -⟩ := List.map_eq_cons_iff.mp hrun
  simp only [ConditionStep.summary, Prod.mk.injEq] at h₂ h₃ h₄ h₅
  obtain ⟨s, hs, -, cur, level, hcur, hlevel, hback⟩ :=
    h breaksHundred true {} ticks rfl rfl [s₁, s₂, s₃, s₄] s₅ rest₅ hsteps [s₁] s₂ [s₃, s₄] rfl
      h₂.1 h₅.1 (h₂.2.1.trans h₅.2.1.symm)
  have hnot : ¬ PyFloat.lt cur level = true := by
    simp only [List.mem_cons, List.not_mem_nil, or_false] at hs
    rcases hs with rfl | rfl
    · obtain rfl := Option.some.inj (h₃.2.2.1.symm.trans hcur)
      obtain rfl := Option.some.inj (h₃.2.2.2.symm.trans hlevel)
      decide
    · obtain rfl := Option.some.inj (h₄.2.2.1.symm.trans hcur)
      obtain rfl := Option.some.inj (h₄.2.2.2.symm.trans hlevel)
      decide
  exact hnot hback

/-- Within one epoch the second break fires, because the price was back. -/
theorem breaks_again_after_return :
    AtEach (GenuineStep breaksHundred) (conditionSteps breaksHundred
        [epochTick "A" 99, epochTick "A" 101, epochTick "A" 98, epochTick "A" 102] {}) ∧
      (conditionSteps breaksHundred
        [epochTick "A" 99, epochTick "A" 101, epochTick "A" 98, epochTick "A" 102] {}).map
          (·.result.fired) = [false, true, false, true] :=
  ⟨genuine_of_run breaksHundred rfl _, by decide +kernel⟩

end KiteAlgo
