import KiteAlgo.Predicates.Transitions

/-!
# KiteAlgo.Predicates.Latch

A level condition with hysteresis holds from the observation that meets its level to the
first one that is not beyond its release level, within one epoch: the stored flag is a
latch over the whole run.
-/

namespace KiteAlgo

open List
variable {F : Type} [PyFloat F]

/-! ## the condition -/

/-- Strictly on the matched side of a release level. -/
def beyondRelease (op : Op) (release cur : F) : Bool :=
  if op = .gt ∨ op = .gte then PyFloat.lt release cur else PyFloat.lt cur release

/-- A level condition with a constant level, and a release level on its other side. -/
structure LatchCondition (cond : Condition F) where
  op : Op
  level : F
  release : F
  op_eq : cond.op = .known op
  isLevel : op ∈ [Op.gt, .gte, .lt, .lte]
  right_kind : cond.right.kind = .value
  right_value : cond.right.value = some level
  hysteresis_eq : cond.hysteresis = some ⟨release⟩
  consistent : (if op = .gt ∨ op = .gte then PyFloat.lt release level
    else PyFloat.lt level release) = true

variable {cond : Condition F}

def LatchCondition.Raw (c : LatchCondition cond) (step : ConditionStep F) : Prop :=
  ∃ cur, step.value cond = some cur ∧ compareLevel c.op cur c.level = true

def LatchCondition.Beyond (c : LatchCondition cond) (step : ConditionStep F) : Prop :=
  ∃ cur, step.value cond = some cur ∧ beyondRelease c.op c.release cur = true

/-- An observation that met the level, with every one since of its epoch and beyond the
release level. -/
def LatchCondition.Held (c : LatchCondition cond) (met : ConditionStep F)
    (since : List (ConditionStep F)) : Prop :=
  c.Raw met ∧ ∀ s ∈ since, s.epoch = met.epoch ∧ c.Beyond s

/-! ## the latch -/

theorem applyHysteresis_of_consistent {op : Op} {release level : F}
    (h : (if op = .gt ∨ op = .gte then PyFloat.lt release level else PyFloat.lt level release) = true)
    (cur : F) (matched : Bool) (sub : CondState F) :
    applyHysteresis op release cur level matched sub =
      (matched || (sub.hystMatched && beyondRelease op release cur),
        { sub with hystMatched := matched || (sub.hystMatched && beyondRelease op release cur) }) := by
  simp [applyHysteresis, beyondRelease, h]

variable {step : ConditionStep F}

theorem LatchCondition.call (c : LatchCondition cond) (call : KnownCall cond step) :
    let sub := openSlot (step.before.conds.get? (condKey cond)) step.input.obs
    let now := compareLevel c.op call.cur c.level ||
      (sub.hystMatched && beyondRelease c.op c.release call.cur)
    call.outcome.matched = now ∧ call.outcome.sub = { sub with hystMatched := now } := by
  intro sub now
  have hop : call.op = c.op := OpenName.known.inj (call.op_eq.symm.trans c.op_eq)
  have heval := call.outcome_eq
  have hright : resolveOperand step.input cond.right = .ok (some c.level) := by
    rw [resolveOperand, resolveNested]
    simp only [c.right_kind, c.right_value]
  have hlevel : evaluateOp c.op step.input cond call.cur sub =
      .ok (some (evaluateLevelOp c.op cond call.cur c.level sub)) := by
    have hmem := c.isLevel
    simp only [mem_cons, not_mem_nil, or_false] at hmem
    rcases hmem with hgt | hgte | hlt | hlte
    · rw [hgt, evaluateOp, withRight, hright]; rfl
    · rw [hgte, evaluateOp, withRight, hright]; rfl
    · rw [hlt, evaluateOp, withRight, hright]; rfl
    · rw [hlte, evaluateOp, withRight, hright]; rfl
  rw [hop, hlevel] at heval
  have houtcome := Option.some.inj (Except.ok.inj heval)
  rw [← houtcome, evaluateLevelOp, c.hysteresis_eq]
  simp only [applyHysteresis_of_consistent c.consistent]
  exact ⟨rfl, rfl⟩

theorem LatchCondition.held_concat (c : LatchCondition cond) {known : List (ConditionStep F)} :
    Since c.Held (known ++ [step]) ↔ c.Raw step ∨
      c.Beyond step ∧ Since (fun met since => c.Held met since ∧ step.epoch = met.epoch) known := by
  rw [since_concat]
  constructor
  · rintro (⟨hraw, -⟩ | ⟨before, met, since, hknown, hraw, hall⟩)
    · exact .inl hraw
    · obtain ⟨hepoch, hbeyond⟩ := hall step (by simp)
      exact .inr ⟨hbeyond, before, met, since, hknown, ⟨hraw, fun s hs => hall s (by simp [hs])⟩, hepoch⟩
  · rintro (hraw | ⟨hbeyond, before, met, since, hknown, ⟨hraw, hall⟩, hepoch⟩)
    · exact .inl ⟨hraw, by simp⟩
    · refine .inr ⟨before, met, since, hknown, hraw, fun s hs => ?_⟩
      rcases mem_append.mp hs with hold | hnew
      · exact hall s hold
      · rw [mem_singleton.mp hnew]
        exact ⟨hepoch, hbeyond⟩

/-- What a step of a run reports, given the steps before it. -/
structure LatchedStep (c : LatchCondition cond) (past : List (ConditionStep F))
    (step : ConditionStep F) : Prop where
  /-- It holds since an observation that met the level. -/
  latch : step.known = true → (step.result.matched = some true ↔ Since c.Held (knownSteps past ++ [step]))
  /-- In a new epoch only the comparison counts. -/
  cleared : step.known = true → (∀ last, lastKnown past = some last → last.epoch ≠ step.epoch) →
    (step.result.matched = some true ↔ c.Raw step)
  /-- An unknown step leaves the whole state unchanged. -/
  unknown : step.known = false → step.result.state = step.before

theorem LatchCondition.raw_iff (c : LatchCondition cond) (call : KnownCall cond step) :
    c.Raw step ↔ compareLevel c.op call.cur c.level := by
  simp [LatchCondition.Raw, call.value]

theorem LatchCondition.beyond_iff (c : LatchCondition cond) (call : KnownCall cond step) :
    c.Beyond step ↔ beyondRelease c.op c.release call.cur := by
  simp [LatchCondition.Beyond, call.value]

theorem latched_of_run (c : LatchCondition cond) {state : EvalState F}
    (hfresh : state.conds.get? (condKey cond) = none) (inputs : List (EvalInput F)) :
    AtEach (LatchedStep c) (conditionSteps cond inputs state) := by
  refine atEach_conditionSteps
    (K := fun known sub => sub.hystMatched = true ↔ Since c.Held known) ?_ ?_ hfresh inputs
  · intro past step call hopened
    obtain ⟨hmatched, hsub⟩ := c.call call
    have hresult := call.matched_eq
    rw [hmatched] at hresult
    rw [hsub]
    generalize openSlot (step.before.conds.get? (condKey cond)) step.input.obs = sub
      at hopened hresult
    have hiff : (compareLevel c.op call.cur c.level ||
        (sub.hystMatched && beyondRelease c.op c.release call.cur)) = true ↔
          Since c.Held (knownSteps past ++ [step]) := by
      rw [c.held_concat, c.raw_iff call, c.beyond_iff call, Bool.or_eq_true, Bool.and_eq_true,
        and_comm (a := sub.hystMatched)]
      refine or_congr_right (and_congr_right fun _ => ?_)
      cases hopened with
      | cleared e other =>
        refine ⟨fun h => by simp at h, ?_⟩
        rintro ⟨before, met, since, hknown, hheld, hepoch⟩
        obtain ⟨last, hlast, hsame⟩ := last_epoch_eq hknown fun s hs => (hheld.2 s hs).1
        exact absurd (hsame.trans hepoch.symm) (other last hlast)
      | @same last sub hlast epoch kept =>
        rw [kept]
        constructor
        · rintro ⟨before, met, since, hknown, hheld⟩
          obtain ⟨last', hlast', hsame⟩ := last_epoch_eq hknown fun s hs => (hheld.2 s hs).1
          obtain rfl : last = last' := Option.some.inj (hlast.symm.trans hlast')
          exact ⟨before, met, since, hknown, hheld, epoch.symm.trans hsame⟩
        · exact Since.mono fun _ _ h => h.1
    refine ⟨⟨fun _ => ?_, fun _ hother => ?_, fun hunknown => ?_⟩, hiff⟩
    · rw [hresult, Option.some.injEq]
      exact hiff
    · rw [hresult, Option.some.injEq, c.raw_iff call]
      cases hopened with
      | cleared e => simp
      | same hlast epoch => exact absurd epoch (hother _ hlast)
    · rw [call.known_eq] at hunknown
      simp at hunknown
  · intro past step call
    refine ⟨fun hknown => ?_, fun hknown => ?_, fun _ => call.state_eq⟩
    all_goals
      rw [call.known_eq] at hknown
      simp at hknown

/-- Hysteresis is a latch, and an unknown step changes neither it nor later results. -/
theorem hysteresis_latches (c : LatchCondition cond) {state : EvalState F}
    (hfresh : state.conds.get? (condKey cond) = none) :
    (∀ inputs, AtEach (LatchedStep c) (conditionSteps cond inputs state)) ∧ ∀ first input rest result,
        evaluateCondition cond input (conditionState cond first state) = .ok result →
          result.matched = none → (conditionSteps cond (first ++ input :: rest) state).eraseIdx
                (conditionSteps cond first state).length =
              conditionSteps cond (first ++ rest) state :=
  ⟨latched_of_run c hfresh, fun _ _ _ _ => conditionSteps_without_unknown⟩

/-- `ltp gt 100`, released at 95. -/
def aboveHundred : Condition ℚ where
  left := { kind := .field, name := some "ltp" }
  op := .known .gt
  right := { kind := .value, value := some 100 }
  hysteresis := some ⟨95⟩

def aboveHundredLatch : LatchCondition aboveHundred where
  op := .gt
  level := 100
  release := 95
  op_eq := rfl
  isLevel := by decide
  right_kind := rfl
  right_value := rfl
  hysteresis_eq := rfl
  consistent := by decide

/-- Holding at 97 after 101, over an unknown tick, until 94; the unknown tick makes no
difference to the others. -/
theorem aboveHundred_latches :
    let first := [epochTick "A" 101, epochTick "A" 97]
    let rest := [epochTick "A" 96, epochTick "A" 94, epochTick "A" 97]
    let ticks := first ++ { obs := { ts := 0, epochId := "A" } } :: rest
    AtEach (LatchedStep aboveHundredLatch) (conditionSteps aboveHundred ticks {}) ∧
      (conditionSteps aboveHundred ticks {}).map (·.result.matched) =
        [some true, some true, none, some true, some false, some false] ∧
      (conditionSteps aboveHundred ticks {}).eraseIdx 2 =
        conditionSteps aboveHundred (first ++ rest) {} := by
  intro first rest ticks
  have hfresh : ({} : EvalState ℚ).conds.get? (condKey aboveHundred) = none := rfl
  obtain ⟨hlatched, hskip⟩ := hysteresis_latches aboveHundredLatch hfresh
  exact ⟨hlatched ticks, by decide +kernel, hskip first _ rest _ rfl rfl⟩

end KiteAlgo
