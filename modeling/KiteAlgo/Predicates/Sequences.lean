import KiteAlgo.Lib.Run
import KiteAlgo.Predicates.Frame

/-!
# KiteAlgo.Predicates.Sequences

Runs of a stage with an A-then-B sequence: calls of `evaluate_stage`, each on the state the
last one left.  A bar arms the machine, waits on it, completes it or leaves it idle
(`sequenceCall_cases`), and an armed machine remembers the bar that armed it
(`ArmedBy`), so that every fire has its own arming bar within the bounds.
-/

namespace KiteAlgo

open List
variable {F : Type} [PyFloat F]

/-! ## runs of a stage -/

/-- A call of `evaluate_stage`: the state it found, what it was given and what it reported. -/
structure StageStep (F : Type) where
  before : EvalState F
  input : EvalInput F
  result : PredicateResult F

def stageCall (stage : Stage F) (input : EvalInput F) (state : EvalState F) :
    Except PyErr (StageStep F × EvalState F) := do
  let result ← evaluateStage stage input state
  .ok (⟨state, input, result⟩, result.state)

/-- The calls of a run, each on the state the last one left. -/
def stageSteps (stage : Stage F) (inputs : List (EvalInput F)) (state : EvalState F) :
    List (StageStep F) :=
  (Machine.ofReturning (stageCall stage)).trace inputs state

namespace StageStep

def epoch (step : StageStep F) : String := step.input.obs.epochId

def ts (step : StageStep F) : Int := step.input.obs.ts

def machine (step : StageStep F) (stage : Stage F) : AdvancedState :=
  advancedState step.before stage.id step.input.obs

def machineAfter (step : StageStep F) (stage : Stage F) : Option AdvancedState :=
  step.result.state.stageAdvanced.get? stage.id

def Holds (step : StageStep F) (stage : Stage F) (groups : List (ConditionGroup F)) : Prop :=
  ∃ own leg, runGroups step.input stage.groupPairs step.before = .ok own ∧
    runGroups step.input groups own.state = .ok leg ∧ leg.matched = some true

/-- The bar finds an armed machine whose bound has elapsed. -/
def Expires (step : StageStep F) (stage : Stage F) (sequence : SequenceSpec F) : Prop :=
  (step.machine stage).armed = true ∧ sequence.expired (step.machine stage) step.input.obs = true

/-- The bar finds an armed machine within its bounds. -/
def Continues (step : StageStep F) (stage : Stage F) (sequence : SequenceSpec F) : Prop :=
  (sequence.expire (step.machine stage) step.input.obs).armed = true

/-- The bar arms the machine: nothing is pending and the first groups are matched. -/
def Arms (step : StageStep F) (stage : Stage F) (sequence : SequenceSpec F) : Prop :=
  ¬ step.Continues stage sequence ∧ step.Holds stage sequence.first

def LeavesArmed (step : StageStep F) (stage : Stage F) : Prop :=
  ∃ sub, step.machineAfter stage = some sub ∧ sub.armed = true

end StageStep

/-- The four things a bar does to the machine. -/
inductive SequenceCall (stage : Stage F) (sequence : SequenceSpec F) (step : StageStep F) : Prop
  | completes (continues : step.Continues stage sequence)
      (holds : step.Holds stage sequence.andThen) (fired : step.result.fired = true)
      (after : step.machineAfter stage =
        some { (step.machine stage).disarm with epochId := some step.epoch })
  | waits (continues : step.Continues stage sequence)
      (holds : ¬ step.Holds stage sequence.andThen) (fired : step.result.fired = false)
      (after : step.machineAfter stage = some { step.machine stage with
          barsSinceArm := (step.machine stage).barsSinceArm + 1, epochId := some step.epoch })
  | arms (arms : step.Arms stage sequence) (fired : step.result.fired = false) (sub : AdvancedState)
      (after : step.machineAfter stage = some sub) (armed : sub.armed = true)
      (armedTs : sub.armedTs = some step.ts) (bars : sub.barsSinceArm = 0)
      (epoch : sub.epochId = some step.epoch)
  | idles (continues : ¬ step.Continues stage sequence)
      (holds : ¬ step.Holds stage sequence.first) (fired : step.result.fired = false)
      (sub : AdvancedState) (after : step.machineAfter stage = some sub) (armed : sub.armed = false)

omit [PyFloat F] in
theorem expire_of_armed {sequence : SequenceSpec F} {sub : AdvancedState} {obs : Observation F}
    (h : (sequence.expire sub obs).armed) :
    sequence.expire sub obs = sub ∧ sub.armed ∧ sequence.expired sub obs = false := by
  unfold SequenceSpec.expire at h ⊢
  split at h
  · simp [AdvancedState.disarm] at h
  · next hkeep =>
      rw [Bool.and_eq_true, h] at hkeep
      rw [if_neg (by simpa [h] using hkeep)]
      exact ⟨rfl, h, by simpa using hkeep⟩

theorem sequenceCall_cases {stage : Stage F} {sequence : SequenceSpec F} {step : StageStep F}
    (hbars : stage.consecutiveBars = none) (hsequence : stage.sequence = some sequence)
    (h : evaluateStage stage step.input step.before = .ok step.result) :
    SequenceCall stage sequence step := by
  simp only [evaluateStage, hbars, hsequence, bind_eq_ok] at h
  obtain ⟨own, hown, done, hdone, h⟩ := h
  have hresult := Except.ok.inj h
  have hmachine : advancedState own.state stage.id step.input.obs = step.machine stage := by
    rw [StageStep.machine, advancedState, advancedState, (keepsMachines_of_runGroups hown).stageAdvanced]
  have hafter : step.machineAfter stage = some { done.1.sub with epochId := some step.epoch } := by
    rw [StageStep.machineAfter, ← hresult]
    simp [commitAdvancedState, StageStep.epoch]
  have hfired : step.result.fired = done.1.fired := by rw [← hresult]
  have hholds : ∀ {groups leg}, runGroups step.input groups own.state = .ok leg →
      (step.Holds stage groups ↔ leg.matched = some true) := by
    intro groups leg hleg
    constructor
    · rintro ⟨own', leg', hown', hleg', hmatched⟩
      obtain rfl : own = own' := Except.ok.inj (hown.symm.trans hown')
      obtain rfl : leg = leg' := Except.ok.inj (hleg.symm.trans hleg')
      exact hmatched
    · intro hmatched
      exact ⟨own, leg, hown, hleg, hmatched⟩
  rw [hmachine, applySequence] at hdone
  by_cases harmed : (sequence.expire (step.machine stage) step.input.obs).armed
  · obtain ⟨hsame, -, -⟩ := expire_of_armed harmed
    rw [if_pos harmed, completeSequence, bind_eq_ok] at hdone
    obtain ⟨leg, hleg, hdone⟩ := hdone
    have hstep := Except.ok.inj hdone
    rw [hsame] at hstep
    by_cases hmatched : leg.matched = some true
    · rw [if_pos hmatched] at hstep
      rw [← hstep] at hafter hfired
      exact .completes harmed ((hholds hleg).mpr hmatched) hfired hafter
    · rw [if_neg hmatched] at hstep
      rw [← hstep] at hafter hfired
      exact .waits harmed (fun h => hmatched ((hholds hleg).mp h)) hfired hafter
  · rw [if_neg harmed, armSequence, bind_eq_ok] at hdone
    obtain ⟨leg, hleg, hdone⟩ := hdone
    have hstep := Except.ok.inj hdone
    by_cases hmatched : leg.matched = some true
    · rw [if_pos hmatched] at hstep
      rw [← hstep] at hafter hfired
      exact .arms ⟨harmed, (hholds hleg).mpr hmatched⟩ hfired _ hafter rfl rfl rfl rfl
    · rw [if_neg hmatched] at hstep
      rw [← hstep] at hafter hfired
      have hunarmed : (sequence.expire (step.machine stage) step.input.obs).armed = false := by
        simpa [StageStep.Continues] using harmed
      exact .idles harmed (fun h => hmatched ((hholds hleg).mp h)) hfired _ hafter hunarmed

/-! ## the bar that armed the machine -/

section Run

variable {stage : Stage F} {sequence : SequenceSpec F}

/-- The bar armed the machine, and no bar since has completed it or armed it again. -/
structure ArmedBy (stage : Stage F) (sequence : SequenceSpec F) (arm : StageStep F)
    (between : List (StageStep F)) : Prop where
  arms : arm.Arms stage sequence
  leavesArmed : arm.LeavesArmed stage
  armQuiet : arm.result.fired = false
  waiting : ∀ s ∈ between, s.epoch = arm.epoch ∧ ¬ s.Holds stage sequence.andThen ∧
    ¬ s.Arms stage sequence ∧ s.result.fired = false

/-- The completing bar lies within the bounds. -/
structure WithinBounds (sequence : SequenceSpec F) (arm : StageStep F) (between : List (StageStep F))
    (step : StageStep F) : Prop where
  bars : ∀ n, sequence.withinBars = some n → (between.length + 1 : Int) ≤ n
  elapsed : ∀ s, sequence.withinS = some s → step.ts - arm.ts ≤ s * 1000000

/-- What a bar of a run may report, given the bars before it. -/
structure SoundBar (stage : Stage F) (sequence : SequenceSpec F) (past : List (StageStep F))
    (step : StageStep F) : Prop where
  /-- A fire completes the sequence of an arming bar of its epoch, within the bounds. -/
  sound : step.result.fired = true → step.Holds stage sequence.andThen ∧
    Since (fun arm between => ArmedBy stage sequence arm between ∧ arm.epoch = step.epoch ∧
      WithinBounds sequence arm between step) past
  /-- Between two fires there is an arming bar. -/
  once : ∀ before fire between, past = before ++ fire :: between → fire.result.fired = true →
    step.result.fired = true → ∃ s ∈ between, s.Arms stage sequence
  /-- A bar on which the sequence expires never completes, and arms like any other. -/
  expiry : step.Expires stage sequence → step.result.fired = false ∧
    (step.LeavesArmed stage ↔ step.Holds stage sequence.first)

/-- An armed machine has been armed by a bar of the run, and counts the bars since. -/
def TracksArming (stage : Stage F) (sequence : SequenceSpec F) (past : List (StageStep F))
    (state : EvalState F) : Prop :=
  ∀ sub, state.stageAdvanced.get? stage.id = some sub → sub.armed = true →
    Since (fun arm between => ArmedBy stage sequence arm between ∧ sub.epochId = some arm.epoch ∧
      sub.armedTs = some arm.ts ∧ sub.barsSinceArm = between.length) past

variable {step : StageStep F}

omit [PyFloat F] in
theorem machine_of_armed (h : (step.machine stage).armed) :
    step.before.stageAdvanced.get? stage.id = some (step.machine stage) ∧
      ∀ epoch, (step.machine stage).epochId = some epoch → epoch = step.epoch := by
  unfold StageStep.machine advancedState at h ⊢
  cases hslot : step.before.stageAdvanced.get? stage.id with
  | none => simp [hslot] at h
  | some sub =>
    simp only [hslot, Option.getD_some] at h ⊢
    cases hepoch : sub.epochId with
    | none => simp [hepoch]
    | some epoch =>
      simp only [hepoch] at h ⊢
      by_cases hsame : epoch = step.input.obs.epochId
      · simp [hsame, hepoch, StageStep.epoch]
      · simp [hsame] at h

variable {past : List (StageStep F)}

theorem TracksArming.continues (h : TracksArming stage sequence past step.before)
    (hcontinues : step.Continues stage sequence) :
    Since (fun arm between => ArmedBy stage sequence arm between ∧ arm.epoch = step.epoch ∧
      (step.machine stage).armedTs = some arm.ts ∧
      (step.machine stage).barsSinceArm = between.length) past := by
  obtain ⟨-, harmed, -⟩ := expire_of_armed hcontinues
  obtain ⟨hslot, hepoch⟩ := machine_of_armed harmed
  refine (h _ hslot harmed).mono fun arm between => ?_
  rintro ⟨hby, hsame, hts, hbars⟩
  exact ⟨hby, hepoch _ hsame, hts, hbars⟩

omit [PyFloat F] in
theorem withinBounds_of_not_expired {sub : AdvancedState} {arm : StageStep F}
    {between : List (StageStep F)} (h : sequence.expired sub step.input.obs = false)
    (hts : sub.armedTs = some arm.ts) (hbars : sub.barsSinceArm = between.length) :
    WithinBounds sequence arm between step := by
  simp only [SequenceSpec.expired, Bool.or_eq_false_iff, hts, hbars] at h
  obtain ⟨hcount, htime⟩ := h
  constructor
  · intro n hn
    simpa [hn] using hcount
  · intro s hs
    simpa [hs, StageStep.ts] using htime

omit [PyFloat F] in
theorem StageStep.Continues.not_expires (h : step.Continues stage sequence) :
    ¬ step.Expires stage sequence := by
  obtain ⟨-, -, hwithin⟩ := expire_of_armed h
  rintro ⟨-, hexpired⟩
  rw [hwithin] at hexpired
  simp at hexpired

theorem exists_arms_between {before between : List (StageStep F)} {fire : StageStep F}
    (h : Since (fun arm between => ArmedBy stage sequence arm between ∧ arm.epoch = step.epoch ∧
      WithinBounds sequence arm between step) past) (hpast : past = before ++ fire :: between)
    (hfire : fire.result.fired) :
    ∃ s ∈ between, s.Arms stage sequence := by
  obtain ⟨earlier, arm, waiting, hsplit, hby, -, -⟩ := h
  have hquiet : ∀ s ∈ arm :: waiting, s.result.fired = false := by
    intro s hs
    rcases mem_cons.mp hs with rfl | hs
    · exact hby.armQuiet
    · exact (hby.waiting s hs).2.2.2
  have hnot : fire ∉ arm :: waiting := by
    intro hmem
    rw [hquiet fire hmem] at hfire
    simp at hfire
  rw [hpast] at hsplit
  rcases append_eq_append_iff.mp hsplit with ⟨mid, -, hmid⟩ | ⟨mid, -, hmid⟩
  · -- the arming bar comes after the fire
    cases mid with
    | nil => exact absurd (by rw [(List.cons.inj hmid).1]; exact mem_cons_self) hnot
    | cons s mid =>
      refine ⟨arm, ?_, hby.arms⟩
      rw [(List.cons.inj hmid).2]
      simp
  · exact absurd (by rw [hmid]; simp) hnot

theorem SequenceCall.sound (call : SequenceCall stage sequence step)
    (h : TracksArming stage sequence past step.before) : SoundBar stage sequence past step := by
  cases call with
  | completes continues holds fired after =>
    have hsince : Since (fun arm between => ArmedBy stage sequence arm between ∧
        arm.epoch = step.epoch ∧ WithinBounds sequence arm between step) past := by
      obtain ⟨-, -, hwithin⟩ := expire_of_armed continues
      refine (h.continues continues).mono fun arm between => ?_
      rintro ⟨hby, hepoch, hts, hbars⟩
      exact ⟨hby, hepoch, withinBounds_of_not_expired hwithin hts hbars⟩
    refine ⟨fun _ => ⟨holds, hsince⟩, fun before fire between hpast hfire _ => ?_, fun hexpires => ?_⟩
    · exact exists_arms_between hsince hpast hfire
    · exact absurd hexpires continues.not_expires
  | waits continues _ fired _ =>
    refine ⟨fun hnow => ?_, fun _ _ _ _ _ hnow => ?_, fun hexpires => ?_⟩
    · simp [fired] at hnow
    · simp [fired] at hnow
    · exact absurd hexpires continues.not_expires
  | arms arms fired sub after armed =>
    refine ⟨fun hnow => ?_, fun _ _ _ _ _ hnow => ?_, fun _ => ⟨fired, ?_⟩⟩
    · simp [fired] at hnow
    · simp [fired] at hnow
    · exact ⟨fun _ => arms.2, fun _ => ⟨sub, after, armed⟩⟩
  | idles continues holds fired sub after armed =>
    refine ⟨fun hnow => ?_, fun _ _ _ _ _ hnow => ?_, fun _ => ⟨fired, ?_⟩⟩
    · simp [fired] at hnow
    · simp [fired] at hnow
    · refine ⟨?_, fun hholds => absurd hholds holds⟩
      rintro ⟨sub', hafter, harmed⟩
      obtain rfl := Option.some.inj (after.symm.trans hafter)
      simp [armed] at harmed

theorem SequenceCall.tracks (call : SequenceCall stage sequence step)
    (h : TracksArming stage sequence past step.before) :
    TracksArming stage sequence (past ++ [step]) step.result.state := by
  intro sub hslot harmed
  rw [since_concat]
  cases call with
  | completes _ _ _ after =>
    obtain rfl := Option.some.inj (after.symm.trans hslot)
    simp [AdvancedState.disarm] at harmed
  | waits continues holds fired after =>
    obtain rfl := Option.some.inj (after.symm.trans hslot)
    refine .inr ((h.continues continues).mono fun arm between => ?_)
    rintro ⟨hby, hepoch, hts, hbars⟩
    refine ⟨⟨hby.arms, hby.leavesArmed, hby.armQuiet, fun s hs => ?_⟩, by rw [hepoch], hts, ?_⟩
    · rcases mem_append.mp hs with hold | hnew
      · exact hby.waiting s hold
      · rw [mem_singleton.mp hnew]
        exact ⟨hepoch.symm, holds, fun harms => harms.1 continues, fired⟩
    · rw [length_append, length_singleton]
      simp [hbars]
  | arms arms fired sub' after armed armedTs bars epoch =>
    obtain rfl := Option.some.inj (after.symm.trans hslot)
    exact .inl ⟨⟨arms, ⟨_, hslot, harmed⟩, fired, by simp⟩, epoch, armedTs, by simp [bars]⟩
  | idles _ _ _ sub' after armed =>
    obtain rfl := Option.some.inj (after.symm.trans hslot)
    simp [armed] at harmed

/-- Every bar of a run is sound, from a state without the stage's machine. -/
theorem sound_of_run (hbars : stage.consecutiveBars = none)
    (hsequence : stage.sequence = some sequence) {state : EvalState F}
    (hfresh : state.stageAdvanced.get? stage.id = none) (inputs : List (EvalInput F)) :
    AtEach (SoundBar stage sequence) (stageSteps stage inputs state) := by
  refine Machine.atEach_ofReturning (I := TracksArming stage sequence) ?_
    (by simp [TracksArming, hfresh]) inputs
  intro past input state step state' htracks hcall
  simp only [stageCall, bind_eq_ok] at hcall
  obtain ⟨result, hresult, hcall⟩ := hcall
  obtain ⟨rfl, rfl⟩ := Prod.mk.inj (Except.ok.inj hcall)
  have call : SequenceCall stage sequence ⟨state, input, result⟩ :=
    sequenceCall_cases hbars hsequence hresult
  exact ⟨call.sound htracks, call.tracks htracks⟩

end Run

/-- A close above 100, then one below 95 within two bars. -/
def pullback : SequenceSpec ℚ where
  first := [⟨.all, [⟨{ kind := .field, name := some "close" }, .known .gt,
    { kind := .value, value := some 100 }, none⟩]⟩]
  andThen := [⟨.all, [⟨{ kind := .field, name := some "close" }, .known .lt,
    { kind := .value, value := some 95 }, none⟩]⟩]
  withinBars := some 2
  withinS := none

def pullbackStage : Stage ℚ where
  id := "pullback"
  type := .known .signal
  clock := .known .candleClose
  timeframe := some "5m"
  conditions := []
  sequence := some pullback

def closeAt (ts : Int) (close : ℚ) : EvalInput ℚ where
  obs := { ts, epochId := "A", close := some close }

/-- The fall on the second bar completes; after the next rise it comes one bar too late. -/
theorem pullback_sound :
    let bars := [closeAt 0 101, closeAt 1 98, closeAt 2 94, closeAt 3 101, closeAt 4 98, closeAt 5 98,
      closeAt 6 94]
    AtEach (SoundBar pullbackStage pullback) (stageSteps pullbackStage bars {}) ∧
      (stageSteps pullbackStage bars {}).map (·.result.fired) =
        [false, false, true, false, false, false, false] := by
  intro bars
  exact ⟨sound_of_run rfl rfl rfl bars, by decide +kernel⟩

end KiteAlgo
