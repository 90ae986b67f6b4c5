import KiteAlgo.Breadth
import KiteAlgo.Predicates

/-!
# KiteAlgo.Engine

The trigger engine (`alerts/engine.py`): whether an evaluated rule emits a
signal.  `decideAlert` is pure; it reads and writes only the trigger bookkeeping
of the state (`initialized`, `armed`, `fired_once`, `last_session`,
`last_emitted_ts`, `cooldown_until`).
-/

namespace KiteAlgo

variable {F : Type} [PyFloat F]

inductive Suppression where
  | cooldown
  | notArmed
  | alreadyFired
  | sessionFired
  | reminderInterval
  | quietSession
  | expired
  | alreadyTrueAtActivation
  | notOwner
  | staleBar
  | stormBudget
  | sessionCap
  | duplicateOccurrence
  | leaseLost
  | candleCorrection
  | warmup
  | feedGap
  | ltpGap
  | breadth (reason : BreadthReason)
  deriving DecidableEq, Repr

def Suppression.text : Suppression → String
  | .cooldown => "cooldown"
  | .notArmed => "not_armed"
  | .alreadyFired => "already_fired"
  | .sessionFired => "session_fired"
  | .reminderInterval => "reminder_interval"
  | .quietSession => "quiet_session"
  | .expired => "expired"
  | .alreadyTrueAtActivation => "already_true_at_activation"
  | .notOwner => "not_owner"
  | .staleBar => "stale_bar"
  | .stormBudget => "storm_budget"
  | .sessionCap => "session_cap"
  | .duplicateOccurrence => "duplicate_occurrence"
  | .leaseLost => "lease_lost"
  | .candleCorrection => "candle_correction"
  | .warmup => "warmup"
  | .feedGap => "feed_gap"
  | .ltpGap => "ltp_gap"
  | .breadth reason => Named.name reason

structure EngineDecision (F : Type) where
  emit : Bool
  suppressionReason : Option Suppression
  ruleCompleted : Bool
  newState : EvalState F

/-- What one evaluation hands to the engine. -/
structure EngineInput (F : Type) where
  fired : Bool
  now : Int
  sessionActive : Bool := true
  currentValue : Option F := none
  alreadyTrue : Option Bool := none
  sessionId : Option String := none
  matched : Option Bool := none

/-- `_parse_dt(alert.expires_at)`, with `fromIso` for `datetime.fromisoformat`. -/
def AlertSpec.expiry (fromIso : String → Option Int) (alert : AlertSpec F) : Option Int :=
  alert.expiresAt.bind fun e =>
    fromIso (Text.replaceChar (Text.replaceChar (Text.strip e) 'Z' "+00:00") 'z' "+00:00")

/-- `if alert.cooldown_s`: the cooldown in microseconds, when there is one. -/
def AlertSpec.cooldown (alert : AlertSpec F) : Option Int :=
  (alert.cooldownS.filter fun c => decide (c ≠ 0)).map (· * microsPerSecond)

/-- `alert.reminder_interval_s or 0`, in microseconds. -/
def AlertSpec.reminderInterval (alert : AlertSpec F) : Int :=
  alert.reminderIntervalS.getD 0 * microsPerSecond

/-- The value has passed the rearm level from the configured side. -/
def AlertSpec.rearmHit (alert : AlertSpec F) (currentValue : Option F) : Bool :=
  match alert.rearmLevel, currentValue with
  | some level, some value =>
    if alert.rearmDirection.getD .below = .below then PyFloat.le value level
    else PyFloat.le level value
  | _, _ => false

def rearm (alert : AlertSpec F) (currentValue : Option F) (state : EvalState F) : EvalState F :=
  if !state.armed && alert.rearmHit currentValue then { state with armed := true } else state

/-- The trigger's own gate: refused for a reason, or passed with the bookkeeping
of the trigger and whether the rule is completed. -/
def triggerGate (alert : AlertSpec F) (input : EngineInput F) (state : EvalState F) :
    Except Suppression (EvalState F × Bool) :=
  match alert.trigger with
  | .known .once =>
    if state.firedOnce then .error .alreadyFired
    else .ok ({ state with firedOnce := true }, true)
  | .known .oncePerSession =>
    match input.sessionId with
    | none => .ok (state, false)
    | some sessionId =>
      if state.lastSession = some sessionId then .error .sessionFired
      else .ok ({ state with lastSession := some sessionId }, false)
  | .known .reminder =>
    if state.lastEmittedTs.any fun t => decide (input.now < t + alert.reminderInterval) then
      .error .reminderInterval
    else .ok (state, false)
  | _ => .ok (state, false)

def coolingDown (alert : AlertSpec F) (state : EvalState F) (now : Int) : Bool :=
  alert.cooldown.isSome && state.cooldownUntil.any fun t => decide (now < t)

def emitState (alert : AlertSpec F) (state : EvalState F) (now : Int) : EvalState F :=
  { state with
    lastEmittedTs := some now
    cooldownUntil := (alert.cooldown.map (now + ·)).or state.cooldownUntil
    armed := state.armed && alert.rearmLevel.isNone }

/-- Steps 5 to 7 of `decide`: trigger gate, cooldown, emission. -/
def decideDue (alert : AlertSpec F) (input : EngineInput F) (state : EvalState F) :
    EngineDecision F :=
  match triggerGate alert input state with
  | .error reason => ⟨false, some reason, false, state⟩
  | .ok (state, ruleCompleted) =>
    if coolingDown alert state input.now then ⟨false, some .cooldown, ruleCompleted, state⟩
    else ⟨true, none, ruleCompleted, emitState alert state input.now⟩

/-- Step 4 of `decide`, after the activation decision. -/
def decideArmed (alert : AlertSpec F) (input : EngineInput F) (fired : Bool)
    (state : EvalState F) : EngineDecision F :=
  let due := fired || (decide (alert.trigger = .known .reminder) && input.matched == some true)
  let state := rearm alert input.currentValue state
  if !due then ⟨false, none, false, state⟩
  else if !state.armed then ⟨false, some .notArmed, false, state⟩
  else decideDue alert input state

/-- `decide`: expiry, quiet session, activation, then the trigger. -/
def decideAlert (fromIso : String → Option Int) (alert : AlertSpec F) (input : EngineInput F)
    (state : EvalState F) : EngineDecision F :=
  if (alert.expiry fromIso).any fun e => decide (e ≤ input.now) then
    ⟨false, some .expired, false, state⟩
  else if !input.sessionActive then ⟨false, some .quietSession, false, state⟩
  else if state.initialized then decideArmed alert input input.fired state
  else
    let state := { state with initialized := true }
    if input.alreadyTrue = some true then
      if alert.notifyIfAlreadyTrue then decideArmed alert input true state
      else ⟨false, some .alreadyTrueAtActivation, false, state⟩
    else decideArmed alert input input.fired state

/-! ## what a decision can do -/

/-- The live lifecycle of a rule: the keys that warmup must not consume. -/
structure Lifecycle where
  armed : Bool
  firedOnce : Bool
  lastSession : Option String
  lastEmittedTs : Option Int
  cooldownUntil : Option Int
  deriving DecidableEq, Repr

def EvalState.lifecycle (state : EvalState F) : Lifecycle :=
  ⟨state.armed, state.firedOnce, state.lastSession, state.lastEmittedTs, state.cooldownUntil⟩

/-- The parts of a state the engine never touches. -/
structure SameContinuity (s t : EvalState F) : Prop where
  epochId : t.epochId = s.epochId
  conds : t.conds = s.conds
  stageAdvanced : t.stageAdvanced = s.stageAdvanced
  lastBarTs : t.lastBarTs = s.lastBarTs

/-- What any decision does to the lifecycle. -/
structure TriggerSpec (alert : AlertSpec F) (input : EngineInput F) (before : Lifecycle)
    (emit : Bool) (after : Lifecycle) : Prop where
  firedOnce : before.firedOnce = true → after.firedOnce = true
  lastSession : after.lastSession = before.lastSession ∨ after.lastSession = input.sessionId
  held : emit = false → after.cooldownUntil = before.cooldownUntil
  cooldownOver : emit = true → alert.cooldown.isSome = true →
    ∀ u, before.cooldownUntil = some u → u ≤ input.now
  cooldownSet : emit = true → ∀ c, alert.cooldown = some c → after.cooldownUntil = some (input.now + c)
  once : emit = true → alert.trigger = .known .once → before.firedOnce = false ∧ after.firedOnce = true
  oncePerSession : emit = true → alert.trigger = .known .oncePerSession →
    ∀ sid, input.sessionId = some sid → before.lastSession ≠ some sid ∧ after.lastSession = some sid

variable {alert : AlertSpec F} {input : EngineInput F}

omit [PyFloat F] in
theorem TriggerSpec.keep {before after : Lifecycle} (honce : after.firedOnce = before.firedOnce)
    (hsession : after.lastSession = before.lastSession)
    (hcool : after.cooldownUntil = before.cooldownUntil) :
    TriggerSpec alert input before false after where
  firedOnce h := honce.trans h
  lastSession := .inl hsession
  held _ := hcool
  cooldownOver h := by simp at h
  cooldownSet h := by simp at h
  once h := by simp at h
  oncePerSession h := by simp at h

/-- What a decision on `state` does: continuity stays, the lifecycle follows the
trigger. -/
structure DecisionSpec (alert : AlertSpec F) (input : EngineInput F) (state : EvalState F)
    (d : EngineDecision F) : Prop where
  continuity : SameContinuity state d.newState
  trigger : TriggerSpec alert input state.lifecycle d.emit d.newState.lifecycle

omit [PyFloat F] in
theorem triggerGate_ok {state state' : EvalState F} {completed : Bool}
    (h : triggerGate alert input state = .ok (state', completed)) :
    SameContinuity state state' ∧ state'.cooldownUntil = state.cooldownUntil ∧
      (state.firedOnce → state'.firedOnce) ∧
      (state'.lastSession = state.lastSession ∨ state'.lastSession = input.sessionId) ∧
      (alert.trigger = .known .once → state.firedOnce = false ∧ state'.firedOnce) ∧
      (alert.trigger = .known .oncePerSession → ∀ sid, input.sessionId = some sid →
        state.lastSession ≠ some sid ∧ state'.lastSession = some sid) := by
  unfold triggerGate at h
  split at h
  · next htrigger =>
      split at h
      · simp at h
      · next hfired =>
          obtain ⟨rfl, rfl⟩ := Prod.mk.inj (Except.ok.inj h)
          refine ⟨⟨rfl, rfl, rfl, rfl⟩, rfl, fun _ => rfl, .inl rfl, fun _ => ⟨?_, rfl⟩, ?_⟩
          · simpa using hfired
          · simp [htrigger]
  · next htrigger =>
      split at h
      · next hsid =>
          obtain ⟨rfl, rfl⟩ := Prod.mk.inj (Except.ok.inj h)
          exact ⟨⟨rfl, rfl, rfl, rfl⟩, rfl, id, .inl rfl, by simp [htrigger], by simp [hsid]⟩
      · next sid hsid =>
          split at h
          · simp at h
          · next hne =>
              obtain ⟨rfl, rfl⟩ := Prod.mk.inj (Except.ok.inj h)
              refine ⟨⟨rfl, rfl, rfl, rfl⟩, rfl, id, .inr hsid.symm, by simp [htrigger],
                fun _ sid' hsid' => ?_⟩
              obtain rfl := Option.some.inj (hsid.symm.trans hsid')
              exact ⟨hne, rfl⟩
  · next htrigger =>
      split at h
      · simp at h
      · obtain ⟨rfl, rfl⟩ := Prod.mk.inj (Except.ok.inj h)
        exact ⟨⟨rfl, rfl, rfl, rfl⟩, rfl, id, .inl rfl, by simp [htrigger], by simp [htrigger]⟩
  · next h1 h2 h3 =>
      obtain ⟨rfl, rfl⟩ := Prod.mk.inj (Except.ok.inj h)
      exact ⟨⟨rfl, rfl, rfl, rfl⟩, rfl, id, .inl rfl, fun ht => absurd ht h1, fun ht => absurd ht h2⟩

omit [PyFloat F] in
theorem decideDue_spec (alert : AlertSpec F) (input : EngineInput F) (state : EvalState F) :
    DecisionSpec alert input state (decideDue alert input state) := by
  unfold decideDue
  split
  · exact ⟨⟨rfl, rfl, rfl, rfl⟩, .keep rfl rfl rfl⟩
  · next state' completed hgate =>
      obtain ⟨hcont, hcool, honce, hsession, htrigger, hper⟩ := triggerGate_ok hgate
      split
      · exact ⟨hcont, honce, hsession, fun _ => hcool, by simp, by simp, by simp, by simp⟩
      · next hover =>
          refine ⟨⟨hcont.1, hcont.2, hcont.3, hcont.4⟩, honce, hsession, by simp, ?_, ?_,
            fun _ => htrigger, fun _ => hper⟩
          · intro _ hsome u hu
            have hu' : state.cooldownUntil = some u := hu
            simp only [coolingDown, hsome, hcool, hu', Bool.true_and, Option.any_some,
              decide_eq_true_eq] at hover
            omega
          · intro _ c hc
            simp [emitState, EvalState.lifecycle, hc]

theorem decideArmed_spec (alert : AlertSpec F) (input : EngineInput F) (fired : Bool)
    (state : EvalState F) : DecisionSpec alert input state (decideArmed alert input fired state) := by
  have hrearm : SameContinuity state (rearm alert input.currentValue state) ∧
      (rearm alert input.currentValue state).cooldownUntil = state.cooldownUntil ∧
      (rearm alert input.currentValue state).firedOnce = state.firedOnce ∧
      (rearm alert input.currentValue state).lastSession = state.lastSession := by
    unfold rearm
    split <;> exact ⟨⟨rfl, rfl, rfl, rfl⟩, rfl, rfl, rfl⟩
  obtain ⟨hcont, hcool, honce, hsession⟩ := hrearm
  simp only [decideArmed]
  split
  · exact ⟨hcont, .keep honce hsession hcool⟩
  · split
    · exact ⟨hcont, .keep honce hsession hcool⟩
    · have hdue := decideDue_spec alert input (rearm alert input.currentValue state)
      obtain ⟨hkept, hbook⟩ := hdue
      refine ⟨⟨hkept.1.trans hcont.1, hkept.2.trans hcont.2, hkept.3.trans hcont.3,
        hkept.4.trans hcont.4⟩, ?_, ?_, ?_, ?_, hbook.cooldownSet, ?_, ?_⟩
      · intro h; exact hbook.firedOnce (honce.trans h)
      · rw [show state.lifecycle.lastSession = _ from hsession.symm]; exact hbook.lastSession
      · rw [show state.lifecycle.cooldownUntil = _ from hcool.symm]; exact hbook.held
      · rw [show state.lifecycle.cooldownUntil = _ from hcool.symm]; exact hbook.cooldownOver
      · rw [show state.lifecycle.firedOnce = _ from honce.symm]; exact hbook.once
      · rw [show state.lifecycle.lastSession = _ from hsession.symm]; exact hbook.oncePerSession

theorem decideAlert_spec (fromIso : String → Option Int) (alert : AlertSpec F)
    (input : EngineInput F) (state : EvalState F) :
    DecisionSpec alert input state (decideAlert fromIso alert input state) := by
  have hinit : ∀ fired, DecisionSpec alert input state
      (decideArmed alert input fired { state with initialized := true }) := by
    intro fired
    have h := decideArmed_spec alert input fired { state with initialized := true }
    exact ⟨⟨h.1.1, h.1.2, h.1.3, h.1.4⟩, h.trigger⟩
  unfold decideAlert
  split
  · exact ⟨⟨rfl, rfl, rfl, rfl⟩, .keep rfl rfl rfl⟩
  · split
    · exact ⟨⟨rfl, rfl, rfl, rfl⟩, .keep rfl rfl rfl⟩
    · split
      · exact decideArmed_spec alert input input.fired state
      · split
        · split
          · exact hinit true
          · exact ⟨⟨rfl, rfl, rfl, rfl⟩, .keep rfl rfl rfl⟩
        · exact hinit input.fired

theorem decideAlert_gates {fromIso : String → Option Int} {state : EvalState F}
    (h : (decideAlert fromIso alert input state).emit) :
    (∀ e, alert.expiry fromIso = some e → input.now < e) ∧ input.sessionActive := by
  unfold decideAlert at h
  split at h
  · simp at h
  · next hexp =>
      split at h
      · simp at h
      · next hactive =>
          refine ⟨fun e he => ?_, by simpa using hactive⟩
          simpa [he] using hexp

end KiteAlgo
