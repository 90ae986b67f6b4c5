import KiteAlgo.Lib.Run
import KiteAlgo.Predicates.Frame
import KiteAlgo.Service

/-!
# KiteAlgo.Service.Spec

What one call of `handle_observation` can do, said once: a call for a signal
subscription leaves the database, goes back to the start of its evaluation, or
commits one checkpoint together with what it published (`handleSignal_cases`).
The run of a service is the machine `service`.
-/

namespace KiteAlgo

open List
variable {F : Type} [PyFloat F]

/-! ## the rule of a subscription -/

theorem frame_of_evaluateLayers {input : EvalInput F} {layers : List (Stage F × Values F)}
    {pred r : PredicateResult F} (h : evaluateLayers input layers pred = .ok r) :
    KeepsLifecycle pred.state r.state ∧ ∀ id, (∀ layer ∈ layers, id ≠ layer.1.id) →
        r.state.stageAdvanced.get? id = pred.state.stageAdvanced.get? id := by
  induction layers generalizing pred with
  | nil =>
    obtain rfl := Except.ok.inj h
    exact ⟨rfl, fun _ _ => rfl⟩
  | cons layer layers ih =>
    obtain ⟨stage, features⟩ := layer
    simp only [evaluateLayers, bind_eq_ok] at h
    obtain ⟨result, hresult, h⟩ := h
    obtain ⟨hkept, hother⟩ := frame_of_evaluateStage hresult
    obtain ⟨hkept', hother'⟩ := ih h
    refine ⟨hkept.trans hkept', fun id hid => ?_⟩
    rw [hother' id fun l hl => hid l (.tail _ hl)]
    exact hother id (hid _ (.head _))

variable {s t : EvalState F}

omit [PyFloat F] in
theorem KeepsLifecycle.lifecycle_eq (h : KeepsLifecycle s t) : t.lifecycle = s.lifecycle := by
  rw [h]; rfl

omit [PyFloat F] in
theorem KeepsLifecycle.lastBarTs_eq (h : KeepsLifecycle s t) : t.lastBarTs = s.lastBarTs := by
  rw [h]

/-- What an evaluation computes: the stage's own report, the joined rule, and the
decision on the lifecycle the evaluation started with. -/
structure EvaluationSpec (env : ServiceEnv F) (session : Bool × String) (stage : Stage F)
    (alert : AlertSpec F) (call : Call F) (state : EvalState F) (ev : Evaluation F) : Prop where
  rule : evaluateRule stage call state = .ok ev.pred
  frame : KeepsLifecycle state ev.pred.state
  continuity : SameContinuity ev.pred.state ev.engine.newState
  trigger : ∃ input : EngineInput F, input.now = call.now ∧ input.sessionId = some session.2 ∧
    TriggerSpec alert input state.lifecycle ev.engine.emit ev.engine.newState.lifecycle
  gates : ev.engine.emit = true → (∀ e, alert.expiry env.fromIso = some e → call.now < e) ∧ session.1 = true

variable {alert : AlertSpec F} {call : Call F} {env : ServiceEnv F} {ev : Evaluation F}
  {stage : Stage F} {state : Checkpoint F} {sub : ActiveSubscription F}

theorem evaluateSignal_spec {session : Bool × String} {changed : Bool}
    (h : evaluateSignal env sub session stage alert call changed state = .ok ev) :
    EvaluationSpec env session stage alert call state.toEvalState ev := by
  simp only [evaluateSignal, bind_eq_ok] at h
  obtain ⟨pred, hpred, uses, _, h⟩ := h
  obtain rfl := Except.ok.inj h
  have hframe : KeepsLifecycle state.toEvalState pred.state := by
    simp only [evaluateRule, bind_eq_ok] at hpred
    obtain ⟨own, hown, hlayers⟩ := hpred
    exact (frame_of_evaluateStage hown).1.trans (frame_of_evaluateLayers hlayers).1
  -- the activation guard of a new tick epoch hides `initialized` from the engine only
  have hguard : SameContinuity pred.state (engineState stage changed pred) ∧
      (engineState stage changed pred).lifecycle = state.lifecycle := by
    rw [← hframe.lifecycle_eq]
    unfold engineState
    split <;> exact ⟨⟨rfl, rfl, rfl, rfl⟩, rfl⟩
  have hdecision := decideAlert_spec env.fromIso alert
    (engineInput session stage call changed state pred) (engineState stage changed pred)
  obtain ⟨hcont, htrigger⟩ := hdecision
  obtain ⟨hkept, hlifecycle⟩ := hguard
  refine ⟨hpred, hframe, ?_, ⟨engineInput session stage call changed state pred, rfl, rfl, ?_⟩,
    fun hemit => decideAlert_gates hemit⟩
  · exact ⟨hcont.1.trans hkept.1, hcont.2.trans hkept.2, hcont.3.trans hkept.3, hcont.4.trans hkept.4⟩
  · rw [← hlifecycle]
    exact htrigger

/-- What an evaluation may add to the events. -/
inductive Published (env : ServiceEnv F) (sub : ActiveSubscription F) (call : Call F)
    (correction : Bool) (ev : Evaluation F) : List (SignalEvent F) → Prop
  | nothing : Published env sub call correction ev []
  | signal (hemit : ev.engine.emit = true) (hlive : call.allowEmit = true) :
      Published env sub call correction ev [signalEvent sub call ev]
  | notice (hcorrection : correction = true) (hlive : call.allowEmit = true) :
      Published env sub call correction ev [correctionNotice env sub call ev]

variable {correction : Bool} {db db' : Db F}

omit [PyFloat F] in
theorem recordCorrectionNotice_ok (hcorrection : correction) (hlive : call.allowEmit)
    (h : recordCorrectionNotice env sub call ev db = .ok db') :
    db'.checkpoints = db.checkpoints ∧ ∃ published, db'.events = db.events ++ published ∧
        Published env sub call correction ev published := by
  simp only [recordCorrectionNotice] at h
  split at h
  · obtain rfl := Except.ok.inj h
    exact ⟨rfl, [], by simp, .nothing⟩
  · obtain ⟨hevents, hcheckpoints, _⟩ := recordSignal_ok h
    exact ⟨hcheckpoints, _, hevents, .notice hcorrection hlive⟩

omit [PyFloat F] in
theorem publishSignal_ok {ownerEpoch : Int} {emitted : Bool}
    (h : publishSignal env sub stage alert call correction ev ownerEpoch db = .ok (some (db', emitted))) :
    db'.checkpoints = db.checkpoints ∧ ∃ published, db'.events = db.events ++ published ∧
        Published env sub call correction ev published := by
  have hkept : (db', emitted) = (db, false) → db'.checkpoints = db.checkpoints ∧
      ∃ published, db'.events = db.events ++ published ∧
        Published env sub call correction ev published := by
    intro heq
    obtain ⟨rfl, _⟩ := Prod.mk.inj heq
    exact ⟨rfl, [], by simp, .nothing⟩
  simp only [publishSignal] at h
  split at h
  · next hdue =>
      obtain ⟨hemit, hlive⟩ := Bool.and_eq_true_iff.mp hdue
      split at h
      · simp at h
      · split at h
        · simp only [bind_eq_ok] at h
          obtain ⟨recorded, hrecorded, h⟩ := h
          obtain ⟨rfl, _⟩ := Prod.mk.inj (Option.some.inj (Except.ok.inj h))
          obtain ⟨hevents, hcheckpoints, _⟩ := recordSignal_ok hrecorded
          exact ⟨hcheckpoints, _, hevents, .signal hemit hlive⟩
        · split at h
          · next hcorrection =>
              simp only [bind_eq_ok] at h
              obtain ⟨recorded, hrecorded, h⟩ := h
              obtain ⟨rfl, _⟩ := Prod.mk.inj (Option.some.inj (Except.ok.inj h))
              exact recordCorrectionNotice_ok hcorrection hlive hrecorded
          · simp at h
  · split at h
    · next hnotice =>
        simp only [Bool.and_eq_true] at hnotice
        split at h
        · simp at h
        · simp only [bind_eq_ok] at h
          obtain ⟨recorded, hrecorded, h⟩ := h
          obtain ⟨rfl, _⟩ := Prod.mk.inj (Option.some.inj (Except.ok.inj h))
          exact recordCorrectionNotice_ok hnotice.1.1 hnotice.1.2 hrecorded
    · exact hkept (Option.some.inj (Except.ok.inj h)).symm

/-! ## a call for a signal subscription -/

/-- What one call for a signal subscription can do. -/
inductive SignalOutcome (env : ServiceEnv F) (sub : ActiveSubscription F) (session : String)
    (stage : Stage F) (alert : AlertSpec F) (call : Call F) (db : Db F) : Db F → Prop
  | kept : SignalOutcome env sub session stage alert call db db
  | rolledBack {start : Start F}
      (hstart : startOf env sub stage call (loadState db sub stage call.obs) db = some start) :
      SignalOutcome env sub session stage alert call db start.base
  | committed {start : Start F} {ev : Evaluation F} {db' : Db F} {epoch : Int}
      {published : List (SignalEvent F)}
      (hclaim : (claimEvaluation db sub.id sub.instrumentKey env.ownerId env.lease
        call.now).isSome = true)
      (hstart : startOf env sub stage call (loadState db sub stage call.obs) db = some start)
      (hev : evaluateSignal env sub (resolveSession env session sub.instrumentKey call.obs.ts) stage
        alert call (epochChanged (loadState db sub stage call.obs).1 call.obs)
        start.prepared.state = .ok ev)
      (hcheckpoints : db'.checkpoints = start.base.checkpoints.upsert
        (sub.id, sub.instrumentKey, call.obs.epochId)
        ⟨nextCheckpoint stage call start.prepared.state ev.engine.newState, epoch, call.wallNow⟩)
      (hepoch : ∀ row, start.base.checkpoints.get?
        (sub.id, sub.instrumentKey, call.obs.epochId) = some row → epoch = row.ownerEpoch + 1)
      (hevents : db'.events = start.base.events ++ published)
      (hpublished : Published env sub call start.prepared.correction ev published) :
      SignalOutcome env sub session stage alert call db db'

omit [PyFloat F] in
theorem loadState_congr (h : db'.checkpoints = db.checkpoints) (sub : ActiveSubscription F)
    (stage : Stage F) (obs : Observation F) :
    loadState db' sub stage obs = loadState db sub stage obs := by
  simp only [loadState, loadCheckpoint, loadLatestCheckpoint, h]

omit [PyFloat F] in
theorem commitSignal_cases (env : ServiceEnv F) (sub : ActiveSubscription F) (stage : Stage F)
    (call : Call F) (start : Start F) (ev : Evaluation F) (ownerEpoch : Int) (emitted : Bool)
    (db : Db F) :
    (commitSignal env sub stage call start ev ownerEpoch emitted db).2 = start.base ∨ ∃ epoch,
        (commitSignal env sub stage call start ev ownerEpoch emitted db).2.checkpoints =
          db.checkpoints.upsert (sub.id, sub.instrumentKey, call.obs.epochId)
            ⟨nextCheckpoint stage call start.prepared.state ev.engine.newState, epoch, call.wallNow⟩ ∧
        (∀ row, db.checkpoints.get? (sub.id, sub.instrumentKey, call.obs.epochId) = some row →
          epoch = row.ownerEpoch + 1) ∧
        (commitSignal env sub stage call start ev ownerEpoch emitted db).2.events = db.events := by
  simp only [commitSignal]
  split
  · exact .inl rfl
  · split
    · exact .inl rfl
    · next epoch saved hsave =>
        obtain ⟨hcheckpoints, hepoch, hevents⟩ := saveCheckpoint_ok hsave
        refine .inr ⟨epoch, ?_, hepoch, ?_⟩
        · split <;> exact hcheckpoints
        · split <;> exact hevents

theorem handleSignal_cases (env : ServiceEnv F) (sub : ActiveSubscription F) (session : String)
    (stage : Stage F) (alert : AlertSpec F) (call : Call F) (s : ServiceState F) :
    SignalOutcome env sub session stage alert call s.db
      (handleSignal env sub session stage alert call s).2.db := by
  unfold handleSignal
  split
  · exact .kept
  · next ownerEpoch claimed hclaim =>
      obtain ⟨_, hcheckpoints, hevents, _⟩ := assertEvaluationOwner_of_claim hclaim
      rw [loadState_congr hcheckpoints sub stage call.obs]
      simp only
      split
      · exact .kept
      · next start hstart =>
          split
          · exact .rolledBack hstart
          · next ev hev =>
              simp only [finishSignal]
              split
              · exact .rolledBack hstart
              · split
                · exact .rolledBack hstart
                · split
                  · exact .rolledBack hstart
                  · exact .rolledBack hstart
                  · next published emitted hpublish =>
                      obtain ⟨hrows, events, happend, hpublished⟩ := publishSignal_ok hpublish
                      rcases commitSignal_cases env sub stage call start ev ownerEpoch emitted
                        published with hbase | ⟨epoch, hsaved, hepoch, hsame⟩
                      · rw [hbase]
                        exact .rolledBack hstart
                      · rw [hrows] at hsaved hepoch
                        rw [happend] at hsame
                        exact .committed (by simp [hclaim]) hstart hev hsaved hepoch hsame
                          hpublished

omit [PyFloat F] in
theorem nextCheckpoint_live {decided : EvalState F} (hlive : call.allowEmit) :
    (nextCheckpoint stage call state decided).lifecycle = decided.lifecycle := by
  simp only [nextCheckpoint, stampObservation, hlive, if_true]
  split <;> split <;> rfl

omit [PyFloat F] in
theorem nextCheckpoint_bar (stage : Stage F) (call : Call F) (state : Checkpoint F)
    (decided : EvalState F) :
    (nextCheckpoint stage call state decided).lastBarTs =
        (if call.obs.final then some call.obs.ts else decided.lastBarTs) ∧
      (nextCheckpoint stage call state decided).stageAdvanced = decided.stageAdvanced := by
  simp only [nextCheckpoint, stampObservation, EvalState.withoutLifecycle]
  split <;> split <;> split <;> exact ⟨rfl, rfl⟩

/-! ## runs of the service -/

/-- A request: the arguments of a call with the subscription they are for. -/
structure Request (F : Type) where
  sub : ActiveSubscription F
  call : Call F

/-- The event is the silent record of a correction. -/
def SignalEvent.isNotice (event : SignalEvent F) : Bool :=
  (event.evidence.get? "correction_of").isSome

/-- The service as a machine; it records the signal events that a call adds,
correction notices apart. -/
def service (env : ServiceEnv F) :
    Machine (Request F) (ServiceState F) (Request F × SignalEvent F) where
  step r s := (handleObservation env r.sub r.call s).2
  out r s :=
    let db := (handleObservation env r.sub r.call s).2.db
    ((db.events.drop s.db.events.length).filter fun e => !e.isNotice).map fun e => (r, e)

/-- The subscription's revision holds the document, with the subscribed stage and
alert. -/
structure Subscribes (sub : ActiveSubscription F) (document : WorkflowDocument F)
    (stage : Stage F) (alert : AlertSpec F) : Prop where
  parses : parseDocument sub = .ok (some document)
  stage : document.stage? sub.stageId = some stage
  alert : document.alerts.find? (fun a => a.id = sub.alertId) = some alert

/-- The subscription resolves, and `check` holds of its stage and alert. -/
def subscribesWith (sub : ActiveSubscription F)
    (check : WorkflowDocument F → Stage F → AlertSpec F → Bool) : Bool :=
  match parseDocument sub with
  | .ok (some document) =>
    match document.stage? sub.stageId, document.alerts.find? fun a => a.id = sub.alertId with
    | some stage, some alert => check document stage alert
    | _, _ => false
  | _ => false

theorem exists_of_subscribesWith (sub : ActiveSubscription F)
    (check : WorkflowDocument F → Stage F → AlertSpec F → Bool)
    (h : subscribesWith sub check) :
    ∃ document stage alert, Subscribes sub document stage alert ∧ check document stage alert := by
  unfold subscribesWith at h
  split at h
  · next document hdocument =>
      split at h
      · next stage alert hstage halert =>
          exact ⟨document, stage, alert, ⟨hdocument, hstage, halert⟩, h⟩
      · simp at h
  · simp at h

variable {document : WorkflowDocument F}

theorem handleObservation_signal (h : Subscribes sub document stage alert)
    (hsignal : stage.breadth = none) (env : ServiceEnv F) (call : Call F) (s : ServiceState F) :
    handleObservation env sub call s = handleSignal env sub document.session stage alert call s := by
  simp only [handleObservation, h.parses, h.stage, h.alert, hsignal]

def storedState (s : ServiceState F) (sub : ActiveSubscription F) (stage : Stage F)
    (obs : Observation F) : Checkpoint F :=
  (loadState s.db sub stage obs).1

def barState (stage : Stage F) (stored : Checkpoint F) (obs : Observation F) : Checkpoint F :=
  if detectGap stage stored obs then resetObservationState stored else stored

theorem prepareBar_new {stored : Checkpoint F} {obs : Observation F}
    (hnew : ∀ b, stored.lastBarTs = some b → b < obs.ts) :
    prepareBar stage stored obs = some ⟨barState stage stored obs, false, detectGap stage stored obs⟩ := by
  have hcorrection : isCorrection stored obs = false := by
    unfold isCorrection
    split
    · next ts _ hts _ =>
      have hne : obs.ts ≠ ts := by
        have hlt := hnew ts hts
        omega
      simp [hne]
    · rfl
  have hstale : isStaleBar stored obs = false := by
    unfold isStaleBar
    cases hts : stored.lastBarTs with
    | none => rfl
    | some ts => simp [hnew ts hts]
  rw [prepareBar, hcorrection, hstale]
  rfl

theorem startOf_newBar {loaded : Checkpoint F × Int} {start : Start F}
    (hclock : stage.clock = .known .candleClose)
    (hnew : ∀ b, loaded.1.lastBarTs = some b → b < call.obs.ts)
    (h : startOf env sub stage call loaded db = some start) :
    start.base = db ∧ start.prepared.correction = false ∧
      start.prepared.state = barState stage loaded.1 call.obs ∧
      start.prepared.gap = detectGap stage loaded.1 call.obs := by
  rw [startOf, if_pos hclock, prepareBar_new hnew] at h
  obtain rfl := Option.some.inj h
  exact ⟨rfl, rfl, rfl, rfl⟩

omit [PyFloat F] in
theorem barState_lifecycle (stage : Stage F) (stored : Checkpoint F) (obs : Observation F) :
    (barState stage stored obs).lifecycle = stored.lifecycle := by
  unfold barState
  split <;> rfl

structure BarCommit (env : ServiceEnv F) (sub : ActiveSubscription F) (session : String)
    (stage : Stage F) (alert : AlertSpec F) (call : Call F) (s s' : ServiceState F)
    (out : List (Request F × SignalEvent F)) (ev : Evaluation F) : Prop where
  evaluation : EvaluationSpec env (resolveSession env session sub.instrumentKey call.obs.ts) stage
    alert call (barState stage (storedState s sub stage call.obs) call.obs).toEvalState ev
  stored : ∀ obs : Observation F, obs.epochId = call.obs.epochId →
    storedState s' sub stage obs = nextCheckpoint stage call
      (barState stage (storedState s sub stage call.obs) call.obs) ev.engine.newState
  out : out = [] ∨ (ev.engine.emit = true ∧ call.allowEmit = true ∧ ∃ e, out = [(⟨sub, call⟩, e)])

theorem service_newBar {s : ServiceState F} (hsub : Subscribes sub document stage alert)
    (hsignal : stage.breadth = none) (hclock : stage.clock = .known .candleClose)
    (hnew : ∀ b, (storedState s sub stage call.obs).lastBarTs = some b → b < call.obs.ts) :
    (((service env).step ⟨sub, call⟩ s).db = s.db ∧ (service env).out ⟨sub, call⟩ s = []) ∨
      ∃ ev, BarCommit env sub document.session stage alert call s
        ((service env).step ⟨sub, call⟩ s) ((service env).out ⟨sub, call⟩ s) ev := by
  have hcases := handleSignal_cases env sub document.session stage alert call s
  simp only [service, handleObservation_signal hsub hsignal]
  generalize (handleSignal env sub document.session stage alert call s).2 = s' at hcases ⊢
  obtain ⟨db', windows⟩ := s'
  simp only at hcases ⊢
  cases hcases with
  | kept => exact .inl ⟨rfl, by simp⟩
  | rolledBack hstart =>
    obtain ⟨hbase, _⟩ := startOf_newBar hclock hnew hstart
    exact .inl ⟨hbase, by simp [hbase]⟩
  | committed _ hstart hev hcheckpoints _ hevents hpublished =>
    obtain ⟨hbase, hcorrection, hstate, _⟩ := startOf_newBar hclock hnew hstart
    rw [hbase] at hcheckpoints hevents
    have hev' := evaluateSignal_spec hev
    rw [hstate] at hev' hcheckpoints
    refine .inr ⟨_, hev', fun obs hepoch => ?_, ?_⟩
    · simp [storedState, loadState, loadCheckpoint, hcheckpoints, hepoch, barState]
    · cases hpublished with
      | nothing => exact .inl (by simp [hevents])
      | notice hnotice _ => simp [hcorrection] at hnotice
      | signal hemit hlive =>
        simp only [hevents, drop_left, filter_cons, filter_nil]
        split
        · exact .inr ⟨hemit, hlive, _, rfl⟩
        · exact .inl rfl

end KiteAlgo
