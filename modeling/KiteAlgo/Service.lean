import KiteAlgo.Planner
import KiteAlgo.Repository

/-!
# KiteAlgo.Service

`EvaluationService.handle_observation` (`workflows/service.py`): one observation
of one subscription, evaluated and committed in one transaction.

The service state is the database together with the worker-local emission
windows, which no rollback restores.  A call is atomic; what another worker does
in between appears as the state the call starts from.  Logging is left out.
-/

namespace KiteAlgo

/-! ## arguments and results -/

/-- `ActiveSubscription`, with the two entries of its configuration that an
evaluation reads. -/
structure ActiveSubscription (F : Type) where
  id : String
  revisionId : String
  alertId : String
  stageId : String
  instrumentKey : String
  ownerId : String
  workflowId : String
  document : PyVal F
  instrumentBinding : Option (Dict Key (PyVal F)) := none
  universeRevision : Option (PyVal F) := none

/-- The service's configuration and the code it calls outside: the session
provider, the channel resolver, `datetime.fromisoformat`, and the digest of a bar
payload. -/
structure ServiceEnv (F : Type) where
  ownerId : String
  lease : Int := 120 * microsPerSecond
  deliveryBudgetPerWindow : Nat := 60
  deliveryBudgetWindow : Int := 60 * microsPerSecond
  breadthMaxInstruments : Int := 1000
  breadthMembershipMaxAgeS : Int := 900
  ltpFreshnessEnabled : Bool := true
  ltpMaxGap : Int := 300 * microsPerSecond
  sessionProvider : String → String → Int → Option (Bool × String) := fun _ _ _ => none
  channelResolver : Option (String → List String → Dict String String) := none
  fromIso : String → Option Int := fun _ => none
  payloadDigest : BarPayload F → String := fun _ => ""

/-- The membership context of a breadth observation. -/
structure Membership where
  members : List String := []
  universeRevision : Option Int := none
  resolvedAt : Option Int := none
  deriving DecidableEq, Repr

/-- The arguments of one call, with the readings of the service clock (none when
the service has no clock) and of the wall clock during the call. -/
structure Call (F : Type) where
  obs : Observation F
  allowEmit : Bool := true
  context : Values F := []
  features : Values F := []
  layers : List (Stage F × Values F) := []
  membership : Membership := {}
  clock : Option Int := none
  wallNow : Int := 0

structure HandleResult where
  fired : Bool
  emitted : Bool
  suppressionReason : Option Suppression
  ruleCompleted : Bool
  deriving DecidableEq, Repr

/-- The database and the emission windows by workflow and alert. -/
structure ServiceState (F : Type) where
  db : Db F := {}
  emissionWindows : Dict (String × String) (List Int) := []

def noop : HandleResult := ⟨false, false, none, false⟩

def stopped (reason : Suppression) : HandleResult := ⟨false, false, some reason, false⟩

variable {F : Type}

/-- `self.clock() if self.clock is not None else obs.ts`. -/
def Call.now (call : Call F) : Int := call.clock.getD call.obs.ts

def Call.input (call : Call F) : EvalInput F := ⟨call.obs, call.context, call.features⟩

/-! ## bars -/

def barPayload (obs : Observation F) : BarPayload F :=
  ⟨obs.ts, obs.ltp, obs.open_, obs.high, obs.low, obs.close, obs.volume, obs.final⟩

/-- `==` on optional numbers. -/
def optEq [PyFloat F] : Option F → Option F → Bool
  | none, none => true
  | some a, some b => PyFloat.eq a b
  | _, _ => false

/-- `==` on payloads. -/
def BarPayload.same [PyFloat F] (p q : BarPayload F) : Bool :=
  decide (p.ts = q.ts) && optEq p.ltp q.ltp && optEq p.open_ q.open_ && optEq p.high q.high &&
    optEq p.low q.low && optEq p.close q.close && optEq p.volume q.volume && p.final == q.final

/-- `_is_correction`: the last final bar again, with another payload. -/
def isCorrection [PyFloat F] (state : Checkpoint F) (obs : Observation F) : Bool :=
  match state.lastBarTs, state.lastBarPayload with
  | some ts, some payload => obs.final && decide (obs.ts = ts) && !payload.same (barPayload obs)
  | _, _ => false

def isStaleBar (state : Checkpoint F) (obs : Observation F) : Bool :=
  state.lastBarTs.any fun ts => decide (obs.ts ≤ ts)

/-- The expected spacing of bars in seconds. -/
def expectedSpacing (stage : Stage F) : Int :=
  ((stage.timeframe.bind fun t => (Named.ofName? t : Option Timeframe)).map Timeframe.seconds).getD 60

/-- `_detect_gap`: more than one and a half expected intervals after the last bar. -/
def detectGap (stage : Stage F) (state : Checkpoint F) (obs : Observation F) : Bool :=
  state.lastBarTs.any fun ts =>
    decide (3 * expectedSpacing stage * microsPerSecond < 2 * (obs.ts - ts))

def resetObservationState (state : Checkpoint F) : Checkpoint F :=
  { state with
    conds := [], epochId := none, lastBarTs := none, initialized := false,
    lastBarState := none, lastBarPayload := none }

/-- The state an evaluation starts from, after corrections and gaps. -/
structure Prepared (F : Type) where
  state : Checkpoint F
  correction : Bool := false
  gap : Bool := false

/-- The candle branch before evaluation: a corrected bar goes back to the state
before it, an old bar is dropped (none), a gap resets continuity. -/
def prepareBar [PyFloat F] (stage : Stage F) (state : Checkpoint F) (obs : Observation F) :
    Option (Prepared F) :=
  if isCorrection state obs then
    state.lastBarState.map fun prior =>
      let start : Checkpoint F := { toEvalState := prior }
      let gap := detectGap stage start obs
      ⟨if gap then resetObservationState start else start, true, gap⟩
  else if isStaleBar state obs then none
  else
    let gap := detectGap stage state obs
    some ⟨if gap then resetObservationState state else state, false, gap⟩

def ltpGapDetected (env : ServiceEnv F) (state : Checkpoint F) (obs : Observation F) : Bool :=
  match obs.receivedAt, state.lastTickReceivedAt with
  | some received, some previous =>
    decide (0 ≤ received - previous) && decide (env.ltpMaxGap < received - previous)
  | _, _ => false

/-! ## session, channels and storm budget -/

def resolveSession (env : ServiceEnv F) (session instrumentKey : String) (ts : Int) :
    Bool × String :=
  (env.sessionProvider session instrumentKey ts).getD (true, istDate ts)

def resolveChannels (env : ServiceEnv F) (ownerId : String) (names : List String) : List String :=
  match env.channelResolver with
  | none => names
  | some resolve => names.filterMap (resolve ownerId names).get?

def stormBudgetExceeded (env : ServiceEnv F) (state : ServiceState F) (sub : ActiveSubscription F)
    (now : Int) : Bool :=
  match state.emissionWindows.get? (sub.workflowId, sub.alertId) with
  | none | some [] => false
  | some window =>
    decide (env.deliveryBudgetPerWindow ≤
      (window.filter fun ts => decide (now - env.deliveryBudgetWindow ≤ ts)).length)

def recordEmission (env : ServiceEnv F) (windows : Dict (String × String) (List Int))
    (sub : ActiveSubscription F) (now : Int) : Dict (String × String) (List Int) :=
  let key := (sub.workflowId, sub.alertId)
  let window := (windows.get? key).getD [] ++ [now]
  let recent := window.drop (window.length - env.deliveryBudgetPerWindow - 10)
  windows.set key (recent.dropWhile fun ts => decide (ts < now - env.deliveryBudgetWindow))

/-- `_stage_current_value`: the first field operand the observation carries. -/
def stageCurrentValue (stage : Stage F) (obs : Observation F) : Option F :=
  stage.conditions.findSome? fun cond =>
    if cond.left.kind = .field then
      (cond.left.name.bind fun n => (Named.ofName? n : Option BarField)).bind obs.field
    else none

variable [PyFloat F]

/-! ## the signal rule -/

/-- A layer's result on top of the result so far: both have to hold. -/
def joinLayer (pred : PredicateResult F) (layerId : String) (layer : PredicateResult F) :
    PredicateResult F where
  matched :=
    match pred.matched, layer.matched with
    | some a, some b => some (a && b)
    | _, _ => none
  fired := pred.fired && layer.matched == some true
  evidence := pred.evidence.update
    (layer.evidence.map fun e => ("layer:" ++ layerId ++ ":" ++ e.1, e.2))
  state := layer.state

/-- The ancestor layers, each evaluated on its own features and on the state the
previous one left. -/
def evaluateLayers (input : EvalInput F) :
    List (Stage F × Values F) → PredicateResult F → Except PyErr (PredicateResult F)
  | [], pred => .ok pred
  | (stage, features) :: layers, pred => do
    let layer ← evaluateStage stage { input with features } pred.state
    evaluateLayers input layers (joinLayer pred stage.id layer)

/-- The predicates of a subscription: its stage, then its layers. -/
def evaluateRule (stage : Stage F) (call : Call F) (state : EvalState F) :
    Except PyErr (PredicateResult F) := do
  let own ← evaluateStage stage call.input state
  evaluateLayers call.input call.layers own

/-- `observation_epoch_changed`. -/
def epochChanged (loaded : Checkpoint F) (obs : Observation F) : Bool :=
  loaded.epochId.any fun e => e ≠ obs.epochId

def engineInput (session : Bool × String) (stage : Stage F) (call : Call F) (changed : Bool)
    (state : Checkpoint F) (pred : PredicateResult F) : EngineInput F where
  fired := pred.fired
  now := call.now
  sessionActive := session.1
  currentValue := stageCurrentValue stage call.obs
  alreadyTrue := if changed || !state.initialized then pred.matched else none
  sessionId := some session.2
  matched := pred.matched

/-- The predicates' output state; a new tick epoch goes through the activation
guard again. -/
def engineState (stage : Stage F) (changed : Bool) (pred : PredicateResult F) : EvalState F :=
  if stage.clock = .known .ltp ∧ changed then { pred.state with initialized := false }
  else pred.state

def decideRule (env : ServiceEnv F) (session : Bool × String) (stage : Stage F)
    (alert : AlertSpec F) (call : Call F) (changed : Bool) (state : Checkpoint F)
    (pred : PredicateResult F) : EngineDecision F :=
  decideAlert env.fromIso alert (engineInput session stage call changed state pred)
    (engineState stage changed pred)

/-- Truthy text of a context entry, as `if value: str(value)` reads it. -/
def contextText (context : Values F) (name : String) : Option String :=
  match context.get? name with
  | some (.str "") | some .none | none => none
  | some v => some v.toText

def eventEvidence (sub : ActiveSubscription F) (stage : Stage F) (call : Call F)
    (usesFundamentals : Bool) (pred : PredicateResult F) : Values F :=
  let base := ((pred.evidence.set "epoch_id" (.str call.obs.epochId)).set "stage_id"
    (.str sub.stageId)).set "timeframe" (optStr stage.timeframe)
  let bound := match sub.instrumentBinding with
    | some (e :: es) => base.set "instrument_binding" (.dict (e :: es))
    | _ => base
  let revised := match sub.universeRevision with
    | some (.none) | none => bound
    | some v => bound.set "universe_revision" v
  if usesFundamentals then
    let acquired := match contextText call.context "fundamentals.acquired_at" with
      | some t => revised.set "fundamentals_acquired_at" (.str t)
      | none => revised
    match contextText call.context "fundamentals.as_of_date" with
    | some t => acquired.set "fundamentals_as_of_date" (.str t)
    | none => acquired
  else revised

/-- There is a context, and the stage or one of the layers uses fundamentals. -/
def ruleUsesFundamentals (stage : Stage F) (call : Call F) : Except PyErr Bool :=
  if call.context.isEmpty then .ok false
  else do
    let own ← stageUsesFundamentals stage
    if own then .ok true else stageNeedsFundamentals.anyStage (call.layers.map Prod.fst)

/-- What an evaluation computed before anything is published. -/
structure Evaluation (F : Type) where
  pred : PredicateResult F
  engine : EngineDecision F
  evidence : Values F

def evaluateSignal (env : ServiceEnv F) (sub : ActiveSubscription F) (session : Bool × String)
    (stage : Stage F) (alert : AlertSpec F) (call : Call F) (changed : Bool)
    (state : Checkpoint F) : Except PyErr (Evaluation F) := do
  let pred ← evaluateRule stage call state.toEvalState
  let usesFundamentals ← ruleUsesFundamentals stage call
  .ok
    { pred
      engine := decideRule env session stage alert call changed state pred
      evidence := eventEvidence sub stage call usesFundamentals pred }

/-! ## publication -/

def occurrenceKey (sub : ActiveSubscription F) (obs : Observation F) : String :=
  sub.workflowId ++ ":" ++ sub.revisionId ++ ":" ++ sub.id ++ ":" ++ sub.alertId ++ ":" ++
    sub.instrumentKey ++ ":" ++ isoformat obs.ts

def legacyKey (sub : ActiveSubscription F) (obs : Observation F) : String :=
  sub.workflowId ++ ":" ++ sub.alertId ++ ":" ++ sub.instrumentKey ++ ":candle:" ++ isoformat obs.ts

/-- The occurrence is recorded, under either key on the candle clock. -/
def alreadyRecorded (db : Db F) (sub : ActiveSubscription F) (stage : Stage F)
    (obs : Observation F) : Bool :=
  hasOccurrence db (occurrenceKey sub obs) ||
    (decide (stage.clock = .known .candleClose) && hasOccurrence db (legacyKey sub obs))

def signalEvent (sub : ActiveSubscription F) (call : Call F) (ev : Evaluation F) : SignalEvent F where
  subscriptionId := some sub.id
  workflowId := sub.workflowId
  occurrenceKey := occurrenceKey sub call.obs
  firedAt := call.obs.ts
  evidence := ev.evidence
  createdAt := call.now

/-- The silent audit record of a changed bar. -/
def correctionNotice (env : ServiceEnv F) (sub : ActiveSubscription F) (call : Call F)
    (ev : Evaluation F) : SignalEvent F :=
  let digest := env.payloadDigest (barPayload call.obs)
  { signalEvent sub call ev with
    occurrenceKey := "correction:" ++ occurrenceKey sub call.obs ++ ":" ++ digest
    evidence := (ev.evidence.set "correction_of" (.str (occurrenceKey sub call.obs))).set
      "correction_hash" (.str digest) }

/-- `_record_correction_notice`: once for each changed payload, to no channel. -/
def recordCorrectionNotice (env : ServiceEnv F) (sub : ActiveSubscription F) (call : Call F)
    (ev : Evaluation F) (db : Db F) : Except PyErr (Db F) :=
  let notice := correctionNotice env sub call ev
  if hasOccurrence db notice.occurrenceKey then .ok db else recordSignal db notice []

/-- Event and correction notice of an evaluation: the database with the emitted
flag, or none for an occurrence that is already recorded. -/
def publishSignal (env : ServiceEnv F) (sub : ActiveSubscription F) (stage : Stage F)
    (alert : AlertSpec F) (call : Call F) (correction : Bool) (ev : Evaluation F)
    (ownerEpoch : Int) (db : Db F) : Except PyErr (Option (Db F × Bool)) :=
  let owned := assertEvaluationOwner db sub.id sub.instrumentKey env.ownerId ownerEpoch call.now
  let recorded := alreadyRecorded db sub stage call.obs
  if ev.engine.emit && call.allowEmit then
    if !owned then .error .leaseConflict
    else if !recorded then do
      let db ← recordSignal db (signalEvent sub call ev)
        (resolveChannels env sub.ownerId alert.channels)
      .ok (some (db, true))
    else if correction then do
      let db ← recordCorrectionNotice env sub call ev db
      .ok (some (db, false))
    else .ok none
  else if correction && call.allowEmit && recorded then
    if !owned then .error .leaseConflict
    else do
      let db ← recordCorrectionNotice env sub call ev db
      .ok (some (db, false))
  else .ok (some (db, false))

/-- Warmup leaves no trace in the live lifecycle: `fired_once`, `last_session`,
`last_emitted_ts`, `cooldown_until` and `armed` are removed. -/
def EvalState.withoutLifecycle (state : EvalState F) : EvalState F :=
  { state with
    firedOnce := false, lastSession := none, lastEmittedTs := none, cooldownUntil := none, armed := true }

/-- The epoch, and on the tick clock the receipt of the tick. -/
def stampObservation (stage : Stage F) (obs : Observation F) (state : EvalState F) : EvalState F :=
  let stamped := { state with epochId := some obs.epochId }
  if stage.clock = .known .ltp ∧ obs.receivedAt.isSome then
    { stamped with lastTickReceivedAt := obs.receivedAt, lastTickTs := some obs.ts }
  else stamped

/-- The checkpoint that an evaluation saves: a final bar is remembered with the
state before it. -/
def nextCheckpoint (stage : Stage F) (call : Call F) (state : Checkpoint F)
    (decided : EvalState F) : Checkpoint F :=
  let kept := if call.allowEmit then decided else decided.withoutLifecycle
  let stamped := stampObservation stage call.obs kept
  if call.obs.final then
    { toEvalState := { stamped with lastBarTs := some call.obs.ts }
      lastBarState := some state.toEvalState
      lastBarPayload := some (barPayload call.obs) }
  else
    { toEvalState := stamped
      lastBarState := state.lastBarState
      lastBarPayload := state.lastBarPayload }

/-- Why a committed evaluation shows no new event. -/
def signalReason (call : Call F) (prepared : Prepared F) (ltpGap : Bool) (ev : Evaluation F)
    (emitted : Bool) : Option Suppression :=
  if prepared.correction && !emitted then some .candleCorrection
  else if !call.allowEmit && ev.engine.emit then some .warmup
  else if ev.engine.emit then if emitted then none else some .duplicateOccurrence
  else if prepared.gap then some .feedGap
  else if ltpGap then some .ltpGap
  else ev.engine.suppressionReason

/-! ## a signal subscription -/

/-- The stored state of a subscription; on the tick clock a new epoch continues
from the newest checkpoint. -/
def loadState (db : Db F) (sub : ActiveSubscription F) (stage : Stage F) (obs : Observation F) :
    Checkpoint F × Int :=
  ((loadCheckpoint db sub.id sub.instrumentKey obs.epochId).or
    (if stage.clock = .known .ltp then loadLatestCheckpoint db sub.id sub.instrumentKey
     else none)).getD ({}, 0)

/-- `_persist_continuity_invalidation`: the reset state is committed on its own; a
lost lease keeps everything. -/
def persistContinuityInvalidation (sub : ActiveSubscription F) (call : Call F)
    (state : Checkpoint F) (storedEpoch : Int) (db : Db F) : Checkpoint F × Int × Db F :=
  let reset : Checkpoint F :=
    { resetObservationState state with
      lastTickReceivedAt := call.obs.receivedAt
      lastTickTs := some call.obs.ts
      continuityInvalidatedAt := some call.obs.ts
      continuityInvalidationReason := some "ltp_gap" }
  match saveCheckpoint db sub.id sub.instrumentKey call.obs.epochId reset storedEpoch call.now with
  | none => (state, storedEpoch, db)
  | some (epoch, db) => (reset, epoch, db)

/-- Where an evaluation starts: the prepared state with the owner epoch it was
loaded with, and the database a rollback returns to. -/
structure Start (F : Type) where
  prepared : Prepared F
  ltpGap : Bool
  storedEpoch : Int
  base : Db F

/-- The start of an evaluation from the loaded state; none for an old bar. -/
def startOf (env : ServiceEnv F) (sub : ActiveSubscription F) (stage : Stage F) (call : Call F)
    (loaded : Checkpoint F × Int) (db : Db F) : Option (Start F) :=
  if stage.clock = .known .candleClose then
    (prepareBar stage loaded.1 call.obs).map fun prepared => ⟨prepared, false, loaded.2, db⟩
  else if stage.clock = .known .ltp ∧ env.ltpFreshnessEnabled ∧ ltpGapDetected env loaded.1 call.obs then
    let reset := persistContinuityInvalidation sub call loaded.1 loaded.2 db
    some ⟨{ state := reset.1 }, true, reset.2.1, reset.2.2⟩
  else some ⟨{ state := loaded.1 }, false, loaded.2, db⟩

/-- The last part of a signal evaluation: fence, checkpoint, lifecycle, result. -/
def commitSignal (env : ServiceEnv F) (sub : ActiveSubscription F) (stage : Stage F)
    (call : Call F) (start : Start F) (ev : Evaluation F) (ownerEpoch : Int) (emitted : Bool)
    (db : Db F) : HandleResult × Db F :=
  let lost : HandleResult := ⟨ev.pred.fired || ev.engine.emit, false, some .leaseLost, false⟩
  if !assertEvaluationOwner db sub.id sub.instrumentKey env.ownerId ownerEpoch call.now then
    (lost, start.base)
  else
    match saveCheckpoint db sub.id sub.instrumentKey call.obs.epochId
        (nextCheckpoint stage call start.prepared.state ev.engine.newState) start.storedEpoch
        call.wallNow with
    | none => (lost, start.base)
    | some (_, db) =>
      let completes := ev.engine.ruleCompleted && call.allowEmit
      ({ fired := ev.pred.fired || ev.engine.emit
         emitted
         suppressionReason := signalReason call start.prepared start.ltpGap ev emitted
         ruleCompleted := completes },
       if completes then { db with completed := db.completed ++ [sub.id] } else db)

/-- From the decision to the commit.  The per-session cap names `advanced_repo`,
which the module does not define. -/
def finishSignal (env : ServiceEnv F) (sub : ActiveSubscription F) (stage : Stage F)
    (alert : AlertSpec F) (call : Call F) (start : Start F) (ev : Evaluation F) (ownerEpoch : Int)
    (db : Db F) (s : ServiceState F) : Except PyErr HandleResult × ServiceState F :=
  let live := ev.engine.emit && call.allowEmit
  if live && stormBudgetExceeded env s sub call.now then
    (.ok ⟨ev.pred.fired || ev.engine.emit, false, some .stormBudget, false⟩, { s with db := start.base })
  else if live && alert.maxPerSession.any fun m => decide (m ≠ 0) then
    (.error (.name "advanced_repo"), { s with db := start.base })
  else
    let windows := if live then recordEmission env s.emissionWindows sub call.now
      else s.emissionWindows
    match publishSignal env sub stage alert call start.prepared.correction ev ownerEpoch db with
    | .error e => (.error e, ⟨start.base, windows⟩)
    | .ok none =>
      (.ok ⟨ev.pred.fired, false, some .duplicateOccurrence, false⟩, ⟨start.base, windows⟩)
    | .ok (some (db, emitted)) =>
      let out := commitSignal env sub stage call start ev ownerEpoch emitted db
      (.ok out.1, ⟨out.2, windows⟩)

/-- `handle_observation` for a signal stage. -/
def handleSignal (env : ServiceEnv F) (sub : ActiveSubscription F) (session : String)
    (stage : Stage F) (alert : AlertSpec F) (call : Call F) (s : ServiceState F) :
    Except PyErr HandleResult × ServiceState F :=
  match claimEvaluation s.db sub.id sub.instrumentKey env.ownerId env.lease call.now with
  | none => (.ok (stopped .notOwner), s)
  | some (ownerEpoch, claimed) =>
    let loaded := loadState claimed sub stage call.obs
    match startOf env sub stage call loaded s.db with
    | none => (.ok (stopped .staleBar), s)
    | some start =>
      let resolved := resolveSession env session sub.instrumentKey call.obs.ts
      match evaluateSignal env sub resolved stage alert call (epochChanged loaded.1 call.obs)
          start.prepared.state with
      | .error e => (.error e, { s with db := start.base })
      | .ok ev =>
        finishSignal env sub stage alert call start ev ownerEpoch
          { start.base with ownership := claimed.ownership } s

/-! ## a breadth subscription -/

/-- The conditions of the groups of one kind. -/
def conditionsOfKind (kind : GroupKind) (groups : List (ConditionGroup F)) : List (Condition F) :=
  (groups.filter fun g => g.kind = kind).flatMap ConditionGroup.conditions

def breadthMemberStage (stage : Stage F) (spec : BreadthSpec F) : Stage F where
  id := "__breadth_member__:" ++ stage.id
  type := .known .signal
  clock := stage.clock
  timeframe := stage.timeframe
  conditions := conditionsOfKind .all spec.condition
  anyConditions := conditionsOfKind .any spec.condition
  notConditions := conditionsOfKind .not spec.condition

def breadthSessionId (resolved : Bool × String) : String :=
  let text := Text.strip resolved.2
  if text = "" then "default" else text

/-- The arguments of `evaluate_breadth` for a subscription. -/
def breadthArgs (env : ServiceEnv F) (sub : ActiveSubscription F) (spec : BreadthSpec F)
    (call : Call F) : BreadthArgs where
  key := ⟨sub.ownerId, sub.workflowId, sub.revisionId, sub.stageId⟩
  distinctInstruments := spec.distinctInstruments
  windowS := spec.windowS
  memberKeys := call.membership.members
  memberUniverseRevision := call.membership.universeRevision
  membershipResolvedAt := call.membership.resolvedAt
  maxInstruments := env.breadthMaxInstruments
  membershipMaxAgeS := env.breadthMembershipMaxAgeS
  membershipNow := some (call.clock.getD call.wallNow)

/-- The occurrence key of a breadth crossing. -/
def crossingKey (sub : ActiveSubscription F) (stage : Stage F) (crossingSeq : Int) : String :=
  sub.workflowId ++ ":" ++ sub.revisionId ++ ":" ++ stage.id ++ ":breadth:" ++ toString crossingSeq

def crossingEvent (sub : ActiveSubscription F) (workflowName : String) (stage : Stage F)
    (spec : BreadthSpec F) (alert : AlertSpec F) (call : Call F) (outcome : BreadthOutcome) :
    SignalEvent F where
  subscriptionId := none
  workflowId := sub.workflowId
  occurrenceKey := crossingKey sub stage outcome.crossingSeq
  firedAt := call.obs.ts
  createdAt := call.obs.ts
  evidence :=
    [("message_kind", .str "breadth"), ("workflow_id", .str sub.workflowId),
     ("workflow_name", .str (if workflowName = "" then "workflow" else workflowName)),
     ("stage_id", .str stage.id), ("mode", .str spec.mode.text), ("action", .str "breadth_crossing"),
     ("trigger", .str "on_transition"), ("count", .int outcome.count),
     ("threshold", .int spec.distinctInstruments), ("members", .int outcome.members),
     ("instruments", .list (outcome.contributors.map .str)),
     ("window_start", optStr (outcome.windowStart.map isoformat)),
     ("event_time", .str (isoformat call.obs.ts)),
     ("evaluated_at", optStr (outcome.evaluatedAt.map isoformat)),
     ("contributing_instrument", .str sub.instrumentKey), ("crossing_seq", .int outcome.crossingSeq),
     ("universe_revision", optInt call.membership.universeRevision), ("message", optStr alert.message)] ++
    (match outcome.reason with
     | some reason => [("aggregate_note", .str (Named.name reason))]
     | none => [])

/-- `_publish_breadth_crossing`: the crossing number is the identity, so a second
publication of the same crossing writes nothing. -/
def publishBreadthCrossing (env : ServiceEnv F) (sub : ActiveSubscription F)
    (workflowName : String) (stage : Stage F) (spec : BreadthSpec F) (alert : AlertSpec F)
    (call : Call F) (outcome : BreadthOutcome) (ownerEpoch : Int) (db : Db F) :
    Except PyErr (Db F × Bool) :=
  if !assertEvaluationOwner db sub.id sub.instrumentKey env.ownerId ownerEpoch call.now then
    .error .leaseConflict
  else
    match recordSignal db (crossingEvent sub workflowName stage spec alert call outcome)
        (resolveChannels env sub.ownerId alert.channels) with
    | .ok db => .ok (db, true)
    | .error _ => .ok (db, false)

/-- The outcome refuses the evaluation (`BreadthOutcome.blocking`). -/
def BreadthOutcome.blocking (outcome : BreadthOutcome) : Bool := outcome.matched.isNone

/-- What a breadth outcome publishes: the database, the emitted flag and the
suppression reason. -/
def publishBreadth (env : ServiceEnv F) (sub : ActiveSubscription F)
    (document : WorkflowDocument F) (stage : Stage F) (spec : BreadthSpec F) (alert : AlertSpec F)
    (call : Call F) (outcome : BreadthOutcome) (ownerEpoch : Int) (db : Db F) :
    Except PyErr (Db F × Bool × Option Suppression) :=
  if outcome.blocking then .ok (db, false, outcome.reason.map .breadth)
  else if outcome.fired then
    if !call.allowEmit then .ok (db, false, some .warmup)
    else
      let slot : SessionSlot :=
        ⟨sub.ownerId, sub.workflowId, sub.revisionId, sub.alertId,
          breadthSessionId (resolveSession env document.session sub.instrumentKey call.obs.ts)⟩
      let reserved := match alert.maxPerSession with
        | none | some 0 => some db
        | some m => reserveSessionSlot db slot m
      match reserved with
      | none =>
        .ok (recordSuppression db slot .sessionCap (some sub.instrumentKey) (some sub.stageId)
          call.obs.ts, false, some .sessionCap)
      | some db => do
        let published ← publishBreadthCrossing env sub document.name stage spec alert call outcome
          ownerEpoch db
        .ok (published.1, published.2, if published.2 then none else some .duplicateOccurrence)
  else .ok (db, false, outcome.reason.map .breadth)

def memberCheckpoint (call : Call F) (state : Checkpoint F) (decided : EvalState F) :
    Checkpoint F where
  toEvalState :=
    { decided with
      epochId := some call.obs.epochId
      lastBarTs := if call.obs.final then some call.obs.ts else decided.lastBarTs }
  lastBarState := state.lastBarState
  lastBarPayload := state.lastBarPayload

/-- `_handle_breadth_observation`: one member's bar, and the aggregate it may
complete. -/
def handleBreadth (env : ServiceEnv F) (sub : ActiveSubscription F)
    (document : WorkflowDocument F) (stage : Stage F) (spec : BreadthSpec F) (alert : AlertSpec F)
    (call : Call F) (s : ServiceState F) : Except PyErr HandleResult × ServiceState F :=
  match claimEvaluation s.db sub.id sub.instrumentKey env.ownerId env.lease call.now with
  | none => (.ok (stopped .notOwner), s)
  | some (ownerEpoch, db) =>
    let loaded := (loadCheckpoint db sub.id sub.instrumentKey call.obs.epochId).getD ({}, 0)
    match evaluateStage (breadthMemberStage stage spec) call.input loaded.1.toEvalState with
    | .error e => (.error e, s)
    | .ok member =>
      let triggering := if member.matched = some true then some sub.instrumentKey else none
      let counted := evaluateBreadth (breadthArgs env sub spec call) triggering call.obs.ts
        db.breadth
      let outcome := counted.1
      match publishBreadth env sub document stage spec alert call outcome ownerEpoch
          { db with breadth := counted.2 } with
      | .error e => (.error e, s)
      | .ok (db, emitted, suppression) =>
        if !assertEvaluationOwner db sub.id sub.instrumentKey env.ownerId ownerEpoch
            call.now then
          (.ok (stopped .leaseLost), s)
        else
          match saveCheckpoint db sub.id sub.instrumentKey call.obs.epochId
              (memberCheckpoint call loaded.1 member.state) loaded.2 call.wallNow with
          | none => (.ok (stopped .leaseLost), s)
          | some (_, db) =>
            (.ok ⟨outcome.fired || emitted, emitted, suppression, false⟩, { s with db })

/-- `_parse_document`: the document of the subscription's revision; a document that
does not parse is skipped, other errors surface. -/
def parseDocument (sub : ActiveSubscription F) : Except PyErr (Option (WorkflowDocument F)) :=
  match Parse.parseWorkflowDict sub.document with
  | .ok p => .ok (some p.document)
  | .error (.workflowParse _) | .error (.value _) | .error (.type _) => .ok none
  | .error e => .error e

def handleObservation (env : ServiceEnv F) (sub : ActiveSubscription F) (call : Call F)
    (s : ServiceState F) : Except PyErr HandleResult × ServiceState F :=
  match parseDocument sub with
  | .error e => (.error e, s)
  | .ok none => (.ok noop, s)
  | .ok (some document) =>
    match document.stage? sub.stageId, document.alerts.find? fun a => a.id = sub.alertId with
    | some stage, some alert =>
      match stage.breadth with
      | some spec => handleBreadth env sub document stage spec alert call s
      | none => handleSignal env sub document.session stage alert call s
    | _, _ => (.ok noop, s)

end KiteAlgo
