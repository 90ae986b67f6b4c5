import KiteAlgo.Service.Gaps
import KiteAlgo.Time.Iso

/-!
# KiteAlgo.Service.Corrections

Redelivered and corrected bars of one candle-clock subscription.  A delivered bar is
newer than the last one, a changed version of it, or stale; `versions` keeps of every
bar the last version that was processed.

A correction starts from `last_bar_state`, which is what the replaced version was
evaluated on, gap reset included.  So the stored checkpoint is always the one that
`replay` computes from the kept versions alone, and the service computes the same when
only these are delivered (`redelivery_absorbed`).
-/

namespace KiteAlgo

open List Bool
variable {F : Type} [PyFloat F]

/-! ## occurrence keys -/

section Keys

variable {sub : ActiveSubscription F} {obs obs' : Observation F}

/-- The event is recorded under neither key of the bar. -/
def Elsewhere (sub : ActiveSubscription F) (obs : Observation F) (event : SignalEvent F) : Prop :=
  event.occurrenceKey ≠ occurrenceKey sub obs ∧ event.occurrenceKey ≠ legacyKey sub obs

omit [PyFloat F] in
theorem toList_occurrenceKey (sub : ActiveSubscription F) (obs : Observation F) :
    (occurrenceKey sub obs).toList = (sub.workflowId ++ ":" ++ sub.revisionId ++ ":" ++ sub.id ++ ":" ++
      sub.alertId ++ ":" ++ sub.instrumentKey ++ ":").toList ++ (isoformat obs.ts).toList := by
  rw [occurrenceKey, String.toList_append]

omit [PyFloat F] in
theorem toList_legacyKey (sub : ActiveSubscription F) (obs : Observation F) :
    (legacyKey sub obs).toList = (sub.workflowId ++ ":" ++ sub.alertId ++ ":" ++ sub.instrumentKey ++
      ":candle:").toList ++ (isoformat obs.ts).toList := by
  rw [legacyKey, String.toList_append]

omit [PyFloat F] in
theorem signal_elsewhere (hts : ValidTs obs.ts) (hts' : ValidTs obs'.ts) (hne : obs.ts ≠ obs'.ts) :
    occurrenceKey sub obs ≠ occurrenceKey sub obs' ∧ occurrenceKey sub obs ≠ legacyKey sub obs' := by
  constructor
  · intro heq
    have hlists := congrArg String.toList heq
    rw [toList_occurrenceKey, toList_occurrenceKey] at hlists
    exact hne (isoformat_suffix_inj hts hts' hlists)
  · intro heq
    have hlists := congrArg String.toList heq
    rw [toList_occurrenceKey, toList_legacyKey] at hlists
    exact hne (isoformat_suffix_inj hts hts' hlists)

omit [PyFloat F] in
theorem notice_elsewhere (hts : ValidTs obs.ts) (hts' : ValidTs obs'.ts) (digest : String) :
    "correction:" ++ occurrenceKey sub obs ++ ":" ++ digest ≠ occurrenceKey sub obs' ∧
      "correction:" ++ occurrenceKey sub obs ++ ":" ++ digest ≠ legacyKey sub obs' := by
  have hlength := length_isoformat hts
  have hlength' := length_isoformat hts'
  constructor
  · intro heq
    have hlists := congrArg (fun t => t.toList.length) heq
    simp only [String.toList_append, length_append, toList_occurrenceKey] at hlists
    have hword : "correction:".toList.length = 11 := rfl
    have hcolon : ":".toList.length = 1 := rfl
    omega
  · intro heq
    cases hdigest : digest.toList with
    | nil =>
      have hlast := congrArg (fun t => t.toList.getLast?) heq
      simp only [String.toList_append, hdigest, append_nil, toList_legacyKey] at hlast
      rw [getLast?_append, getLast?_append, getLast?_append, getLast?_isoformat]
        at hlast
      cases hlast
    | cons c cs =>
      have hlists := congrArg (fun t => t.toList.length) heq
      simp only [String.toList_append, length_append, toList_occurrenceKey, toList_legacyKey,
        hdigest, length_cons] at hlists
      have hword : "correction:".toList.length = 11 := rfl
      have hcolon : ":".toList.length = 1 := rfl
      have hcandle : ":candle:".toList.length = 8 := rfl
      omega

end Keys

/-! ## one prepared call -/

section Call

variable {env : ServiceEnv F} {session : String} {stage : Stage F} {alert : AlertSpec F}
  {sub : ActiveSubscription F} {call : Call F} {s : ServiceState F}

/-- The service's owner holds the subscription, or nobody does. -/
def Owned (env : ServiceEnv F) (sub : ActiveSubscription F) (db : Db F) : Prop :=
  ∀ row, db.ownership.get? (sub.id, sub.instrumentKey) = some row → row.ownerId = env.ownerId

omit [PyFloat F] in
theorem claimEvaluation_of_owned (call : Call F) (h : Owned env sub s.db) :
    ∃ epoch claimed, claimEvaluation s.db sub.id sub.instrumentKey env.ownerId env.lease call.now =
        some (epoch, claimed) ∧ Owned env sub claimed := by
  have hwritten : ∀ epoch until_, Owned env sub { s.db with
      ownership := s.db.ownership.upsert (sub.id, sub.instrumentKey) ⟨env.ownerId, epoch, until_⟩ } := by
    intro epoch until_ row hrow
    rw [Table.get?_upsert_self] at hrow
    rw [← Option.some.inj hrow]
  unfold claimEvaluation
  cases hrow : s.db.ownership.get? (sub.id, sub.instrumentKey) with
  | none => exact ⟨_, _, rfl, hwritten _ _⟩
  | some row => exact ⟨_, _, if_pos (h row hrow), hwritten _ _⟩

def Uncapped (alert : AlertSpec F) : Prop := (alert.maxPerSession.any fun m => decide (m ≠ 0)) = false

/-- What a call computes on a prepared state, in the epoch of the stored one. -/
def evaluateBar (env : ServiceEnv F) (session : String) (stage : Stage F) (alert : AlertSpec F)
    (r : Request F) (state : Checkpoint F) : Except PyErr (Evaluation F) :=
  evaluateSignal env r.sub (resolveSession env session r.sub.instrumentKey r.call.obs.ts) stage alert
    r.call false state

/-- The bar can be evaluated, and a decision to emit meets no session cap. -/
def Accepted (env : ServiceEnv F) (session : String) (stage : Stage F) (alert : AlertSpec F)
    (r : Request F) (state : Checkpoint F) : Prop :=
  ∃ ev, evaluateBar env session stage alert r state = .ok ev ∧ (ev.engine.emit = true → Uncapped alert)

variable {state state' : Checkpoint F}

theorem evaluateBar_congr {r : Request F} (h : state'.toEvalState = state.toEvalState) :
    evaluateBar env session stage alert r state' = evaluateBar env session stage alert r state := by
  simp only [evaluateBar, evaluateSignal, decideRule, engineInput, h]

omit [PyFloat F] in
theorem nextCheckpoint_congr {decided : EvalState F} (hfinal : call.obs.final)
    (h : state'.toEvalState = state.toEvalState) :
    nextCheckpoint stage call state' decided = nextCheckpoint stage call state decided := by
  simp only [nextCheckpoint, hfinal, if_true, h]

variable {ownerEpoch : Int} {prepared : Prepared F}

theorem handleSignal_prepared (hclock : stage.clock = .known .candleClose)
    (hprepare : prepareBar stage (epochState s sub call.obs.epochId) call.obs = some prepared)
    (hepoch : epochChanged (epochState s sub call.obs.epochId) call.obs = false) {claimed : Db F}
    (hclaim : claimEvaluation s.db sub.id sub.instrumentKey env.ownerId env.lease call.now =
      some (ownerEpoch, claimed)) :
    handleSignal env sub session stage alert call s =
      match evaluateBar env session stage alert ⟨sub, call⟩ prepared.state with
      | .error e => (.error e, s)
      | .ok ev => finishSignal env sub stage alert call
          ⟨prepared, false, (loadState s.db sub stage call.obs).2, s.db⟩ ev ownerEpoch
          { s.db with ownership := claimed.ownership } s := by
  obtain ⟨-, hcheckpoints, -, -⟩ := assertEvaluationOwner_of_claim hclaim
  have hload : (loadState s.db sub stage call.obs).1 = epochState s sub call.obs.epochId :=
    storedState_candle hclock s call.obs
  have hstart : startOf env sub stage call (loadState s.db sub stage call.obs) s.db =
      some ⟨prepared, false, (loadState s.db sub stage call.obs).2, s.db⟩ := by
    rw [startOf, if_pos hclock, hload, hprepare]
    rfl
  simp only [handleSignal, hclaim, loadState_congr hcheckpoints sub stage call.obs, hstart, hload, hepoch]
  rfl

variable {db : Db F}

omit [PyFloat F] in
theorem recordSignal_completes {event : SignalEvent F} (channels : List String)
    (h : hasOccurrence db event.occurrenceKey = false) :
    ∃ db', recordSignal db event channels = .ok db' ∧ db'.ownership = db.ownership := by
  rw [recordSignal, h]
  exact ⟨_, rfl, rfl⟩

omit [PyFloat F] in
theorem recordCorrectionNotice_completes (env : ServiceEnv F) (sub : ActiveSubscription F)
    (call : Call F) (ev : Evaluation F) (db : Db F) :
    ∃ db', recordCorrectionNotice env sub call ev db = .ok db' ∧ db'.ownership = db.ownership := by
  unfold recordCorrectionNotice
  simp only
  split
  · exact ⟨db, rfl, rfl⟩
  · next hnew => exact recordSignal_completes [] (by simpa using hnew)

omit [PyFloat F] in
theorem publishSignal_completes (alert : AlertSpec F) (ev : Evaluation F) {correction : Bool}
    (howner : assertEvaluationOwner db sub.id sub.instrumentKey env.ownerId ownerEpoch call.now)
    (hnew : correction = false → alreadyRecorded db sub stage call.obs = false) :
    ∃ db' emitted, publishSignal env sub stage alert call correction ev ownerEpoch db =
        .ok (some (db', emitted)) ∧ db'.ownership = db.ownership := by
  have hnotice : ∃ db' emitted, (do
      let db ← recordCorrectionNotice env sub call ev db
      .ok (some (db, false)) : Except PyErr (Option (Db F × Bool))) = .ok (some (db', emitted)) ∧
        db'.ownership = db.ownership := by
    obtain ⟨db', hrecorded, howned⟩ := recordCorrectionNotice_completes env sub call ev db
    rw [hrecorded]
    exact ⟨db', false, rfl, howned⟩
  simp only [publishSignal, howner, Bool.not_true, false_eq_true, if_false]
  split
  · split
    · next hfree =>
      have hoccurrence : hasOccurrence db (signalEvent sub call ev).occurrenceKey = false := by
        rw [not_eq_true', alreadyRecorded, or_eq_false_iff] at hfree
        exact hfree.1
      obtain ⟨db', hrecorded, howned⟩ :=
        recordSignal_completes (resolveChannels env sub.ownerId alert.channels) hoccurrence
      rw [hrecorded]
      exact ⟨db', true, rfl, howned⟩
    · next hrecorded =>
      cases correction with
      | true => exact hnotice
      | false =>
        rw [hnew rfl] at hrecorded
        exact absurd rfl hrecorded
  · split
    · exact hnotice
    · exact ⟨db, false, rfl, rfl⟩

omit [PyFloat F] in
theorem commitSignal_completes (hclock : stage.clock = .known .candleClose) {prepared : Prepared F}
    {ev : Evaluation F} {ownerEpoch : Int} {emitted : Bool} {db : Db F}
    (howner : assertEvaluationOwner db sub.id sub.instrumentKey env.ownerId ownerEpoch call.now)
    (hrows : db.checkpoints = s.db.checkpoints) :
    ∃ result db', commitSignal env sub stage call
        ⟨prepared, false, (loadState s.db sub stage call.obs).2, s.db⟩ ev ownerEpoch emitted db =
        (result, db') ∧ db'.ownership = db.ownership ∧ db'.events = db.events ∧
      ∀ windows, epochState ⟨db', windows⟩ sub call.obs.epochId =
        nextCheckpoint stage call prepared.state ev.engine.newState := by
  have hsave : ∃ epoch saved, saveCheckpoint db sub.id sub.instrumentKey call.obs.epochId
      (nextCheckpoint stage call prepared.state ev.engine.newState)
      (loadState s.db sub stage call.obs).2 call.wallNow = some (epoch, saved) ∧
        saved.ownership = db.ownership := by
    unfold saveCheckpoint
    simp only [loadState, loadCheckpoint, hclock]
    rw [hrows]
    cases hrow : s.db.checkpoints.get? (sub.id, sub.instrumentKey, call.obs.epochId) with
    | none => exact ⟨_, _, rfl, rfl⟩
    | some row => exact ⟨_, _, if_pos rfl, rfl⟩
  obtain ⟨epoch, saved, hsave, hownership⟩ := hsave
  obtain ⟨hcheckpoints, -, hevents⟩ := saveCheckpoint_ok hsave
  simp only [commitSignal, howner, Bool.not_true, false_eq_true, if_false, hsave]
  refine ⟨_, _, rfl, ?_, ?_, fun windows => ?_⟩
  · split <;> exact hownership
  · split <;> exact hevents
  · split <;> simp [epochState, loadCheckpoint, hcheckpoints]

theorem handleSignal_accepted (hclock : stage.clock = .known .candleClose)
    (hlive : call.allowEmit) (howned : Owned env sub s.db)
    (hprepare : prepareBar stage (epochState s sub call.obs.epochId) call.obs = some prepared)
    (hepoch : epochChanged (epochState s sub call.obs.epochId) call.obs = false)
    (hbudget : stormBudgetExceeded env s sub call.now = false)
    (hnew : prepared.correction = false → alreadyRecorded s.db sub stage call.obs = false)
    {ev : Evaluation F}
    (hev : evaluateBar env session stage alert ⟨sub, call⟩ prepared.state = .ok ev)
    (hcap : ev.engine.emit → Uncapped alert) :
    ∃ result s', handleSignal env sub session stage alert call s = (.ok result, s') ∧
      epochState s' sub call.obs.epochId = nextCheckpoint stage call prepared.state ev.engine.newState ∧
      Owned env sub s'.db ∧ ∃ published, s'.db.events = s.db.events ++ published ∧
        Published env sub call prepared.correction ev published := by
  obtain ⟨ownerEpoch, claimed, hclaim, hclaimed⟩ := claimEvaluation_of_owned call howned
  obtain ⟨howner, hcheckpoints, -, -⟩ := assertEvaluationOwner_of_claim hclaim
  have hcapped : (ev.engine.emit && call.allowEmit &&
      alert.maxPerSession.any fun m => decide (m ≠ 0)) = false := by
    cases hemit : ev.engine.emit with
    | false => rfl
    | true =>
      rw [hlive]
      exact hcap hemit
  have hfence : assertEvaluationOwner { s.db with ownership := claimed.ownership } sub.id
      sub.instrumentKey env.ownerId ownerEpoch call.now := howner
  obtain ⟨recorded, emitted, hpublish, hownership⟩ :=
    publishSignal_completes alert ev hfence (fun hcorrection => hnew hcorrection)
  obtain ⟨hrows, published, hevents, hpublished⟩ := publishSignal_ok hpublish
  have hstill : assertEvaluationOwner recorded sub.id sub.instrumentKey env.ownerId ownerEpoch
      call.now := by
    rw [assertEvaluationOwner, hownership]
    exact howner
  obtain ⟨result, db', hcommit, hkept, hsame, hstate⟩ :=
    @commitSignal_completes F env stage sub call s hclock prepared ev ownerEpoch emitted recorded hstill
      hrows
  refine ⟨result, ⟨db', if (ev.engine.emit && call.allowEmit) = true then
    recordEmission env s.emissionWindows sub call.now else s.emissionWindows⟩, ?_, hstate _, ?_,
    published, ?_, hpublished⟩
  · rw [handleSignal_prepared hclock hprepare hepoch hclaim, hev]
    simp only [finishSignal, hbudget, hcapped, Bool.and_false, false_eq_true, if_false, hpublish,
      hcommit]
  · intro row hrow
    have hrow' : recorded.ownership.get? (sub.id, sub.instrumentKey) = some row := hkept ▸ hrow
    rw [hownership] at hrow'
    exact hclaimed row hrow'
  · exact hsame.trans hevents

theorem handleSignal_rejected (hclock : stage.clock = .known .candleClose)
    (hlive : call.allowEmit) (howned : Owned env sub s.db)
    (hprepare : prepareBar stage (epochState s sub call.obs.epochId) call.obs = some prepared)
    (hepoch : epochChanged (epochState s sub call.obs.epochId) call.obs = false)
    (hbudget : stormBudgetExceeded env s sub call.now = false)
    (hreject : ¬ Accepted env session stage alert ⟨sub, call⟩ prepared.state) :
    (handleSignal env sub session stage alert call s).1.isOk = false ∧
      (handleSignal env sub session stage alert call s).2.db = s.db := by
  obtain ⟨ownerEpoch, claimed, hclaim, -⟩ := claimEvaluation_of_owned call howned
  rw [handleSignal_prepared hclock hprepare hepoch hclaim]
  cases hev : evaluateBar env session stage alert ⟨sub, call⟩ prepared.state with
  | error e => exact ⟨rfl, rfl⟩
  | ok ev =>
    have hemit : ev.engine.emit := by
      rw [← not_eq_false]
      intro hsilent
      exact hreject ⟨ev, hev, fun h => by rw [hsilent] at h; cases h⟩
    have hcap : (alert.maxPerSession.any fun m => decide (m ≠ 0)) = true := by
      rw [← not_eq_false]
      intro huncapped
      exact hreject ⟨ev, hev, fun _ => huncapped⟩
    simp only [finishSignal, hemit, hlive, hbudget, hcap]
    exact ⟨rfl, rfl⟩

end Call

section Prepare

variable {stage : Stage F} {stored : Checkpoint F} {obs : Observation F}

variable {before : Checkpoint F} {last : Observation F}

omit [PyFloat F] in
theorem detectGap_barState (hts : obs.ts = last.ts) :
    detectGap stage { toEvalState := (barState stage before last).toEvalState } obs = false := by
  unfold barState
  split
  · rfl
  · next hgap =>
    have hsame : detectGap stage { toEvalState := before.toEvalState } obs =
      detectGap stage before last := detectGap_congr rfl hts
    rw [hsame]
    simpa using hgap

theorem prepareBar_changed (hfinal : obs.final) (hts : obs.ts = last.ts)
    (hlastTs : stored.lastBarTs = some last.ts)
    (hpayload : stored.lastBarPayload = some (barPayload last))
    (hstate : stored.lastBarState = some (barState stage before last).toEvalState)
    (hchanged : (barPayload last).same (barPayload obs) = false) :
    prepareBar stage stored obs =
      some ⟨{ toEvalState := (barState stage before last).toEvalState }, true, false⟩ := by
  have hcorrection : isCorrection stored obs := by
    simp [isCorrection, hlastTs, hpayload, hfinal, hts, hchanged]
  simp only [prepareBar, hcorrection, if_true, hstate, Option.map_some, detectGap_barState hts,
    false_eq_true, if_false]

theorem prepareBar_stale {last : Observation F} (hlastTs : stored.lastBarTs = some last.ts)
    (hpayload : stored.lastBarPayload = some (barPayload last)) (hold : obs.ts ≤ last.ts)
    (hsame : obs.ts = last.ts → (barPayload last).same (barPayload obs)) :
    prepareBar stage stored obs = none := by
  have hcorrection : isCorrection stored obs = false := by
    by_cases hts : obs.ts = last.ts
    · simp [isCorrection, hlastTs, hpayload, hsame hts]
    · simp [isCorrection, hlastTs, hpayload, hts]
  have hstale : isStaleBar stored obs := by
    simp [isStaleBar, hlastTs, hold]
  rw [prepareBar, hcorrection, hstale]
  rfl

end Prepare

/-! ## the kept versions -/

/-- A processed bar among the kept ones: a newer bar is added, a changed version takes the
place of the last one, a stale bar is dropped. -/
def absorb (kept : List (Request F)) (r : Request F) : List (Request F) :=
  match kept.getLast? with
  | none => [r]
  | some last =>
    if last.call.obs.ts < r.call.obs.ts then kept ++ [r]
    else if last.call.obs.ts = r.call.obs.ts ∧
        (barPayload last.call.obs).same (barPayload r.call.obs) = false then kept.dropLast ++ [r]
    else kept

/-- The last version of each bar that was processed, in time order.  A call that raises
processes nothing. -/
def versions (env : ServiceEnv F) (kept : List (Request F)) :
    List (Request F) → ServiceState F → List (Request F)
  | [], _ => kept
  | r :: rest, s =>
    let call := handleObservation env r.sub r.call s
    versions env (if call.1.isOk then absorb kept r else kept) rest call.2

/-- Live final bars of one subscription and epoch. -/
structure LiveBars (sub : ActiveSubscription F) (epoch : String) (reqs : List (Request F)) : Prop where
  own : ∀ r ∈ reqs, r.sub = sub
  oneEpoch : ∀ r ∈ reqs, r.call.obs.epochId = epoch
  live : ∀ r ∈ reqs, r.call.allowEmit = true
  final : ∀ r ∈ reqs, r.call.obs.final = true
  valid : ∀ r ∈ reqs, ValidTs r.call.obs.ts

/-- No call of a run is stopped by the storm budget. -/
def WithinBudget (env : ServiceEnv F) (reqs : List (Request F)) (s : ServiceState F) : Prop :=
  (service env).Along (fun r _ s => stormBudgetExceeded env s r.sub r.call.now = false) reqs s

/-- Nothing is stored of the subscription, and no other worker holds it. -/
structure FreshSubscription (env : ServiceEnv F) (sub : ActiveSubscription F) (epoch : String)
    (s : ServiceState F) : Prop where
  unstored : epochState s sub epoch = {}
  owned : Owned env sub s.db
  unrecorded : ∀ obs, ∀ e ∈ s.db.events, Elsewhere sub obs e

/-! ## replaying the kept versions -/

section Replay

variable (env : ServiceEnv F) (session : String) (stage : Stage F) (alert : AlertSpec F)

def replayBar (stored : Checkpoint F) (r : Request F) : Checkpoint F :=
  match evaluateBar env session stage alert r (barState stage stored r.call.obs) with
  | .error _ => stored
  | .ok ev => nextCheckpoint stage r.call (barState stage stored r.call.obs) ev.engine.newState

/-- The checkpoint that bars in order lead to. -/
def replay (bars : List (Request F)) : Checkpoint F :=
  bars.foldl (replayBar env session stage alert) {}

theorem replay_append (kept : List (Request F)) (r : Request F) :
    replay env session stage alert (kept ++ [r]) =
      replayBar env session stage alert (replay env session stage alert kept) r := by
  simp [replay]

variable {env session stage alert}

omit [PyFloat F] in
theorem nextCheckpoint_epochId (call : Call F) (state : Checkpoint F) (decided : EvalState F) :
    (nextCheckpoint stage call state decided).epochId = some call.obs.epochId := by
  simp only [nextCheckpoint, stampObservation]
  split <;> split <;> rfl

theorem epochId_replay {epoch : String} {bars : List (Request F)}
    (h : ∀ r ∈ bars, r.call.obs.epochId = epoch) :
    ∀ e, (replay env session stage alert bars).epochId = some e → e = epoch := by
  induction bars using reverseRecOn with
  | nil =>
    intro e he
    cases he
  | append_singleton bars r ih =>
    rw [replay_append, replayBar]
    split
    · exact ih fun q hq => h q (mem_append_left [r] hq)
    · intro e he
      rw [nextCheckpoint_epochId] at he
      rw [← Option.some.inj he]
      exact h r (mem_append_right bars (.head _))

theorem replay_accepted {kept : List (Request F)} {r : Request F} (hfinal : r.call.obs.final)
    (haccepted : Accepted env session stage alert r
      (barState stage (replay env session stage alert kept) r.call.obs)) :
    (replay env session stage alert (kept ++ [r])).lastBarTs = some r.call.obs.ts ∧
      (replay env session stage alert (kept ++ [r])).lastBarPayload = some (barPayload r.call.obs) ∧
      (replay env session stage alert (kept ++ [r])).lastBarState =
        some (barState stage (replay env session stage alert kept) r.call.obs).toEvalState := by
  obtain ⟨ev, hev, -⟩ := haccepted
  rw [replay_append, replayBar, hev]
  simp [nextCheckpoint, hfinal]

end Replay

/-! ## the invariant -/

/-- The stored checkpoint is replayed from the kept versions, and everything recorded is
of their time or before. -/
structure Absorbed (env : ServiceEnv F) (session : String) (stage : Stage F) (alert : AlertSpec F)
    (sub : ActiveSubscription F) (epoch : String) (kept : List (Request F)) (s : ServiceState F) :
    Prop where
  stored : epochState s sub epoch = replay env session stage alert kept
  bars : LiveBars sub epoch kept
  ordered : kept.Pairwise fun r q => r.call.obs.ts < q.call.obs.ts
  accepted : AtEach (fun past r => Accepted env session stage alert r
    (barState stage (replay env session stage alert past) r.call.obs)) kept
  owned : Owned env sub s.db
  unrecorded : ∀ obs : Observation F, ValidTs obs.ts → (∀ r ∈ kept, r.call.obs.ts < obs.ts) →
    ∀ e ∈ s.db.events, Elsewhere sub obs e

section Steps

variable {env : ServiceEnv F} {document : WorkflowDocument F} {stage : Stage F} {alert : AlertSpec F}
  {sub : ActiveSubscription F} {epoch : String} {kept past : List (Request F)} {r : Request F}
  {s s' : ServiceState F}

theorem Absorbed.congr {session : String} (h : Absorbed env session stage alert sub epoch kept s)
    (hdb : s'.db = s.db) : Absorbed env session stage alert sub epoch kept s' := by
  have hstored : epochState s' sub epoch = epochState s sub epoch := by
    rw [epochState, epochState, hdb]
  exact ⟨hstored.trans h.stored, h.bars, h.ordered, h.accepted, hdb ▸ h.owned, hdb ▸ h.unrecorded⟩

theorem Absorbed.lastBarTs_lt {session : String}
    (h : Absorbed env session stage alert sub epoch kept s) {ts : Int}
    (hnew : ∀ q ∈ kept, q.call.obs.ts < ts) :
    ∀ b, (epochState s sub epoch).lastBarTs = some b → b < ts := by
  intro b hb
  rw [h.stored] at hb
  cases kept using reverseRecOn with
  | nil => cases hb
  | append_singleton kept last =>
    have hmem : last ∈ kept ++ [last] := mem_append_right kept (.head _)
    obtain ⟨hts, -, -⟩ := replay_accepted (h.bars.final last hmem) (atEach_concat.mp h.accepted).2
    rw [hts] at hb
    rw [← Option.some.inj hb]
    exact hnew last hmem

theorem Absorbed.epochChanged_eq {session : String}
    (h : Absorbed env session stage alert sub epoch kept s) {obs : Observation F}
    (hepoch : obs.epochId = epoch) : epochChanged (epochState s sub epoch) obs = false := by
  rw [h.stored, epochChanged]
  cases hstored : (replay env session stage alert kept).epochId with
  | none => rfl
  | some e =>
    rw [epochId_replay h.bars.oneEpoch e hstored, hepoch]
    simp

theorem Absorbed.saved {session : String} (h : Absorbed env session stage alert sub epoch kept s)
    (hbars : LiveBars sub epoch (past ++ [r]))
    (hordered : (past ++ [r]).Pairwise fun r q => r.call.obs.ts < q.call.obs.ts)
    (hpast : AtEach (fun past r => Accepted env session stage alert r
      (barState stage (replay env session stage alert past) r.call.obs)) past)
    (hold : ∀ q ∈ kept, q.call.obs.ts ≤ r.call.obs.ts) {prepared : Prepared F} {ev : Evaluation F}
    (hstate : prepared.state.toEvalState =
      (barState stage (replay env session stage alert past) r.call.obs).toEvalState)
    (hev : evaluateBar env session stage alert r prepared.state = .ok ev)
    (hcap : ev.engine.emit → Uncapped alert)
    (hsaved : epochState s' sub epoch = nextCheckpoint stage r.call prepared.state ev.engine.newState)
    (howned : Owned env sub s'.db) {published : List (SignalEvent F)}
    (hevents : s'.db.events = s.db.events ++ published)
    (hpublished : Published env sub r.call prepared.correction ev published) :
    Absorbed env session stage alert sub epoch (past ++ [r]) s' := by
  have hmem : r ∈ past ++ [r] := mem_append_right past (.head _)
  have hfinal := hbars.final r hmem
  rw [evaluateBar_congr hstate] at hev
  refine ⟨?_, hbars, hordered, atEach_concat.mpr ⟨hpast, ev, hev, hcap⟩, howned, ?_⟩
  · rw [hsaved, replay_append, replayBar, hev, nextCheckpoint_congr hfinal hstate]
  · intro obs hvalid hnewer e he
    have hlt := hnewer r hmem
    have hne : r.call.obs.ts ≠ obs.ts := by omega
    rw [hevents, mem_append] at he
    cases he with
    | inl hbefore =>
      refine h.unrecorded obs hvalid (fun q hq => ?_) e hbefore
      have hle := hold q hq
      omega
    | inr hadded =>
      cases hpublished with
      | nothing => cases hadded
      | signal _ _ =>
        rw [mem_singleton.mp hadded]
        exact signal_elsewhere (hbars.valid r hmem) hvalid hne
      | notice _ _ =>
        rw [mem_singleton.mp hadded]
        exact notice_elsewhere (hbars.valid r hmem) hvalid _

omit [PyFloat F] in
theorem alreadyRecorded_eq_false {db : Db F} {obs : Observation F}
    (h : ∀ e ∈ db.events, Elsewhere sub obs e) : alreadyRecorded db sub stage obs = false := by
  have hkey : ∀ key, (∀ e ∈ db.events, e.occurrenceKey ≠ key) → hasOccurrence db key = false := by
    intro key hne
    rw [hasOccurrence, any_eq_false]
    intro e he
    simpa using hne e he
  rw [alreadyRecorded, hkey _ fun e he => (h e he).1, hkey _ fun e he => (h e he).2]
  simp

omit [PyFloat F] in
theorem LiveBars.subset (h : LiveBars sub epoch kept) (hpast : ∀ q ∈ past, q ∈ kept) :
    LiveBars sub epoch past :=
  ⟨fun q hq => h.own q (hpast q hq), fun q hq => h.oneEpoch q (hpast q hq),
    fun q hq => h.live q (hpast q hq), fun q hq => h.final q (hpast q hq),
    fun q hq => h.valid q (hpast q hq)⟩

omit [PyFloat F] in
theorem LiveBars.concat (h : LiveBars sub epoch kept) (hr : LiveBars sub epoch [r]) :
    LiveBars sub epoch (kept ++ [r]) := by
  have hall : ∀ {P : Request F → Prop}, (∀ q ∈ kept, P q) → (∀ q ∈ [r], P q) → ∀ q ∈ kept ++ [r], P q := by
    intro P hkept hone q hq
    rw [mem_append] at hq
    exact hq.elim (hkept q) (hone q)
  exact ⟨hall h.own hr.own, hall h.oneEpoch hr.oneEpoch, hall h.live hr.live, hall h.final hr.final,
    hall h.valid hr.valid⟩

/-- A bar that is accepted after the kept ones is added to them, and another one changes nothing. -/
structure BarSettles (env : ServiceEnv F) (session : String) (stage : Stage F) (alert : AlertSpec F)
    (sub : ActiveSubscription F) (epoch : String) (past : List (Request F)) (r : Request F)
    (s : ServiceState F) : Prop where
  accepts : Accepted env session stage alert r
      (barState stage (replay env session stage alert past) r.call.obs) →
    (handleObservation env r.sub r.call s).1.isOk ∧
      Absorbed env session stage alert sub epoch (past ++ [r]) (handleObservation env r.sub r.call s).2
  rejects : ¬ Accepted env session stage alert r
      (barState stage (replay env session stage alert past) r.call.obs) →
    (handleObservation env r.sub r.call s).1.isOk = false ∧
      (handleObservation env r.sub r.call s).2.db = s.db

section Signal

variable (hsub : Subscribes sub document stage alert) (hsignal : stage.breadth = none)
  (hclock : stage.clock = .known .candleClose)

include hsub hsignal hclock

theorem Absorbed.settles (h : Absorbed env document.session stage alert sub epoch kept s)
    (hr : LiveBars sub epoch [r]) (hbars : LiveBars sub epoch past)
    (hordered : (past ++ [r]).Pairwise fun r q => r.call.obs.ts < q.call.obs.ts)
    (hpast : AtEach (fun past r => Accepted env document.session stage alert r
      (barState stage (replay env document.session stage alert past) r.call.obs)) past)
    (hold : ∀ q ∈ kept, q.call.obs.ts ≤ r.call.obs.ts) {prepared : Prepared F}
    (hprepare : prepareBar stage (epochState s sub epoch) r.call.obs = some prepared)
    (hstate : prepared.state.toEvalState =
      (barState stage (replay env document.session stage alert past) r.call.obs).toEvalState)
    (hnew : prepared.correction = false → alreadyRecorded s.db sub stage r.call.obs = false)
    (hbudget : stormBudgetExceeded env s r.sub r.call.now = false) :
    BarSettles env document.session stage alert sub epoch past r s := by
  obtain ⟨rsub, call⟩ := r
  obtain rfl : rsub = sub := hr.own _ (.head _)
  obtain rfl : call.obs.epochId = epoch := hr.oneEpoch _ (.head _)
  have hlive : call.allowEmit := hr.live _ (.head _)
  have hepoch := h.epochChanged_eq rfl
  constructor
  · rintro ⟨ev, hev, hcap⟩
    have hev' : evaluateBar env document.session stage alert ⟨rsub, call⟩ prepared.state = .ok ev :=
      (evaluateBar_congr hstate).trans hev
    obtain ⟨result, s', hcall, hsaved, howned, published, hevents, hpublished⟩ :=
      handleSignal_accepted hclock hlive h.owned hprepare hepoch hbudget hnew hev' hcap
    rw [handleObservation_signal hsub hsignal, hcall]
    exact ⟨rfl, h.saved (hbars.concat hr) hordered hpast hold hstate hev' hcap hsaved howned hevents
      hpublished⟩
  · intro hreject
    rw [handleObservation_signal hsub hsignal]
    refine handleSignal_rejected hclock hlive h.owned hprepare hepoch hbudget fun haccepts => hreject ?_
    obtain ⟨ev, hev, hcap⟩ := haccepts
    exact ⟨ev, (evaluateBar_congr hstate).symm.trans hev, hcap⟩

theorem Absorbed.newer (h : Absorbed env document.session stage alert sub epoch kept s)
    (hr : LiveBars sub epoch [r]) (hnew : ∀ q ∈ kept, q.call.obs.ts < r.call.obs.ts)
    (hbudget : stormBudgetExceeded env s r.sub r.call.now = false) :
    BarSettles env document.session stage alert sub epoch kept r s := by
  refine h.settles hsub hsignal hclock hr h.bars ?_ h.accepted (fun q hq => (hnew q hq).le)
    (prepareBar_new (h.lastBarTs_lt hnew)) (by rw [h.stored]) (fun _ => ?_) hbudget
  · rw [pairwise_append]
    exact ⟨h.ordered, pairwise_singleton _ _, fun q hq r hr => mem_singleton.mp hr ▸ hnew q hq⟩
  · exact alreadyRecorded_eq_false (h.unrecorded r.call.obs (hr.valid r (.head _)) hnew)

theorem Absorbed.changed {last : Request F}
    (h : Absorbed env document.session stage alert sub epoch (past ++ [last]) s)
    (hr : LiveBars sub epoch [r]) (hts : r.call.obs.ts = last.call.obs.ts)
    (hchanged : (barPayload last.call.obs).same (barPayload r.call.obs) = false)
    (hbudget : stormBudgetExceeded env s r.sub r.call.now = false) :
    BarSettles env document.session stage alert sub epoch past r s := by
  have hlast : last ∈ past ++ [last] := mem_append_right past (.head _)
  obtain ⟨hpast, haccepted⟩ := atEach_concat.mp h.accepted
  obtain ⟨hlastTs, hpayload, hbefore⟩ := replay_accepted (h.bars.final last hlast) haccepted
  rw [← h.stored] at hlastTs hpayload hbefore
  have hprepare := prepareBar_changed (hr.final _ (.head _)) hts hlastTs hpayload hbefore
    hchanged
  have hsame : barState stage (replay env document.session stage alert past) last.call.obs =
      barState stage (replay env document.session stage alert past) r.call.obs := by
    have hgap : detectGap stage (replay env document.session stage alert past) r.call.obs =
      detectGap stage (replay env document.session stage alert past) last.call.obs :=
        detectGap_congr rfl hts
    rw [barState, barState, hgap]
  rw [hsame] at hprepare
  have hordered := pairwise_append.mp h.ordered
  refine h.settles hsub hsignal hclock hr (h.bars.subset fun q hq => mem_append_left [last] hq)
    ?_ hpast (fun q hq => ?_) hprepare rfl (fun h => by cases h) hbudget
  · rw [pairwise_append]
    refine ⟨hordered.1, pairwise_singleton _ _, fun q hq r' hr' => ?_⟩
    rw [mem_singleton.mp hr', hts]
    exact hordered.2.2 q hq last (.head _)
  · rw [hts]
    cases mem_append.mp hq with
    | inl hmem => exact (hordered.2.2 q hmem last (.head _)).le
    | inr heq => rw [mem_singleton.mp heq]

theorem Absorbed.stale {last : Request F}
    (h : Absorbed env document.session stage alert sub epoch (past ++ [last]) s)
    (hr : LiveBars sub epoch [r]) (hold : r.call.obs.ts ≤ last.call.obs.ts)
    (hsame : r.call.obs.ts = last.call.obs.ts →
      (barPayload last.call.obs).same (barPayload r.call.obs)) :
    (handleObservation env r.sub r.call s).2.db = s.db := by
  obtain ⟨rsub, call⟩ := r
  obtain rfl : rsub = sub := hr.own _ (.head _)
  obtain rfl : call.obs.epochId = epoch := hr.oneEpoch _ (.head _)
  have hlast : last ∈ past ++ [last] := mem_append_right past (.head _)
  obtain ⟨hlastTs, hpayload, -⟩ :=
    replay_accepted (h.bars.final last hlast) (atEach_concat.mp h.accepted).2
  rw [← h.stored] at hlastTs hpayload
  have hprepare := @prepareBar_stale F _ stage _ call.obs last.call.obs hlastTs hpayload hold hsame
  obtain ⟨ownerEpoch, claimed, hclaim, -⟩ := claimEvaluation_of_owned call h.owned
  obtain ⟨-, hcheckpoints, -, -⟩ := assertEvaluationOwner_of_claim hclaim
  have hload : (loadState s.db rsub stage call.obs).1 = epochState s rsub call.obs.epochId :=
    storedState_candle hclock s call.obs
  have hstart : startOf env rsub stage call (loadState s.db rsub stage call.obs) s.db = none := by
    rw [startOf, if_pos hclock, hload, hprepare]
    rfl
  rw [handleObservation_signal hsub hsignal]
  simp only [handleSignal, hclaim, loadState_congr hcheckpoints rsub stage call.obs, hstart]

omit hsub hsignal hclock in
theorem BarSettles.absorbed (h : Absorbed env document.session stage alert sub epoch kept s)
    (hsettles : BarSettles env document.session stage alert sub epoch past r s)
    (habsorb : absorb kept r = past ++ [r]) :
    Absorbed env document.session stage alert sub epoch
      (if (handleObservation env r.sub r.call s).1.isOk then absorb kept r else kept)
      (handleObservation env r.sub r.call s).2 := by
  by_cases haccepts : Accepted env document.session stage alert r
      (barState stage (replay env document.session stage alert past) r.call.obs)
  · obtain ⟨hok, hkept⟩ := hsettles.accepts haccepts
    rw [hok, if_pos rfl, habsorb]
    exact hkept
  · obtain ⟨hraised, hdb⟩ := hsettles.rejects haccepts
    rw [hraised, if_neg (by simp)]
    exact h.congr hdb

theorem Absorbed.step (h : Absorbed env document.session stage alert sub epoch kept s)
    (hr : LiveBars sub epoch [r]) (hbudget : stormBudgetExceeded env s r.sub r.call.now = false) :
    Absorbed env document.session stage alert sub epoch
      (if (handleObservation env r.sub r.call s).1.isOk then absorb kept r else kept)
      (handleObservation env r.sub r.call s).2 := by
  cases kept using reverseRecOn with
  | nil =>
    exact (h.newer hsub hsignal hclock hr (by simp) hbudget).absorbed h rfl
  | append_singleton past last =>
    have habsorb : absorb (past ++ [last]) r =
        if last.call.obs.ts < r.call.obs.ts then past ++ [last] ++ [r]
        else if last.call.obs.ts = r.call.obs.ts ∧
          (barPayload last.call.obs).same (barPayload r.call.obs) = false then past ++ [r]
        else past ++ [last] := by
      simp [absorb]
    by_cases hnewer : last.call.obs.ts < r.call.obs.ts
    · rw [if_pos hnewer] at habsorb
      have hnew : ∀ q ∈ past ++ [last], q.call.obs.ts < r.call.obs.ts := by
        intro q hq
        rw [mem_append, mem_singleton] at hq
        cases hq with
        | inl hmem =>
          have hlt := (pairwise_append.mp h.ordered).2.2 q hmem last mem_cons_self
          omega
        | inr heq => exact heq ▸ hnewer
      exact (h.newer hsub hsignal hclock hr hnew hbudget).absorbed h habsorb
    · rw [if_neg hnewer] at habsorb
      by_cases hchanged : last.call.obs.ts = r.call.obs.ts ∧
          (barPayload last.call.obs).same (barPayload r.call.obs) = false
      · rw [if_pos hchanged] at habsorb
        exact (h.changed hsub hsignal hclock hr hchanged.1.symm hchanged.2 hbudget).absorbed h habsorb
      · rw [if_neg hchanged] at habsorb
        rw [habsorb, ite_self]
        refine h.congr (h.stale hsub hsignal hclock hr (by omega) fun hts => ?_)
        rw [← not_eq_false]
        exact fun hne => hchanged ⟨hts.symm, hne⟩

/-! ## whole deliveries -/

theorem Absorbed.run {reqs : List (Request F)}
    (h : Absorbed env document.session stage alert sub epoch kept s) (hbars : LiveBars sub epoch reqs)
    (hbudget : WithinBudget env reqs s) :
    Absorbed env document.session stage alert sub epoch (versions env kept reqs s)
      ((service env).run reqs s) := by
  induction reqs generalizing kept s with
  | nil => exact h
  | cons r rest ih =>
    have hr : LiveBars sub epoch [r] := hbars.subset (by simp)
    have hrest := hbars.subset fun q hq => mem_cons_of_mem r hq
    exact ih (h.step hsub hsignal hclock hr hbudget.1) hrest hbudget.2

theorem Absorbed.run_accepted {rest : List (Request F)}
    (h : Absorbed env document.session stage alert sub epoch past s) (hbars : LiveBars sub epoch rest)
    (hordered : (past ++ rest).Pairwise fun r q => r.call.obs.ts < q.call.obs.ts)
    (haccepted : AtEach (fun past r => Accepted env document.session stage alert r
      (barState stage (replay env document.session stage alert past) r.call.obs)) (past ++ rest))
    (hbudget : WithinBudget env rest s) :
    Absorbed env document.session stage alert sub epoch (past ++ rest)
      ((service env).run rest s) := by
  induction rest generalizing past s with
  | nil =>
    rw [append_nil]
    exact h
  | cons r rest ih =>
    have hr : LiveBars sub epoch [r] := hbars.subset (by simp)
    have hrest := hbars.subset fun q hq => mem_cons_of_mem r hq
    have hnew : ∀ q ∈ past, q.call.obs.ts < r.call.obs.ts := fun q hq =>
      (pairwise_append.mp hordered).2.2 q hq r mem_cons_self
    have hsaved := (h.newer hsub hsignal hclock hr hnew hbudget.1).accepts (haccepted past r rest rfl)
    rw [append_cons] at hordered haccepted ⊢
    exact ih hsaved.2 hrest hordered haccepted hbudget.2

end Signal

/-- Redelivered and corrected bars are absorbed: delivering only the last processed
version of each bar, in time order, leads to the same checkpoint. -/
theorem redelivery_absorbed (env : ServiceEnv F) (hsub : Subscribes sub document stage alert)
    (hsignal : stage.breadth = none) (hclock : stage.clock = .known .candleClose)
    {reqs : List (Request F)} (hbars : LiveBars sub epoch reqs)
    (hfresh : FreshSubscription env sub epoch s) (hbudget : WithinBudget env reqs s)
    (hbudgetKept : WithinBudget env (versions env [] reqs s) s) :
    ((versions env [] reqs s).Pairwise fun r q => r.call.obs.ts < q.call.obs.ts) ∧
      epochState ((service env).run reqs s) sub epoch =
        epochState ((service env).run (versions env [] reqs s) s) sub epoch := by
  have hstart : Absorbed env document.session stage alert sub epoch [] s :=
    ⟨hfresh.unstored, ⟨by simp, by simp, by simp, by simp, by simp⟩, List.Pairwise.nil, atEach_nil,
      hfresh.owned, fun obs _ _ => hfresh.unrecorded obs⟩
  have hall := hstart.run hsub hsignal hclock hbars hbudget
  have hkept := hstart.run_accepted hsub hsignal hclock hall.bars hall.ordered hall.accepted hbudgetKept
  exact ⟨hall.ordered, hall.stored.trans hkept.stored.symm⟩

end Steps

instance (day : Int) : Decidable (ValidDay day) := inferInstanceAs (Decidable (_ ∧ _))

instance (ts : Int) : Decidable (ValidTs ts) := inferInstanceAs (Decidable (ValidDay _))

instance (env : ServiceEnv F) (reqs : List (Request F)) (s : ServiceState F) :
    Decidable (WithinBudget env reqs s) :=
  inferInstanceAs (Decidable (Machine.Along _ _ _ _))

/-- A crossing that a correction takes back, an old bar and a repeated one in between. -/
theorem corrected_crossing_absorbed :
    let env : ServiceEnv ℚ := { ownerId := "worker" }
    let reqs := [crossingBar true 0 90, crossingBar true 300 110, crossingBar true 300 95,
      crossingBar true 0 80, crossingBar true 300 95, crossingBar true 600 120]
    ((versions env [] reqs {}).map fun r => (r.call.obs.ts, r.call.obs.close)) =
        [(0, some 90), (300000000, some 95), (600000000, some 120)] ∧
      epochState ((service env).run reqs {}) crossingSub "candle" =
        epochState ((service env).run (versions env [] reqs {}) {}) crossingSub "candle" := by
  intro env reqs
  obtain ⟨document, stage, alert, hsub, -, hsignal, hclock, -, -⟩ := crossingSub_subscribes
  have hbars : LiveBars crossingSub "candle" reqs := by
    constructor
    · simp [reqs, crossingBar]
    · simp [reqs, crossingBar]
    · simp [reqs, crossingBar]
    · simp [reqs, crossingBar]
    · decide +kernel
  have hfresh : FreshSubscription env crossingSub "candle" {} := by
    refine ⟨rfl, fun row hrow => ?_, fun obs e he => ?_⟩
    · cases hrow
    · cases he
  exact ⟨by decide +kernel, (redelivery_absorbed env hsub hsignal hclock hbars hfresh
    (by decide +kernel) (by decide +kernel)).2⟩

end KiteAlgo
