import KiteAlgo.Service.Gating

/-!
# KiteAlgo.Service.SessionCap

The per-session cap of an alert (`max_per_session`) over whole runs of calls for the
subscriptions of a signal stage.

A live call that decides to emit is to take a slot of the session's counter, or to
record that the cap suppressed it.  The signal path asks `advanced_repo` for the slot,
a name the module does not define: the counters and the suppressions are never touched
(`caps_handleSignal`), and the call raises (`capped_emission_raises`).
-/

namespace KiteAlgo

open List Option Bool
variable {F : Type} [PyFloat F]

/-! ## what the cap is to do -/

/-- The evaluation that a call for a signal subscription reaches, with where it starts;
none when the call stops before. -/
def reachedEvaluation (env : ServiceEnv F) (session : String) (stage : Stage F) (alert : AlertSpec F)
    (r : Request F) (s : ServiceState F) : Option (Start F × Evaluation F) :=
  match claimEvaluation s.db r.sub.id r.sub.instrumentKey env.ownerId env.lease r.call.now with
  | none => none
  | some _ =>
    let loaded := loadState s.db r.sub stage r.call.obs
    match startOf env r.sub stage r.call loaded s.db with
    | none => none
    | some start =>
      match evaluateSignal env r.sub
          (resolveSession env session r.sub.instrumentKey r.call.obs.ts) stage alert r.call
          (epochChanged loaded.1 r.call.obs) start.prepared.state with
      | .error _ => none
      | .ok ev => some (start, ev)

/-- The engine decides to emit in a live call. -/
def decidesToEmit (env : ServiceEnv F) (session : String) (stage : Stage F) (alert : AlertSpec F)
    (r : Request F) (s : ServiceState F) : Bool :=
  r.call.allowEmit && (reachedEvaluation env session stage alert r s).any fun reached =>
    reached.2.engine.emit

/-- The counter of a call: `session_id or "default"`. -/
def sessionSlot (env : ServiceEnv F) (session : String) (r : Request F) : SessionSlot where
  ownerId := r.sub.ownerId
  workflowId := r.sub.workflowId
  revisionId := r.sub.revisionId
  alertId := r.sub.alertId
  sessionId :=
    let id := (resolveSession env session r.sub.instrumentKey r.call.obs.ts).2
    if id = "" then "default" else id

def reservedSlots (db : Db F) (slot : SessionSlot) : Int :=
  (db.sessionCounters.get? slot).getD 0

/-- The calls of a session that the cap suppressed. -/
def cappedCalls (db : Db F) (slot : SessionSlot) : Int :=
  ((db.suppressions.get? (slot, .sessionCap)).map SuppressionRow.count).getD 0

/-- The events of a session among those a run recorded. -/
def recordedIn (env : ServiceEnv F) (session : String) (slot : SessionSlot)
    (trace : List (Request F × SignalEvent F)) : Nat :=
  trace.countP fun a => decide (sessionSlot env session a.1 = slot)

/-- What a live call that decides to emit is to do: complete, save its checkpoint, and
take a slot with its event or record that the cap suppressed it. -/
structure CapOutcome (env : ServiceEnv F) (session : String) (stage : Stage F) (alert : AlertSpec F)
    (r : Request F) (s : ServiceState F) : Prop where
  completes : ∃ result, (handleObservation env r.sub r.call s).1 = .ok result
  commits : ∀ start ev, reachedEvaluation env session stage alert r s = some (start, ev) →
    ∃ epoch, ((service env).step r s).db.checkpoints.get?
        (r.sub.id, r.sub.instrumentKey, r.call.obs.epochId) =
      some ⟨nextCheckpoint stage r.call start.prepared.state ev.engine.newState, epoch, r.call.wallNow⟩
  counted :
    ((∃ m, alert.maxPerSession = some m ∧ reservedSlots s.db (sessionSlot env session r) < m) ∧
      reservedSlots ((service env).step r s).db (sessionSlot env session r) =
        reservedSlots s.db (sessionSlot env session r) + 1 ∧
      ∃ e, (service env).out r s = [(r, e)]) ∨
    (cappedCalls ((service env).step r s).db (sessionSlot env session r) =
        cappedCalls s.db (sessionSlot env session r) + 1 ∧
      (service env).out r s = [])

/-- The cap over a run: every emitting live call has its outcome, no session records
more events than the cap, and the counters count the events. -/
structure SessionCapKept (env : ServiceEnv F) (session : String) (stage : Stage F)
    (alert : AlertSpec F) (reqs : List (Request F)) (s : ServiceState F) : Prop where
  outcome : (service env).Along (fun r _ s => decidesToEmit env session stage alert r s = true →
    CapOutcome env session stage alert r s) reqs s
  bounded : ∀ m, alert.maxPerSession = some m → ∀ slot,
    (recordedIn env session slot ((service env).trace reqs s) : Int) ≤ m
  reserved : ∀ slot, reservedSlots ((service env).run reqs s).db slot =
    reservedSlots s.db slot + recordedIn env session slot ((service env).trace reqs s)

/-! ## the counters of the signal path -/

/-- The counters and the suppressions are the same. -/
def SameCaps (db db' : Db F) : Prop :=
  db'.sessionCounters = db.sessionCounters ∧ db'.suppressions = db.suppressions

variable {db db' : Db F}

omit [PyFloat F] in
theorem SameCaps.trans {db'' : Db F} (h : SameCaps db db') (h' : SameCaps db' db'') :
    SameCaps db db'' :=
  ⟨h'.1.trans h.1, h'.2.trans h.2⟩

omit [PyFloat F] in
theorem caps_saveCheckpoint {subId instrumentKey epochId : String} {state : Checkpoint F}
    {expected now epoch : Int}
    (h : saveCheckpoint db subId instrumentKey epochId state expected now = some (epoch, db')) :
    SameCaps db db' := by
  simp only [saveCheckpoint] at h
  split at h
  · obtain ⟨-, rfl⟩ := Prod.mk.inj (some.inj h)
    exact ⟨rfl, rfl⟩
  · split at h
    · obtain ⟨-, rfl⟩ := Prod.mk.inj (some.inj h)
      exact ⟨rfl, rfl⟩
    · cases h

omit [PyFloat F] in
theorem caps_recordSignal {event : SignalEvent F} {channels : List String}
    (h : recordSignal db event channels = .ok db') : SameCaps db db' := by
  simp only [recordSignal] at h
  split at h
  · cases h
  · obtain rfl := Except.ok.inj h
    exact ⟨rfl, rfl⟩

variable {call : Call F} {ev : Evaluation F} {sub : ActiveSubscription F}

omit [PyFloat F] in
theorem caps_recordCorrectionNotice {env : ServiceEnv F}
    (h : recordCorrectionNotice env sub call ev db = .ok db') : SameCaps db db' := by
  simp only [recordCorrectionNotice] at h
  split at h
  · obtain rfl := Except.ok.inj h
    exact ⟨rfl, rfl⟩
  · exact caps_recordSignal h

variable {emitted : Bool} {ownerEpoch : Int}

omit [PyFloat F] in
theorem caps_publishSignal {env : ServiceEnv F} {stage : Stage F} {alert : AlertSpec F}
    {correction : Bool} (h : publishSignal env sub stage alert call correction ev ownerEpoch db =
      .ok (some (db', emitted))) : SameCaps db db' := by
  have hnotice : (do
      let db ← recordCorrectionNotice env sub call ev db
      .ok (some (db, false)) : Except PyErr (Option (Db F × Bool))) = .ok (some (db', emitted)) →
      SameCaps db db' := by
    intro h
    simp only [bind_eq_ok] at h
    obtain ⟨recorded, hrecorded, h⟩ := h
    obtain ⟨rfl, -⟩ := Prod.mk.inj (some.inj (Except.ok.inj h))
    exact caps_recordCorrectionNotice hrecorded
  simp only [publishSignal] at h
  split at h
  · split at h
    · cases h
    · split at h
      · simp only [bind_eq_ok] at h
        obtain ⟨recorded, hrecorded, h⟩ := h
        obtain ⟨rfl, -⟩ := Prod.mk.inj (some.inj (Except.ok.inj h))
        exact caps_recordSignal hrecorded
      · split at h
        · exact hnotice h
        · cases h
  · split at h
    · split at h
      · cases h
      · exact hnotice h
    · obtain ⟨rfl, -⟩ := Prod.mk.inj (some.inj (Except.ok.inj h))
      exact ⟨rfl, rfl⟩

variable {start : Start F}

theorem caps_startOf {env : ServiceEnv F} {stage : Stage F} {loaded : Checkpoint F × Int}
    (h : startOf env sub stage call loaded db = some start) : SameCaps db start.base := by
  simp only [startOf] at h
  split at h
  · obtain ⟨prepared, -, rfl⟩ := map_eq_some_iff.mp h
    exact ⟨rfl, rfl⟩
  · split at h
    · obtain rfl := some.inj h
      simp only [persistContinuityInvalidation]
      split
      · exact ⟨rfl, rfl⟩
      · next epoch saved hsave => exact caps_saveCheckpoint hsave
    · obtain rfl := some.inj h
      exact ⟨rfl, rfl⟩

omit [PyFloat F] in
theorem caps_commitSignal {env : ServiceEnv F} {stage : Stage F} (h : SameCaps start.base db) :
    SameCaps start.base (commitSignal env sub stage call start ev ownerEpoch emitted db).2 := by
  simp only [commitSignal]
  split
  · exact ⟨rfl, rfl⟩
  · split
    · exact ⟨rfl, rfl⟩
    · next epoch saved hsave =>
        have hsaved := h.trans (caps_saveCheckpoint hsave)
        split <;> exact hsaved

theorem caps_handleSignal (env : ServiceEnv F) (sub : ActiveSubscription F) (session : String)
    (stage : Stage F) (alert : AlertSpec F) (call : Call F) (s : ServiceState F) :
    SameCaps s.db (handleSignal env sub session stage alert call s).2.db := by
  unfold handleSignal
  split
  · exact ⟨rfl, rfl⟩
  · next ownerEpoch claimed hclaim =>
      simp only
      split
      · exact ⟨rfl, rfl⟩
      · next start hstart =>
          have hbase := caps_startOf hstart
          split
          · exact hbase
          · next ev hev =>
              simp only [finishSignal]
              split
              · exact hbase
              · split
                · exact hbase
                · split
                  · exact hbase
                  · exact hbase
                  · next published emitted hpublish =>
                      have hpublished : SameCaps start.base published := by
                        have hcaps := caps_publishSignal hpublish
                        exact ⟨hcaps.1, hcaps.2⟩
                      exact hbase.trans (caps_commitSignal hpublished)

/-! ## one call -/

section Calls

variable {env : ServiceEnv F} {document : WorkflowDocument F} {stage : Stage F}
  {alert : AlertSpec F} {r : Request F} {s : ServiceState F}

theorem reachedEvaluation_eq_some {session : String} {start : Start F} {ev : Evaluation F} :
    reachedEvaluation env session stage alert r s = some (start, ev) ↔
      (claimEvaluation s.db r.sub.id r.sub.instrumentKey env.ownerId env.lease
        r.call.now).isSome ∧
      startOf env r.sub stage r.call (loadState s.db r.sub stage r.call.obs) s.db = some start ∧
      evaluateSignal env r.sub (resolveSession env session r.sub.instrumentKey r.call.obs.ts) stage
        alert r.call (epochChanged (loadState s.db r.sub stage r.call.obs).1 r.call.obs)
        start.prepared.state = .ok ev := by
  unfold reachedEvaluation
  cases hclaim : claimEvaluation s.db r.sub.id r.sub.instrumentKey env.ownerId env.lease r.call.now with
  | none => simp
  | some claimed =>
    cases hstart : startOf env r.sub stage r.call (loadState s.db r.sub stage r.call.obs) s.db with
    | none => simp [hstart]
    | some start' =>
      simp only [hstart]
      constructor
      · intro h
        split at h
        · cases h
        · next ev' hev =>
          obtain ⟨rfl, rfl⟩ := Prod.mk.inj (some.inj h)
          exact ⟨rfl, rfl, hev⟩
      · rintro ⟨-, hsome, hev⟩
        obtain rfl := some.inj hsome
        rw [hev]

theorem decidesToEmit_iff {session : String} :
    decidesToEmit env session stage alert r s = true ↔ r.call.allowEmit = true ∧
      ∃ start ev, reachedEvaluation env session stage alert r s = some (start, ev) ∧
        ev.engine.emit = true := by
  rw [decidesToEmit, Bool.and_eq_true, Option.any_eq_true]
  simp only [Prod.exists]

theorem out_eq_nil_of_not_decides (hsub : Subscribes r.sub document stage alert)
    (hsignal : stage.breadth = none)
    (h : decidesToEmit env document.session stage alert r s = false) :
    (service env).out r s = [] := by
  obtain ⟨sub, call⟩ := r
  have hcases := handleSignal_cases env sub document.session stage alert call s
  simp only [service, handleObservation_signal hsub hsignal]
  generalize (handleSignal env sub document.session stage alert call s).2 = s' at hcases ⊢
  obtain ⟨db', windows⟩ := s'
  simp only at hcases ⊢
  cases hcases with
  | kept => simp
  | rolledBack hstart => simp [(startOf_lifecycle hstart).1]
  | committed hclaim hstart hev _ _ hevents hpublished =>
    rw [(startOf_lifecycle hstart).1] at hevents
    cases hpublished with
    | nothing => simp [hevents]
    | notice _ _ => simp [hevents, correctionNotice_isNotice]
    | signal hemit hlive =>
      have hdecides : decidesToEmit env document.session stage alert ⟨sub, call⟩ s :=
        decidesToEmit_iff.mpr
          ⟨hlive, _, _, reachedEvaluation_eq_some.mpr ⟨hclaim, hstart, hev⟩, hemit⟩
      rw [h] at hdecides
      cases hdecides

theorem caps_step (hsub : Subscribes r.sub document stage alert) (hsignal : stage.breadth = none) :
    SameCaps s.db ((service env).step r s).db := by
  simp only [service, handleObservation_signal hsub hsignal]
  exact caps_handleSignal env r.sub document.session stage alert r.call s

theorem not_capOutcome (hsub : Subscribes r.sub document stage alert)
    (hsignal : stage.breadth = none) : ¬ CapOutcome env document.session stage alert r s := by
  intro h
  obtain ⟨hcounters, hsuppressions⟩ := @caps_step F _ env document stage alert r s hsub hsignal
  cases h.counted with
  | inl htaken =>
    have hraised := htaken.2.1
    simp only [reservedSlots, hcounters] at hraised
    omega
  | inr hcapped =>
    have hraised := hcapped.1
    simp only [cappedCalls, hsuppressions] at hraised
    omega

theorem capped_emission_raises (hsub : Subscribes r.sub document stage alert)
    (hsignal : stage.breadth = none) {m : Int} (hcap : alert.maxPerSession = some m) (hm : m ≠ 0)
    (h : decidesToEmit env document.session stage alert r s)
    (hbudget : stormBudgetExceeded env s r.sub r.call.now = false) :
    (handleObservation env r.sub r.call s).1 = .error (.name "advanced_repo") := by
  obtain ⟨hlive, start, ev, hreached, hemit⟩ := decidesToEmit_iff.mp h
  obtain ⟨hclaim, hstart, hev⟩ := reachedEvaluation_eq_some.mp hreached
  obtain ⟨⟨ownerEpoch, claimed⟩, hclaimed⟩ := isSome_iff_exists.mp hclaim
  obtain ⟨-, hcheckpoints, -, -⟩ := assertEvaluationOwner_of_claim hclaimed
  rw [handleObservation_signal hsub hsignal]
  simp only [handleSignal, hclaimed, loadState_congr hcheckpoints r.sub stage r.call.obs, hstart, hev,
    finishSignal, hemit, hlive, hbudget, hcap]
  simp [hm]

end Calls

/-- On the signal path the cap is kept in exactly the runs in which it has nothing to
do: no live call decides to emit. -/
theorem session_cap_kept_iff (env : ServiceEnv F) {document : WorkflowDocument F} {stage : Stage F}
    {alert : AlertSpec F} (hsignal : stage.breadth = none) {m : Nat}
    (hcap : alert.maxPerSession = some (m : Int)) {reqs : List (Request F)}
    (hcalls : ∀ r ∈ reqs, Subscribes r.sub document stage alert) (s : ServiceState F) :
    SessionCapKept env document.session stage alert reqs s ↔
      (service env).Along (fun r _ s => decidesToEmit env document.session stage alert r s = false)
        reqs s := by
  constructor
  · intro h
    have hout := h.outcome
    clear h
    induction reqs generalizing s with
    | nil => trivial
    | cons r rest ih =>
      have hsub := hcalls r List.mem_cons_self
      have hnot : decidesToEmit env document.session stage alert r s = false := by
        rw [← Bool.not_eq_true]
        intro hdecides
        exact not_capOutcome hsub hsignal (hout.1 hdecides)
      exact ⟨hnot, ih (fun q hq => hcalls q (List.mem_cons_of_mem r hq)) _ hout.2⟩
  · intro h
    have hnone : (service env).trace reqs s = [] ∧
        ((service env).run reqs s).db.sessionCounters = s.db.sessionCounters := by
      induction reqs generalizing s with
      | nil => exact ⟨rfl, rfl⟩
      | cons r rest ih =>
        have hsub := hcalls r List.mem_cons_self
        obtain ⟨htrace, hrun⟩ := ih (fun q hq => hcalls q (List.mem_cons_of_mem r hq)) _ h.2
        rw [Machine.trace, Machine.run, htrace, hrun, out_eq_nil_of_not_decides hsub hsignal h.1]
        exact ⟨rfl, (caps_step hsub hsignal).1⟩
    refine ⟨h.mono fun r rest s hnot hdecides => ?_, fun m' hm' slot => ?_, fun slot => ?_⟩
    · rw [hnot] at hdecides
      cases hdecides
    · rw [hcap] at hm'
      obtain rfl := Option.some.inj hm'
      rw [hnone.1]
      exact Int.natCast_nonneg m
    · rw [hnone.1]
      simp [reservedSlots, hnone.2, recordedIn]

/-! ## an alert with one event a session -/

/-- A close above 100 after one below, at most once a session. -/
def cappedAlert : PyVal ℚ :=
  .ofPairs
    [("version", .int 1), ("name", .str "capped"), ("instruments", .list [.str "NSE:INFY"]),
     ("stages", .list
       [.ofPairs ([("id", .str "above"), ("clock", .str "candle_close"),
         ("timeframe", .str "5m")] ++ crossingStage)]),
     ("alerts", .list
       [.ofPairs
         [("id", .str "notify"), ("source", .str "above"), ("max_per_session", .int 1),
          ("channels", .list [.str "telegram"])]])]

def cappedBar (bar : Int × ℚ) : Request ℚ where
  sub :=
    { id := "s1", revisionId := "r1", alertId := "notify", stageId := "above"
      instrumentKey := "NSE:INFY", ownerId := "o1", workflowId := "w1", document := cappedAlert }
  call :=
    { obs := { ts := bar.1 * microsPerSecond, epochId := "candle", close := some bar.2, final := true } }

theorem subscribes_cappedBar (check : WorkflowDocument ℚ → Stage ℚ → AlertSpec ℚ → Bool)
    (h : subscribesWith (cappedBar (0, 0)).sub check) (bars : List (Int × ℚ)) :
    ∃ document stage alert, check document stage alert ∧
      ∀ r ∈ bars.map cappedBar, Subscribes r.sub document stage alert := by
  obtain ⟨document, stage, alert, hsub, hcheck⟩ := exists_of_subscribesWith _ check h
  refine ⟨document, stage, alert, hcheck, fun r hr => ?_⟩
  obtain ⟨b, -, rfl⟩ := mem_map.mp hr
  exact ⟨hsub.parses, hsub.stage, hsub.alert⟩

/-- Without a crossing the cap has nothing to do. -/
theorem session_cap_kept_below :
    ∃ (document : WorkflowDocument ℚ) (stage : Stage ℚ) (alert : AlertSpec ℚ),
      alert.maxPerSession = some 1 ∧ SessionCapKept { ownerId := "worker" } document.session stage alert
        ([(0, 90), (300, 95)].map cappedBar) {} := by
  obtain ⟨document, stage, alert, hcheck, hcalls⟩ := subscribes_cappedBar
    (fun document stage alert => stage.breadth.isNone && decide (alert.maxPerSession = some 1) &&
      decide ((service { ownerId := "worker" }).Along
        (fun r _ s => decidesToEmit { ownerId := "worker" } document.session stage alert r s = false)
        ([(0, 90), (300, 95)].map cappedBar) {}))
    (by decide +kernel) [(0, 90), (300, 95)]
  simp only [Bool.and_eq_true, decide_eq_true_eq, Option.isNone_iff_eq_none] at hcheck
  obtain ⟨⟨hsignal, hcap⟩, hnone⟩ := hcheck
  exact ⟨document, stage, alert, hcap,
    (session_cap_kept_iff { ownerId := "worker" } hsignal (m := 1) hcap hcalls {}).mpr hnone⟩

/-- The document compiles, and its first crossing raises `NameError`. -/
theorem first_crossing_raises :
    (∃ p, Parse.parseWorkflowDict cappedAlert = .ok p ∧
      ∀ fromIso sha256, ∃ c, Compile.compileDocument fromIso sha256 p = .ok c) ∧
    ∃ (document : WorkflowDocument ℚ) (stage : Stage ℚ) (alert : AlertSpec ℚ),
      alert.maxPerSession = some 1 ∧ stage.breadth = none ∧
      (∀ r ∈ [(0, 90), (300, 110)].map cappedBar, Subscribes r.sub document stage alert) ∧
      ¬ SessionCapKept { ownerId := "worker" } document.session stage alert
        ([(0, 90), (300, 110)].map cappedBar) {} := by
  constructor
  · obtain ⟨p, hp, hcheck⟩ := Compile.exists_of_parsesWith cappedAlert Compile.compilesPlainly
      (by decide +kernel)
    exact ⟨p, hp, Compile.exists_compile_of_compilesPlainly hcheck⟩
  · let env : ServiceEnv ℚ := { ownerId := "worker" }
    let second := (service env).step (cappedBar (0, 90)) {}
    obtain ⟨document, stage, alert, hcheck, hcalls⟩ := subscribes_cappedBar
      (fun document stage alert => stage.breadth.isNone && decide (alert.maxPerSession = some 1) &&
        decidesToEmit env document.session stage alert (cappedBar (300, 110)) second)
      (by decide +kernel) [(0, 90), (300, 110)]
    simp only [Bool.and_eq_true, decide_eq_true_eq, Option.isNone_iff_eq_none] at hcheck
    obtain ⟨⟨hsignal, hcap⟩, hdecides⟩ := hcheck
    refine ⟨document, stage, alert, hcap, hsignal, hcalls, fun h => ?_⟩
    have hraises := capped_emission_raises (hcalls _ (by simp)) hsignal hcap (by decide) hdecides
      (by decide +kernel)
    obtain ⟨result, hok⟩ := (h.outcome.2.1 hdecides).completes
    rw [hraises] at hok
    cases hok

end KiteAlgo
