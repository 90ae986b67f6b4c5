import Mathlib.Algebra.Order.Group.Abs
import Mathlib.Algebra.Order.Group.Int
import Mathlib.Data.List.Chain
import KiteAlgo.Service.Fleet

/-!
# KiteAlgo.Service.Silence

Tick conditions across a silence of the feed.

A tick that comes more than the bound after the last one of its checkpoint row is evaluated
on a state without condition entries, so a value that a condition compares with has been
handed on from evaluation to evaluation without a gap.  `no_crossing_across_silence`: where
the receive times from its tick on do not decrease, all of them are close.  An earlier
receive time is no silence to `_ltp_gap_detected`, and the claim fails without that
condition (`crossing_after_earlier_receipt`).
-/

namespace KiteAlgo

open List Option
variable {F : Type} [PyFloat F]

/-! ## calls that may fail on the way -/

inductive TickEnd where
  | completes
  /-- It raises, or loses the lease at its last save, after the continuity reset was committed. -/
  | fails
  /-- All its saves lose the lease. -/
  | losesLease
  deriving DecidableEq, Repr

/-- A call by one of the workers, with the emission windows of that worker. -/
structure TickCall (F : Type) extends Visit F where
  emissionWindows : Dict (String × String) (List Int) := []
  ending : TickEnd := .completes

/-- The database after a call that fails: a continuity reset stays. -/
def evaluationBase (env : ServiceEnv F) (sub : ActiveSubscription F) (call : Call F) (db : Db F) :
    Db F :=
  match parseDocument sub with
  | .ok (some document) =>
    match document.stage? sub.stageId, document.alerts.find? fun a => a.id = sub.alertId with
    | some stage, some _ =>
      match claimEvaluation db sub.id sub.instrumentKey env.ownerId env.lease call.now with
      | none => db
      | some (_, claimed) =>
        match startOf env sub stage call (loadState claimed sub stage call.obs) db with
        | none => db
        | some start => start.base
    | _, _ => db
  | _ => db

/-- The calls of a subscription, which record its events. -/
def ticks (sub : ActiveSubscription F) : Machine (TickCall F) (Db F) (SignalEvent F) where
  step v db :=
    match v.ending with
    | .completes => ((service v.env).step ⟨sub, v.call⟩ ⟨db, v.emissionWindows⟩).db
    | .fails => evaluationBase v.env sub v.call db
    | .losesLease => db
  out v db :=
    match v.ending with
    | .completes => ((service v.env).out ⟨sub, v.call⟩ ⟨db, v.emissionWindows⟩).map Prod.snd
    | .fails | .losesLease => []

def TickCall.received (v : TickCall F) : Int := v.call.obs.receivedAt.getD 0

/-- The worker checks freshness with this bound, and the tick has a receive time. -/
structure Received (gap : Int) (v : TickCall F) : Prop where
  enabled : v.env.ltpFreshnessEnabled = true
  maxGap : v.env.ltpMaxGap = gap
  receivedAt : v.call.obs.receivedAt = some v.received

def rowOf (sub : ActiveSubscription F) (db : Db F) (epoch : String) : Option (CheckpointRow F) :=
  db.checkpoints.get? (sub.id, sub.instrumentKey, epoch)

/-! ## the tick a condition compares with -/

/-- The state that the evaluation of the call starts from. -/
def startState (sub : ActiveSubscription F) (stage : Stage F) (v : TickCall F) (db : Db F) :
    Option (EvalState F) :=
  (startOf v.env sub stage v.call (loadState db sub stage v.call.obs) db).map
    fun start => start.prepared.state.toEvalState

/-- The evaluation of the call starts from a state with an entry under the key. -/
def StartsWith (sub : ActiveSubscription F) (stage : Stage F) (key : String) (v : TickCall F)
    (db : Db F) : Prop :=
  ∃ state ∈ startState sub stage v db, state.conds.contains key = true

/-- The condition fires on the state that the evaluation of the call starts from. -/
def Fires (sub : ActiveSubscription F) (stage : Stage F) (cond : Condition F) (v : TickCall F)
    (db : Db F) : Prop :=
  ∃ state ∈ startState sub stage v db,
    ∃ r ∈ (evaluateCondition cond v.call.input state).toOption, r.fired = true

instance (sub : ActiveSubscription F) (stage : Stage F) (key : String) (v : TickCall F) (db : Db F) :
    Decidable (StartsWith sub stage key v db) :=
  inferInstanceAs (Decidable (∃ state ∈ startState sub stage v db, _ = true))

instance (sub : ActiveSubscription F) (stage : Stage F) (cond : Condition F) (v : TickCall F)
    (db : Db F) : Decidable (Fires sub stage cond v db) :=
  inferInstanceAs (Decidable (∃ state ∈ startState sub stage v db, ∃ r ∈ _, _ = true))

/-- The call leaves the row of the epoch, or its evaluation starts from a state with the entry. -/
def PassesOn (sub : ActiveSubscription F) (stage : Stage F) (key epoch : String) (v : TickCall F)
    (db : Db F) : Prop :=
  rowOf sub ((ticks sub).step v db) epoch = rowOf sub db epoch ∨ StartsWith sub stage key v db

/-- A condition fires at tick `j`, and a value that tick `i` stored may have reached it: `i` saved
the row of `j`'s epoch, and every tick in between passes the entry on. -/
structure ComparedWith (sub : ActiveSubscription F) (stage : Stage F) (cond : Condition F)
    (before : List (TickCall F)) (i : TickCall F) (between : List (TickCall F)) (j : TickCall F)
    (db : Db F) : Prop where
  stored : rowOf sub ((ticks sub).run (before ++ [i]) db) j.call.obs.epochId ≠
    rowOf sub ((ticks sub).run before db) j.call.obs.epochId
  passed : (ticks sub).Along (fun v _ db => PassesOn sub stage (condKey cond) j.call.obs.epochId v db)
    between ((ticks sub).run (before ++ [i]) db)
  fires : Fires sub stage cond j ((ticks sub).run (before ++ i :: between) db)

/-- Every two neighbours are received at most the bound apart. -/
def Close (gap : Int) (calls : List (TickCall F)) : Prop :=
  calls.IsChain fun v w => |w.received - v.received| ≤ gap

instance (gap : Int) (calls : List (TickCall F)) : Decidable (Close gap calls) :=
  inferInstanceAs (Decidable (calls.IsChain fun v w => |w.received - v.received| ≤ gap))

section Conditions

variable {cond : Condition F} {input : EvalInput F}

omit [PyFloat F] in
theorem beginObservation_cases (state : EvalState F) (key : String) (obs : Observation F) :
    (∃ epoch, beginObservation state key obs = { epochId := epoch }) ∨
      ∃ entry, state.conds.get? key = some entry ∧
        ∀ epoch, entry.epochId = some epoch → epoch = obs.epochId := by
  cases hentry : state.conds.get? key with
  | none => exact .inl ⟨none, by simp [beginObservation, hentry]⟩
  | some entry =>
    cases hepoch : entry.epochId with
    | none => exact .inr ⟨entry, rfl, by simp [hepoch]⟩
    | some epoch =>
      by_cases heq : epoch = obs.epochId
      · exact .inr ⟨entry, rfl, by simp [hepoch, heq]⟩
      · exact .inl ⟨some epoch, by simp [beginObservation, hentry, hepoch, heq]⟩

theorem evaluateOp_fresh {op : Op} {cur : F} {epoch : Option String} {o : OpOutcome F}
    (h : evaluateOp op input cond cur { epochId := epoch } = .ok (some o)) : o.fired = false := by
  have hright : ∀ {evaluate : F → Except PyErr (Option (OpOutcome F))},
      (∀ level o, evaluate level = .ok (some o) → o.fired = false) →
      withRight input cond evaluate = .ok (some o) → o.fired = false := by
    intro evaluate heval h
    simp only [withRight, bind_eq_ok] at h
    obtain ⟨level, -, h⟩ := h
    cases level with
    | none => simp at h
    | some level => exact heval level o h
  have hpct : ∀ isRise threshold o, evaluatePctOp isRise cond input.obs cur threshold
      { epochId := epoch } = .ok (some o) → o.fired = false := by
    intro isRise threshold o h
    simp only [evaluatePctOp, baselineFor] at h
    split at h
    · simp at h
    · next baseline sub hsub =>
        split at hsub
        · simp at hsub
        · obtain ⟨rfl, rfl⟩ := Prod.mk.inj (some.inj hsub)
          split at h
          · simp at h
          · rw [← some.inj (Except.ok.inj h)]
            rfl
  cases op with
  | gt | gte | lt | lte =>
    refine hright (fun level o h => ?_) h
    rw [← some.inj (Except.ok.inj h), evaluateLevelOp]
    dsimp only
    split <;> rfl
  | crossesAbove | crossesBelow =>
    refine hright (fun level o h => ?_) h
    rw [← some.inj (Except.ok.inj h)]
    rfl
  | within =>
    simp only [evaluateOp, evaluateWithin] at h
    split at h
    · simp only [bind_eq_ok] at h
      obtain ⟨matched, -, h⟩ := h
      rw [← some.inj (Except.ok.inj h)]
      rfl
    · simp at h
  | risesPct | fallsPct => exact hright (hpct _) h
  | breaksPrevHigh | breaksPrevLow =>
    refine hright (fun level o h => ?_) h
    rw [← some.inj (Except.ok.inj h)]
    rfl

theorem entry_of_fired {state : EvalState F} {r : PredicateResult F}
    (h : evaluateCondition cond input state = .ok r) (hfired : r.fired) :
    ∃ entry, state.conds.get? (condKey cond) = some entry ∧
      ∀ epoch, entry.epochId = some epoch → epoch = input.obs.epochId := by
  rcases beginObservation_cases state (condKey cond) input.obs with ⟨epoch, hfresh⟩ | hentry
  · simp only [evaluateCondition, hfresh, bind_eq_ok] at h
    obtain ⟨outcome, houtcome, h⟩ := h
    cases outcome with
    | none =>
      rw [← Except.ok.inj h] at hfired
      cases hfired
    | some o =>
      rw [← Except.ok.inj h] at hfired
      simp only [conditionOutcome, bind_eq_ok] at houtcome
      obtain ⟨left, -, houtcome⟩ := houtcome
      split at houtcome
      · rw [evaluateOp_fresh houtcome] at hfired
        cases hfired
      · simp at houtcome
  · exact hentry

theorem Fires.startsWith {sub : ActiveSubscription F} {stage : Stage F} {v : TickCall F} {db : Db F}
    (h : Fires sub stage cond v db) : StartsWith sub stage (condKey cond) v db := by
  obtain ⟨state, hstate, r, hr, hfired⟩ := h
  have hok : evaluateCondition cond v.call.input state = .ok r := by
    cases hresult : evaluateCondition cond v.call.input state with
    | error err => simp [hresult, Except.toOption] at hr
    | ok result =>
      rw [hresult] at hr
      rw [some.inj hr]
  obtain ⟨entry, hentry, -⟩ := entry_of_fired hok hfired
  exact ⟨state, hstate, by simp [Dict.contains, hentry]⟩

end Conditions

/-! ## what a call does to a row -/

section Steps

variable {sub : ActiveSubscription F} {document : WorkflowDocument F} {stage : Stage F}
  {alert : AlertSpec F} {v : TickCall F} {db : Db F} {epoch : String}

omit [PyFloat F] in
theorem saveCheckpoint_loaded (sub : ActiveSubscription F) (stage : Stage F) (db : Db F)
    (obs : Observation F) (state : Checkpoint F) (now : Int) :
    ∃ epoch db', saveCheckpoint db sub.id sub.instrumentKey obs.epochId state
      (loadState db sub stage obs).2 now = some (epoch, db') := by
  have hloaded : ∀ row, db.checkpoints.get? (sub.id, sub.instrumentKey, obs.epochId) = some row →
      row.ownerEpoch = (loadState db sub stage obs).2 := by
    intro row hrow
    simp only [loadState, loadCheckpoint, hrow, map_some, some_or, getD_some]
  simp only [saveCheckpoint]
  split
  · exact ⟨_, _, rfl⟩
  · next row hrow =>
      rw [if_pos (hloaded row hrow)]
      exact ⟨_, _, rfl⟩

/-- On the tick clock an evaluation starts from the loaded state, or from a reset one that is
stored with the receive time of the tick. -/
theorem startOf_tick (hclock : stage.clock = .known .ltp) {start : Start F}
    (h : startOf v.env sub stage v.call (loadState db sub stage v.call.obs) db = some start) :
    ((v.env.ltpFreshnessEnabled →
        ltpGapDetected v.env (loadState db sub stage v.call.obs).1 v.call.obs = false) ∧
      start.base = db) ∨
    (start.prepared.state.conds = [] ∧ ∃ row, start.base.checkpoints = db.checkpoints.upsert
        (sub.id, sub.instrumentKey, v.call.obs.epochId) row ∧
      row.state.lastTickReceivedAt = v.call.obs.receivedAt) := by
  have hcandle : ¬ stage.clock = .known .candleClose := by
    rw [hclock]
    simp
  unfold startOf at h
  rw [if_neg hcandle] at h
  split at h
  · right
    obtain ⟨saved, db', hsave⟩ := saveCheckpoint_loaded sub stage db v.call.obs
      { resetObservationState (loadState db sub stage v.call.obs).1 with
        lastTickReceivedAt := v.call.obs.receivedAt
        lastTickTs := some v.call.obs.ts
        continuityInvalidatedAt := some v.call.obs.ts
        continuityInvalidationReason := some "ltp_gap" } v.call.now
    obtain rfl := some.inj h
    simp only [persistContinuityInvalidation, hsave]
    exact ⟨rfl, _, (saveCheckpoint_ok hsave).1, rfl⟩
  · next hgap =>
      obtain rfl := some.inj h
      refine .inl ⟨fun henabled => ?_, rfl⟩
      simpa [hclock, henabled] using hgap

theorem StartsWith.no_gap {key : String} (hclock : stage.clock = .known .ltp)
    (h : StartsWith sub stage key v db) (henabled : v.env.ltpFreshnessEnabled) :
    ltpGapDetected v.env (loadState db sub stage v.call.obs).1 v.call.obs = false := by
  obtain ⟨state, hstate, hcontains⟩ := h
  obtain ⟨start, hstart, rfl⟩ := map_eq_some_iff.mp hstate
  rcases startOf_tick hclock hstart with ⟨hgap, -⟩ | ⟨hempty, -⟩
  · exact hgap henabled
  · rw [hempty] at hcontains
    cases hcontains

omit [PyFloat F] in
theorem rowOf_upsert {db' : Db F} {row : CheckpointRow F} {obs : Observation F}
    (h : db'.checkpoints = db.checkpoints.upsert (sub.id, sub.instrumentKey, obs.epochId) row) :
    rowOf sub db' epoch = if obs.epochId = epoch then some row else rowOf sub db epoch := by
  rw [rowOf, h, rowOf]
  split
  · next heq => rw [← heq, Table.get?_upsert_self]
  · next hne =>
      rw [Table.get?_upsert_of_ne]
      simp [hne]

theorem rowOf_base (hclock : stage.clock = .known .ltp) {start : Start F}
    (h : startOf v.env sub stage v.call (loadState db sub stage v.call.obs) db = some start) :
    rowOf sub start.base epoch = rowOf sub db epoch ∨
      v.call.obs.epochId = epoch ∧ ∃ row, rowOf sub start.base epoch = some row ∧
        row.state.lastTickReceivedAt = v.call.obs.receivedAt := by
  rcases startOf_tick hclock h with ⟨-, hbase⟩ | ⟨-, row, hupsert, hreceived⟩
  · rw [hbase]
    exact .inl rfl
  · rw [rowOf_upsert hupsert]
    split
    · next heq => exact .inr ⟨heq, row, rfl, hreceived⟩
    · exact .inl rfl

omit [PyFloat F] in
theorem nextCheckpoint_received (hclock : stage.clock = .known .ltp) (call : Call F)
    (state : Checkpoint F) (decided : EvalState F) (hreceived : call.obs.receivedAt.isSome) :
    (nextCheckpoint stage call state decided).lastTickReceivedAt = call.obs.receivedAt := by
  simp only [nextCheckpoint, stampObservation, hclock, hreceived, and_self, if_true]
  split <;> rfl

theorem rowOf_step (hsub : Subscribes sub document stage alert) (hsignal : stage.breadth = none)
    (hclock : stage.clock = .known .ltp) (v : TickCall F)
    (hreceived : v.call.obs.receivedAt.isSome) (db : Db F) (epoch : String) :
    rowOf sub ((ticks sub).step v db) epoch = rowOf sub db epoch ∨
      v.call.obs.epochId = epoch ∧ ∃ row, rowOf sub ((ticks sub).step v db) epoch = some row ∧
        row.state.lastTickReceivedAt = v.call.obs.receivedAt := by
  cases hending : v.ending with
  | losesLease => exact .inl (by simp only [ticks, hending])
  | fails =>
    have hstep : (ticks sub).step v db = evaluationBase v.env sub v.call db := by
      simp only [ticks, hending]
    rw [hstep]
    simp only [evaluationBase, hsub.parses, hsub.stage, hsub.alert]
    split
    · exact .inl rfl
    · next ownerEpoch claimed hclaim =>
        obtain ⟨_, hcheckpoints, _⟩ := assertEvaluationOwner_of_claim hclaim
        rw [loadState_congr hcheckpoints sub stage v.call.obs]
        split
        · exact .inl rfl
        · next start hstart => exact rowOf_base hclock hstart
  | completes =>
    have hstep : (ticks sub).step v db = (handleSignal v.env sub document.session stage alert
        v.call ⟨db, v.emissionWindows⟩).2.db := by
      simp only [ticks, hending, service, handleObservation_signal hsub hsignal]
    have hcases := handleSignal_cases v.env sub document.session stage alert v.call
      ⟨db, v.emissionWindows⟩
    rw [hstep]
    generalize (handleSignal v.env sub document.session stage alert v.call
      ⟨db, v.emissionWindows⟩).2.db = db' at hcases ⊢
    cases hcases with
    | kept => exact .inl rfl
    | rolledBack hstart => exact rowOf_base hclock hstart
    | committed _ hstart _ hcheckpoints _ _ _ =>
      rw [rowOf_upsert hcheckpoints]
      split
      · next heq =>
          exact .inr ⟨heq, _, rfl, nextCheckpoint_received hclock v.call _ _ hreceived⟩
      · next hne =>
          have hbase : rowOf sub _ epoch = rowOf sub db epoch ∨ _ := rowOf_base hclock hstart
          rcases hbase with hsame | ⟨heq, -⟩
          · exact .inl hsame
          · exact absurd heq hne

end Steps

omit [PyFloat F] in
theorem close_of_ordered {gap : Int} {v w : TickCall F} {calls : List (TickCall F)}
    (hordered : (v :: calls ++ [w]).Pairwise fun a b => a.received ≤ b.received)
    (hgap : w.received - v.received ≤ gap) : Close gap (v :: calls ++ [w]) := by
  have hfirst : ∀ a ∈ v :: calls ++ [w], v.received ≤ a.received := by
    intro a ha
    rcases mem_cons.mp ha with rfl | ha
    · exact Int.le_refl _
    · exact (pairwise_cons.mp hordered).1 a ha
  have hlast : ∀ a ∈ v :: calls ++ [w], a.received ≤ w.received := by
    intro a ha
    rcases mem_append.mp ha with ha | ha
    · exact (pairwise_append.mp hordered).2.2 a ha w mem_cons_self
    · rw [mem_singleton.mp ha]
  refine hordered.isChain.imp_of_mem_imp fun a b ha hb hle => ?_
  have h₁ := hfirst a ha
  have h₂ := hlast b hb
  rw [abs_le]
  omega

section Runs

variable {sub : ActiveSubscription F} {document : WorkflowDocument F} {stage : Stage F}
  {alert : AlertSpec F} {gap : Int}

variable {key : String} {last : TickCall F} {row : CheckpointRow F}

theorem received_close {v : TickCall F} {db : Db F} (hclock : stage.clock = .known .ltp)
    (hv : Received gap v) (hrow : rowOf sub db v.call.obs.epochId = some row)
    (hlast : row.state.lastTickReceivedAt = some last.received)
    (hordered : last.received ≤ v.received) (hstart : StartsWith sub stage key v db) :
    v.received - last.received ≤ gap := by
  have hgap := hstart.no_gap hclock hv.enabled
  have hloaded : (loadState db sub stage v.call.obs).1 = row.state := by
    have hget : db.checkpoints.get? (sub.id, sub.instrumentKey, v.call.obs.epochId) = some row := hrow
    simp only [loadState, loadCheckpoint, hget, map_some, some_or, getD_some]
  rw [hloaded] at hgap
  simp only [ltpGapDetected, hv.receivedAt, hlast, hv.maxGap] at hgap
  have hnonneg : 0 ≤ v.received - last.received := by omega
  rw [decide_eq_true hnonneg, Bool.true_and] at hgap
  exact Int.not_lt.mp (of_decide_eq_false hgap)

/-- The calls from a stored tick to an evaluation on the entry that they pass on are close: those up
to the last save, and those after it that do not touch the row. -/
theorem close_of_passed (hsub : Subscribes sub document stage alert)
    (hsignal : stage.breadth = none) (hclock : stage.clock = .known .ltp) {j : TickCall F}
    (hj : Received gap j) {between : List (TickCall F)} (hbetween : ∀ v ∈ between, Received gap v)
    (front pending : List (TickCall F)) {db : Db F}
    (hrow : rowOf sub db j.call.obs.epochId = some row)
    (hlast : row.state.lastTickReceivedAt = some last.received)
    (hfront : Close gap (front ++ [last]))
    (hpassed : (ticks sub).Along (fun v _ db => PassesOn sub stage key j.call.obs.epochId v db)
      between db) (hstart : StartsWith sub stage key j ((ticks sub).run between db))
    (hordered : (front ++ last :: (pending ++ between ++ [j])).Pairwise
      fun a b => a.received ≤ b.received) :
    Close gap (front ++ last :: (pending ++ between ++ [j])) := by
  induction between generalizing front pending last db row with
  | nil =>
    rw [append_nil] at hordered ⊢
    have htail := (pairwise_append.mp hordered).2.1
    have hle := (pairwise_cons.mp htail).1 j (by simp)
    have hclose := received_close hclock hj hrow hlast hle hstart
    have hsegment : Close gap ([last] ++ (pending ++ [j])) := close_of_ordered htail hclose
    have hall := List.IsChain.append_overlap hfront hsegment (by simp)
    simpa [Close] using hall
  | cons v between ih =>
    obtain ⟨hv, hrest⟩ := hpassed
    have hreceived := hbetween v (.head _)
    have hbetween' := fun w hw => hbetween w (mem_cons_of_mem v hw)
    have hkept : rowOf sub ((ticks sub).step v db) j.call.obs.epochId = rowOf sub db j.call.obs.epochId →
        Close gap (front ++ last :: (pending ++ v :: between ++ [j])) := by
      intro hsame
      have hnext := ih hbetween' front (pending ++ [v]) (hsame.trans hrow) hlast hfront hrest hstart
        (by simpa using hordered)
      simpa using hnext
    rcases rowOf_step hsub hsignal hclock v (by rw [hreceived.receivedAt]; rfl) db
      j.call.obs.epochId with hsame | ⟨hepoch, saved, hsaved, hstored⟩
    · exact hkept hsame
    · rcases hv with hsame | hstarts
      · exact hkept hsame
      · have htail := (pairwise_append.mp hordered).2.1
        have hle := (pairwise_cons.mp htail).1 v (by simp)
        have hclose := received_close hclock hreceived (hepoch ▸ hrow) hlast hle hstarts
        have hsegment : Close gap ([last] ++ (pending ++ [v])) := by
          refine close_of_ordered (htail.sublist ?_) hclose
          simp
        have hfront' : Close gap (front ++ last :: pending ++ [v]) := by
          have hall := List.IsChain.append_overlap hfront hsegment (by simp)
          simpa [Close] using hall
        have hnext := ih hbetween' (front ++ last :: pending) [] hsaved
          (hstored.trans hreceived.receivedAt) hfront' hrest hstart (by simpa using hordered)
        simpa using hnext

/-- No tick crossing is reported across a silence: where a condition fires at a tick, and the
receive times from the tick on whose stored value it is compared with do not decrease, every two
successive ticks from there on are received at most the bound apart. -/
theorem no_crossing_across_silence (hsub : Subscribes sub document stage alert)
    (hsignal : stage.breadth = none) (hclock : stage.clock = .known .ltp)
    (before between after : List (TickCall F)) {i j : TickCall F} {calls : List (TickCall F)}
    (hcalls : calls = before ++ i :: (between ++ j :: after))
    (hreceived : ∀ v ∈ calls, Received gap v) {cond : Condition F} {db : Db F}
    (hcompared : ComparedWith sub stage cond before i between j db)
    (hordered : (i :: (between ++ [j])).Pairwise fun v w => v.received ≤ w.received) :
    Close gap (i :: (between ++ [j])) := by
  subst hcalls
  have hi := hreceived i (by simp)
  have hj := hreceived j (by simp)
  have hrun : ∀ rest, (ticks sub).run (before ++ i :: rest) db =
      (ticks sub).run rest ((ticks sub).run (before ++ [i]) db) := by
    intro rest
    rw [← Machine.run_append, List.append_assoc, List.singleton_append]
  have hone : (ticks sub).run (before ++ [i]) db = (ticks sub).step i ((ticks sub).run before db) := by
    rw [Machine.run_append]
    rfl
  rcases rowOf_step hsub hsignal hclock i (by rw [hi.receivedAt]; rfl) ((ticks sub).run before db)
    j.call.obs.epochId with hsame | ⟨-, row, hrow, hlast⟩
  · exact absurd (hone ▸ hsame) hcompared.stored
  · rw [← hone] at hrow
    have hstart := hcompared.fires.startsWith
    rw [hrun] at hstart
    exact close_of_passed hsub hsignal hclock hj (fun v hv => hreceived v (by simp [hv])) [] [] hrow (hlast.trans hi.receivedAt)
      (List.isChain_singleton i) hcompared.passed hstart hordered

end Runs

/-- A tick of the worker `a`. -/
def tickCall (second : Int) (price : ℚ) (ending : TickEnd := .completes) : TickCall ℚ :=
  { tickVisit "a" second price with ending }

theorem stored_of_isSome {sub : ActiveSubscription F} {i : TickCall F} {epoch : String}
    (h : (rowOf sub ((ticks sub).run [i] {}) epoch).isSome) :
    rowOf sub ((ticks sub).run ([] ++ [i]) {}) epoch ≠ rowOf sub ((ticks sub).run [] {}) epoch := by
  intro hsame
  have hnone : rowOf sub ((ticks sub).run [i] {}) epoch = none := hsame
  rw [hnone] at h
  cases h

/-- The crossing of a tick that is compared with the tick before it. -/
theorem no_crossing_across_silence_ticks :
    let i := tickCall 0 90
    let k := tickCall 250 95
    let j := tickCall 500 110
    ((ticks tickSub).trace [i, k, j] {}).length = 1 ∧ Close (300 * microsPerSecond) [i, k, j] := by
  intro i k j
  obtain ⟨document, stage, alert, hsub, hsignal, hclock, -, -, hcheck⟩ :=
    tickSub_subscribes (fun stage => stage.conditions.any fun cond =>
      decide (StartsWith tickSub stage (condKey cond) k ((ticks tickSub).run [i] {})) &&
      decide (Fires tickSub stage cond j ((ticks tickSub).run [i, k] {}))) (by decide +kernel)
  obtain ⟨cond, -, hcond⟩ := List.any_eq_true.mp hcheck
  simp only [Bool.and_eq_true, decide_eq_true_eq] at hcond
  have hreceived : ∀ v ∈ [i, k, j], Received (300 * microsPerSecond) v := by
    simp only [List.forall_mem_cons]
    exact ⟨⟨rfl, rfl, rfl⟩, ⟨rfl, rfl, rfl⟩, ⟨rfl, rfl, rfl⟩, by simp⟩
  have hstored : (rowOf tickSub ((ticks tickSub).run [i] {}) "a").isSome = true := by decide +kernel
  have hcompared : ComparedWith tickSub stage cond [] i [k] j {} :=
    ⟨stored_of_isSome hstored, ⟨.inr hcond.1, trivial⟩, hcond.2⟩
  exact ⟨by decide +kernel, no_crossing_across_silence hsub hsignal hclock [] [k] [] rfl hreceived
    hcompared (by decide)⟩

/-- A tick that was received ten minutes before the last one, and whose save loses the lease, is no
silence: the next crossing is reported across it. -/
theorem crossing_after_earlier_receipt :
    let i := tickCall 1000 90
    let k := tickCall 400 95 .losesLease
    let j := tickCall 1010 110
    (∀ v ∈ [i, k, j], Received (300 * microsPerSecond) v) ∧
      (∃ document stage alert cond, Subscribes tickSub document stage alert ∧
        stage.breadth = none ∧ stage.clock = .known .ltp ∧ cond ∈ stage.conditions ∧
        cond.op = .known .crossesAbove ∧ ComparedWith tickSub stage cond [] i [k] j {}) ∧
      ((ticks tickSub).out j ((ticks tickSub).run [i, k] {})).length = 1 ∧
      300 * microsPerSecond < j.received - k.received ∧ ¬ Close (300 * microsPerSecond) [i, k, j] := by
  intro i k j
  obtain ⟨document, stage, alert, hsub, hsignal, hclock, -, -, hcheck⟩ :=
    tickSub_subscribes (fun stage => stage.conditions.any fun cond =>
      decide (cond.op = .known .crossesAbove) &&
      decide (Fires tickSub stage cond j ((ticks tickSub).run [i, k] {}))) (by decide +kernel)
  obtain ⟨cond, hmem, hcond⟩ := List.any_eq_true.mp hcheck
  simp only [Bool.and_eq_true, decide_eq_true_eq] at hcond
  have hstored : (rowOf tickSub ((ticks tickSub).run [i] {}) "a").isSome = true := by decide +kernel
  have hcompared : ComparedWith tickSub stage cond [] i [k] j {} :=
    ⟨stored_of_isSome hstored, ⟨.inl rfl, trivial⟩, hcond.2⟩
  refine ⟨?_, ⟨document, stage, alert, cond, hsub, hsignal, hclock, hmem, hcond.1, hcompared⟩,
    by decide +kernel, by decide, by decide⟩
  simp only [List.forall_mem_cons]
  exact ⟨⟨rfl, rfl, rfl⟩, ⟨rfl, rfl, rfl⟩, ⟨rfl, rfl, rfl⟩, by simp⟩

end KiteAlgo
