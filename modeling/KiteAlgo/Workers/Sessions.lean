import KiteAlgo.Workers
import KiteAlgo.Lib.Run

/-!
# KiteAlgo.Workers.Sessions

The session of a worker run: a worker claims it, records heartbeats under the nonce it got,
and releases it; a session that went silent may be replaced, and its run is listed for
recovery.

`WatchedSession` keeps beside the row what the answers of the calls told its callers: which session
they take for the active one, when it was claimed and when it last recorded a heartbeat.
The row itself does not tell the heartbeat of this session from one of an earlier session
(`session_exclusive_iff`).
-/

namespace KiteAlgo

open List Option
/-- The settings; every use takes at least one second. -/
structure SessionLimits where
  freshnessSeconds : Int
  claimedWithoutHeartbeatSeconds : Int
  staleActionSeconds : Int

namespace SessionLimits

variable (limits : SessionLimits)

def freshness : Int := seconds (max 1 limits.freshnessSeconds)
def grace : Int := seconds (max 1 limits.claimedWithoutHeartbeatSeconds)
def staleAction : Int := seconds (max 1 limits.staleActionSeconds)

end SessionLimits

namespace WorkerRun

/-- Do the heartbeat and claim columns say that the session is silent? -/
def looksSilent (run : WorkerRun) (freshness grace now : Int) : Bool :=
  match run.lastHeartbeatAt with
  | some heartbeat => decide (heartbeat < now - freshness)
  | none =>
    match run.workerSessionClaimedAt with
    | some claimedAt => decide (claimedAt < now - grace)
    | none => false

/-- `_claim_run_session_sync` with the new nonce. -/
def claimRunSession (run : WorkerRun) (limits : SessionLimits) (nonce : String) (now : Int) :
    Option WorkerRun :=
  if run.workerSessionNonce = none ∨ run.looksSilent limits.freshness limits.grace now = true then
    some { run with workerSessionNonce := some nonce, workerSessionClaimedAt := some now }
  else none

/-- `_release_run_session_sync`. -/
def releaseRunSession (run : WorkerRun) (expectedNonce : String) : Option WorkerRun :=
  if run.workerSessionNonce = some expectedNonce then
    some { run with workerSessionNonce := none, workerSessionClaimedAt := none }
  else none

/-- `_record_run_heartbeat_sync`. -/
def recordRunHeartbeat (run : WorkerRun) (expectedNonce : String) (now : Int) : Option WorkerRun :=
  if run.workerSessionNonce = some expectedNonce then
    some { run with lastHeartbeatAt := some now }
  else none

/-- Is the run one that stale recovery looks at? -/
def recoverable (run : WorkerRun) : Bool :=
  (run.status == "open" || run.status == "paused") &&
    !(run.workerSessionNonce.isNone && run.lastHeartbeatAt.isNone) && !run.staleOwned

/-- `_list_stale_recovery_runs_sync`, for one run. -/
def listedStale (run : WorkerRun) (limits : SessionLimits) (now : Int) : Bool :=
  run.recoverable && run.looksSilent limits.staleAction limits.grace now

/-- The stale test of `recover_stale_runs_once` on a listed run. -/
def staleTest (run : WorkerRun) (limits : SessionLimits) (now : Int) : Bool :=
  match run.lastHeartbeatAt with
  | some heartbeat => decide (limits.staleAction ≤ now - heartbeat)
  | none =>
    match run.workerSessionClaimedAt with
    | some claimedAt => decide (limits.grace ≤ now - claimedAt)
    | none => false

end WorkerRun

/-! ## sessions as their workers see them -/

structure WorkerSession where
  nonce : String
  claimedAt : Int
  heartbeat : Option Int
  deriving DecidableEq

/-- The session recorded a heartbeat and its last one is too old, or it recorded none and its
claim is too old. -/
def WorkerSession.Silent (session : WorkerSession) (freshness grace now : Int) : Prop :=
  match session.heartbeat with
  | some heartbeat => heartbeat < now - freshness
  | none => session.claimedAt < now - grace

instance (session : WorkerSession) (freshness grace now : Int) :
    Decidable (session.Silent freshness grace now) :=
  match session with
  | ⟨_, _, some _⟩ => inferInstanceAs (Decidable (_ < _))
  | ⟨_, _, none⟩ => inferInstanceAs (Decidable (_ < _))

/-- The row, the session its last claim returned unless it was released, and the nonces that
were replaced or released. -/
structure WatchedSession where
  run : WorkerRun
  session : Option WorkerSession := none
  retired : List String := []

/-- A call on the session of the run, or a stale-recovery pass. -/
inductive SessionCall where
  | claim (nonce : String)
  | release (nonce : String)
  | heartbeat (nonce : String)
  | recover
  deriving DecidableEq

structure SessionStep where
  now : Int
  call : SessionCall
  deriving DecidableEq

namespace WatchedSession

variable (limits : SessionLimits)

/-- The answer of the call and what it leaves. -/
def answer (e : SessionStep) (w : WatchedSession) : Option WorkerRun × WatchedSession :=
  match e.call with
  | .claim nonce =>
    match w.run.claimRunSession limits nonce e.now with
    | none => (none, w)
    | some run =>
      (some run,
        { run := run
          session := some ⟨nonce, e.now, none⟩
          retired := w.retired ++ (w.session.map WorkerSession.nonce).toList })
  | .release nonce =>
    match w.run.releaseRunSession nonce with
    | none => (none, w)
    | some run => (some run, { run := run, session := none, retired := w.retired ++ [nonce] })
  | .heartbeat nonce =>
    match w.run.recordRunHeartbeat nonce e.now with
    | none => (none, w)
    | some run =>
      (some run, { w with
          run := run
          session := w.session.map fun session => { session with heartbeat := some e.now } })
  | .recover => (if w.run.listedStale limits e.now then some w.run else none, w)

/-- The calls on one run, one after another: each is one statement. -/
def machine : Machine SessionStep WatchedSession (Option WorkerRun) := .ofCall (answer limits)

/-! ## exclusive sessions -/

/-- A claim that succeeds, and a recovery pass that lists the run, find no session that is
not silent. -/
def Exclusive (e : SessionStep) (w : WatchedSession) : Prop :=
  match e.call with
  | .claim nonce => w.run.claimRunSession limits nonce e.now ≠ none → ∀ session, w.session = some session →
        session.Silent limits.freshness limits.grace e.now
  | .recover => w.run.listedStale limits e.now = true → ∀ session, w.session = some session →
        session.Silent limits.staleAction limits.grace e.now
  | .release _ | .heartbeat _ => True

/-- The nonce of the last claim is the active one until it is released or replaced; a nonce
that was is neither active nor able to record a heartbeat. -/
structure Tracked (w : WatchedSession) : Prop where
  active : w.run.workerSessionNonce = w.session.map WorkerSession.nonce
  retired : ∀ nonce ∈ w.retired, w.run.workerSessionNonce ≠ some nonce ∧
    ∀ now, w.run.recordRunHeartbeat nonce now = none

def Sound (e : SessionStep) (w : WatchedSession) : Prop :=
  Exclusive limits e w ∧ Tracked (answer limits e w).2

/-- Where the active session has recorded no heartbeat, the heartbeat column holds nothing
that makes it look silent before its time. -/
def OwnColumn (w : WatchedSession) (freshness grace now : Int) : Prop :=
  ∀ session, w.session = some session → session.heartbeat = none →
    ∀ earlier, w.run.lastHeartbeatAt = some earlier →
      now - freshness ≤ earlier ∨ session.claimedAt < now - grace

/-- The condition: claims, and recovery passes over a run they look at, meet such a column. -/
def Unaged (e : SessionStep) (w : WatchedSession) : Prop :=
  match e.call with
  | .claim _ => w.OwnColumn limits.freshness limits.grace e.now
  | .recover => w.run.recoverable = true → w.OwnColumn limits.staleAction limits.grace e.now
  | .release _ | .heartbeat _ => True

/-- The nonces that calls ask the run to take. -/
def claimed (calls : List SessionStep) : List String :=
  calls.filterMap fun e =>
    match e.call with
    | .claim nonce => some nonce
    | _ => none

/-- What the row and the answers have in common, whatever the clock. -/
structure Consistent (w : WatchedSession) (calls : List SessionStep) : Prop where
  active : w.run.workerSessionNonce = w.session.map WorkerSession.nonce
  claimedAt : w.run.workerSessionClaimedAt = w.session.map WorkerSession.claimedAt
  heartbeat : ∀ session, w.session = some session → ∀ heartbeat,
    session.heartbeat = some heartbeat → w.run.lastHeartbeatAt = some heartbeat
  retired : ∀ nonce ∈ w.retired, w.run.workerSessionNonce ≠ some nonce
  fresh : ∀ nonce ∈ claimed calls, nonce ∉ w.retired ∧ w.run.workerSessionNonce ≠ some nonce
  distinct : (claimed calls).Nodup

variable {limits}

variable {calls : List SessionStep} {w : WatchedSession}

theorem looksSilent_iff (hw : w.Consistent calls) {session : WorkerSession}
    (hsession : w.session = some session) (freshness grace now : Int) :
    (w.run.looksSilent freshness grace now → session.Silent freshness grace now) ↔
      w.OwnColumn freshness grace now := by
  have hclaimed : w.run.workerSessionClaimedAt = some session.claimedAt := by
    rw [hw.claimedAt, hsession]
    rfl
  unfold WorkerRun.looksSilent WorkerSession.Silent OwnColumn
  cases hbeat : session.heartbeat with
  | some heartbeat =>
    rw [hw.heartbeat session hsession heartbeat hbeat]
    simp only [decide_eq_true_eq]
    refine ⟨fun _ other hother hnone => ?_, fun _ h => h⟩
    rw [hsession, some.injEq] at hother
    rw [← hother, hbeat] at hnone
    exact absurd hnone (by simp)
  | none =>
    cases hcolumn : w.run.lastHeartbeatAt with
    | none => simp [hclaimed]
    | some earlier =>
      simp only [decide_eq_true_eq]
      constructor
      · intro h other hother _ column hsame
        rw [hsession, some.injEq] at hother
        rw [some.injEq] at hsame
        subst hother hsame
        by_cases hold : earlier < now - freshness
        · exact .inr (h hold)
        · exact .inl (by omega)
      · intro h hold
        exact (h session hsession hbeat earlier rfl).resolve_left (by omega)

variable {e : SessionStep} {rest : List SessionStep}

theorem Consistent.step (hw : w.Consistent (e :: rest)) :
    (answer limits e w).2.Consistent rest := by
  have hsub : (claimed rest).Sublist (claimed (e :: rest)) :=
    (List.sublist_cons_self e rest).filterMap _
  have hrest : w.Consistent rest :=
    { hw with
      fresh := fun nonce hnonce => hw.fresh nonce (hsub.subset hnonce)
      distinct := hw.distinct.sublist hsub }
  obtain ⟨now, call⟩ := e
  cases call with
  | recover => exact hrest
  | heartbeat nonce =>
    by_cases hactive : w.run.workerSessionNonce = some nonce
    · simp only [answer, WorkerRun.recordRunHeartbeat, if_pos hactive]
      refine { hrest with active := ?_, claimedAt := ?_, heartbeat := ?_ }
      · rw [Option.map_map]
        exact hw.active
      · rw [Option.map_map]
        exact hw.claimedAt
      · intro session hsession heartbeat hbeat
        obtain ⟨old, -, rfl⟩ := Option.map_eq_some_iff.mp hsession
        exact hbeat
    · simp only [answer, WorkerRun.recordRunHeartbeat, if_neg hactive]
      exact hrest
  | release nonce =>
    by_cases hactive : w.run.workerSessionNonce = some nonce
    · simp only [answer, WorkerRun.releaseRunSession, if_pos hactive]
      refine ⟨rfl, rfl, fun session h => by simp at h, fun other _ => by simp, ?_, hrest.distinct⟩
      intro other hother
      refine ⟨fun hmem => ?_, by simp⟩
      rcases List.mem_append.mp hmem with hold | hnew
      · exact (hrest.fresh other hother).1 hold
      · rw [List.mem_singleton.mp hnew] at hother
        exact (hrest.fresh nonce hother).2 hactive
    · simp only [answer, WorkerRun.releaseRunSession, if_neg hactive]
      exact hrest
  | claim nonce =>
    have hmem : nonce ∈ claimed (⟨now, .claim nonce⟩ :: rest) := (.head _)
    have hold : ∀ other ∈ (w.session.map WorkerSession.nonce).toList,
        w.run.workerSessionNonce = some other := by
      intro other hother
      rw [hw.active]
      exact Option.mem_toList.mp hother
    have hnew : nonce ∉ claimed rest := (List.nodup_cons.mp hw.distinct).1
    by_cases hfree : w.run.workerSessionNonce = none ∨
        w.run.looksSilent limits.freshness limits.grace now = true
    · simp only [answer, WorkerRun.claimRunSession, if_pos hfree]
      refine ⟨rfl, rfl, ?_, ?_, ?_, hrest.distinct⟩
      · rintro session hsession heartbeat hbeat
        rw [← some.inj hsession] at hbeat
        simp at hbeat
      · intro other hother heq
        rw [← some.inj heq] at hother
        rcases List.mem_append.mp hother with hretired | hreplaced
        · exact (hw.fresh nonce hmem).1 hretired
        · exact (hw.fresh nonce hmem).2 (hold nonce hreplaced)
      · intro other hother
        refine ⟨fun hin => ?_, fun heq => hnew (by rwa [some.inj heq])⟩
        rcases List.mem_append.mp hin with hretired | hreplaced
        · exact (hrest.fresh other hother).1 hretired
        · exact (hrest.fresh other hother).2 (hold other hreplaced)
    · simp only [answer, WorkerRun.claimRunSession, if_neg hfree]
      exact hrest

theorem Consistent.tracked (hw : w.Consistent calls) : Tracked w :=
  ⟨hw.active, fun nonce hnonce =>
    ⟨hw.retired nonce hnonce, fun _ => if_neg (hw.retired nonce hnonce)⟩⟩

theorem Consistent.sound_iff (hw : w.Consistent (e :: rest)) :
    Sound limits e w ↔ Unaged limits e w := by
  have htracked : Tracked (answer limits e w).2 := hw.step.tracked
  refine (and_iff_left htracked).trans ?_
  unfold Exclusive Unaged
  cases hcall : e.call with
  | release nonce => exact Iff.rfl
  | heartbeat nonce => exact Iff.rfl
  | recover =>
    cases hsession : w.session with
    | none => simp [OwnColumn, hsession]
    | some session =>
      simp only [WorkerRun.listedStale, Bool.and_eq_true, and_imp, some.injEq,
        forall_eq', ← looksSilent_iff hw hsession]
  | claim nonce =>
    cases hsession : w.session with
    | none => simp [OwnColumn, hsession]
    | some session =>
      have hactive : w.run.workerSessionNonce ≠ none := by
        rw [hw.active, hsession]
        simp
      simp only [WorkerRun.claimRunSession, hactive, false_or, ne_eq, ite_eq_right_iff,
        reduceCtorEq, imp_false, not_not, some.injEq, forall_eq', ← looksSilent_iff hw hsession]

theorem Consistent.along_iff (hw : w.Consistent calls) :
    (machine limits).Along (fun e _ w => Sound limits e w) calls w ↔
      (machine limits).Along (fun e _ w => Unaged limits e w) calls w := by
  induction calls generalizing w with
  | nil => exact Iff.rfl
  | cons e rest ih =>
    rw [Machine.Along, Machine.Along, hw.sound_iff]
    exact and_congr_right fun _ => ih hw.step

variable (limits)

/-- In a run of calls, each with a new nonce, on a run without a session, every session is
exclusive exactly where no claim and no recovery pass meets an active session without a
heartbeat beside an aged heartbeat of an earlier session. -/
theorem session_exclusive_iff {run : WorkerRun} (hnonce : run.workerSessionNonce = none)
    (hclaimedAt : run.workerSessionClaimedAt = none) {calls : List SessionStep}
    (hfresh : (claimed calls).Nodup) :
    (machine limits).Along (fun e _ w => Sound limits e w) calls { run := run } ↔
      (machine limits).Along (fun e _ w => Unaged limits e w) calls { run := run } :=
  Consistent.along_iff
    { active := hnonce
      claimedAt := hclaimedAt
      heartbeat := fun session h => by simp at h
      retired := fun nonce h => by simp at h
      fresh := fun nonce _ => ⟨by simp, by simp [hnonce]⟩
      distinct := hfresh }

def demoLimits : SessionLimits := ⟨60, 120, 180⟩

def demoRun : WorkerRun where
  strategyRunId := "run"
  accountScope := "kite:AB1234"
  executionMode := "live"

/-- One session with a heartbeat, and its release. -/
def firstSession : List SessionStep :=
  [⟨0, .claim "a"⟩, ⟨seconds 10, .heartbeat "a"⟩, ⟨seconds 11, .release "a"⟩]

theorem session_exclusive_demo :
    (machine demoLimits).Along (fun e _ w => Sound demoLimits e w) firstSession
      { run := demoRun } := by
  refine (session_exclusive_iff demoLimits rfl rfl (by decide)).mpr
    ⟨fun session h => ?_, trivial, trivial, trivial⟩
  simp at h

/-- Long after it, another worker claims the run; a second later a recovery pass looks at the
run and a third worker claims it. -/
def aged : List SessionStep :=
  firstSession ++ [⟨seconds 1000, .claim "b"⟩, ⟨seconds 1001, .recover⟩, ⟨seconds 1001, .claim "c"⟩]

/-- The pass lists the run, and the third worker replaces the second. -/
theorem session_stolen :
    (claimed aged).Nodup ∧ ¬ (machine demoLimits).Along (fun e _ w => Sound demoLimits e w) (aged.take 5)
        { run := demoRun } ∧
      ¬ (machine demoLimits).Along
          (fun e _ w => e.call ≠ .recover → Sound demoLimits e w) aged { run := demoRun } := by
  refine ⟨by decide, fun h => ?_, fun h => ?_⟩
  · have hrecover := h.2.2.2.2.1.1
    exact absurd (hrecover (by decide +kernel) ⟨"b", seconds 1000, none⟩ rfl) (by decide)
  · have hclaim := (h.2.2.2.2.2.1 (by decide)).1
    exact absurd (hclaim (by decide +kernel) ⟨"b", seconds 1000, none⟩ rfl) (by decide)

end WatchedSession

end KiteAlgo
