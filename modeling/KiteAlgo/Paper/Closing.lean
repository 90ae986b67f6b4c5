import KiteAlgo.Lib.Run
import KiteAlgo.Paper.Outlook
import KiteAlgo.Time

/-!
# KiteAlgo.Paper.Closing

The paths that close a paper run: the worker's exit (`exit_worker_run`), the control plane's
(`exit_control_strategy`) and the two recovery loops (`recover_stale_runs_once`,
`recover_exiting_runs_once`).

The worker's exit and the loop over stale runs close a run where the exit sold or found nothing to
sell; the control plane closes it whatever the exit said, and the loop over exiting runs asks for no
exit at all (`closed_with_open_position`).  `closed_holds_nothing_iff` states when a closed run
holds nothing.
-/

namespace KiteAlgo.Paper

open List
/-! ## the steps on a run -/

/-- The status of a worker run; `opened` is `"open"`. -/
inductive WorkerRunStatus where
  | opened
  | paused
  | exiting
  | closed
  | failed
  deriving DecidableEq, Repr

/-- A row of `algo_worker_runs` in paper mode.  `staleOwned`: its protection is enabled and exits on
a stale worker. -/
structure WorkerRun where
  status : WorkerRunStatus := .opened
  workerSessionNonce : Option String := none
  lastHeartbeatAt : Option Int := none
  workerSessionClaimedAt : Option Int := none
  staleOwned : Bool := false

/-- The bounds of the recovery service, in seconds. -/
structure RecoverySettings where
  staleActionSeconds : Int
  claimedWithoutHeartbeatSeconds : Int

/-- What is checked against a bound: the age of the last heartbeat, or of the claim without one. -/
def WorkerRun.aged (run : WorkerRun) (settings : RecoverySettings)
    (passes : Int → Int → Bool) : Bool :=
  match run.lastHeartbeatAt, run.workerSessionClaimedAt with
  | some heartbeat, _ => passes heartbeat (max 1 settings.staleActionSeconds * microsPerSecond)
  | none, some claimed =>
    passes claimed (max 1 settings.claimedWithoutHeartbeatSeconds * microsPerSecond)
  | none, none => false

/-- `list_stale_recovery_runs` lists the run. -/
def WorkerRun.listedStale (run : WorkerRun) (settings : RecoverySettings) (now : Int) : Bool :=
  (run.status = .opened || run.status = .paused) &&
    !(run.workerSessionNonce.isNone && run.lastHeartbeatAt.isNone) && !run.staleOwned &&
    run.aged settings fun since bound => since < now - bound

/-- `recover_stale_runs_once` finds a listed run stale. -/
def WorkerRun.isStale (run : WorkerRun) (settings : RecoverySettings) (now : Int) : Bool :=
  run.aged settings fun since bound => bound ≤ now - since

structure ExitReadings where
  newest : List Attribution → Nat
  market : Nat → Int → Snapshot

/-- A step on the run of a strategy, or what others do to the account and to the row. -/
inductive RunStep where
  | exitWorkerRun (readings : ExitReadings)
  | exitControlStrategy (dryRun : Bool) (readings : ExitReadings)
  | recoverStaleRunsOnce (listedAt now : Int) (readings : ExitReadings)
  | recoverExitingRunsOnce
  | account (call : AccountCall)
  | write (run : WorkerRun)

structure RunWorld where
  store : Store
  run : WorkerRun

/-- What a step leaves, and the status that it sets. -/
structure RunEffect where
  world : RunWorld
  status : Option WorkerRunStatus := none

/-- `update_run_status`. -/
def RunWorld.setStatus (w : RunWorld) (store : Store) (status : WorkerRunStatus) : RunEffect :=
  ⟨⟨store, { w.run with status }⟩, some status⟩

def RunWorld.keep (w : RunWorld) (store : Store) : RunEffect := ⟨{ w with store }, none⟩

namespace Service

variable (svc : Service) (settings : RecoverySettings) (scope : Scope) (strategyRunId : String)

/-- One step on the run; a request that passes its checks, and the passes of the loops as far as
they concern the run. -/
def runEffect (r : RunStep) (w : RunWorld) : RunEffect :=
  match r with
  | .exitWorkerRun readings =>
    match (svc.exitStrategy scope strategyRunId readings.newest readings.market).run w.store with
    | (.error _, store) => w.keep store
    | (.ok reply, store) => w.setStatus store (if reply.closes then .closed else w.run.status)
  | .exitControlStrategy dryRun readings =>
    if dryRun then w.keep w.store
    else
      match (svc.exitStrategy scope strategyRunId readings.newest readings.market).run w.store with
      | (.error _, store) => w.keep store
      -- The result is put into the state of the run; its status is not looked at.
      | (.ok _, store) => w.setStatus store .closed
  | .recoverStaleRunsOnce listedAt now readings =>
    if w.run.listedStale settings listedAt && w.run.isStale settings now then
      match (svc.exitStrategy scope strategyRunId readings.newest readings.market).run w.store with
      | (.error _, store) => w.keep store
      | (.ok reply, store) => if reply.closes then w.setStatus store .closed else w.keep store
    else w.keep w.store
  | .recoverExitingRunsOnce =>
    -- A paper run that exits is taken for closed; nothing is asked of its positions.
    if w.run.status = .exiting then w.setStatus w.store .closed else w.keep w.store
  | .account call => w.keep ((svc.accountProgram call).run w.store).2
  | .write run => ⟨{ w with run }, none⟩

/-- The steps on a run, which record the statuses that they set. -/
def paperRuns : Machine RunStep RunWorld WorkerRunStatus where
  step r w := (svc.runEffect settings scope strategyRunId r w).world
  out r w := (svc.runEffect settings scope strategyRunId r w).status.toList

/-- What the exit of a step comes to, where it makes one. -/
def stepOutlook (r : RunStep) (w : RunWorld) : ExitOutlook :=
  match r with
  | .exitWorkerRun readings | .exitControlStrategy false readings |
      .recoverStaleRunsOnce _ _ readings =>
      svc.exitOutlook scope strategyRunId readings.newest readings.market w.store
  | _ => .nothing

/-- The step sets the run to closed, as its path takes the outlook of the exit. -/
def closes (r : RunStep) (w : RunWorld) : Bool :=
  let outlook := svc.stepOutlook scope strategyRunId r w
  match r with
  | .exitWorkerRun _ => outlook.succeeds || (outlook.replies && w.run.status = .closed)
  | .exitControlStrategy dryRun _ => !dryRun && outlook.replies
  | .recoverStaleRunsOnce listedAt now _ =>
    w.run.listedStale settings listedAt && w.run.isStale settings now && outlook.succeeds
  | .recoverExitingRunsOnce => w.run.status = .exiting
  | .account _ | .write _ => false

/-- Where the step closes the run, the legs that its exit places, none of them where it is refused,
finds nothing or is not asked for, undo what is attributed to the strategy. -/
def UndoesAll (r : RunStep) (w : RunWorld) : Prop :=
  svc.closes settings scope strategyRunId r w = true → ∀ instrumentToken product,
      w.store.attributedQuantity (Text.strip strategyRunId) ⟨scope, instrumentToken, product⟩ +
        (svc.stepOutlook scope strategyRunId r w).adds scope ⟨scope, instrumentToken, product⟩ = 0

/-- If the step sets the run to closed, its strategy then holds nothing. -/
def ClosesFlat (r : RunStep) (w : RunWorld) : Prop :=
  (svc.runEffect settings scope strategyRunId r w).status = some .closed →
    (svc.runEffect settings scope strategyRunId r w).world.store.Flat scope (Text.strip strategyRunId)

variable {svc settings scope strategyRunId}

theorem ExitReply.closes_noop (message : String) : (ExitReply.noop message).closes := rfl

theorem ExitReply.closes_success {result : BasketResult} (h : result.status = .success) :
    (ExitReply.placed result).closes := by
  rw [ExitReply.closes, ExitReply.status, h]
  rfl

theorem status_runEffect (hmarket : svc.upper "MARKET" = "MARKET") (r : RunStep) (w : RunWorld) :
    (svc.runEffect settings scope strategyRunId r w).status = some .closed ↔
      svc.closes settings scope strategyRunId r w := by
  have hexit : ∀ readings : ExitReadings, ExitResult scope (Text.strip strategyRunId) w.store
      (svc.exitOutlook scope strategyRunId readings.newest readings.market w.store)
      ((svc.exitStrategy scope strategyRunId readings.newest readings.market).run w.store) :=
    fun readings => exitStrategy_result hmarket w.store
  cases r with
  | exitWorkerRun readings =>
    have hresult := hexit readings
    simp only [runEffect, closes, stepOutlook]
    generalize svc.exitOutlook scope strategyRunId readings.newest readings.market w.store = outlook
      at hresult ⊢
    generalize (svc.exitStrategy scope strategyRunId readings.newest readings.market).run w.store =
      result at hresult ⊢
    cases hresult with
    | raised failure => simp [RunWorld.keep, ExitOutlook.succeeds, ExitOutlook.replies]
    | refused hstatus =>
      simp [RunWorld.setStatus, hstatus, ExitOutlook.succeeds, ExitOutlook.replies]
    | nothing message => simp [RunWorld.setStatus, ExitReply.closes_noop, ExitOutlook.succeeds]
    | sold hstatus =>
      simp [RunWorld.setStatus, ExitReply.closes_success hstatus, ExitOutlook.succeeds]
  | exitControlStrategy dryRun readings =>
    have hresult := hexit readings
    cases dryRun with
    | true => simp [runEffect, closes, RunWorld.keep]
    | false =>
      simp only [runEffect, closes, stepOutlook]
      generalize svc.exitOutlook scope strategyRunId readings.newest readings.market w.store =
        outlook at hresult ⊢
      generalize (svc.exitStrategy scope strategyRunId readings.newest readings.market).run
        w.store = result at hresult ⊢
      cases hresult with
      | raised failure => simp [RunWorld.keep, ExitOutlook.replies]
      | refused hstatus => simp [RunWorld.setStatus, ExitOutlook.replies]
      | nothing message => simp [RunWorld.setStatus, ExitOutlook.replies]
      | sold hstatus => simp [RunWorld.setStatus, ExitOutlook.replies]
  | recoverStaleRunsOnce listedAt now readings =>
    have hresult := hexit readings
    simp only [runEffect, closes, stepOutlook]
    generalize svc.exitOutlook scope strategyRunId readings.newest readings.market w.store = outlook
      at hresult ⊢
    generalize (svc.exitStrategy scope strategyRunId readings.newest readings.market).run w.store =
      result at hresult ⊢
    generalize (w.run.listedStale settings listedAt && w.run.isStale settings now) = stale
    cases stale with
    | false => simp [RunWorld.keep]
    | true =>
      cases hresult with
      | raised failure => simp [RunWorld.keep, ExitOutlook.succeeds]
      | refused hstatus => simp [RunWorld.keep, hstatus, ExitOutlook.succeeds]
      | nothing message => simp [RunWorld.setStatus, ExitReply.closes_noop, ExitOutlook.succeeds]
      | sold hstatus =>
        simp [RunWorld.setStatus, ExitReply.closes_success hstatus, ExitOutlook.succeeds]
  | recoverExitingRunsOnce =>
    by_cases hexiting : w.run.status = .exiting
    · simp [runEffect, closes, RunWorld.setStatus, hexiting]
    · simp [runEffect, closes, RunWorld.keep, hexiting]
  | account call => simp [runEffect, closes, RunWorld.keep]
  | write run => simp [runEffect, closes]

theorem attributedQuantity_runEffect (hmarket : svc.upper "MARKET" = "MARKET") {r : RunStep}
    {w : RunWorld} (hcloses : svc.closes settings scope strategyRunId r w)
    (key : PositionKey) :
    (svc.runEffect settings scope strategyRunId r w).world.store.attributedQuantity
        (Text.strip strategyRunId) key =
      w.store.attributedQuantity (Text.strip strategyRunId) key +
        (svc.stepOutlook scope strategyRunId r w).adds scope key := by
  have hexit : ∀ readings : ExitReadings,
      ((svc.exitStrategy scope strategyRunId readings.newest readings.market).run
          w.store).2.attributedQuantity (Text.strip strategyRunId) key =
        w.store.attributedQuantity (Text.strip strategyRunId) key +
          (svc.exitOutlook scope strategyRunId readings.newest readings.market w.store).adds scope
            key :=
    fun readings => (exitStrategy_result hmarket w.store).attributedQuantity key
  cases r with
  | exitWorkerRun readings =>
    rw [stepOutlook, ← hexit]
    simp only [runEffect]
    split
    · next hrun => rw [hrun]; rfl
    · next hrun => rw [hrun]; rfl
  | exitControlStrategy dryRun readings =>
    cases dryRun with
    | true => cases hcloses
    | false =>
      rw [stepOutlook, ← hexit]
      simp only [runEffect, Bool.false_eq_true, if_false]
      split
      · next hrun => rw [hrun]; rfl
      · next hrun => rw [hrun]; rfl
  | recoverStaleRunsOnce listedAt now readings =>
    have hstale : (w.run.listedStale settings listedAt && w.run.isStale settings now) = true := by
      simp only [closes, Bool.and_eq_true] at hcloses
      simp [hcloses.1]
    rw [stepOutlook, ← hexit]
    simp only [runEffect, hstale, if_true]
    split
    · next hrun => rw [hrun]; rfl
    · next hrun =>
        rw [hrun]
        split <;> rfl
  | recoverExitingRunsOnce =>
    simp only [runEffect, stepOutlook, ExitOutlook.adds, add_zero]
    split <;> rfl
  | account call => cases hcloses
  | write run => cases hcloses

theorem closes_flat_iff (hmarket : svc.upper "MARKET" = "MARKET") (r : RunStep) (w : RunWorld) :
    svc.ClosesFlat settings scope strategyRunId r w ↔ svc.UndoesAll settings scope strategyRunId r w := by
  rw [ClosesFlat, status_runEffect hmarket, UndoesAll]
  refine forall_congr' fun hcloses => forall_congr' fun token => forall_congr' fun product => ?_
  rw [attributedQuantity_runEffect hmarket hcloses]

end Service

/-! ### checking a step -/

/-- The positions that the legs of an exit are about. -/
def ExitOutlook.keys (scope : Scope) : ExitOutlook → List PositionKey
  | .sells legs => legs.map (Service.Leg.key scope)
  | .raises | .refused | .nothing => []

theorem ExitOutlook.adds_of_not_mem {scope : Scope} {key : PositionKey} {outlook : ExitOutlook}
    (h : key ∉ outlook.keys scope) : outlook.adds scope key = 0 := by
  cases outlook with
  | sells legs =>
    refine sum_eq_zero fun n hn => ?_
    obtain ⟨leg, hleg, rfl⟩ := mem_map.mp hn
    rw [Service.Leg.adds, if_neg]
    rintro rfl
    exact h (mem_map.mpr ⟨leg, hleg, rfl⟩)
  | raises | refused | nothing => rfl

theorem Store.attributedQuantity_of_not_mem {s : Store} {strategy : String} {key : PositionKey}
    (h : key ∉ s.trades.map Trade.key) : s.attributedQuantity strategy key = 0 := by
  refine sum_eq_zero fun n hn => ?_
  obtain ⟨trade, htrade, rfl⟩ := mem_map.mp hn
  rw [Trade.adds, if_neg]
  rintro ⟨rfl, -⟩
  exact h (mem_map.mpr ⟨trade, htrade, rfl⟩)

theorem forall_position_iff {s : Store} {scope : Scope} {strategy : String} {outlook : ExitOutlook} :
    (∀ key ∈ s.trades.map Trade.key ++ outlook.keys scope, key.scope = scope →
        s.attributedQuantity strategy key + outlook.adds scope key = 0) ↔
      ∀ instrumentToken product,
        s.attributedQuantity strategy ⟨scope, instrumentToken, product⟩ +
          outlook.adds scope ⟨scope, instrumentToken, product⟩ = 0 := by
  constructor
  · intro h token product
    by_cases hmem : (⟨scope, token, product⟩ : PositionKey) ∈
        s.trades.map Trade.key ++ outlook.keys scope
    · exact h _ hmem rfl
    · rw [mem_append, not_or] at hmem
      rw [Store.attributedQuantity_of_not_mem hmem.1, ExitOutlook.adds_of_not_mem hmem.2, add_zero]
  · rintro h ⟨_, token, product⟩ - rfl
    exact h token product

instance (svc : Service) (settings : RecoverySettings) (scope : Scope) (strategyRunId : String)
    (r : RunStep) (w : RunWorld) : Decidable (svc.UndoesAll settings scope strategyRunId r w) :=
  decidable_of_iff (svc.closes settings scope strategyRunId r w = true → _)
    (imp_congr_right fun _ => forall_position_iff)

instance (s : Store) (scope : Scope) (strategy : String) : Decidable (s.Flat scope strategy) :=
  decidable_of_iff _ ((@forall_position_iff s scope strategy .nothing).trans
    (forall_congr' fun _ => forall_congr' fun _ => by rw [ExitOutlook.adds, add_zero]))

instance (svc : Service) (settings : RecoverySettings) (scope : Scope) (strategyRunId : String)
    (r : RunStep) (w : RunWorld) : Decidable (svc.ClosesFlat settings scope strategyRunId r w) :=
  inferInstanceAs (Decidable (_ → _))

/-! ### an exit without a price -/

def demoSettings : RecoverySettings := ⟨300, 300⟩

/-- The steps on the run of a strategy that has bought ten. -/
def demoRuns : Machine RunStep RunWorld WorkerRunStatus :=
  demoService.paperRuns demoSettings demoScope "alpha"

def demoReadings : ExitReadings := ⟨fun _ => 0, fun _ => demoMarket 100⟩

def noPrices : ExitReadings := ⟨fun _ => 0, fun _ _ => {}⟩

/-- The account after the strategy has bought ten. -/
def demoHolding : RunWorld := demoRuns.run [.account (demoBuy "alpha")] ⟨demoStore, {}⟩

end KiteAlgo.Paper
