import KiteAlgo.Lib.Interleaving
import KiteAlgo.Lib.Keyed
import KiteAlgo.Lib.Utf8
import KiteAlgo.Value

/-!
# KiteAlgo.Hosted

The job ledger of hosted strategies (`strategies/models.py`, `strategies/repository.py`).

A job is what it was created with (`JobSpec`), which nothing writes again, and what the
launch markers, the lease and the stop and recovery paths write.  Every transition is one
`UPDATE … WHERE` that compares the whole authority in the row it finds (`updateJob`), so
each is defined here as a function of the tables; `KiteAlgo.Hosted.Ledger` puts them into
the transactions that run them, some of which lock the strategy row first.
-/

namespace KiteAlgo.Hosted

/-! ## rows -/

/-- `status`. -/
inductive JobStatus where
  | queued
  | starting
  | running
  | fencing
  | recoveryRequired
  | stopped
  | failed
  | hung
  deriving DecidableEq, Repr

/-- The statuses in which an attempt holds authority. -/
def JobStatus.live : JobStatus → Bool
  | .starting | .running => true
  | _ => false

inductive DesiredState where
  | started
  | paused
  | stopped
  deriving DecidableEq, Repr

inductive StaleExitPolicy where
  | none
  | exitOnWorkerStale
  deriving DecidableEq, Repr

/-- The policy of a strategy, with the constraints of its columns. -/
@[ext] structure Policy where
  staleExitPolicy : StaleExitPolicy
  maxDurationS : Int
  progressDeadlineS : Int
  maxDurationS_pos : 0 < maxDurationS
  progressDeadlineS_pos : 0 < progressDeadlineS

instance : DecidableEq Policy := fun _ _ => decidable_of_iff _ Policy.ext_iff.symm

structure JobSpec where
  id : String
  strategyId : String
  versionId : String
  ownerId : String
  accountScope : String
  jobKind : String
  executionMode : String
  occurrenceKey : Option String
  attempt : Int
  paramsSnapshot : String
  capabilitiesSnapshot : String
  policySnapshot : Policy
  deriving DecidableEq

structure StrategyJob extends JobSpec where
  desiredState : DesiredState
  status : JobStatus := .queued
  leaseOwner : Option String := none
  leaseEpoch : Int := 0
  leaseUntil : Option Int := none
  tokenId : Option String := none
  runId : Option String := none
  handoffAt : Option Int := none
  lastError : Option String := none
  processCleanupState : Option String := none
  processCleanupAt : Option Int := none
  processCleanupActor : Option String := none
  stopRequestedAt : Option Int := none
  stopRequestedBy : Option String := none
  logsDiscarded : Bool := false
  logsSource : Option String := none
  recoveryRequiredAt : Option Int := none
  reconciledAt : Option Int := none
  deriving DecidableEq

structure HostedStrategy where
  id : String
  ownerId : String
  name : String
  active : Bool
  defaultAccountScope : String
  policy : Policy
  deriving DecidableEq

structure HostedStrategyVersion where
  id : String
  strategyId : String
  parametersSchema : String
  capabilitiesSnapshot : String
  sourceSha256 : String
  deriving DecidableEq

/-- `StrategyJobReconciliation`. -/
structure Reconciliation where
  id : String
  jobId : String
  strategyId : String
  ownerId : String
  attempt : Int
  runId : Option String
  outcome : String
  reasonCode : String
  evidence : String
  actorId : String
  deriving DecidableEq

structure StrategyJobLog where
  jobId : String
  attempt : Int
  seq : Nat
  content : List Char
  byteLen : Nat
  deriving DecidableEq

/-- The tables that the repository reads and writes. -/
structure Tables where
  strategies : List HostedStrategy
  versions : List HostedStrategyVersion
  jobs : Keyed fun job : StrategyJob => job.id
  reconciliations : Keyed Reconciliation.id
  jobLogs : List StrategyJobLog := []
  deriving DecidableEq

/-- The exceptions that the repository raises. -/
inductive StrategyError where
  | validation (message : String)
  | notFound (message : String)
  | conflict (message : String)
  | identity (message : String)
  | idempotencyConflict (message : String)
  | disabled (message : String)
  | fence (message : String)
  /-- A constraint violation that the repository does not translate. -/
  | integrity
  /-- A value that the database does not take. -/
  | data
  deriving DecidableEq, Repr

/-- A job that keeps its strategy from another attempt. -/
def StrategyJob.blocking (job : StrategyJob) : Bool :=
  match job.status with
  | .queued | .starting | .running => true
  | .recoveryRequired => job.reconciledAt.isNone
  | _ => false

/-- The jobs of `job.owner_id` and `job.strategy_id` that block. -/
def StrategyJob.blocks (ownerId strategyId : String) (job : StrategyJob) : Bool :=
  decide (job.ownerId = ownerId ∧ job.strategyId = strategyId) && job.blocking

/-! ## single updates -/

/-- `UPDATE strategy_jobs SET … WHERE id = … AND …`, and whether a row matched. -/
def updateJob (jobId : String) (matching : StrategyJob → Bool) (values : StrategyJob → StrategyJob)
    (t : Tables) : Bool × Tables :=
  match t.jobs.get? jobId with
  | some job =>
    if matching job then (true, { t with jobs := t.jobs.upsert (values job) }) else (false, t)
  | none => (false, t)

theorem updateJob_cases {jobId : String} {matching : StrategyJob → Bool}
    {values : StrategyJob → StrategyJob} (t : Tables) :
    updateJob jobId matching values t = (false, t) ∨ ∃ a, t.jobs.get? jobId = some a ∧ matching a ∧
        updateJob jobId matching values t = (true, { t with jobs := t.jobs.upsert (values a) }) := by
  unfold updateJob
  split
  · next a ha =>
    split
    · next hmatching => exact .inr ⟨a, ha, hmatching, rfl⟩
    · exact .inl rfl
  · exact .inl rfl

/-- `lease_owner`, `expected_lease_epoch` and `expected_attempt` of a call. -/
structure Lease where
  owner : String
  epoch : Int
  attempt : Int
  deriving DecidableEq

namespace Lease

variable (lease : Lease)

/-- The row carries this owner, epoch and attempt. -/
def names (job : StrategyJob) : Bool :=
  decide (job.leaseOwner = some lease.owner ∧ job.leaseEpoch = lease.epoch ∧ job.attempt = lease.attempt)

def authorityClause (job : StrategyJob) : Bool := job.status.live && lease.names job

end Lease

/-- `lease_until IS NULL OR lease_until < now`. -/
def StrategyJob.leaseFree (job : StrategyJob) (now : Int) : Bool :=
  job.leaseUntil.all fun deadline => decide (deadline < now)

def reserveChildToken (jobId : String) (lease : Lease) (tokenId : String) : Tables → Bool × Tables :=
  updateJob jobId
    (fun job => lease.authorityClause job && job.tokenId.isNone && job.handoffAt.isNone)
    fun job => { job with tokenId := some tokenId }

def recordChildRun (jobId : String) (lease : Lease) (tokenId runId : String) :
    Tables → Bool × Tables :=
  updateJob jobId
    (fun job => lease.authorityClause job && decide (job.tokenId = some tokenId) &&
      job.runId.isNone && job.handoffAt.isNone)
    fun job => { job with runId := some runId }

def markRunningAndHandoff (jobId : String) (lease : Lease) (runId : String) (now : Int) :
    Tables → Bool × Tables :=
  updateJob jobId
    (fun job => lease.authorityClause job && decide (job.runId = some runId) && job.handoffAt.isNone)
    fun job => { job with status := .running, handoffAt := some now }

/-- The update of `renew_lease`. -/
def renewLease (jobId : String) (lease : Lease) (leaseUntil : Int) : Tables → Bool × Tables :=
  updateJob jobId (fun job => lease.authorityClause job && job.handoffAt.isSome)
    fun job => { job with leaseUntil := some leaseUntil }

def recordFailure (jobId : String) (lease : Lease) (reason : String) : Tables → Bool × Tables :=
  updateJob jobId lease.authorityClause
    fun job => { job with lastError := some (String.ofList (reason.toList.take 500)) }

def markStopped (jobId : String) (lease : Lease) : Tables → Bool × Tables :=
  updateJob jobId lease.authorityClause
    fun job => { job with status := .stopped, desiredState := .stopped, leaseUntil := none }

/-- The update of `claim_job`. -/
def claim (jobId : String) (lease : Lease) (leaseUntil now : Int) : Tables → Bool × Tables :=
  updateJob jobId
    (fun job => decide (job.status = .queued ∧ job.desiredState = .started ∧
      job.leaseEpoch = lease.epoch ∧ job.attempt = lease.attempt) && job.leaseFree now)
    fun job =>
      { job with
        leaseOwner := some lease.owner
        leaseEpoch := job.leaseEpoch + 1
        leaseUntil := some leaseUntil
        status := .starting }

def StrategyJob.fenced (job : StrategyJob) (now : Int) : StrategyJob :=
  { job with status := .recoveryRequired, recoveryRequiredAt := some now, leaseUntil := none }

/-- `mark_recovery_required`, under the lock. -/
def markRecoveryRequired (jobId : String) (lease : Lease) (now : Int) : Tables → Bool × Tables :=
  updateJob jobId
    (fun job => lease.names job &&
      decide (job.status ≠ .stopped ∧ job.status ≠ .failed ∧ job.status ≠ .recoveryRequired))
    fun job => job.fenced now

/-- `expire_to_recovery`, under the lock. -/
def expireToRecovery (jobId : String) (attempt now : Int) : Tables → Bool × Tables :=
  updateJob jobId
    (fun job => decide (job.attempt = attempt) && job.status.live && job.leaseFree now)
    fun job => { job.fenced now with leaseOwner := none }

/-- `expire_to_recovery_authorized`, under the lock. -/
def expireToRecoveryAuthorized (jobId : String) (lease : Lease) (now : Int) :
    Tables → Bool × Tables :=
  updateJob jobId (fun job => lease.authorityClause job && job.leaseFree now)
    fun job => job.fenced now

/-- The update of `report_process_cleanup`, under the lock. -/
def reportCleanup (jobId state actor : String) (attempt now : Int) : Tables → Bool × Tables :=
  updateJob jobId (fun job => decide (job.attempt = attempt ∧ job.status ≠ .queued))
    fun job =>
      { job with
        processCleanupState := some state
        processCleanupAt := some now
        processCleanupActor := some (String.ofList (actor.toList.take 200)) }

def StrategyJob.reconciled (job : StrategyJob) (now : Int) : StrategyJob :=
  { job with status := .stopped, reconciledAt := some now }

/-- The update of `reconcile_recovery`, under the lock. -/
def reconcile (jobId ownerId : String) (epoch attempt now : Int) : Tables → Bool × Tables :=
  updateJob jobId
    (fun job => decide (job.ownerId = ownerId ∧ job.status = .recoveryRequired ∧
      job.leaseEpoch = epoch ∧ job.attempt = attempt))
    fun job => job.reconciled now

/-- What `reconcile_with_audit` is called with. -/
structure Audit where
  jobId : String
  ownerId : String
  expectedLeaseEpoch : Int
  expectedAttempt : Int
  expectedProcessCleanupState : Option String
  expectedRunId : Option String
  reasonCode : String
  evidence : String
  actorId : String
  deriving DecidableEq

/-- The row is the one that the evidence was collected for. -/
def Audit.evidenced (audit : Audit) (job : StrategyJob) : Bool :=
  decide (job.ownerId = audit.ownerId ∧ job.attempt = audit.expectedAttempt ∧
    job.leaseEpoch = audit.expectedLeaseEpoch ∧ job.status = .recoveryRequired ∧
    job.reconciledAt = none ∧ job.processCleanupState = audit.expectedProcessCleanupState ∧
    job.runId = audit.expectedRunId)

def Audit.row (audit : Audit) (strategyId newId : String) : Reconciliation :=
  { id := newId
    jobId := audit.jobId
    strategyId := strategyId
    ownerId := audit.ownerId
    attempt := audit.expectedAttempt
    runId := audit.expectedRunId
    outcome := "reconciled"
    reasonCode := audit.reasonCode
    evidence := audit.evidence
    actorId := audit.actorId }

/-- The transaction of `reconcile_with_audit` under the lock: the update and the audit row are
committed together. -/
def reconcileWithAuditRow (audit : Audit) (strategyId newId : String) (now : Int) (t : Tables) :
    Except StrategyError (Option Reconciliation) × Tables :=
  let updated := updateJob audit.jobId audit.evidenced (fun job => job.reconciled now) t
  if !updated.1 then (.ok none, t)
  else if (t.reconciliations.get? newId).isSome then (.error .integrity, t)
  else
    let row := audit.row strategyId newId
    (.ok (some row), { updated.2 with reconciliations := t.reconciliations.upsert row })

def stopQueuedJob (jobId ownerId actor : String) (attempt now : Int) : Tables → Bool × Tables :=
  updateJob jobId
    (fun job => decide (job.ownerId = ownerId ∧ job.attempt = attempt ∧ job.status = .queued))
    fun job =>
      { job with
        status := .stopped
        desiredState := .stopped
        stopRequestedAt := some now
        stopRequestedBy := some (String.ofList (actor.toList.take 200)) }

def requestStopActive (jobId ownerId actor : String) (attempt now : Int) : Tables → Bool × Tables :=
  updateJob jobId
    (fun job => decide (job.ownerId = ownerId ∧ job.attempt = attempt ∧
      job.desiredState ≠ .stopped) && job.status.live)
    fun job =>
      { job with
        desiredState := .stopped
        stopRequestedAt := some now
        stopRequestedBy := some (String.ofList (actor.toList.take 200)) }

/-- The insertion of `create_job`; identifiers and occurrence keys are unique. -/
def insertJob (job : StrategyJob) (t : Tables) : Except StrategyError StrategyJob × Tables :=
  if (t.jobs.get? job.id).isSome || t.jobs.rows.any fun other =>
        other.occurrenceKey.isSome && other.occurrenceKey == job.occurrenceKey then
    (.error (.conflict "occurrence_key already exists"), t)
  else (.ok job, { t with jobs := t.jobs.upsert job })

/-- What `append_job_log` returns; `truncated` is `discarded`. -/
structure Appended where
  stored : Nat
  discarded : Bool
  nextSeq : Nat
  deriving DecidableEq

def Tables.logsOf (t : Tables) (jobId : String) (attempt : Int) : List StrategyJobLog :=
  t.jobLogs.filter fun row => decide (row.jobId = jobId ∧ row.attempt = attempt)

/-- The loop of `append_job_log`: the rows it adds, and whether it met a chunk that does not
fit. -/
def logRows (jobId : String) (attempt : Int) (cap : Nat) :
    List (List Char) → Nat → Nat → List StrategyJobLog × Bool
  | [], _, _ => ([], false)
  | text :: chunks, currentBytes, nextSeq =>
    if text.isEmpty then logRows jobId attempt cap chunks currentBytes nextSeq
    else if cap < currentBytes + Utf8.size text then ([], true)
    else
      let row := ⟨jobId, attempt, nextSeq + 1, text, Utf8.size text⟩
      let rest := logRows jobId attempt cap chunks (currentBytes + row.byteLen) row.seq
      (row :: rest.1, rest.2)

/-- What `append_job_log` adds to the rows that are there. -/
def Tables.logRows (t : Tables) (jobId : String) (attempt : Int) (chunks : List (List Char))
    (maxTotalBytes : Int) : List StrategyJobLog × Bool :=
  let rows := t.logsOf jobId attempt
  Hosted.logRows jobId attempt (max 1 maxTotalBytes).toNat chunks
    (rows.map StrategyJobLog.byteLen).sum ((rows.map StrategyJobLog.seq).foldl max 0)

/-- `append_job_log`, one transaction under the lock of the job's row; what the database does not
take is rolled back. -/
def appendJobLog (storable : Char → Bool) (jobId : String) (attempt : Int)
    (chunks : List (List Char)) (maxTotalBytes : Int) (t : Tables) :
    Except StrategyError Appended × Tables :=
  let maxSeq := ((t.logsOf jobId attempt).map StrategyJobLog.seq).foldl max 0
  let added := t.logRows jobId attempt chunks maxTotalBytes
  let answer := ⟨added.1.length, added.2, maxSeq + added.1.length⟩
  if !(added.1.all fun row => row.content.all storable) then (.error .data, t)
  else
    match t.jobs.get? jobId with
    | some job =>
      let logged :=
        { job with
          logsSource := some (job.logsSource.getD "post_termination")
          logsDiscarded := job.logsDiscarded || added.2 }
      (.ok answer, { t with jobs := t.jobs.upsert logged, jobLogs := t.jobLogs ++ added.1 })
    | none => if added.1.isEmpty then (.ok answer, t) else (.error .integrity, t)

/-! ## transactions -/

/-- A program of the repository: each statement is one operation, and the lock of a strategy
is kept until its transaction ends. -/
abbrev Task := Prog String Unit Tables

def allowedJobKinds : List String := ["continuous", "finite"]

def allowedExecutionModes : List String := ["paper", "dry_run"]

/-- The functions of `strategies/service.py` that check parameters and account scopes, and the
characters that the database takes in a text. -/
structure Service where
  validateParameters : String → Option String → Except String String
  validateAccountScope : String → String → Except String String
  storable : Char → Bool

/-- What `create_job` is called with. -/
structure LaunchRequest where
  strategyId : String
  versionId : String
  ownerId : String
  jobKind : String
  executionMode : String
  params : Option String := none
  occurrenceKey : Option String := none
  attempt : Int := 1
  desiredState : DesiredState := .started
  deriving DecidableEq

namespace Tables

variable (t : Tables)

/-- The row that `_lock_strategy` selects. -/
def lockedStrategy (strategyId : String) (ownerId : Option String) : Option HostedStrategy :=
  t.strategies.find? fun strategy =>
    decide (strategy.id = strategyId) && ownerId.all fun owner => decide (strategy.ownerId = owner)

def strategyIdForJob (jobId : String) : Option String :=
  (t.jobs.get? jobId).map fun job => job.strategyId

def jobOfKey (key : String) : Option StrategyJob :=
  t.jobs.rows.find? fun job => decide (job.occurrenceKey = some key)

/-- The version, if it belongs to the strategy. -/
def versionOf (strategyId versionId : String) : Option HostedStrategyVersion :=
  t.versions.find? fun version =>
    decide (version.id = versionId ∧ version.strategyId = strategyId)

/-- The blocking query of `create_job`. -/
def blocked (ownerId strategyId : String) : Bool :=
  t.jobs.rows.any (StrategyJob.blocks ownerId strategyId)

end Tables

namespace LaunchRequest

variable (request : LaunchRequest)

/-- The checks that `create_job` makes before it opens a transaction. -/
def refusal : Option String :=
  if ¬ request.jobKind ∈ allowedJobKinds then some "unsupported job_kind"
  else if ¬ request.executionMode ∈ allowedExecutionModes then some "unsupported execution_mode"
  else if request.attempt < 1 then some "attempt must be an integer >= 1"
  else none

/-- The occurrence key, if there is one to replay. -/
def replayKey : Option String := request.occurrenceKey.filter fun key => decide (key ≠ "")

/-- The job was created by a request like this one. -/
def sameLaunch (existing : StrategyJob) (normalizedParams : String) : Bool :=
  decide (existing.versionId = request.versionId ∧
    existing.executionMode = request.executionMode ∧ existing.jobKind = request.jobKind ∧
    existing.paramsSnapshot = normalizedParams)

/-- The row that `create_job` inserts. -/
def job (strategy : HostedStrategy) (version : HostedStrategyVersion)
    (paramsSnapshot newId : String) : StrategyJob :=
  { id := newId
    strategyId := request.strategyId
    versionId := request.versionId
    ownerId := request.ownerId
    accountScope := strategy.defaultAccountScope
    jobKind := request.jobKind
    executionMode := request.executionMode
    occurrenceKey := request.occurrenceKey
    attempt := request.attempt
    paramsSnapshot := paramsSnapshot
    capabilitiesSnapshot := version.capabilitiesSnapshot
    policySnapshot := strategy.policy
    desiredState := request.desiredState }

end LaunchRequest

/-- An idempotent replay: the answer, unless no job has the occurrence key. -/
def replayJob (svc : Service) (request : LaunchRequest) :
    Task (Option (Except StrategyError StrategyJob)) :=
  match request.replayKey with
  | none => return none
  | some key => do
    match ← Prog.read () fun t => t.jobOfKey key with
    | none => return none
    | some existing =>
      if existing.ownerId ≠ request.ownerId ∨ existing.strategyId ≠ request.strategyId then
        return some (.error (.conflict "occurrence_key already used by another job"))
      else do
        match ← Prog.read () fun t => t.versionOf request.strategyId request.versionId with
        | none => return some (.error (.identity "version does not belong to this strategy"))
        | some version =>
          match svc.validateParameters version.parametersSchema request.params with
          | .error message => return some (.error (.validation message))
          | .ok normalizedParams =>
            if request.sameLaunch existing normalizedParams then return some (.ok existing)
            else
              return some (.error (.idempotencyConflict
                "the idempotency key was already used for a different launch request"))

/-- The checks of a new job and its insertion. -/
def insertChecked (svc : Service) (request : LaunchRequest) (strategy : HostedStrategy)
    (newId : String) : Task (Except StrategyError StrategyJob) :=
  if !strategy.active then return .error (.disabled "strategy is disabled")
  else
    match svc.validateAccountScope strategy.defaultAccountScope request.executionMode with
    | .error message => return .error (.validation message)
    | .ok _ => do
      match ← Prog.read () fun t => t.versionOf request.strategyId request.versionId with
      | none => return .error (.identity "version does not belong to this strategy")
      | some version => do
        let blocked ← Prog.read () fun t => t.blocked request.ownerId request.strategyId
        if blocked then
          return .error (.fence
            "strategy has an active or unreconciled job; reconcile before a new attempt")
        else
          match svc.validateParameters version.parametersSchema request.params with
          | .error message => return .error (.validation message)
          | .ok snapshot => Prog.call () (insertJob (request.job strategy version snapshot newId))

def createJob (svc : Service) (request : LaunchRequest) (newId : String) :
    Task (Except StrategyError StrategyJob) :=
  match request.refusal with
  | some message => return .error (.validation message)
  | none =>
    .withLock request.strategyId do
      match ← Prog.read () fun t => t.lockedStrategy request.strategyId request.ownerId with
      | none => return .error (.notFound "strategy not found for this owner")
      | some strategy => do
        match ← replayJob svc request with
        | some answer => return answer
        | none => insertChecked svc request strategy newId

/-- The checks that `claim_job` makes before it opens a transaction. -/
def claimRefusal (lease : Lease) (leaseUntil checkedAt : Int) : Option String :=
  if lease.owner = "" then some "lease_owner is required"
  else if lease.epoch < 0 then some "expected_lease_epoch must be >= 0"
  else if lease.attempt < 1 then some "expected_attempt must be >= 1"
  else if leaseUntil ≤ checkedAt then some "lease_until must be in the future"
  else none

/-- The transaction of `claim_job`: a disabled strategy is not claimed for. -/
def claimLocked (jobId : String) (lease : Lease) (leaseUntil now : Int) (strategyId : String) :
    Task (Except StrategyError Bool) :=
  .withLock strategyId do
    match ← Prog.read () fun t => t.lockedStrategy strategyId none with
    | none => return .ok false
    | some strategy =>
      if !strategy.active then return .error (.disabled "strategy is disabled")
      else do
        let won ← Prog.call () (claim jobId lease leaseUntil now)
        return .ok won

/-- `claim_job`; the row is read again after the commit. -/
def claimJob (jobId : String) (lease : Lease) (leaseUntil checkedAt now : Int) :
    Task (Except StrategyError (Option StrategyJob)) :=
  let lease := { lease with owner := Text.strip lease.owner }
  match claimRefusal lease leaseUntil checkedAt with
  | some message => return .error (.validation message)
  | none => do
    match ← Prog.read () fun t => t.strategyIdForJob jobId with
    | none => return .ok none
    | some strategyId => do
      match ← claimLocked jobId lease leaseUntil now strategyId with
      | .error e => return .error e
      | .ok false => return .ok none
      | .ok true => do
        let row ← Prog.read () fun t => t.jobs.get? jobId
        return .ok row

/-- The transactions that lock the strategy of a job and update the job. -/
def lockedUpdate (jobId : String) (update : Tables → Bool × Tables) : Task Bool := do
  match ← Prog.read () fun t => t.strategyIdForJob jobId with
  | none => return false
  | some strategyId => .withLock strategyId (.call () update)

/-- `report_process_cleanup`, which updates a job without a strategy as well. -/
def reportProcessCleanup (jobId state actor : String) (attempt now : Int) :
    Task (Except StrategyError Bool) :=
  if ¬ (state = "confirmed" ∨ state = "unresolved") then
    return .error (.validation "process cleanup state must be confirmed/unresolved")
  else do
    match ← Prog.read () fun t => t.strategyIdForJob jobId with
    | none => do
      let reported ← Prog.call () (reportCleanup jobId state actor attempt now)
      return .ok reported
    | some strategyId => do
      let reported ← Prog.withLock strategyId
        (.call () (reportCleanup jobId state actor attempt now))
      return .ok reported

def reconcileRecovery (jobId ownerId : String) (epoch attempt now : Int) : Task Bool := do
  match ← Prog.read () fun t => t.jobs.get? jobId with
  | none => return false
  | some job =>
    if job.ownerId ≠ ownerId then return false
    else .withLock job.strategyId (.call () (reconcile jobId ownerId epoch attempt now))

def reconcileWithAudit (audit : Audit) (newId : String) (now : Int) :
    Task (Except StrategyError (Option Reconciliation)) := do
  match ← Prog.read () fun t => t.jobs.get? audit.jobId with
  | none => return .ok none
  | some job =>
    if job.ownerId ≠ audit.ownerId then return .ok none
    else
      .withLock job.strategyId
        (.call () (reconcileWithAuditRow audit job.strategyId newId now))

/-- `renew_lease`. -/
def renewLeaseChecked (jobId : String) (lease : Lease) (leaseUntil checkedAt : Int) :
    Task (Except StrategyError Bool) :=
  if leaseUntil ≤ checkedAt then return .error (.validation "lease_until must be in the future")
  else do
    let renewed ← Prog.call () (renewLease jobId lease leaseUntil)
    return .ok renewed

/-- A call of the repository.  Identifiers and clock readings are arguments; `catalog` stands
for what other calls do to strategies and versions. -/
inductive Request where
  | createJob (request : LaunchRequest) (newId : String)
  | claimJob (jobId : String) (lease : Lease) (leaseUntil checkedAt now : Int)
  | reserveChildToken (jobId : String) (lease : Lease) (tokenId : String)
  | recordChildRun (jobId : String) (lease : Lease) (tokenId runId : String)
  | markRunningAndHandoff (jobId : String) (lease : Lease) (runId : String) (now : Int)
  | renewLease (jobId : String) (lease : Lease) (leaseUntil checkedAt : Int)
  | recordFailure (jobId : String) (lease : Lease) (reason : String)
  | requestStopActive (jobId ownerId actor : String) (attempt now : Int)
  | stopQueuedJob (jobId ownerId actor : String) (attempt now : Int)
  | markStopped (jobId : String) (lease : Lease)
  | markRecoveryRequired (jobId : String) (lease : Lease) (now : Int)
  | expireToRecovery (jobId : String) (attempt now : Int)
  | expireToRecoveryAuthorized (jobId : String) (lease : Lease) (now : Int)
  | reportProcessCleanup (jobId state actor : String) (attempt now : Int)
  | reconcileRecovery (jobId ownerId : String) (epoch attempt now : Int)
  | reconcileWithAudit (audit : Audit) (newId : String) (now : Int)
  | appendJobLog (jobId : String) (attempt : Int) (chunks : List (List Char)) (maxTotalBytes : Int)
  | catalog (strategies : List HostedStrategy) (versions : List HostedStrategyVersion)

inductive Reply where
  | job (result : Except StrategyError StrategyJob)
  | claimed (result : Except StrategyError (Option StrategyJob))
  | done (result : Except StrategyError Bool)
  | audited (result : Except StrategyError (Option Reconciliation))
  | appended (result : Except StrategyError Appended)
  | changed

def program (svc : Service) : Request → Task Reply
  | .createJob request newId => .job <$> createJob svc request newId
  | .claimJob jobId lease leaseUntil checkedAt now =>
    .claimed <$> claimJob jobId lease leaseUntil checkedAt now
  | .reserveChildToken jobId lease tokenId => done (.call () (reserveChildToken jobId lease tokenId))
  | .recordChildRun jobId lease tokenId runId =>
    done (.call () (recordChildRun jobId lease tokenId runId))
  | .markRunningAndHandoff jobId lease runId now =>
    done (.call () (markRunningAndHandoff jobId lease runId now))
  | .renewLease jobId lease leaseUntil checkedAt =>
    .done <$> renewLeaseChecked jobId lease leaseUntil checkedAt
  | .recordFailure jobId lease reason => done (.call () (recordFailure jobId lease reason))
  | .requestStopActive jobId ownerId actor attempt now =>
    done (.call () (requestStopActive jobId ownerId actor attempt now))
  | .stopQueuedJob jobId ownerId actor attempt now =>
    done (.call () (stopQueuedJob jobId ownerId actor attempt now))
  | .markStopped jobId lease => done (.call () (markStopped jobId lease))
  | .markRecoveryRequired jobId lease now =>
    done (lockedUpdate jobId (markRecoveryRequired jobId lease now))
  | .expireToRecovery jobId attempt now =>
    done (lockedUpdate jobId (expireToRecovery jobId attempt now))
  | .expireToRecoveryAuthorized jobId lease now =>
    done (lockedUpdate jobId (expireToRecoveryAuthorized jobId lease now))
  | .reportProcessCleanup jobId state actor attempt now =>
    .done <$> reportProcessCleanup jobId state actor attempt now
  | .reconcileRecovery jobId ownerId epoch attempt now =>
    done (reconcileRecovery jobId ownerId epoch attempt now)
  | .reconcileWithAudit audit newId now => .audited <$> reconcileWithAudit audit newId now
  | .appendJobLog jobId attempt chunks maxTotalBytes =>
    .appended <$> .call () (appendJobLog svc.storable jobId attempt chunks maxTotalBytes)
  | .catalog strategies versions =>
    .call () fun t => (.changed, { t with strategies := strategies, versions := versions })
where
  done (p : Task Bool) : Task Reply := do
    let matched ← p
    return .done (.ok matched)

/-- No stale exit, an hour, and progress within a minute. -/
def demoPolicy : Policy := ⟨.none, 3600, 60, by decide, by decide⟩

def demoTables : Tables where
  strategies :=
    [{ id := "s", ownerId := "app:a", name := "momentum", active := true
       defaultAccountScope := "paper:main"
       policy := demoPolicy }]
  versions := [⟨"v", "s", "\x7b\x7d", "\x7b\x7d", "ab12"⟩]
  jobs := .empty
  reconciliations := .empty

end KiteAlgo.Hosted
