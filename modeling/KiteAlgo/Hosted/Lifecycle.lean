import KiteAlgo.Hosted

/-!
# KiteAlgo.Hosted.Lifecycle

The lifecycle API of hosted jobs (`hosted_lifecycle.py`): preparing a launch, and ending an
attempt by fencing, releasing or expiring it.

A call of the API makes one repository call after another, and other calls run between two
of them.  A `Call` therefore is the point that its code has reached, named after the
repository call that is next, with what the code has read so far; `Call.advance` makes that
repository call and goes on to the next.  Identifiers, secrets and nonces that a call draws
are part of its request.
-/

namespace KiteAlgo.Hosted

structure HostedLifecycleError where
  statusCode : Nat
  rejectionReason : String
  jobStatus : Option JobStatus := none
  fencing : Option String := none
  tokenRevoked : Option Bool := none
  detail : Option String := none
  deriving DecidableEq

/-- What `require_job_authority` asks for besides the identity of the lease. -/
structure AuthorityTerms where
  allowStatuses : List JobStatus := [.starting, .running]
  requireLiveLease : Bool := true
  requireStarted : Bool := true

def requireJobAuthority (terms : AuthorityTerms) (lease : Lease) (now : Int) :
    Option StrategyJob → Except HostedLifecycleError StrategyJob
  | none => .error { statusCode := 404, rejectionReason := "HOSTED_JOB_NOT_FOUND" }
  | some job =>
    if job.leaseOwner.getD "" ≠ lease.owner ∨ job.leaseEpoch ≠ lease.epoch ∨
        job.attempt ≠ lease.attempt then
      .error
        { statusCode := 403
          rejectionReason := "HOSTED_LEASE_AUTHORITY_MISMATCH"
          jobStatus := job.status }
    else if terms.requireStarted ∧ job.desiredState ≠ .started then
      .error { statusCode := 409, rejectionReason := "HOSTED_ATTEMPT_STOPPED" }
    else if ¬ job.status ∈ terms.allowStatuses then
      .error
        { statusCode := 409
          rejectionReason := "HOSTED_ATTEMPT_FENCED"
          jobStatus := job.status }
    else if terms.requireLiveLease ∧ ¬ (job.leaseUntil.any fun deadline => now < deadline) then
      .error { statusCode := 409, rejectionReason := "HOSTED_LEASE_EXPIRED" }
    else .ok job

/-! ## worker tokens and runs -/

/-- A row of `algo_worker_tokens` that a preparation creates. -/
structure WorkerToken where
  tokenId : String
  hostedJobId : String
  hostedAttempt : Int
  expiresAt : Int
  revoked : Bool := false
  deriving DecidableEq

/-- A row of `algo_worker_runs`. -/
structure WorkerRun where
  strategyRunId : String
  tokenId : String
  sessionNonce : Option String := none
  sessionClaimedAt : Option Int := none
  lastHeartbeatAt : Option Int := none
  deriving DecidableEq

/-- What the lifecycle API reads and writes. -/
structure Server where
  tables : Tables
  tokens : Keyed WorkerToken.tokenId
  runs : Keyed WorkerRun.strategyRunId
  deriving DecidableEq

/-- The settings, and the checks of snapshots and of `create_worker_run_for_token`. -/
structure Lifecycle where
  capabilityError : String → Option String
  runAccepted : JobSpec → Bool
  freshnessSeconds : Int := 60
  claimWithoutHeartbeatSeconds : Int := 120

def seconds (n : Int) : Int := n * 1000000

/-- The session of the run is free, or its holder has gone silent. -/
def WorkerRun.claimable (lc : Lifecycle) (run : WorkerRun) (now : Int) : Bool :=
  match run.sessionNonce, run.lastHeartbeatAt, run.sessionClaimedAt with
  | none, _, _ => true
  | some _, some heartbeat, _ => heartbeat < now - seconds (max 1 lc.freshnessSeconds)
  | some _, none, some claimed => claimed < now - seconds (max 1 lc.claimWithoutHeartbeatSeconds)
  | some _, none, none => false

namespace Server

variable (s : Server)

def getJobById (jobId : String) : Option StrategyJob := s.tables.jobs.get? jobId

def getStrategy (ownerId strategyId : String) : Option HostedStrategy :=
  s.tables.lockedStrategy strategyId ownerId

def getVersionById (strategyId versionId : String) : Option HostedStrategyVersion :=
  s.tables.versionOf strategyId versionId

/-- A repository call on the job, with its answer. -/
def onTables {α : Type} (call : Tables → α × Tables) : α × Server :=
  ((call s.tables).1, { s with tables := (call s.tables).2 })

/-- `create_token`; nothing is inserted when the identifier is taken. -/
def createToken (token : WorkerToken) : Bool × Server :=
  match s.tokens.get? token.tokenId with
  | some _ => (false, s)
  | none => (true, { s with tokens := s.tokens.upsert token })

/-- `revoke_token`, and whether there was such a token. -/
def revokeToken (tokenId : String) : Bool × Server :=
  match s.tokens.get? tokenId with
  | some token => (true, { s with tokens := s.tokens.upsert { token with revoked := true } })
  | none => (false, s)

/-- `create_run`; nothing is inserted when the identifier is taken. -/
def createRun (run : WorkerRun) : Bool × Server :=
  match s.runs.get? run.strategyRunId with
  | some _ => (false, s)
  | none => (true, { s with runs := s.runs.upsert run })

/-- `claim_run_session`: the nonce of the session, if it was claimed. -/
def claimRunSession (lc : Lifecycle) (runId nonce : String) (now : Int) : Option String × Server :=
  match s.runs.get? runId with
  | some run =>
    if run.claimable lc now then
      (some nonce, { s with
        runs := s.runs.upsert { run with sessionNonce := some nonce, sessionClaimedAt := some now } })
    else (none, s)
  | none => (none, s)

def releaseRunSession (runId expectedNonce : String) : Server :=
  match s.runs.get? runId with
  | some run =>
    if run.sessionNonce = some expectedNonce then
      { s with runs := s.runs.upsert { run with sessionNonce := none, sessionClaimedAt := none } }
    else s
  | none => s

end Server

/-- A call of `prepare_launch`, with what it draws. -/
structure PrepareRequest where
  jobId : String
  lease : Lease
  tokenId : String
  rawToken : String
  runId : String
  nonce : String
  deriving DecidableEq

/-- What `prepare_launch` returns; what the job was created with stands for the fields that are
copied from it. -/
structure Launch where
  spec : JobSpec
  leaseEpoch : Int
  runId : String
  workerToken : String
  sessionNonce : String
  versionId : String
  sourceSha256 : String
  deriving DecidableEq

/-- The arguments of `_abort`. -/
structure Abort where
  reason : String
  statusCode : Nat
  code : String
  deriving DecidableEq

/-- The repository call that a preparation makes next. -/
inductive PreparePhase where
  | loading
  | findingStrategy (job : StrategyJob)
  | findingVersion (job : StrategyJob)
  | reserving (job : StrategyJob) (version : HostedStrategyVersion)
  | minting (job : StrategyJob) (version : HostedStrategyVersion)
  | creatingRun (job : StrategyJob) (version : HostedStrategyVersion)
  | recordingRun (job : StrategyJob) (version : HostedStrategyVersion)
  | claimingSession (job : StrategyJob) (version : HostedStrategyVersion)
  | handingOff (job : StrategyJob) (version : HostedStrategyVersion) (nonce : String)
  | recordingFailure (abort : Abort)
  | revoking (abort : Abort)
  | fencing (abort : Abort) (revoked : Bool)
  deriving DecidableEq

/-- `release`, `expire` and `fence`. -/
inductive EndKind where
  | release
  | expire
  | fence
  deriving DecidableEq

structure EndRequest where
  kind : EndKind
  jobId : String
  lease : Lease
  reason : String
  deriving DecidableEq

inductive EndPhase where
  | loading
  | findingRun (job : StrategyJob) (runId : String)
  | releasingSession (job : StrategyJob) (runId nonce : String)
  | revoking (job : StrategyJob) (tokenId : String)
  | marking (job : StrategyJob)
  deriving DecidableEq

structure Ended where
  status : String
  jobId : String
  replacementBlocked : Option Bool
  reason : String
  deriving DecidableEq

/-! ## calls -/

inductive Answer where
  | launched (launch : Launch)
  | ended (ended : Ended)
  deriving DecidableEq

/-- A call of the API: the point it has reached, or its answer. -/
inductive Call where
  | prepare (request : PrepareRequest) (phase : PreparePhase)
  | ending (request : EndRequest) (phase : EndPhase)
  | returned (answer : Except HostedLifecycleError Answer)

/-- `raise HostedLifecycleError(status_code, reason)`. -/
def Call.raised (statusCode : Nat) (reason : String) : Call :=
  .returned (.error { statusCode := statusCode, rejectionReason := reason })

/-- The error that `_abort` ends with. -/
def Abort.raised (abort : Abort) (revoked fenced : Bool) : Call :=
  .returned (.error
    { statusCode := abort.statusCode
      rejectionReason := abort.code
      fencing := if fenced then "confirmed" else "unconfirmed"
      tokenRevoked := revoked })

namespace PrepareRequest

variable (lc : Lifecycle) (request : PrepareRequest)

def goto (phase : PreparePhase) : Call := .prepare request phase

def abort (reason : String) (statusCode : Nat) (code : String) : Call :=
  request.goto (.recordingFailure ⟨reason, statusCode, code⟩)

def load (now : Int) (job : Option StrategyJob) : Call :=
  match requireJobAuthority {} request.lease now job with
  | .error e => .returned (.error e)
  | .ok job =>
    if job.handoffAt.isSome then .raised 409 "HOSTED_HANDOFF_ALREADY_COMPLETED"
    else if job.tokenId.isSome then .raised 409 "HOSTED_PREPARE_INCOMPLETE"
    else
      match lc.capabilityError job.capabilitiesSnapshot with
      | some message =>
        .returned (.error
          { statusCode := 409
            rejectionReason := "HOSTED_CAPABILITIES_AMBIGUOUS"
            detail := message })
      | none => request.goto (.findingStrategy job)

def token (job : StrategyJob) (now : Int) : WorkerToken :=
  { tokenId := request.tokenId
    hostedJobId := request.jobId
    hostedAttempt := request.lease.attempt
    expiresAt := now + seconds (job.policySnapshot.maxDurationS + 300) }

def launch (job : StrategyJob) (version : HostedStrategyVersion) (nonce : String) : Launch :=
  { spec := job.toJobSpec
    leaseEpoch := request.lease.epoch
    runId := request.runId
    workerToken := request.rawToken
    sessionNonce := nonce
    versionId := version.id
    sourceSha256 := version.sourceSha256 }

/-- One repository call of `prepare_launch`. -/
def advance (now : Int) (s : Server) : PreparePhase → Call × Server
  | .loading => (request.load lc now (s.getJobById request.jobId), s)
  | .findingStrategy job =>
    match s.getStrategy job.ownerId job.strategyId with
    | none => (.raised 409 "HOSTED_STRATEGY_MISSING", s)
    | some _ => (request.goto (.findingVersion job), s)
  | .findingVersion job =>
    match s.getVersionById job.strategyId job.versionId with
    | none => (.raised 409 "HOSTED_VERSION_MISSING", s)
    | some version => (request.goto (.reserving job version), s)
  | .reserving job version =>
    match s.onTables (reserveChildToken request.jobId request.lease request.tokenId) with
    | (true, s) => (request.goto (.minting job version), s)
    | (false, s) => (.raised 409 "HOSTED_PREPARE_INCOMPLETE", s)
  | .minting job version =>
    match s.createToken (request.token job now) with
    | (true, s) => (request.goto (.creatingRun job version), s)
    | (false, s) =>
      (request.abort "token_mint_failed: IntegrityError" 503 "HOSTED_TOKEN_MINT_FAILED", s)
  | .creatingRun job version =>
    if !lc.runAccepted job.toJobSpec then
      (request.abort "run_create_failed" 503 "HOSTED_RUN_CREATE_FAILED", s)
    else
      match s.createRun { strategyRunId := request.runId, tokenId := request.tokenId } with
      | (true, s) => (request.goto (.recordingRun job version), s)
      | (false, s) => (request.abort "run_create_failed" 503 "HOSTED_RUN_CREATE_FAILED", s)
  | .recordingRun job version =>
    match s.onTables (recordChildRun request.jobId request.lease request.tokenId request.runId) with
    | (true, s) => (request.goto (.claimingSession job version), s)
    | (false, s) => (request.abort "run_record_failed" 409 "HOSTED_PREPARE_INCOMPLETE", s)
  | .claimingSession job version =>
    match s.claimRunSession lc request.runId request.nonce now with
    | (some nonce, s) =>
      if nonce = "" then
        (request.abort "session_claim_failed" 503 "HOSTED_SESSION_CLAIM_FAILED", s)
      else (request.goto (.handingOff job version nonce), s)
    | (none, s) => (request.abort "session_claim_failed" 503 "HOSTED_SESSION_CLAIM_FAILED", s)
  | .handingOff job version nonce =>
    match s.onTables (markRunningAndHandoff request.jobId request.lease request.runId now) with
    | (true, s) => (.returned (.ok (.launched (request.launch job version nonce))), s)
    | (false, s) => (request.abort "handoff_mark_failed" 409 "HOSTED_PREPARE_INCOMPLETE", s)
  | .recordingFailure abort =>
    (request.goto (.revoking abort),
      (s.onTables (recordFailure request.jobId request.lease abort.reason)).2)
  | .revoking abort =>
    (request.goto (.fencing abort (s.revokeToken request.tokenId).1), (s.revokeToken request.tokenId).2)
  | .fencing abort revoked =>
    let fenced := s.onTables (markRecoveryRequired request.jobId request.lease now)
    (abort.raised revoked fenced.1, fenced.2)

end PrepareRequest

namespace EndRequest

variable (request : EndRequest)

def goto (phase : EndPhase) : Call := .ending request phase

/-- The token, if there is one, is revoked first. -/
def withdraw (job : StrategyJob) : Call :=
  match job.tokenId with
  | some tokenId => request.goto (.revoking job tokenId)
  | none => request.goto (.marking job)

/-- An expired lease authorizes `expire` only, and that only once it has expired. -/
def terms : AuthorityTerms :=
  { requireStarted := false
    requireLiveLease := decide (request.kind ≠ .expire) }

/-- The checks of the loaded job; `release` withdraws the session first. -/
def load (now : Int) (job : Option StrategyJob) : Call :=
  match requireJobAuthority request.terms request.lease now job with
  | .error e => .returned (.error e)
  | .ok job =>
    match request.kind with
    | .fence => request.withdraw job
    | .expire =>
      if job.leaseUntil.any fun deadline => now < deadline then
        .raised 409 "HOSTED_LEASE_STILL_LIVE"
      else request.withdraw job
    | .release =>
      match job.runId with
      | some runId => request.goto (.findingRun job runId)
      | none => request.withdraw job

/-- The update that ends the attempt, decided on the loaded job. -/
def mark (job : StrategyJob) (now : Int) : Tables → Bool × Tables :=
  match request.kind with
  | .fence => markRecoveryRequired request.jobId request.lease now
  | .expire => expireToRecoveryAuthorized request.jobId request.lease now
  | .release =>
    if job.handoffAt.isSome then markRecoveryRequired request.jobId request.lease now
    else markStopped request.jobId request.lease

def answer (job : StrategyJob) : Ended :=
  match request.kind with
  | .fence => ⟨"recovery_required", request.jobId, none, request.reason⟩
  | .expire => ⟨"recovery_required", request.jobId, some true, request.reason⟩
  | .release =>
    if job.handoffAt.isSome then
      ⟨"recovery_required", request.jobId, some true, "launched_attempt_requires_reconciliation"⟩
    else ⟨"stopped", request.jobId, some false, "unlaunched_attempt"⟩

/-- The refusal, when the update matches nothing. -/
def refusal : String :=
  match request.kind with
  | .release => "HOSTED_RELEASE_REFUSED"
  | .expire | .fence => "HOSTED_FENCE_REFUSED"

/-- One repository call of `release`, `expire` or `fence`. -/
def advance (now : Int) (s : Server) : EndPhase → Call × Server
  | .loading => (request.load now (s.getJobById request.jobId), s)
  | .findingRun job runId =>
    match (s.runs.get? runId).bind WorkerRun.sessionNonce with
    | some nonce => (request.goto (.releasingSession job runId nonce), s)
    | none => (request.withdraw job, s)
  | .releasingSession job runId nonce => (request.withdraw job, s.releaseRunSession runId nonce)
  | .revoking job tokenId => (request.goto (.marking job), (s.revokeToken tokenId).2)
  | .marking job =>
    match s.onTables (request.mark job now) with
    | (true, s) => (.returned (.ok (.ended (request.answer job))), s)
    | (false, s) => (.raised 409 request.refusal, s)

end EndRequest

def Call.advance (lc : Lifecycle) (now : Int) (s : Server) : Call → Call × Server
  | .prepare request phase => request.advance lc now s phase
  | .ending request phase => request.advance now s phase
  | .returned answer => (.returned answer, s)

def Call.done : Call → Bool
  | .returned _ => true
  | _ => false

end KiteAlgo.Hosted
