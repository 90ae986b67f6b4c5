import KiteAlgo.Lib.Run
import KiteAlgo.Lib.Table
import KiteAlgo.Time

/-!
# KiteAlgo.Outbox

The delivery outbox (`notifications/repository.py`) and the workers that empty it
(`notifications/worker.py`).

The repository calls are functions on the tables.  A worker is what it still has to do
for each delivery it claimed: `DeliveryWorker._process_one` is cut where it reads the
clock, waits for somebody else or calls the repository, so that anything may happen in
between, and a claim may be given up at every cut.
-/

namespace KiteAlgo

/-! ## rows -/

/-- `DELIVERY_STATUSES`. -/
inductive DeliveryStatus where
  | pending
  | delivering
  | delivered
  | retrying
  | failed
  | expired
  deriving DecidableEq, Repr

def DeliveryStatus.terminal : DeliveryStatus → Bool
  | .delivered | .failed | .expired => true
  | .pending | .delivering | .retrying => false

/-- What is logged as the outcome of an attempt. -/
inductive AttemptOutcome where
  | accepted
  | retryable
  | permanent
  | unknown
  | expired
  deriving DecidableEq, Repr

/-- `Delivery`. -/
structure DeliveryRow where
  channelId : String
  status : DeliveryStatus := .pending
  attempts : Nat := 0
  nextAttemptAt : Option Int
  leaseUntil : Option Int := none
  lastError : Option String := none
  deliveredAt : Option Int := none
  createdAt : Int
  updatedAt : Int
  deriving DecidableEq, Repr

structure DeliveryAttempt where
  deliveryId : String
  attemptNo : Nat
  outcome : AttemptOutcome
  detail : String
  providerId : Option String
  createdAt : Int
  deriving DecidableEq, Repr

structure OutboxDb where
  deliveries : Table String DeliveryRow
  attempts : List DeliveryAttempt := []

def OutboxDb.logOf (db : OutboxDb) (id : String) : List DeliveryAttempt :=
  db.attempts.filter fun a => decide (a.deliveryId = id)

/-- `count_attempts` of one outcome. -/
def OutboxDb.countAttempts (db : OutboxDb) (id : String) (outcome : AttemptOutcome) : Nat :=
  ((db.logOf id).filter fun a => decide (a.outcome = outcome)).length

/-! ## claiming -/

def due (now : Int) (at_ : Option Int) : Bool := at_.all fun t => decide (t ≤ now)

def claimableGuard (now : Int) (row : DeliveryRow) : Bool :=
  match row.status with
  | .pending | .retrying => due now row.nextAttemptAt && due now row.leaseUntil
  | .delivering => row.leaseUntil.any fun t => decide (t ≤ now)
  | .delivered | .failed | .expired => false

def DeliveryRow.leased (row : DeliveryRow) (leaseUntil now : Int) : DeliveryRow :=
  { row with status := .delivering, leaseUntil := some leaseUntil, updatedAt := now }

/-- `ORDER BY created_at, id`. -/
def claimOrder (a b : String × DeliveryRow) : Bool :=
  decide (a.2.createdAt < b.2.createdAt) || decide (a.2.createdAt = b.2.createdAt) && Text.le a.1 b.1

/-- The rows a claim takes: due, not locked by another transaction, the oldest first. -/
def claimCandidates (db : OutboxDb) (now : Int) (limit : Nat) (locked : List String) :
    List (String × DeliveryRow) :=
  (sortBy claimOrder
    (db.deliveries.select fun id row => claimableGuard now row && !locked.contains id)).take limit

/-- `claim_deliveries`: the claimed rows as the caller sees them, and the tables. -/
def claimDeliveries (db : OutboxDb) (now : Int) (limit : Nat) (leaseSeconds : Int)
    (locked : List String) : Except PyErr (List (String × DeliveryRow) × OutboxDb) :=
  if limit < 1 then .error (.value "limit must be >= 1")
  else
    let leaseUntil := now + max 1 leaseSeconds * microsPerSecond
    let candidates := claimCandidates db now limit locked
    .ok
      (candidates.map fun e => (e.1, e.2.leased leaseUntil now), { db with
         deliveries := db.deliveries.mapRows fun id row =>
           if (candidates.map Prod.fst).contains id then row.leased leaseUntil now else row })

/-! ## recording -/

/-- The arguments of `record_attempt`, the delivery and the lease apart. -/
structure AttemptArgs where
  attemptNo : Nat
  outcome : AttemptOutcome
  detail : String
  newStatus : DeliveryStatus
  nextAttemptAt : Option Int := none
  deliveredAt : Option Int := none
  lastError : Option String := none
  providerId : Option String := none
  now : Int
  deriving DecidableEq, Repr

/-- The guard of the UPDATE: still delivering, under a lease that has not run out and is
the one the caller was given. -/
def recordGuard (row : DeliveryRow) (expectedLease : Option Int) (now : Int) : Bool :=
  decide (row.status = .delivering) && (row.leaseUntil.all fun t => decide (now < t)) &&
    (expectedLease.isNone || decide (row.leaseUntil = expectedLease))

def AttemptArgs.apply (args : AttemptArgs) (row : DeliveryRow) : DeliveryRow :=
  { row with
    status := args.newStatus
    attempts := max row.attempts args.attemptNo
    nextAttemptAt := args.nextAttemptAt
    updatedAt := args.now
    deliveredAt := args.deliveredAt.or row.deliveredAt
    lastError := args.lastError.or row.lastError
    leaseUntil := if args.newStatus = .delivering then row.leaseUntil else none }

def AttemptArgs.logged (args : AttemptArgs) (id : String) : DeliveryAttempt where
  deliveryId := id
  attemptNo := args.attemptNo
  outcome := args.outcome
  detail := args.detail
  providerId := match args.providerId with
    | none | some "" => none
    | some p => some (String.ofList (p.toList.take 128))
  createdAt := args.now

def recordAttempt (db : OutboxDb) (id : String) (args : AttemptArgs) (expectedLease : Option Int) :
    Except PyErr OutboxDb :=
  match db.deliveries.get? id with
  | none => .error (.keyError id)
  | some row =>
    if recordGuard row expectedLease args.now then
      .ok
        { deliveries := db.deliveries.upsert id (args.apply row)
          attempts := db.attempts ++ [args.logged id] }
    else .error .leaseConflict

/-! ## the worker -/

structure WorkerConfig where
  maxAttemptsArg : Int := 8
  maxUnknownRetriesArg : Int := 3
  defaultBackoff : Int := 60 * microsPerSecond

def WorkerConfig.maxAttempts (cfg : WorkerConfig) : Nat := (max 1 cfg.maxAttemptsArg).toNat

def WorkerConfig.maxUnknownRetries (cfg : WorkerConfig) : Nat := (max 0 cfg.maxUnknownRetriesArg).toNat

/-- `DeliveryOutcome.status`. -/
inductive OutcomeStatus where
  | accepted
  | retryable
  | permanent
  | unknown
  deriving DecidableEq, Repr

structure DeliveryOutcome where
  status : OutcomeStatus
  providerId : Option String := none
  retryAfterS : Option Int := none
  detail : String := ""
  deriving DecidableEq, Repr

def OutcomeStatus.logged : OutcomeStatus → AttemptOutcome
  | .accepted => .accepted
  | .retryable => .retryable
  | .permanent => .permanent
  | .unknown => .unknown

def truncationMarker : String := "…[truncated]"

def truncateText (text : String) (limit : Nat) : String :=
  if text.length ≤ limit then text
  else if limit ≤ truncationMarker.length then String.ofList (text.toList.take limit)
  else String.ofList (text.toList.take (limit - truncationMarker.length)) ++ truncationMarker

def detailMaxChars : Nat := 500

/-- `MAX_BACKOFF_S`. -/
def maxBackoff : Int := 900 * microsPerSecond

/-- The delay before the next attempt: the provider's hint, or the exponential backoff. -/
def retryDelay (cfg : WorkerConfig) (hint : Option Int) (attemptNo : Nat) : Int :=
  match hint with
  | some seconds => max 0 seconds * microsPerSecond
  | none => min (max 0 cfg.defaultBackoff * (Nat.pow 2 (attemptNo - 1) : Nat)) maxBackoff

/-- `_record_outcome` up to the call, from the claimed row, the unknown attempts already
logged and the jitter drawn. -/
def recordOutcome (cfg : WorkerConfig) (row : DeliveryRow) (outcome : DeliveryOutcome)
    (priorUnknowns : Nat) (jitter now : Int) : AttemptArgs :=
  let attemptNo := row.attempts + 1
  let detail := truncateText outcome.detail detailMaxChars
  let retrying : AttemptArgs :=
    if cfg.maxAttempts ≤ attemptNo then
      { attemptNo
        outcome := outcome.status.logged
        detail := truncateText ("max attempts exceeded; " ++ detail) detailMaxChars
        newStatus := .failed
        lastError := some "max attempts exceeded"
        providerId := outcome.providerId
        now }
    else
      { attemptNo
        outcome := outcome.status.logged
        detail
        newStatus := .retrying
        nextAttemptAt := some (now + retryDelay cfg outcome.retryAfterS attemptNo + jitter)
        lastError := some detail
        providerId := outcome.providerId
        now }
  match outcome.status with
  | .accepted =>
    { attemptNo
      outcome := .accepted
      detail
      newStatus := .delivered
      deliveredAt := some now
      providerId := outcome.providerId
      now }
  | .permanent =>
    { attemptNo
      outcome := .permanent
      detail
      newStatus := .failed
      lastError := some detail
      providerId := outcome.providerId
      now }
  | .retryable => retrying
  | .unknown =>
    if cfg.maxUnknownRetries ≤ priorUnknowns then
      { attemptNo
        outcome := .unknown
        detail := "unknown retry limit reached"
        newStatus := .failed
        lastError := some "unknown retry limit reached"
        providerId := outcome.providerId
        now }
    else retrying

/-- What the resolver and the channel lookup of a delivery give. -/
inductive Resolution where
  | unresolvable
  | context (expiresAt : Option Int) (channelFound : Bool)
  deriving DecidableEq, Repr

/-- Where a worker is with a delivery it claimed. -/
inductive ClaimPhase where
  /-- The delivery waits for its turn in the batch. -/
  | claimed
  /-- The resolver runs, since the clock read `itemNow`. -/
  | resolving (itemNow : Int)
  /-- The provider call runs. -/
  | sending
  /-- There is an outcome. -/
  | answered (outcome : DeliveryOutcome)
  /-- `record_attempt` is called. -/
  | recording (args : AttemptArgs)
  /-- The worker is done with it, or is no more. -/
  | finished
  deriving DecidableEq, Repr

/-- A claimed delivery: the row as it was claimed. -/
structure Claim where
  worker : String
  deliveryId : String
  row : DeliveryRow
  phase : ClaimPhase := .claimed
  deriving DecidableEq, Repr

def assertClaimIsCurrent (db : OutboxDb) (claim : Claim) (now : Int) : Except PyErr Unit :=
  match db.deliveries.get? claim.deliveryId with
  | none => .error .leaseConflict
  | some current =>
    if current.status ≠ .delivering ∨
        claim.row.leaseUntil.isSome ∧ current.leaseUntil ≠ claim.row.leaseUntil then
      .error .leaseConflict
    else if current.leaseUntil.any fun t => decide (t ≤ now) then .error .leaseConflict
    else .ok ()

def Claim.unresolvable (claim : Claim) (now : Int) : AttemptArgs where
  attemptNo := claim.row.attempts + 1
  outcome := .permanent
  detail := "unresolvable_context"
  newStatus := .failed
  lastError := some "unresolvable_context"
  now

def Claim.expired (claim : Claim) (expiresAt now : Int) : AttemptArgs where
  attemptNo := claim.row.attempts + 1
  outcome := .expired
  detail := "event expired at " ++ isoformat expiresAt
  newStatus := .expired
  lastError := some ("event expired at " ++ isoformat expiresAt)
  now

/-- `_process_one` from the return of the resolver: the clock is read again only once
there is a channel to send to. -/
def Claim.resolved (claim : Claim) (db : OutboxDb) (itemNow clock : Int) : Resolution → ClaimPhase
  | .unresolvable => .recording (claim.unresolvable itemNow)
  | .context expiresAt channelFound =>
    match expiresAt.filter fun t => decide (t ≤ itemNow) with
    | some t => .recording (claim.expired t itemNow)
    | none =>
      if !channelFound then
        .answered
          { status := .permanent, detail := "channel " ++ claim.row.channelId ++ " not found" }
      else
        match assertClaimIsCurrent db claim clock with
        | .error _ => .finished
        | .ok () =>
          match expiresAt.filter fun t => decide (t ≤ clock) with
          | some t => .recording (claim.expired t clock)
          | none => .sending

/-! ## the workers together -/

/-- The clock, the tables and every claim made, in order. -/
structure Outbox where
  clock : Int
  db : OutboxDb
  claims : List Claim := []

/-- What happens, by the position of the claim it is about. -/
inductive OutboxStep where
  /-- Time passes. -/
  | tick (elapsed : Nat)
  /-- A worker claims a batch. -/
  | claim (worker : String) (limit : Nat) (leaseSeconds : Int) (locked : List String)
  /-- The worker reads the clock and calls the resolver. -/
  | start (i : Nat)
  /-- The resolver returns. -/
  | resolve (i : Nat) (resolution : Resolution)
  /-- The provider answers. -/
  | answer (i : Nat) (outcome : DeliveryOutcome)
  /-- Something raises, which counts as an unknown outcome. -/
  | fail (i : Nat) (detail : String)
  /-- The worker reads the clock and the unknown attempts to record the outcome. -/
  | complete (i : Nat) (jitter : Int)
  /-- The repository records the attempt. -/
  | record (i : Nat)
  /-- The worker is no more. -/
  | crash (i : Nat)
  deriving DecidableEq, Repr

/-- The phase of a claim after a step of its worker, the recording apart. -/
def Claim.next (cfg : WorkerConfig) (s : Outbox) (claim : Claim) : OutboxStep → ClaimPhase
  | .start _ => match claim.phase with
      | .claimed => .resolving s.clock
      | phase => phase
  | .resolve _ resolution => match claim.phase with
      | .resolving itemNow => claim.resolved s.db itemNow s.clock resolution
      | phase => phase
  | .answer _ outcome => match claim.phase with
      | .sending => .answered outcome
      | phase => phase
  | .fail _ detail => match claim.phase with
      | .claimed | .finished => claim.phase
      | _ => .answered { status := .unknown, detail }
  | .complete _ jitter => match claim.phase with
      | .answered outcome => .recording (recordOutcome cfg claim.row outcome
          (s.db.countAttempts claim.deliveryId .unknown) jitter s.clock)
      | phase => phase
  | .crash _ => .finished
  | .tick _ | .claim _ _ _ _ | .record _ => claim.phase

def Outbox.setPhase (s : Outbox) (i : Nat) (phase : ClaimPhase) : Outbox :=
  { s with claims := s.claims.modify i fun c => { c with phase } }

/-- A step of the worker of a claim that calls no repository write. -/
def Outbox.advance (cfg : WorkerConfig) (s : Outbox) (i : Nat) (step : OutboxStep) : Outbox :=
  match s.claims[i]? with
  | some claim => s.setPhase i (claim.next cfg s step)
  | none => s

/-- The arguments of the record a claim is at. -/
def Claim.pending (claim : Claim) : Option AttemptArgs :=
  match claim.phase with
  | .recording args => some args
  | _ => none

/-- The record of a claim, with what `record_attempt` returns: a conflict ends the
claim, any other exception is recorded as unexpected. -/
def Outbox.record (s : Outbox) (i : Nat) : Option (Except PyErr Unit) × Outbox :=
  match s.claims[i]? with
  | none => (none, s)
  | some claim =>
    match claim.pending with
    | none => (none, s)
    | some args =>
      match recordAttempt s.db claim.deliveryId args claim.row.leaseUntil with
      | .ok db => (some (.ok ()), { s with db }.setPhase i .finished)
      | .error .leaseConflict => (some (.error .leaseConflict), s.setPhase i .finished)
      | .error e =>
        (some (.error e), s.setPhase i (.answered
          { status := .unknown, detail := "'" ++ claim.deliveryId ++ "'" }))

def Outbox.step (cfg : WorkerConfig) (s : Outbox) : OutboxStep → Outbox
  | .tick elapsed => { s with clock := s.clock + elapsed }
  | .claim worker limit leaseSeconds locked =>
    match claimDeliveries s.db s.clock limit leaseSeconds locked with
    | .ok (claimed, db) =>
      { s with
        db
        claims := s.claims ++ claimed.map fun e => { worker, deliveryId := e.1, row := e.2 } }
    | .error _ => s
  | .record i => (s.record i).2
  | .start i => s.advance cfg i (.start i)
  | .resolve i resolution => s.advance cfg i (.resolve i resolution)
  | .answer i outcome => s.advance cfg i (.answer i outcome)
  | .fail i detail => s.advance cfg i (.fail i detail)
  | .complete i jitter => s.advance cfg i (.complete i jitter)
  | .crash i => s.advance cfg i (.crash i)

end KiteAlgo
