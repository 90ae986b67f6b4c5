import KiteAlgo.Engine

/-!
# KiteAlgo.Repository

The durable rows an evaluation reads and writes (`workflows/repository.py`, and
the counters of `workflows/advanced_repository.py`), with the repository calls
as functions on the database.  A call that runs inside the caller's transaction
returns the database the transaction would commit; rolling back is keeping the
old one.
-/

namespace KiteAlgo

/-! ## rows -/

/-- `_bar_payload`: the fields of the last final bar. -/
structure BarPayload (F : Type) where
  ts : Int
  ltp : Option F
  open_ : Option F
  high : Option F
  low : Option F
  close : Option F
  volume : Option F
  final : Bool

/-- The state of a checkpoint: the evaluation state, and for the last final bar
its payload with the state before it. -/
structure Checkpoint (F : Type) extends EvalState F where
  lastBarState : Option (EvalState F) := none
  lastBarPayload : Option (BarPayload F) := none

/-- `EvaluationCheckpoint`. -/
structure CheckpointRow (F : Type) where
  state : Checkpoint F
  ownerEpoch : Int
  updatedAt : Int

/-- `EvaluationOwnership`: who may evaluate a subscription until when. -/
structure OwnershipRow where
  ownerId : String
  ownerEpoch : Int
  leaseUntil : Int
  deriving DecidableEq, Repr

structure SignalEvent (F : Type) where
  subscriptionId : Option String
  workflowId : String
  occurrenceKey : String
  firedAt : Int
  evidence : Values F
  createdAt : Int

/-- A pending `Delivery` of an event to a channel. -/
structure Delivery where
  occurrenceKey : String
  channelId : String
  createdAt : Int
  deriving DecidableEq, Repr

structure SessionSlot where
  ownerId : String
  workflowId : String
  revisionId : String
  alertId : String
  sessionId : String
  deriving DecidableEq, Repr

/-- `AlertSuppressionCounter`. -/
structure SuppressionRow where
  count : Int
  lastAt : Int
  lastInstrumentKey : Option String
  lastStageId : Option String
  deriving DecidableEq, Repr

structure Db (F : Type) where
  ownership : Table (String × String) OwnershipRow := .empty
  checkpoints : Table (String × String × String) (CheckpointRow F) := .empty
  events : List (SignalEvent F) := []
  deliveries : List Delivery := []
  completed : List String := []
  breadth : BreadthDb := .empty
  sessionCounters : Table SessionSlot Int := .empty
  suppressions : Table (SessionSlot × Suppression) SuppressionRow := .empty

variable {F : Type}

/-- `claim_evaluation`: the owner epoch held, or none while another owner's lease
runs. -/
def claimEvaluation (db : Db F) (subId instrumentKey ownerId : String) (lease now : Int) :
    Option (Int × Db F) :=
  let leaseUntil := now + max microsPerSecond lease
  let write (epoch : Int) : Db F :=
    { db with ownership := db.ownership.upsert (subId, instrumentKey) ⟨ownerId, epoch, leaseUntil⟩ }
  match db.ownership.get? (subId, instrumentKey) with
  | none => some (1, write 1)
  | some row =>
    if row.ownerId = ownerId then some (row.ownerEpoch, write row.ownerEpoch)
    else if now < row.leaseUntil then none
    else some (row.ownerEpoch + 1, write (row.ownerEpoch + 1))

/-- `assert_evaluation_owner`: the claim still stands. -/
def assertEvaluationOwner (db : Db F) (subId instrumentKey ownerId : String) (ownerEpoch now : Int) :
    Bool :=
  (db.ownership.get? (subId, instrumentKey)).any fun row =>
    decide (row.ownerId = ownerId) && decide (row.ownerEpoch = ownerEpoch) && decide (now < row.leaseUntil)

def loadCheckpoint (db : Db F) (subId instrumentKey epochId : String) :
    Option (Checkpoint F × Int) :=
  (db.checkpoints.get? (subId, instrumentKey, epochId)).map fun row => (row.state, row.ownerEpoch)

/-- `load_latest_checkpoint`: the newest row over all epochs. -/
def loadLatestCheckpoint (db : Db F) (subId instrumentKey : String) :
    Option (Checkpoint F × Int) :=
  let rows := db.checkpoints.select fun k _ =>
    decide (k.1 = subId) && decide (k.2.1 = instrumentKey)
  let newest := rows.foldl (fun best row =>
    match best with
    | none => some row.2
    | some b => if b.updatedAt < row.2.updatedAt then some row.2 else some b) none
  newest.map fun row => (row.state, row.ownerEpoch)

/-- `save_checkpoint` with an expected owner epoch: none is `LeaseConflict`. -/
def saveCheckpoint (db : Db F) (subId instrumentKey epochId : String) (state : Checkpoint F)
    (expected now : Int) : Option (Int × Db F) :=
  let key := (subId, instrumentKey, epochId)
  let write (epoch : Int) : Db F :=
    { db with checkpoints := db.checkpoints.upsert key ⟨state, epoch, now⟩ }
  match db.checkpoints.get? key with
  | none => some (expected + 1, write (expected + 1))
  | some row =>
    if row.ownerEpoch = expected then some (row.ownerEpoch + 1, write (row.ownerEpoch + 1))
    else none

/-- `get_signal_by_occurrence`. -/
def hasOccurrence (db : Db F) (key : String) : Bool :=
  db.events.any fun e => e.occurrenceKey = key

/-- `record_signal` and `_record_workflow_event`: the event with one delivery for
each channel; a duplicate occurrence violates the unique key. -/
def recordSignal (db : Db F) (event : SignalEvent F) (channelIds : List String) :
    Except PyErr (Db F) :=
  if hasOccurrence db event.occurrenceKey then .error .integrity
  else
    .ok
      { db with
        events := db.events ++ [event]
        deliveries := db.deliveries ++ (distinctKeys channelIds).map fun c =>
          ⟨event.occurrenceKey, c, event.createdAt⟩ }

/-- `reserve_session_slot`: the database with the slot taken, or none when the cap
is reached. -/
def reserveSessionSlot (db : Db F) (slot : SessionSlot) (maximum : Int) : Option (Db F) :=
  let write (n : Int) : Db F := { db with sessionCounters := db.sessionCounters.upsert slot n }
  match db.sessionCounters.get? slot with
  | none => some (write 1)
  | some n => if n < maximum then some (write (n + 1)) else none

def recordSuppression (db : Db F) (slot : SessionSlot) (reason : Suppression)
    (instrumentKey stageId : Option String) (now : Int) : Db F :=
  let count := ((db.suppressions.get? (slot, reason)).map SuppressionRow.count).getD 0
  { db with
    suppressions := db.suppressions.upsert (slot, reason) ⟨count + 1, now, instrumentKey, stageId⟩ }

variable {db db' : Db F} {epoch now : Int} {instrumentKey subId : String}

theorem assertEvaluationOwner_of_claim {ownerId : String} {lease : Int}
    (h : claimEvaluation db subId instrumentKey ownerId lease now = some (epoch, db')) :
    assertEvaluationOwner db' subId instrumentKey ownerId epoch now ∧
      db'.checkpoints = db.checkpoints ∧ db'.events = db.events ∧ db'.breadth = db.breadth := by
  have hlt : now < now + max microsPerSecond lease := by
    have hpos : (0 : Int) < microsPerSecond := by decide
    omega
  unfold claimEvaluation at h
  split at h
  · obtain ⟨rfl, rfl⟩ := Prod.mk.inj (Option.some.inj h)
    simp [assertEvaluationOwner, hlt]
  · split at h
    · obtain ⟨rfl, rfl⟩ := Prod.mk.inj (Option.some.inj h)
      simp [assertEvaluationOwner, hlt]
    · split at h
      · simp at h
      · obtain ⟨rfl, rfl⟩ := Prod.mk.inj (Option.some.inj h)
        simp [assertEvaluationOwner, hlt]

theorem recordSignal_ok {event : SignalEvent F} {channels : List String}
    (h : recordSignal db event channels = .ok db') :
    db'.events = db.events ++ [event] ∧ db'.checkpoints = db.checkpoints ∧ db'.breadth = db.breadth := by
  simp only [recordSignal] at h
  split at h
  · simp at h
  · obtain rfl := Except.ok.inj h
    exact ⟨rfl, rfl, rfl⟩

theorem saveCheckpoint_ok {epochId : String} {state : Checkpoint F} {expected : Int}
    (h : saveCheckpoint db subId instrumentKey epochId state expected now = some (epoch, db')) :
    db'.checkpoints = db.checkpoints.upsert (subId, instrumentKey, epochId) ⟨state, epoch, now⟩ ∧
      (∀ row, db.checkpoints.get? (subId, instrumentKey, epochId) = some row → epoch = row.ownerEpoch + 1) ∧
      db'.events = db.events := by
  simp only [saveCheckpoint] at h
  split at h
  · next hnone =>
      obtain ⟨rfl, rfl⟩ := Prod.mk.inj (Option.some.inj h)
      exact ⟨rfl, by simp [hnone], rfl⟩
  · next row hrow =>
      split at h
      · obtain ⟨rfl, rfl⟩ := Prod.mk.inj (Option.some.inj h)
        refine ⟨rfl, fun row' hrow' => ?_, rfl⟩
        rw [Option.some.inj (hrow.symm.trans hrow')]
      · simp at h

end KiteAlgo
