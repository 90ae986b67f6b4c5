import KiteAlgo.Repository

/-!
# KiteAlgo.Screener

Screener runs and their attachments (`workflows/screener_repository.py`): an
occurrence is claimed under a lease, evaluated, and published in one transaction
that fences the owner, writes the members, and derives for each attachment the
events and the new baseline from the baseline it reads there.
-/

namespace KiteAlgo

open List Table
/-! ## rows -/

/-- `ScreenerRun.status`. -/
inductive RunStatus where
  | running
  | complete
  | partial_
  | failed
  deriving DecidableEq, Repr

/-- The status a caller of `finalize_run` passes. -/
inductive FinalStatus where
  | complete
  | partial_
  | failed
  deriving DecidableEq, Repr

def FinalStatus.run : FinalStatus → RunStatus
  | .complete => .complete
  | .partial_ => .partial_
  | .failed => .failed

/-- `ScreenerRun`, under its id. -/
structure ScreenerRun (F : Type) where
  ownerId : String
  workflowId : String
  revisionId : String
  occurrenceKey : String
  scheduledFor : Int
  triggeredBy : String
  status : RunStatus
  universeRevision : Option Int := none
  asOf : Option Int := none
  coverage : Values F := []
  dataFreshness : Values F := []
  failureReason : Option String := none
  leaseOwner : Option String
  leaseExpiresAt : Option Int
  createdAt : Int
  updatedAt : Int
  completedAt : Option Int := none

/-- `ScreenerRunMember`, and what the attachments read of a `MemberResult`. -/
structure MemberResult (F : Type) where
  instrumentKey : String
  passed : Bool
  exclusionReason : Option String := none
  values : Values F := []
  rank : Option Int := none
  score : Option F := none

structure AttachmentKey where
  ownerId : String
  workflowId : String
  revisionId : String
  attachmentId : String
  deriving DecidableEq, Repr

/-- `ScreenerAttachmentState` of one instrument. -/
structure AttachmentState where
  present : Bool
  lastCompleteRunId : Option String
  lastRank : Option Int
  consecutiveAbsent : Int
  updatedAt : Int
  deriving DecidableEq, Repr

def DistinctOccurrences {F : Type} (rows : Table String (ScreenerRun F)) : Prop :=
  ∀ {id id' run run'}, rows.get? id = some run → rows.get? id' = some run' →
    run.occurrenceKey = run'.occurrenceKey → id = id'

/-- The run rows under their unique constraint. -/
structure RunTable (F : Type) where
  rows : Table String (ScreenerRun F)
  distinct : DistinctOccurrences rows

structure ScreenerDb (F : Type) extends Db F where
  runs : RunTable F
  members : List (String × MemberResult F) := []
  attachmentStates : Table (AttachmentKey × String) AttachmentState := .empty

/-! ## the run table -/

namespace RunTable

variable {F : Type}

def empty : RunTable F := ⟨.empty, by simp [DistinctOccurrences]⟩

def byOccurrence (t : RunTable F) (key : String) : Option (String × ScreenerRun F) :=
  t.rows.rows.find? fun e => decide (e.2.occurrenceKey = key)

variable {key : String} {t : RunTable F}

theorem byOccurrence_eq_none :
    t.byOccurrence key = none ↔ ∀ id run, t.rows.get? id = some run → run.occurrenceKey ≠ key := by
  rw [byOccurrence, find?_eq_none]
  constructor
  · intro h id run hrun hkey
    simpa [hkey] using h (id, run) (mem_rows_iff.mpr hrun)
  · intro h e he
    simpa using h e.1 e.2 (mem_rows_iff.mp he)

variable {id : String} {run : ScreenerRun F}

theorem byOccurrence_eq_some :
    t.byOccurrence key = some (id, run) ↔ t.rows.get? id = some run ∧ run.occurrenceKey = key := by
  constructor
  · intro h
    exact ⟨mem_rows_iff.mp (mem_of_find?_eq_some h), by simpa using find?_some h⟩
  · rintro ⟨hrun, hkey⟩
    cases hfound : t.byOccurrence key with
    | none => exact absurd hkey (byOccurrence_eq_none.mp hfound id run hrun)
    | some e =>
      obtain ⟨id', run'⟩ := e
      have hrun' := mem_rows_iff.mp (mem_of_find?_eq_some hfound)
      have hkey' : run'.occurrenceKey = key := by simpa using find?_some hfound
      obtain rfl := t.distinct hrun hrun' (hkey.trans hkey'.symm)
      rw [Option.some.inj (hrun.symm.trans hrun')]

theorem distinct_upsert (hfree : t.byOccurrence run.occurrenceKey = none) :
    DistinctOccurrences (t.rows.upsert id run) := by
  intro i j r r' hi hj heq
  have hother := byOccurrence_eq_none.mp hfree
  rw [get?_upsert] at hi hj
  by_cases hid : id = i
  · by_cases hjd : id = j
    · rw [← hid, ← hjd]
    · rw [if_pos hid] at hi
      rw [if_neg hjd] at hj
      obtain rfl := Option.some.inj hi
      exact absurd heq.symm (hother j r' hj)
  · rw [if_neg hid] at hi
    by_cases hjd : id = j
    · rw [if_pos hjd] at hj
      obtain rfl := Option.some.inj hj
      exact absurd heq (hother i r hi)
    · rw [if_neg hjd] at hj
      exact t.distinct hi hj heq

/-- INSERT; none is an `IntegrityError`. -/
def insert (t : RunTable F) (id : String) (run : ScreenerRun F) : Option (RunTable F) :=
  if h : t.rows.get? id = none ∧ t.byOccurrence run.occurrenceKey = none then
    some ⟨t.rows.upsert id run, distinct_upsert h.2⟩
  else none

theorem distinct_mapRows {f : String → ScreenerRun F → ScreenerRun F}
    (hf : ∀ id run, (f id run).occurrenceKey = run.occurrenceKey) :
    DistinctOccurrences (t.rows.mapRows f) := by
  intro i j r r' hi hj heq
  rw [get?_mapRows, Option.map_eq_some_iff] at hi hj
  obtain ⟨q, hq, rfl⟩ := hi
  obtain ⟨q', hq', rfl⟩ := hj
  rw [hf, hf] at heq
  exact t.distinct hq hq' heq

/-- UPDATE of one run, which keeps its occurrence key. -/
def modify (t : RunTable F) (id : String) (f : ScreenerRun F → ScreenerRun F)
    (hf : ∀ run, (f run).occurrenceKey = run.occurrenceKey) : RunTable F where
  rows := t.rows.mapRows fun i run => if i = id then f run else run
  distinct := by
    refine distinct_mapRows fun i run => ?_
    split
    · exact hf run
    · rfl

theorem get?_modify {id' : String} {f : ScreenerRun F → ScreenerRun F}
    {hf : ∀ run, (f run).occurrenceKey = run.occurrenceKey} :
    (t.modify id f hf).rows.get? id' = if id' = id then (t.rows.get? id').map f else t.rows.get? id' := by
  rw [modify, get?_mapRows]
  split
  · rfl
  · simp

end RunTable

variable {F : Type}

/-! ## claims -/

/-- What a claim of an occurrence is made for. -/
structure RunRequest where
  ownerId : String
  workflowId : String
  revisionId : String
  occurrenceKey : String
  scheduledFor : Int
  triggeredBy : String := "schedule"
  deriving DecidableEq, Repr

def RunRequest.row (request : RunRequest) (leaseOwner : String) (leaseTtl now : Int) :
    ScreenerRun F where
  ownerId := request.ownerId
  workflowId := request.workflowId
  revisionId := request.revisionId
  occurrenceKey := request.occurrenceKey
  scheduledFor := request.scheduledFor
  triggeredBy := request.triggeredBy
  status := .running
  leaseOwner := some leaseOwner
  leaseExpiresAt := some (now + leaseTtl)
  createdAt := now
  updatedAt := now

/-- `ScreenerRun.lease_owner == owner and ScreenerRun.status == "running"`. -/
def ScreenerRun.ownedBy (run : ScreenerRun F) (leaseOwner : String) : Bool :=
  decide (run.leaseOwner = some leaseOwner) && decide (run.status = .running)

def ScreenerRun.takenOver (leaseOwner : String) (leaseTtl now : Int) (run : ScreenerRun F) :
    ScreenerRun F :=
  { run with
    leaseOwner := some leaseOwner
    leaseExpiresAt := some (now + leaseTtl)
    updatedAt := now }

def ScreenerRun.refreshed (leaseTtl now : Int) (run : ScreenerRun F) : ScreenerRun F :=
  { run with leaseExpiresAt := some (now + leaseTtl), updatedAt := now }

theorem ScreenerRun.takenOver_occurrenceKey (leaseOwner : String) (leaseTtl now : Int)
    (run : ScreenerRun F) :
    (run.takenOver leaseOwner leaseTtl now).occurrenceKey = run.occurrenceKey := rfl

theorem ScreenerRun.refreshed_occurrenceKey (leaseTtl now : Int) (run : ScreenerRun F) :
    (run.refreshed leaseTtl now).occurrenceKey = run.occurrenceKey := rfl

/-- `claim_run`: the id of the claimed run with the database, or none.  A new
occurrence is inserted under a fresh id; a running one whose lease expired is taken
over, and the compare-and-swap on the lease cannot fail inside one step. -/
def claimRun (db : ScreenerDb F) (request : RunRequest) (leaseOwner : String) (leaseTtl now : Int)
    (freshId : String) : Option (String × ScreenerDb F) :=
  match db.runs.byOccurrence request.occurrenceKey with
  | none =>
    (db.runs.insert freshId (request.row leaseOwner leaseTtl now)).map fun runs =>
      (freshId, { db with runs })
  | some (id, existing) =>
    match existing.status, existing.leaseExpiresAt with
    | .running, some expires =>
      if expires ≤ now then
        some (id, { db with
          runs := db.runs.modify id (ScreenerRun.takenOver leaseOwner leaseTtl now)
            (ScreenerRun.takenOver_occurrenceKey leaseOwner leaseTtl now) })
      else none
    | _, _ => none

def refreshLease (db : ScreenerDb F) (runId leaseOwner : String) (leaseTtl now : Int) :
    Bool × ScreenerDb F :=
  if (db.runs.rows.get? runId).any fun run => run.ownedBy leaseOwner then
    (true, { db with
      runs := db.runs.modify runId (ScreenerRun.refreshed leaseTtl now)
        (ScreenerRun.refreshed_occurrenceKey leaseTtl now) })
  else (false, db)

/-! ## attachment transitions -/

/-- `AttachmentStateUpdate` of one attachment. -/
structure AttachmentStateUpdate where
  instrumentKey : String
  present : Bool
  rank : Option Int
  consecutiveAbsent : Int
  deriving DecidableEq, Repr

def AttachmentStateUpdate.row (update : AttachmentStateUpdate) (runId : String) (now : Int) :
    AttachmentState :=
  ⟨update.present, some runId, update.rank, update.consecutiveAbsent, now⟩

inductive AttachmentAction where
  | entry
  | exit
  | rankChange
  deriving DecidableEq, Repr

instance : Named AttachmentAction where
  all := [.entry, .exit, .rankChange]
  name
    | .entry => "entry"
    | .exit => "exit"
    | .rankChange => "rank_change"
  mem_all e := by cases e <;> simp
  name_inj {e e'} h := by cases e <;> cases e' <;> simp_all

structure AttachmentPayload where
  action : AttachmentAction
  rank : Option Int
  prevRank : Option Int
  delta : Option Int := none
  direction : Option String := none
  deriving DecidableEq, Repr

/-- What one instrument contributes: the row to write and the events. -/
structure Transition where
  update : Option AttachmentStateUpdate
  events : List AttachmentPayload := []
  deriving DecidableEq, Repr

/-- `spec.exit_after or 1`. -/
def AttachmentSpec.threshold (spec : AttachmentSpec) : Int :=
  match spec.exitAfter with
  | none | some 0 => 1
  | some n => n

/-- A rank is known and within the bound (`rank is not None and rank <= (bound or 0)`). -/
def rankWithin (bound rank : Option Int) : Bool := rank.any fun r => decide (r ≤ bound.getD 0)

/-- The `top_n` branch of an evaluated instrument. -/
def topNTransition (spec : AttachmentSpec) (previous : Option AttachmentState)
    (member : MemberResult F) : Transition :=
  let prevRank := previous.bind AttachmentState.lastRank
  let wasPresent := previous.any AttachmentState.present
  let enters := member.passed && rankWithin spec.entryRank member.rank
  let update (present : Bool) : AttachmentStateUpdate :=
    ⟨member.instrumentKey, present, member.rank, 0⟩
  if wasPresent && (!member.passed || !rankWithin spec.exitRank member.rank) then
    let stays := member.passed && rankWithin spec.exitRank member.rank
    if stays then ⟨some (update true), []⟩
    else ⟨some (update false), [{ action := .exit, rank := member.rank, prevRank }]⟩
  else if enters && !wasPresent then
    ⟨some (update true), [{ action := .entry, rank := member.rank, prevRank }]⟩
  else ⟨some (update (enters || wasPresent)), []⟩

/-- The `entry` and `exit` branch of an evaluated instrument. -/
def presenceTransition (spec : AttachmentSpec) (previous : Option AttachmentState)
    (member : MemberResult F) : Transition :=
  let prevRank := previous.bind AttachmentState.lastRank
  let wasPresent := previous.any AttachmentState.present
  let present := member.passed
  let absentStreak :=
    if present then 0 else (previous.map AttachmentState.consecutiveAbsent).getD 0 + 1
  let entered : List AttachmentPayload :=
    if present && !wasPresent then [{ action := .entry, rank := member.rank, prevRank }] else []
  let left : List AttachmentPayload :=
    if wasPresent && !present && decide (spec.threshold ≤ absentStreak) then
      [{ action := .exit, rank := member.rank, prevRank }]
    else []
  ⟨some ⟨member.instrumentKey, present, member.rank, absentStreak⟩, entered ++ left⟩

/-- The `rank_delta` branch of an evaluated instrument. -/
def rankDeltaTransition (spec : AttachmentSpec) (previous : Option AttachmentState)
    (member : MemberResult F) : Transition :=
  let moved : List AttachmentPayload :=
    match member.rank, previous.bind AttachmentState.lastRank with
    | some rank, some prevRank =>
      let delta := (rank - prevRank).natAbs
      if member.passed && decide (spec.rankDelta.getD 0 ≤ delta) then
        [{ action := .rankChange, rank := some rank, prevRank := some prevRank,
           delta := some delta, direction := some (if rank < prevRank then "up" else "down") }]
      else []
    | _, _ => []
  ⟨some ⟨member.instrumentKey, member.passed, member.rank, 0⟩, moved⟩

/-- What an evaluated instrument contributes. -/
def evaluatedTransition (spec : AttachmentSpec) (previous : Option AttachmentState)
    (member : MemberResult F) : Transition :=
  match spec.trigger with
  | .topN => topNTransition spec previous member
  | .entry | .exit => presenceTransition spec previous member
  | .rankDelta => rankDeltaTransition spec previous member

/-- What an instrument of the baseline that is not in the results contributes. -/
def departedTransition (spec : AttachmentSpec) (key : String) (previous : AttachmentState) :
    Transition :=
  match spec.trigger with
  | .topN =>
    if previous.present then
      ⟨some ⟨key, false, none, 0⟩, [{ action := .exit, rank := none, prevRank := previous.lastRank }]⟩
    else ⟨none, []⟩
  | .entry | .exit =>
    let streak := previous.consecutiveAbsent + 1
    ⟨some ⟨key, false, none, streak⟩, if streak = spec.threshold then
        [{ action := .exit, rank := none, prevRank := previous.lastRank }]
      else []⟩
  | .rankDelta => ⟨none, []⟩

/-- `AttachmentTask`: an attachment with the ranked results of the run. -/
structure AttachmentTask (F : Type) where
  spec : AttachmentSpec
  results : List (MemberResult F)

structure AttachmentPlan (F : Type) where
  ownerId : String
  workflowId : String
  revisionId : String
  runId : String
  scheduledFor : Int
  screenerName : String
  tasks : List (AttachmentTask F) := []
  channelResolver : Option (String → List String → Dict String String) := none
  maxEvents : Nat := 100

structure AttachmentEvent (F : Type) where
  attachmentId : String
  occurrenceKey : String
  firedAt : Int
  evidence : Values F
  channelIds : List String

/-- `{m.instrument_key: m for m in results}`. -/
def currentMembers (results : List (MemberResult F)) : Dict String (MemberResult F) :=
  results.foldl (fun d m => d.set m.instrumentKey m) []

/-- The contributions of a run in order: the evaluated instruments, then those of the
baseline that left the universe, each sorted by key. -/
def runTransitions (spec : AttachmentSpec) (results : List (MemberResult F))
    (states : Dict String AttachmentState) : List (String × Transition) :=
  let current := currentMembers results
  let evaluated := sortBy (fun a b => Text.le a.1 b.1) current
  let departed := sortBy (fun a b => Text.le a.1 b.1)
    (states.filter fun e => !current.contains e.1)
  evaluated.map (fun e => (e.1, evaluatedTransition spec (states.get? e.1) e.2)) ++
    departed.map fun e => (e.1, departedTransition spec e.1 e.2)

def baselineUpdates (results : List (MemberResult F)) : List AttachmentStateUpdate :=
  (currentMembers results).map fun e => ⟨e.1, e.2.passed, e.2.rank, 0⟩

/-- The keys of the values that go into the evidence. -/
def evidenceValueKeys : List String := ["close", "change_pct", "turnover", "score", "candle_ts"]

def attachmentEvent (plan : AttachmentPlan F) (task : AttachmentTask F) (key : String)
    (payload : AttachmentPayload) : AttachmentEvent F :=
  let spec := task.spec
  let values := (((currentMembers task.results).get? key).map MemberResult.values).getD []
  let channels := match plan.channelResolver with
    | some resolve => resolve plan.ownerId spec.channels
    | none => []
  { attachmentId := spec.id
    occurrenceKey := plan.workflowId ++ ":" ++ plan.revisionId ++ ":" ++ spec.id ++ ":" ++
      plan.runId ++ ":" ++ key
    firedAt := plan.scheduledFor
    evidence :=
      [("screener", .str plan.screenerName), ("attachment_id", .str spec.id),
       ("trigger", .str (Named.name spec.trigger)), ("action", .str (Named.name payload.action)),
       ("instrument_key", .str key), ("rank", optInt payload.rank),
       ("prev_rank", optInt payload.prevRank), ("rank_delta", optInt payload.delta),
       ("direction", optStr payload.direction), ("run_id", .str plan.runId),
       ("scheduled_for", .str (isoformat plan.scheduledFor)), ("message", optStr spec.message),
       ("values", .dict ((values.filter fun e => evidenceValueKeys.contains e.1).map
         fun e => (.str e.1, e.2))),
       ("message_kind", .str "screener_attachment")]
    channelIds := distinctKeys channels.values }

/-- What a publication derives for one attachment. -/
structure AttachmentOutcome (F : Type) where
  events : List (AttachmentEvent F)
  updates : List AttachmentStateUpdate
  suppressed : Nat

def computeAttachmentTransitions (plan : AttachmentPlan F) (task : AttachmentTask F)
    (states : Dict String AttachmentState) : AttachmentOutcome F :=
  let transitions := runTransitions task.spec task.results states
  let silent := states.isEmpty && !task.spec.initialMatch
  let updates :=
    if silent then baselineUpdates task.results else transitions.filterMap fun t => t.2.update
  let raw := if silent then [] else transitions.flatMap fun t => t.2.events.map fun e => (t.1, e)
  { events := (raw.take plan.maxEvents).map fun r => attachmentEvent plan task r.1 r.2
    updates
    suppressed := raw.length - plan.maxEvents }

/-! ## publication -/

/-- What identifies the attachment of a task. -/
def AttachmentPlan.attachmentKey (plan : AttachmentPlan F) (task : AttachmentTask F) :
    AttachmentKey :=
  ⟨plan.ownerId, plan.workflowId, plan.revisionId, task.spec.id⟩

def readAttachmentStates (db : ScreenerDb F) (key : AttachmentKey) : Dict String AttachmentState :=
  (db.attachmentStates.select fun k _ => decide (k.1 = key)).map fun e => (e.1.2, e.2)

/-- The scheduled times of the runs that wrote the rows. -/
def baselineTimes (db : ScreenerDb F) (states : Dict String AttachmentState) : List Int :=
  let ids := states.filterMap fun e => e.2.lastCompleteRunId
  (db.runs.rows.select fun id _ => ids.contains id).map fun e => e.2.scheduledFor

/-- `_baseline_supersedes`: a row was written by a run scheduled strictly later. -/
def baselineSupersedes (db : ScreenerDb F) (states : Dict String AttachmentState)
    (scheduledFor : Int) : Except PyErr Bool :=
  if states.all fun e => e.2.lastCompleteRunId.isNone then .ok false
  else
    match baselineTimes db states with
    | [] => .error (.value "max() arg is an empty sequence")
    | t :: ts => .ok (decide (scheduledFor < ts.foldl max t))

/-- `_insert_attachment_events`: a recorded occurrence is skipped. -/
def insertAttachmentEvents (db : ScreenerDb F) (plan : AttachmentPlan F) (now : Int) :
    List (AttachmentEvent F) → Nat × ScreenerDb F
  | [] => (0, db)
  | event :: rest =>
    if hasOccurrence db.toDb event.occurrenceKey then insertAttachmentEvents db plan now rest
    else
      let signal : SignalEvent F :=
        { subscriptionId := none
          workflowId := plan.workflowId
          occurrenceKey := event.occurrenceKey
          firedAt := event.firedAt
          evidence := event.evidence
          createdAt := now }
      let db' : ScreenerDb F :=
        { db with
          events := db.events ++ [signal]
          deliveries := db.deliveries ++ (distinctKeys event.channelIds).map fun c =>
            ⟨event.occurrenceKey, c, now⟩ }
      let result := insertAttachmentEvents db' plan now rest
      (result.1 + 1, result.2)

def upsertAttachmentStateRow (states : Table (AttachmentKey × String) AttachmentState)
    (key : AttachmentKey) (runId : String) (now : Int) (update : AttachmentStateUpdate) :
    Table (AttachmentKey × String) AttachmentState :=
  states.upsert (key, update.instrumentKey) (update.row runId now)

abbrev Counters := Dict String Int

/-- `applied[name] = applied.get(name, 0) + n`. -/
def Counters.add (counters : Counters) (name : String) (n : Nat) : Counters :=
  counters.set name ((counters.get? name).getD 0 + n)

/-- The publication of one task: suppressed whole when the baseline is newer. -/
def publishTask (plan : AttachmentPlan F) (now : Int) (task : AttachmentTask F)
    (applied : Counters) (db : ScreenerDb F) : Except PyErr (Counters × ScreenerDb F) := do
  let key := plan.attachmentKey task
  let states := readAttachmentStates db key
  let superseded ← baselineSupersedes db states plan.scheduledFor
  if superseded then .ok (applied.add "attachment_events_stale_suppressed" 1, db)
  else
    let outcome := computeAttachmentTransitions plan task states
    let inserted := insertAttachmentEvents db plan now outcome.events
    .ok
      ((applied.add "attachment_events_suppressed" outcome.suppressed).add
          "attachment_events_published" inserted.1,
       { inserted.2 with
         attachmentStates := outcome.updates.foldl
           (fun states update => upsertAttachmentStateRow states key plan.runId now update)
           inserted.2.attachmentStates })

/-- `_publish_attachments`. -/
def publishTasks (plan : AttachmentPlan F) (now : Int) :
    List (AttachmentTask F) → Counters → ScreenerDb F → Except PyErr (Counters × ScreenerDb F)
  | [], applied, db => .ok (applied, db)
  | task :: rest, applied, db => do
    let (applied, db) ← publishTask plan now task applied db
    publishTasks plan now rest applied db

/-- What a caller of `finalize_run` passes. -/
structure FinalizeArgs (F : Type) where
  status : FinalStatus
  asOf : Int
  coverage : Values F := []
  dataFreshness : Values F := []
  members : List (MemberResult F) := []
  failureReason : Option String := none
  universeRevision : Option Int := none
  attachmentPlan : Option (AttachmentPlan F) := none

def FinalizeArgs.finalized (args : FinalizeArgs F) (now : Int) (run : ScreenerRun F) :
    ScreenerRun F :=
  { run with
    status := args.status.run
    asOf := some args.asOf
    coverage := args.coverage
    dataFreshness := args.dataFreshness
    failureReason := args.failureReason
    universeRevision := args.universeRevision
    completedAt := some now
    updatedAt := now }

theorem FinalizeArgs.finalized_occurrenceKey (args : FinalizeArgs F) (now : Int)
    (run : ScreenerRun F) : (args.finalized now run).occurrenceKey = run.occurrenceKey := rfl

/-- The publication behind the fence: members, attachments and their counters. -/
def publishRun (db : ScreenerDb F) (runId : String) (args : FinalizeArgs F) (now : Int) :
    Except PyErr (ScreenerDb F) := do
  let fenced := { db with
    runs := db.runs.modify runId (args.finalized now) (args.finalized_occurrenceKey now)
    members := db.members.filter (fun m => decide (m.1 ≠ runId)) ++ args.members.map fun m => (runId, m) }
  match args.attachmentPlan with
  | none => .ok fenced
  | some plan => do
    let (summary, published) ←
      publishTasks plan now plan.tasks [("attachment_events_published", 0)] fenced
    let coverage := args.coverage.update (summary.map fun e => (e.1, .int e.2))
    .ok { published with
      runs := published.runs.modify runId (fun run => { run with coverage, updatedAt := now })
        fun _ => rfl }

/-- `finalize_run`: only the owner of a running run publishes, and it publishes
everything or nothing. -/
def finalizeRun (db : ScreenerDb F) (runId leaseOwner : String) (args : FinalizeArgs F) (now : Int) :
    Except PyErr (Bool × ScreenerDb F) :=
  if (db.runs.rows.get? runId).any fun run => run.ownedBy leaseOwner then do
    let db ← publishRun db runId args now
    .ok (true, db)
  else .ok (false, db)

end KiteAlgo
