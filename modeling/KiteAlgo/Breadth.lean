import KiteAlgo.Lib.Table
import KiteAlgo.Models
import KiteAlgo.Time

/-!
# KiteAlgo.Breadth

Windowed distinct-symbol participation: `evaluate_breadth` (`workflows/breadth.py`)
over the durable rows of `workflows/advanced_repository.py`.

Times are microseconds since the epoch.  The stage lock serializes evaluations,
so one evaluation is one step on the database.
-/

namespace KiteAlgo

/-! ## durable rows -/

structure StageKey where
  ownerId : String
  workflowId : String
  revisionId : String
  stageId : String
  deriving DecidableEq, Repr

/-- `AlertBreadthTrigger`: the latest qualifying trigger of one instrument. -/
structure BreadthTrigger where
  lastTriggerTs : Int
  lastBarTs : Option Int
  universeRevision : Option Int
  deriving DecidableEq, Repr

/-- `AlertBreadthState`: the threshold row of one stage. -/
structure BreadthState where
  satisfied : Bool
  crossingSeq : Int
  satisfiedSinceTs : Option Int
  lastFiredTs : Option Int
  lastCount : Option Nat
  memberCount : Option Nat
  aggregationWatermark : Option Int
  membershipResolvedAt : Option Int
  deriving DecidableEq, Repr

structure BreadthDb where
  triggers : Table (StageKey × String) BreadthTrigger
  states : Table StageKey BreadthState

def BreadthDb.empty : BreadthDb := ⟨.empty, .empty⟩

/-- `upsert_breadth_contribution` on the stored row: an older or equal
observation never overwrites a newer one. -/
def upsertTrigger (stored : Option BreadthTrigger) (triggerTs : Int) (universeRevision : Option Int) :
    BreadthTrigger :=
  let fresh : BreadthTrigger := ⟨triggerTs, some triggerTs, universeRevision⟩
  match stored with
  | none => fresh
  | some row => if row.lastTriggerTs < triggerTs then fresh else row

def upsertBreadthContribution (db : BreadthDb) (key : StageKey) (instrumentKey : String)
    (triggerTs : Int) (universeRevision : Option Int) : BreadthDb :=
  let stored := db.triggers.get? (key, instrumentKey)
  { db with
    triggers := db.triggers.upsert (key, instrumentKey)
      (upsertTrigger stored triggerTs universeRevision) }

/-- `lo <= last_trigger_ts <= hi`. -/
def BreadthTrigger.inWindow (row : BreadthTrigger) (lo hi : Int) : Bool :=
  decide (lo ≤ row.lastTriggerTs) && decide (row.lastTriggerTs ≤ hi)

/-- `list(dict.fromkeys(keys))`: the first occurrences, in order. -/
def distinctKeys : List String → List String
  | [] => []
  | k :: ks => k :: (distinctKeys ks).filter (· ≠ k)

/-- `count_breadth_contributions`: the members whose latest trigger lies in the
window, oldest first, cut at the row limit. -/
def countBreadthContributions (db : BreadthDb) (key : StageKey) (windowStart evaluatedAt : Int)
    (members : List String) (limit : Int) : List (String × Int) :=
  let allowed := distinctKeys members
  if allowed.isEmpty then [] else
    let rows := db.triggers.select fun k row =>
      decide (k.1 = key) && allowed.contains k.2 && row.inWindow windowStart evaluatedAt
    let sorted := sortBy (fun a b => decide (a.2.lastTriggerTs ≤ b.2.lastTriggerTs)) rows
    (sorted.take (max 1 (min limit allowed.length)).toNat).map fun e => (e.1.2, e.2.lastTriggerTs)

/-- `upsert_breadth_state`: a missing resolution time keeps the stored one. -/
def upsertBreadthState (db : BreadthDb) (key : StageKey) (row : BreadthState) : BreadthDb :=
  let stored := (db.states.get? key).bind BreadthState.membershipResolvedAt
  { db with
    states := db.states.upsert key
      { row with membershipResolvedAt := row.membershipResolvedAt.or stored } }

/-! ## evaluation -/

/-- Why an evaluation was refused, or what accompanied it. -/
inductive BreadthReason where
  | capacityExceeded
  | membershipUnavailable
  | membershipStale
  | staleObservation
  deriving DecidableEq, Repr

instance : Named BreadthReason where
  all := [.capacityExceeded, .membershipUnavailable, .membershipStale, .staleObservation]
  name
    | .capacityExceeded => "breadth_capacity_exceeded"
    | .membershipUnavailable => "membership_unavailable"
    | .membershipStale => "membership_stale"
    | .staleObservation => "breadth_stale_observation"
  mem_all e := by cases e <;> simp
  name_inj {e e'} h := by cases e <;> cases e' <;> simp_all

structure BreadthOutcome where
  matched : Option Bool
  fired : Bool
  count : Nat
  members : Nat
  reason : Option BreadthReason
  crossingSeq : Int
  contributors : List String := []
  windowStart : Option Int := none
  evaluatedAt : Option Int := none
  deriving DecidableEq, Repr

/-- The arguments of `evaluate_breadth` that stay fixed over a run: the stage, its
threshold and window, and the resolved membership. -/
structure BreadthArgs where
  key : StageKey
  distinctInstruments : Int
  windowS : Int
  memberKeys : List String
  memberUniverseRevision : Option Int := none
  membershipResolvedAt : Option Int
  maxInstruments : Int
  membershipMaxAgeS : Int
  membershipNow : Option Int := none
  deriving DecidableEq, Repr

/-- The stage has more members than its capacity. -/
def BreadthArgs.overCapacity (args : BreadthArgs) : Bool :=
  decide (args.maxInstruments < (distinctKeys args.memberKeys).length)

/-- The membership was resolved too long before the observation (or before the
wall clock, when that is given). -/
def BreadthArgs.isStale (args : BreadthArgs) (resolvedAt observedAt : Int) : Bool :=
  decide (args.membershipMaxAgeS * microsPerSecond < args.membershipNow.getD observedAt - resolvedAt)

/-- A refused evaluation: the stage is unknown and nothing is written. -/
def blockedOutcome (args : BreadthArgs) (state : Option BreadthState) (observedAt : Int)
    (reason : BreadthReason) : BreadthOutcome :=
  { matched := none, fired := false, count := 0, members := (distinctKeys args.memberKeys).length,
    reason, crossingSeq := (state.map BreadthState.crossingSeq).getD 0, evaluatedAt := observedAt }

/-- The threshold machine: the state row after `count` members were seen. -/
def thresholdStep (args : BreadthArgs) (state : Option BreadthState) (effectiveAt : Int)
    (count : Nat) : BreadthState × Bool :=
  let satisfied := (state.map BreadthState.satisfied).getD false
  let base : BreadthState :=
    { satisfied
      crossingSeq := (state.map BreadthState.crossingSeq).getD 0
      satisfiedSinceTs := state.bind BreadthState.satisfiedSinceTs
      lastFiredTs := state.bind BreadthState.lastFiredTs
      lastCount := count
      memberCount := (distinctKeys args.memberKeys).length
      aggregationWatermark := effectiveAt
      membershipResolvedAt := args.membershipResolvedAt }
  if args.distinctInstruments ≤ count ∧ satisfied = false then
    ({ base with
        satisfied := true, crossingSeq := base.crossingSeq + 1, satisfiedSinceTs := effectiveAt,
        lastFiredTs := effectiveAt }, true)
  else if (count : Int) < args.distinctInstruments ∧ satisfied = true then
    ({ base with satisfied := false, satisfiedSinceTs := none }, false)
  else (base, false)

/-- `max(observed_at, watermark)`. -/
def effectiveAt (state : Option BreadthState) (observedAt : Int) : Int :=
  match state.bind BreadthState.aggregationWatermark with
  | none => observedAt
  | some watermark => max observedAt watermark

/-- The evaluation proper, once capacity and membership are accepted. -/
def evaluateAccepted (args : BreadthArgs) (triggering : Option String) (observedAt : Int)
    (db : BreadthDb) : BreadthOutcome × BreadthDb :=
  let state := db.states.get? args.key
  let members := distinctKeys args.memberKeys
  let at_ := effectiveAt state observedAt
  let stale := (state.bind BreadthState.aggregationWatermark).any fun w => decide (observedAt < w)
  let db :=
    match triggering with
    | none => db
    | some instrument =>
      upsertBreadthContribution db args.key instrument observedAt args.memberUniverseRevision
  let windowStart := at_ - args.windowS * microsPerSecond
  -- `member_count or max_instruments`: an empty member set counts nothing below.
  let budget : Int := if members.isEmpty then args.maxInstruments else members.length
  let contributors := countBreadthContributions db args.key windowStart at_ members
    (max 1 (min budget args.maxInstruments))
  let count := contributors.length
  let step := thresholdStep args state at_ count
  let db := upsertBreadthState db args.key step.1
  ({ matched := some (decide (args.distinctInstruments ≤ count)), fired := step.2, count,
     members := members.length, reason := if stale then some .staleObservation else none,
     crossingSeq := step.1.crossingSeq, contributors := contributors.map Prod.fst,
     windowStart := some windowStart, evaluatedAt := some at_ }, db)

def evaluateBreadth (args : BreadthArgs) (triggering : Option String) (observedAt : Int)
    (db : BreadthDb) : BreadthOutcome × BreadthDb :=
  let state := db.states.get? args.key
  if args.overCapacity then (blockedOutcome args state observedAt .capacityExceeded, db)
  else
    match args.membershipResolvedAt with
    | none => (blockedOutcome args state observedAt .membershipUnavailable, db)
    | some resolvedAt =>
      if args.isStale resolvedAt observedAt then
        (blockedOutcome args state observedAt .membershipStale, db)
      else evaluateAccepted args triggering observedAt db

end KiteAlgo
