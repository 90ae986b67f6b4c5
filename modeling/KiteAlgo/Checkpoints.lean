import KiteAlgo.Lib.Run
import KiteAlgo.Repository

/-!
# KiteAlgo.Checkpoints

The checkpoint compare-and-swap at the level of its SQL statements.  `saveCheckpoint`
is the call without interruption; here the UPDATE, the guarded INSERT and the retried
UPDATE of `_save_checkpoint` are steps of their own, and any number of workers load
and save the same key in any order of these steps.
-/

namespace KiteAlgo

open List Machine
variable {F : Type}

abbrev CheckpointKey := String × String × String

/-- `_cas_update`: none is a row count of zero. -/
def casUpdate (db : Db F) (key : CheckpointKey) (state : Checkpoint F) (expected : Option Int)
    (now : Int) : Option (Db F) :=
  match db.checkpoints.get? key with
  | none => none
  | some row =>
    if expected.all fun epoch => row.ownerEpoch = epoch then
      some { db with checkpoints := db.checkpoints.upsert key ⟨state, row.ownerEpoch + 1, now⟩ }
    else none

/-- The guarded INSERT of `_save_checkpoint`: none is an `IntegrityError`. -/
def insertCheckpoint (db : Db F) (key : CheckpointKey) (state : Checkpoint F)
    (expected : Option Int) (now : Int) : Option (Db F) :=
  match db.checkpoints.get? key with
  | some _ => none
  | none =>
    some { db with checkpoints := db.checkpoints.upsert key ⟨state, expected.getD 0 + 1, now⟩ }

theorem saveCheckpoint_eq_statements (db : Db F) (subId instrumentKey epochId : String)
    (state : Checkpoint F) (expected now : Int) :
    (saveCheckpoint db subId instrumentKey epochId state expected now).map Prod.snd =
      ((casUpdate db (subId, instrumentKey, epochId) state (some expected) now).or
        ((insertCheckpoint db (subId, instrumentKey, epochId) state (some expected) now).or
          (casUpdate db (subId, instrumentKey, epochId) state (some expected) now))) := by
  cases hrow : db.checkpoints.get? (subId, instrumentKey, epochId) with
  | none => simp [saveCheckpoint, casUpdate, insertCheckpoint, hrow]
  | some row =>
    by_cases hepoch : row.ownerEpoch = expected <;>
      simp [saveCheckpoint, casUpdate, insertCheckpoint, hrow, hepoch]

/-! ## workers -/

abbrev Loaded (F : Type) := Option (Checkpoint F × Int)

/-- The owner epoch of a load, zero when it found nothing. -/
def Loaded.epoch (found : Loaded F) : Int := (found.map Prod.snd).getD 0

/-- Where a worker stands: what its last load returned, and which statement of a save
comes next. -/
inductive SaveWorker (F : Type) where
  | unloaded
  | loaded (found : Loaded F)
  | inserting (found : Loaded F) (state : Checkpoint F) (now : Int)
  | retrying (found : Loaded F) (state : Checkpoint F) (now : Int)

def SaveWorker.found? : SaveWorker F → Option (Loaded F)
  | .unloaded => none
  | .loaded found => some found
  | .inserting found _ _ => some found
  | .retrying found _ _ => some found

structure CasState (F : Type) where
  db : Db F
  worker : String → SaveWorker F

/-- The next thing a worker does: a load, the first statement of a save, or the next
statement of the save it is in. -/
inductive CasAction (F : Type) where
  | load
  | save (state : Checkpoint F) (now : Int)
  | next

inductive CasOutcome (F : Type) where
  | loaded (found : Loaded F)
  | saved (found : Loaded F) (state : Checkpoint F)
  | unfinished
  | leaseConflict
  | ignored

def CasOutcome.isSaved : CasOutcome F → Bool
  | .saved _ _ => true
  | _ => false

def CasOutcome.isLoaded : CasOutcome F → Bool
  | .loaded _ => true
  | _ => false

def storedCheckpoint (key : CheckpointKey) (db : Db F) : Loaded F :=
  loadCheckpoint db key.1 key.2.1 key.2.2

/-- One step of a worker.  A worker that has loaded nothing has nothing to save, and
one inside a save does not load. -/
def SaveWorker.act (key : CheckpointKey) (db : Db F) :
    SaveWorker F → CasAction F → CasOutcome F × SaveWorker F × Db F
  | .unloaded, .load => (.loaded (storedCheckpoint key db), .loaded (storedCheckpoint key db), db)
  | .loaded _, .load => (.loaded (storedCheckpoint key db), .loaded (storedCheckpoint key db), db)
  | .loaded found, .save state now =>
    match casUpdate db key state (some found.epoch) now with
    | some db' => (.saved found state, .loaded found, db')
    | none => (.unfinished, .inserting found state now, db)
  | .inserting found state now, .next =>
    match insertCheckpoint db key state (some found.epoch) now with
    | some db' => (.saved found state, .loaded found, db')
    | none => (.unfinished, .retrying found state now, db)
  | .retrying found state now, .next =>
    match casUpdate db key state (some found.epoch) now with
    | some db' => (.saved found state, .loaded found, db')
    | none => (.leaseConflict, .loaded found, db)
  | w, _ => (.ignored, w, db)

/-! ## what a step does -/

/-- Everything a step can do to the worker and the stored checkpoint. -/
inductive CasMove (w : SaveWorker F) (stored : Loaded F) :
    CasOutcome F → SaveWorker F → Loaded F → Prop
  | load : CasMove w stored (.loaded stored) (.loaded stored) stored
  | update {found : Loaded F} {before state : Checkpoint F} (hfound : w.found? = some found)
      (hstored : stored = some (before, found.epoch)) :
      CasMove w stored (.saved found state) (.loaded found) (some (state, found.epoch + 1))
  | insert {found : Loaded F} {state : Checkpoint F} (hfound : w.found? = some found)
      (hstored : stored = none) :
      CasMove w stored (.saved found state) (.loaded found) (some (state, found.epoch + 1))
  | missed {found : Loaded F} {state : Checkpoint F} {now : Int} (hw : w = .loaded found) :
      CasMove w stored .unfinished (.inserting found state now) stored
  | raced {found : Loaded F} {state : Checkpoint F} {now : Int}
      (hw : w = .inserting found state now) :
      CasMove w stored .unfinished (.retrying found state now) stored
  | conflict {found : Loaded F} {state : Checkpoint F} {now : Int}
      (hw : w = .retrying found state now) :
      CasMove w stored .leaseConflict (.loaded found) stored
  | ignored : CasMove w stored .ignored w stored

section Steps

variable {key : CheckpointKey} {db db' : Db F} {state : Checkpoint F} {expected now : Int}

theorem storedCheckpoint_eq (key : CheckpointKey) (db : Db F) :
    storedCheckpoint key db = (db.checkpoints.get? key).map fun row => (row.state, row.ownerEpoch) := rfl

theorem casUpdate_some (h : casUpdate db key state (some expected) now = some db') :
    ∃ before, storedCheckpoint key db = some (before, expected) ∧
      storedCheckpoint key db' = some (state, expected + 1) := by
  simp only [casUpdate] at h
  cases hrow : db.checkpoints.get? key with
  | none => simp [hrow] at h
  | some row =>
    by_cases hepoch : row.ownerEpoch = expected
    · simp only [hrow, Option.all_some, hepoch, decide_true, if_true] at h
      obtain rfl := Option.some.inj h
      exact ⟨row.state, by simp [storedCheckpoint_eq, hrow, hepoch], by simp [storedCheckpoint_eq]⟩
    · simp [hrow, hepoch] at h

theorem insertCheckpoint_some (h : insertCheckpoint db key state (some expected) now = some db') :
    storedCheckpoint key db = none ∧ storedCheckpoint key db' = some (state, expected + 1) := by
  simp only [insertCheckpoint] at h
  cases hrow : db.checkpoints.get? key with
  | some row => simp [hrow] at h
  | none =>
    simp only [hrow] at h
    obtain rfl := Option.some.inj h
    exact ⟨by simp [storedCheckpoint_eq, hrow], by simp [storedCheckpoint_eq]⟩

theorem SaveWorker.act_move (w : SaveWorker F) (action : CasAction F) :
    CasMove w (storedCheckpoint key db) (w.act key db action).1 (w.act key db action).2.1
      (storedCheckpoint key (w.act key db action).2.2) := by
  cases w with
  | unloaded =>
    cases action with
    | load => exact .load
    | save state now => exact .ignored
    | next => exact .ignored
  | loaded found =>
    cases action with
    | load => exact .load
    | save state now =>
      simp only [SaveWorker.act]
      cases hupdate : casUpdate db key state (some found.epoch) now with
      | none => exact .missed rfl
      | some db' =>
        obtain ⟨before, hstored, hafter⟩ := casUpdate_some hupdate
        rw [hafter]
        exact .update rfl hstored
    | next => exact .ignored
  | inserting found state now =>
    cases action with
    | load => exact .ignored
    | save state' now' => exact .ignored
    | next =>
      simp only [SaveWorker.act]
      cases hinsert : insertCheckpoint db key state (some found.epoch) now with
      | none => exact .raced rfl
      | some db' =>
        obtain ⟨hstored, hafter⟩ := insertCheckpoint_some hinsert
        rw [hafter]
        exact .insert rfl hstored
  | retrying found state now =>
    cases action with
    | load => exact .ignored
    | save state' now' => exact .ignored
    | next =>
      simp only [SaveWorker.act]
      cases hupdate : casUpdate db key state (some found.epoch) now with
      | none => exact .conflict rfl
      | some db' =>
        obtain ⟨before, hstored, hafter⟩ := casUpdate_some hupdate
        rw [hafter]
        exact .update rfl hstored

end Steps

/-! ## runs -/

/-- One step of a run: where its worker stood and stands, and the stored checkpoint
before and after it. -/
structure CasEvent (F : Type) where
  worker : String
  stood : SaveWorker F
  stands : SaveWorker F
  outcome : CasOutcome F
  before : Loaded F
  after : Loaded F

def casCall (key : CheckpointKey) (r : String × CasAction F) (s : CasState F) :
    CasEvent F × CasState F :=
  let result := (s.worker r.1).act key s.db r.2
  ({ worker := r.1
     stood := s.worker r.1
     stands := result.2.1
     outcome := result.1
     before := storedCheckpoint key s.db
     after := storedCheckpoint key result.2.2 },
   ⟨result.2.2, Function.update s.worker r.1 result.2.1⟩)

/-- The workers on one checkpoint as a machine. -/
def checkpointStore (key : CheckpointKey) : Machine (String × CasAction F) (CasState F) (CasEvent F) :=
  .ofCall (casCall key)

/-- What may be stored after a load: what was found, or a later epoch. -/
def Follows (found stored : Loaded F) : Prop :=
  stored = found ∨ ∃ state epoch, stored = some (state, epoch) ∧ found.epoch < epoch

variable {found stored : Loaded F}

theorem Follows.epoch_le (h : Follows found stored) : found.epoch ≤ stored.epoch := by
  cases h with
  | inl hsame => exact Int.le_of_eq (congrArg Loaded.epoch hsame.symm)
  | inr hlater =>
    obtain ⟨state, epoch, rfl, hlt⟩ := hlater
    show found.epoch ≤ epoch
    omega

variable {after : Loaded F} {w w' : SaveWorker F}

theorem CasMove.before_of_saved {state : Checkpoint F}
    (hmove : CasMove w stored (.saved found state) w' after)
    (hfollows : ∀ found, w.found? = some found → Follows found stored) :
    w.found? = some found ∧ stored = found ∧ after = some (state, stored.epoch + 1) := by
  cases hmove with
  | update hfound hstored =>
    subst hstored
    refine ⟨hfound, (hfollows found hfound).resolve_right fun hlater => ?_, rfl⟩
    obtain ⟨state', epoch, heq, hlt⟩ := hlater
    obtain ⟨-, rfl⟩ := Prod.mk.inj (Option.some.inj heq)
    omega
  | insert hfound hstored =>
    subst hstored
    have hnone : none = found := (hfollows found hfound).resolve_right (by simp)
    subst hnone
    exact ⟨hfound, rfl, rfl⟩

variable {outcome : CasOutcome F}

theorem CasMove.after_of_not_saved (hmove : CasMove w stored outcome w' after)
    (hnot : outcome.isSaved = false) : after = stored := by
  cases hmove with
  | load => rfl
  | update hfound hstored => simp [CasOutcome.isSaved] at hnot
  | insert hfound hstored => simp [CasOutcome.isSaved] at hnot
  | missed hw => rfl
  | raced hw => rfl
  | conflict hw => rfl
  | ignored => rfl

theorem CasMove.found_of_not_loads (hmove : CasMove w stored outcome w' after)
    (hnot : outcome.isLoaded = false) : w'.found? = w.found? := by
  cases hmove with
  | load => simp [CasOutcome.isLoaded] at hnot
  | update hfound hstored => exact hfound.symm
  | insert hfound hstored => exact hfound.symm
  | missed hw => rw [hw]; rfl
  | raced hw => rw [hw]; rfl
  | conflict hw => rw [hw]; rfl
  | ignored => rfl

theorem CasMove.of_unfinished (hmove : CasMove w stored .unfinished w' after) : ∃ found state now,
    (w = .loaded found ∧ w' = .inserting found state now) ∨
      (w = .inserting found state now ∧ w' = .retrying found state now) := by
  cases hmove with
  | missed hw => exact ⟨_, _, _, .inl ⟨hw, rfl⟩⟩
  | raced hw => exact ⟨_, _, _, .inr ⟨hw, rfl⟩⟩

theorem CasMove.of_loads (hmove : CasMove w stored outcome w' after)
    (hloads : outcome.isLoaded) :
    outcome = .loaded stored ∧ w'.found? = some stored ∧ after = stored := by
  cases hmove with
  | load => exact ⟨rfl, rfl, rfl⟩
  | update hfound hstored => simp [CasOutcome.isLoaded] at hloads
  | insert hfound hstored => simp [CasOutcome.isLoaded] at hloads
  | missed hw => simp [CasOutcome.isLoaded] at hloads
  | raced hw => simp [CasOutcome.isLoaded] at hloads
  | conflict hw => simp [CasOutcome.isLoaded] at hloads
  | ignored => simp [CasOutcome.isLoaded] at hloads

theorem CasOutcome.eq_saved (h : outcome.isSaved) :
    ∃ found state, outcome = .saved found state := by
  cases outcome with
  | saved found state => exact ⟨found, state, rfl⟩
  | loaded found => simp [CasOutcome.isSaved] at h
  | unfinished => simp [CasOutcome.isSaved] at h
  | leaseConflict => simp [CasOutcome.isSaved] at h
  | ignored => simp [CasOutcome.isSaved] at h

/-- What is stored follows what every worker loaded. -/
def Current (key : CheckpointKey) (s : CasState F) : Prop :=
  ∀ w found, (s.worker w).found? = some found → Follows found (storedCheckpoint key s.db)

section Runs

variable {key : CheckpointKey} {s : CasState F}

theorem casCall_move (key : CheckpointKey) (r : String × CasAction F) (s : CasState F) :
    CasMove (casCall key r s).1.stood (casCall key r s).1.before (casCall key r s).1.outcome
      (casCall key r s).1.stands (casCall key r s).1.after :=
  (s.worker r.1).act_move r.2

theorem casCall_worker (r : String × CasAction F) (w : String) :
    (casCall key r s).2.worker w = if w = r.1 then (casCall key r s).1.stands else s.worker w := by
  simp [casCall, Function.update_apply]

theorem casCall_epoch (hcurrent : Current key s) (r : String × CasAction F) :
    (casCall key r s).1.after.epoch =
      (casCall key r s).1.before.epoch + if (casCall key r s).1.outcome.isSaved then 1 else 0 := by
  cases hsaved : (casCall key r s).1.outcome.isSaved with
  | false => simp [(casCall_move key r s).after_of_not_saved hsaved]
  | true =>
    obtain ⟨found, state, houtcome⟩ := CasOutcome.eq_saved hsaved
    have hmove := casCall_move key r s
    rw [houtcome] at hmove
    rw [(hmove.before_of_saved (hcurrent r.1)).2.2]
    rfl

theorem Follows.step (hcurrent : Current key s) (r : String × CasAction F) {found : Loaded F}
    (h : Follows found (storedCheckpoint key s.db)) : Follows found (casCall key r s).1.after := by
  cases hsaved : (casCall key r s).1.outcome.isSaved with
  | false =>
    rw [(casCall_move key r s).after_of_not_saved hsaved]
    exact h
  | true =>
    obtain ⟨found', state, houtcome⟩ := CasOutcome.eq_saved hsaved
    have hmove := casCall_move key r s
    rw [houtcome] at hmove
    refine .inr ⟨state, _, (hmove.before_of_saved (hcurrent r.1)).2.2, ?_⟩
    have hle : found.epoch ≤ (casCall key r s).1.before.epoch := h.epoch_le
    omega

theorem casCall_current (hcurrent : Current key s) (r : String × CasAction F) :
    Current key (casCall key r s).2 := by
  intro w found hfound
  show Follows found (casCall key r s).1.after
  rw [casCall_worker] at hfound
  by_cases hw : w = r.1
  · rw [if_pos hw] at hfound
    cases hloads : (casCall key r s).1.outcome.isLoaded with
    | false =>
      rw [(casCall_move key r s).found_of_not_loads hloads] at hfound
      exact (hcurrent r.1 found hfound).step hcurrent r
    | true =>
      obtain ⟨-, hstands, hafter⟩ := (casCall_move key r s).of_loads hloads
      obtain rfl := Option.some.inj (hstands.symm.trans hfound)
      exact .inl hafter
  · rw [if_neg hw] at hfound
    exact (hcurrent w found hfound).step hcurrent r

theorem run_current (reqs : List (String × CasAction F)) (hcurrent : Current key s) :
    Current key ((checkpointStore key).run reqs s) :=
  run_ofCall_invariant (I := Current key) (fun r _ h => casCall_current h r) reqs hcurrent

theorem run_epoch (reqs : List (String × CasAction F)) (hcurrent : Current key s) :
    (storedCheckpoint key ((checkpointStore key).run reqs s).db).epoch = (storedCheckpoint key s.db).epoch +
        (((checkpointStore key).trace reqs s).countP fun e => e.outcome.isSaved : Nat) := by
  induction reqs generalizing s with
  | nil => simp [run, trace]
  | cons r rest ih =>
    have hstep := casCall_epoch hcurrent r
    have hrest := ih (casCall_current hcurrent r)
    have hcount : ((checkpointStore key).trace (r :: rest) s).countP (fun e => e.outcome.isSaved) =
        (if (casCall key r s).1.outcome.isSaved then 1 else 0) +
          ((checkpointStore key).trace rest (casCall key r s).2).countP
            (fun e => e.outcome.isSaved) := by
      show countP _ ([(casCall key r s).1] ++ _) = _
      rw [countP_append]
      simp [countP_cons]
      rfl
    show (storedCheckpoint key ((checkpointStore key).run rest (casCall key r s).2).db).epoch = _
    rw [hrest, hcount]
    have hafter : (storedCheckpoint key (casCall key r s).2.db).epoch =
      (casCall key r s).1.after.epoch := rfl
    have hbefore : (casCall key r s).1.before.epoch = (storedCheckpoint key s.db).epoch := rfl
    rw [hafter, hstep, hbefore]
    split <;> push_cast <;> omega

theorem run_found {w : String} (reqs : List (String × CasAction F))
    (hnone : ∀ e ∈ (checkpointStore key).trace reqs s, e.worker = w → e.outcome.isLoaded = false) :
    (((checkpointStore key).run reqs s).worker w).found? = (s.worker w).found? := by
  induction reqs generalizing s with
  | nil => rfl
  | cons r rest ih =>
    have hrest := ih (s := (casCall key r s).2) fun e he => hnone e (.tail _ he)
    have hfirst := hnone (casCall key r s).1 (.head _)
    show (((checkpointStore key).run rest (casCall key r s).2).worker w).found? = _
    rw [hrest, casCall_worker]
    split
    · next hw =>
        rw [(casCall_move key r s).found_of_not_loads (hfirst hw.symm), hw]
        rfl
    · rfl

end Runs

/-- No update is lost over the steps of a run that starts and ends with these stored
checkpoints. -/
structure LosesNoUpdate (first : Loaded F) (events : List (CasEvent F)) (last : Loaded F) : Prop where
  /-- A save that succeeds was computed from what is stored when it succeeds. -/
  saved : ∀ e ∈ events, ∀ found state, e.outcome = .saved found state →
    e.before = found ∧ e.after = some (state, e.before.epoch + 1)
  /-- Between the last load of its worker and the save, no save succeeds. -/
  latest : ∀ past load between save rest, events = past ++ load :: (between ++ save :: rest) →
    ∀ found found' state, load.outcome = .loaded found → save.outcome = .saved found' state →
    save.worker = load.worker → (∀ e ∈ between, e.worker = load.worker → e.outcome.isLoaded = false) →
    found' = found ∧ ∀ e ∈ between, e.outcome.isSaved = false
  /-- A save that is not over is about to INSERT, or lost the INSERT and is about to retry;
  one that is over has saved or raises `LeaseConflict`. -/
  unfinished : ∀ e ∈ events, e.outcome = .unfinished → ∃ found state now,
    (e.stood = .loaded found ∧ e.stands = .inserting found state now) ∨
      (e.stood = .inserting found state now ∧ e.stands = .retrying found state now)
  /-- Every other step leaves the stored state and epoch. -/
  unsaved : ∀ e ∈ events, e.outcome.isSaved = false → e.after = e.before
  /-- The stored epoch counts the saves that succeed. -/
  count : last.epoch = first.epoch + (events.countP fun e => e.outcome.isSaved : Nat)

/-- The workers before any of them has loaded. -/
def CasState.initial (db : Db F) : CasState F := ⟨db, fun _ => .unloaded⟩

theorem current_initial (key : CheckpointKey) (db : Db F) : Current key (.initial db) := by
  intro w found hfound
  simp [CasState.initial, SaveWorker.found?] at hfound

theorem save_rests_on_load {key : CheckpointKey} {s : CasState F} (hcurrent : Current key s)
    {load save : String × CasAction F} {between : List (String × CasAction F)}
    {found found' : Loaded F} {state : Checkpoint F}
    (hload : (casCall key load s).1.outcome = .loaded found)
    (hsave : (casCall key save ((checkpointStore key).run between (casCall key load s).2)).1.outcome =
      .saved found' state)
    (hworker : save.1 = load.1)
    (hnone : ∀ e ∈ (checkpointStore key).trace between (casCall key load s).2,
      e.worker = load.1 → e.outcome.isLoaded = false) :
    found' = found ∧ ∀ e ∈ (checkpointStore key).trace between (casCall key load s).2,
      e.outcome.isSaved = false := by
  have hloads : (casCall key load s).1.outcome.isLoaded := by rw [hload]; rfl
  obtain ⟨houtcome, hstands, hafter⟩ := (casCall_move key load s).of_loads hloads
  have hstart : Current key (casCall key load s).2 := casCall_current hcurrent load
  have hend := run_current between hstart
  -- the worker still has what it loaded, so that is what the save finds
  have hkept := run_found between hnone
  rw [casCall_worker, if_pos rfl, hstands] at hkept
  have hmove := casCall_move key save ((checkpointStore key).run between (casCall key load s).2)
  rw [hsave] at hmove
  obtain ⟨hfound, hbefore, -⟩ := hmove.before_of_saved (hend save.1)
  have hsame : found' = (casCall key load s).1.before := by
    have hfound : (((checkpointStore key).run between (casCall key load s).2).worker save.1).found? =
      some found' := hfound
    rw [hworker, hkept] at hfound
    exact (Option.some.inj hfound).symm
  refine ⟨?_, ?_⟩
  · rw [hsame]
    exact CasOutcome.loaded.inj (houtcome.symm.trans hload)
  · -- equal epochs at both ends leave no save in between
    have hcount := run_epoch between hstart
    have hepochs : (storedCheckpoint key
        ((checkpointStore key).run between (casCall key load s).2).db).epoch =
        (storedCheckpoint key (casCall key load s).2.db).epoch := by
      show (casCall key save ((checkpointStore key).run between (casCall key load s).2)).1.before.epoch =
        (casCall key load s).1.after.epoch
      rw [hbefore, hsame, hafter]
    have hzero : ((checkpointStore key).trace between (casCall key load s).2).countP
        (fun e => e.outcome.isSaved) = 0 := by omega
    intro e he
    simpa using countP_eq_zero.mp hzero e he

/-- The checkpoint compare-and-swap loses no update in any interleaving of loads and of
the statements of saves. -/
theorem checkpoint_cas_loses_no_update (key : CheckpointKey) (db : Db F)
    (reqs : List (String × CasAction F)) :
    LosesNoUpdate (storedCheckpoint key db) ((checkpointStore key).trace reqs (.initial db))
      (storedCheckpoint key ((checkpointStore key).run reqs (.initial db)).db) where
  saved := by
    refine Machine.forall_trace_ofCall (I := Current key) (fun r s hcurrent => ?_) reqs
      (current_initial key db)
    refine ⟨fun found state houtcome => ?_, casCall_current hcurrent r⟩
    have hmove := casCall_move key r s
    rw [houtcome] at hmove
    exact (hmove.before_of_saved (hcurrent r.1)).2
  latest := by
    intro past load between save rest htrace found found' state hload hsave hworker hnone
    obtain ⟨first, r, later, rfl, -, rfl, hlater⟩ := Machine.exists_of_trace_ofCall htrace
    obtain ⟨mid, r', later', rfl, rfl, rfl, -⟩ := Machine.exists_of_trace_ofCall hlater
    exact save_rests_on_load (run_current first (current_initial key db)) hload hsave hworker hnone
  unfinished := by
    refine Machine.forall_trace_ofCall (I := fun _ => True) (fun r s _ => ⟨fun houtcome => ?_, trivial⟩)
      reqs trivial
    have hmove := casCall_move key r s
    rw [houtcome] at hmove
    exact hmove.of_unfinished
  unsaved := by
    refine Machine.forall_trace_ofCall (I := fun _ => True) (fun r s _ => ⟨fun hnot => ?_, trivial⟩)
      reqs trivial
    exact (casCall_move key r s).after_of_not_saved hnot
  count := run_epoch reqs (current_initial key db)

end KiteAlgo
