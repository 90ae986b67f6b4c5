import KiteAlgo.Workers.Sessions
import KiteAlgo.Lib.Growth

/-!
# KiteAlgo.Workers.RuntimeState

The writers of `runtime_state_json`, one JSON object with a key for each of them
(`algo_worker_repo.py`, `runtime_recovery.py`).  Backend protection locks the row; the others
read the object, in recovery at the start of a pass, and later write all of it back.

`RunStore` keeps beside the row what each `UPDATE` was asked to write.  As long as no key
changed since it was read, unless it is written anew (`Finds`), every key holds the value last
meant for it and an exit that was recorded stays recorded (`runtime_state_kept`).
-/

namespace KiteAlgo

open List Option
/-! ## reading the object -/

/-- `_to_int(value, default=0)`. -/
def Json.toInt (value : Option Json) : Int :=
  match value with
  | some (.int n) => n
  | some (.bool b) => if b then 1 else 0
  | some (.float x) => x.num.tdiv x.den
  | some (.str s) => (Text.intOf? s).getD 0
  | some .none | some (.list _) | some (.dict _) | some (.atom _ _) | none => 0

/-- `str(value or "")`, of a text or null. -/
def Json.text (value : Option Json) : String :=
  match value with
  | some (.str s) => s
  | _ => ""

namespace WorkerRun

/-- `runtime_state.get("backend_protection_state") or {}`. -/
def protectionState (run : WorkerRun) : Dict Key Json :=
  Json.object (run.runtimeState.get? "backend_protection_state")

def exitSubmitted (run : WorkerRun) : Bool := Json.flag run.protectionState "exit_submitted"

def liveExit (run : WorkerRun) : Bool := run.runtimeState.contains "live_exit"

/-- `str(run.get("execution_mode") or "paper").lower()`. -/
def mode (run : WorkerRun) : String :=
  if run.executionMode = "" then "paper" else Text.lower run.executionMode

end WorkerRun

/-! ## what is asked and what is written -/

structure StatePatch where
  entries : RuntimeState
  unique : entries.keys.Nodup

namespace StatePatch

def single (key : String) (value : Json) : StatePatch := ⟨[(key, value)], by simp [Dict.keys]⟩

def Has (patch : StatePatch) (key : String) : Prop := key ∈ patch.entries.keys

instance (patch : StatePatch) (key : String) : Decidable (patch.Has key) :=
  inferInstanceAs (Decidable (_ ∈ _))

end StatePatch

/-- An `UPDATE`, with the row before and after it. -/
structure StateWrite where
  asked : StatePatch
  before : WorkerRun
  after : WorkerRun

/-- The row of one run, and the updates it went through. -/
structure RunStore where
  run : WorkerRun
  writes : List StateWrite := []

/-- The arguments of `_persist_backend_protection_change_sync`. -/
structure ProtectionChange where
  protection : Option (Dict Key Json) := none
  protectionState : Dict Key Json
  expectedGeneration : Option Int := none
  expectedTriggeredRule : Option String := none
  expectedExitClaimId : Option String := none

namespace ProtectionChange

def asked (change : ProtectionChange) : StatePatch :=
  match change.protection with
  | none => .single "backend_protection_state" (.dict change.protectionState)
  | some protection =>
    ⟨[("backend_protection", .dict protection),
      ("backend_protection_state", .dict change.protectionState)], by simp [Dict.keys]⟩

def Expected (change : ProtectionChange) (run : WorkerRun) : Prop :=
  (∀ generation ∈ change.expectedGeneration,
      Json.toInt (run.protectionState.get? (.str "generation")) = generation) ∧
    (∀ rule ∈ change.expectedTriggeredRule,
      Json.text (run.protectionState.get? (.str "triggered_rule")) = rule) ∧
    ∀ claim ∈ change.expectedExitClaimId,
      Json.text (run.protectionState.get? (.str "exit_claim_id")) = claim

instance (change : ProtectionChange) (run : WorkerRun) : Decidable (change.Expected run) :=
  inferInstanceAs (Decidable (_ ∧ _ ∧ _))

end ProtectionChange

/-- What an operation does: it reads, it writes back an object that it read before, with what
it was asked and a new status, or it writes the row that it has locked. -/
inductive StateLabel where
  | select
  | update (base : RuntimeState) (asked : StatePatch) (status : Option String)
  | persist (change : ProtectionChange)

/-- Statements and transactions on the row; no other locks are taken. -/
abbrev StateProg := Prog Empty StateLabel RunStore

/-- An `UPDATE` of the row. -/
def RunStore.commit (asked : StatePatch) (f : WorkerRun → WorkerRun) (s : RunStore) : RunStore where
  run := f s.run
  writes := s.writes ++ [⟨asked, s.run, f s.run⟩]

namespace StateProg

/-- `_get_run_sync`. -/
def getRun : StateProg WorkerRun := .read .select RunStore.run

/-- A field of the risk schema takes the value of its key in the patch. -/
def patchRiskField (patch : Dict Key Json) (item : Dict Key Json) : Dict Key Json :=
  match item.get? (.str "key") with
  | some (.str key) =>
    match patch.get? (.str key) with
    | some value => item.set (.str "value") value
    | none => item
  | _ => item

/-- `_update_run_risk_sync`. -/
def updateRunRisk (patch : Dict Key Json) : StateProg Unit := do
  let run ← getRun
  let risk : Json := .dict ((Json.object (run.runtimeState.get? "risk")).update patch)
  let asked := StatePatch.single "risk" risk
  .call (.update run.runtimeState asked none) fun s => ((), s.commit asked fun row =>
    { row with
      runtimeState := run.runtimeState.set "risk" risk
      riskSchema := run.riskSchema.map (patchRiskField patch) })

/-- `_update_run_status_sync`, called with a patch that holds `base` besides what is asked. -/
def updateRunStatus (now : Int) (status : String) (statePatch base : RuntimeState)
    (asked : StatePatch) : StateProg Unit := do
  let run ← getRun
  .call (.update (run.runtimeState.update base) asked (some status)) fun s =>
    ((), s.commit asked fun row =>
      { row with
        status := status
        runtimeState := run.runtimeState.update statePatch
        closedAt := if status = "closed" then some now else row.closedAt })

/-- `_update_run_runtime_state_sync`, called with an object that is `base` with what is
asked. -/
def updateRunRuntimeState (runtimeState base : RuntimeState) (asked : StatePatch) :
    StateProg Unit :=
  .call (.update base asked none) fun s =>
    ((), s.commit asked fun row => { row with runtimeState := runtimeState })

end StateProg

def StatePatch.apply (asked : StatePatch) (row : WorkerRun) : WorkerRun :=
  { row with runtimeState := row.runtimeState.update asked.entries }

/-- `_persist_backend_protection_change_sync`: all of it under `FOR UPDATE`. -/
def StateProg.persistBackendProtectionChange (change : ProtectionChange) : StateProg Unit :=
  .call (.persist change) fun s =>
    if change.Expected s.run then ((), s.commit change.asked change.asked.apply) else ((), s)

/-! ## recovery -/

/-- The payload of `_runtime_recovery_patch`. -/
def runtimeRecovery (recoveryStatus : String) (actionRequired : Bool) (checkedAt reason : String)
    (details : Dict Key Json) : Json :=
  .dict <| [(.str "recovery_status", .str recoveryStatus),
      (.str "action_required", .bool actionRequired), (.str "checked_at", .str checkedAt)] ++
    (if reason = "" then [] else [(.str "reason", .str reason)]) ++
    if details = [] then [] else [(.str "details", .dict details)]

/-- `_runtime_recovery_patch`: the object of the row as the pass read it, with the payload. -/
def runtimeRecoveryPatch (run : WorkerRun) (payload : Json) : RuntimeState :=
  run.runtimeState.set "runtime_recovery" payload

/-- How a stale paper run ended: `exit_result` with its status, or an exception. -/
structure StalePass where
  limits : SessionLimits
  listedAt : Int
  now : Int
  checkedAt : String
  exitResult : Dict Key Json := []
  raises : Option String := none

/-- What a pass over exiting runs found out about a live one, or the exception it met. -/
structure ExitingPass where
  now : Int
  checkedAt : String
  closable : Bool := false
  reason : String := ""
  details : Dict Key Json := []
  raises : Option String := none

namespace StateProg

/-- `update_run_status(…, state_patch=_runtime_recovery_patch(run, …))`. -/
def recoverStatus (run : WorkerRun) (now : Int) (status : String) (payload : Json) :
    StateProg Unit :=
  updateRunStatus now status (runtimeRecoveryPatch run payload) run.runtimeState
    (.single "runtime_recovery" payload)

/-- `update_run_runtime_state(…, _runtime_recovery_patch(run, …))`. -/
def recoverState (run : WorkerRun) (payload : Json) : StateProg Unit :=
  updateRunRuntimeState (runtimeRecoveryPatch run payload) run.runtimeState
    (.single "runtime_recovery" payload)

/-- The body of the loop of `recover_stale_runs_once`, for a stale run. -/
def recoverStaleRun (pass : StalePass) (run : WorkerRun) : StateProg Unit :=
  let recovery := fun status action reason details =>
    runtimeRecovery status action pass.checkedAt reason details
  if run.mode ∉ ["dry_run", "paper", "live"] then .ret ()
  else
    match pass.raises with
    | some error =>
      recoverState run (recovery "error" true "recovery_exception" [(.str "error", .str error)])
    | none =>
      if run.mode = "dry_run" then
        recoverStatus run pass.now "closed" (recovery "closed" false "dry_run_stale_auto_closed" [])
      else if run.mode = "paper" then
        let paperExit : Dict Key Json := [(.str "paper_exit", .dict pass.exitResult)]
        let status := Text.lower (Json.text (pass.exitResult.get? (.str "status")))
        if status ∈ ["success", "closed", "noop"] then
          recoverStatus run pass.now "closed" (recovery "closed" false "paper_stale_exit_closed" paperExit)
        else recoverState run (recovery "stalled" true "paper_stale_exit_blocked" paperExit)
      else if run.staleOwned then
        recoverState run (recovery "classified" false "live_stale_owned_by_protection_runtime" [])
      else recoverState run (recovery "action_required" true "live_stale_unprotected" [])

/-- `recover_stale_runs_once`, as far as it concerns the run. -/
def recoverStaleRuns (pass : StalePass) : StateProg Unit := do
  let listed ← .read .select fun s =>
    if s.run.listedStale pass.limits pass.listedAt then some s.run else none
  match listed with
  | some run => if run.staleTest pass.limits pass.now then recoverStaleRun pass run else .ret ()
  | none => .ret ()

/-- The body of the loop of `recover_exiting_runs_once`. -/
def recoverExitingRun (pass : ExitingPass) (run : WorkerRun) : StateProg Unit :=
  let recovery := fun status action reason details =>
    runtimeRecovery status action pass.checkedAt reason details
  match pass.raises with
  | some error =>
    recoverState run
      (recovery "error" true "exiting_recovery_exception" [(.str "error", .str error)])
  | none =>
    if run.mode ∈ ["dry_run", "paper"] then
      recoverStatus run pass.now "closed" (recovery "closed" false "exiting_non_live_auto_closed" [])
    else if pass.closable then
      recoverStatus run pass.now "closed"
        (recovery "closed" false "exiting_live_flat_confirmed" pass.details)
    else
      recoverStatus run pass.now "exiting"
        (recovery "stalled" true
          (if pass.reason = "" then "live_exposure_not_flat" else pass.reason) pass.details)

/-- `recover_exiting_runs_once`, as far as it concerns the run. -/
def recoverExitingRuns (pass : ExitingPass) : StateProg Unit := do
  let listed ← .read .select fun s => if s.run.status = "exiting" then some s.run else none
  match listed with
  | some run => recoverExitingRun pass run
  | none => .ret ()

end StateProg

inductive StateRequest where
  | updateRunRisk (patch : Dict Key Json)
  | updateRunStatus (now : Int) (status : String) (statePatch : StatePatch)
  | recoverStaleRuns (pass : StalePass)
  | recoverExitingRuns (pass : ExitingPass)
  | persistBackendProtectionChange (change : ProtectionChange)

def StateRequest.program : StateRequest → StateProg Unit
  | updateRunRisk patch => .updateRunRisk patch
  | updateRunStatus now status statePatch => .updateRunStatus now status statePatch.entries [] statePatch
  | recoverStaleRuns pass => .recoverStaleRuns pass
  | recoverExitingRuns pass => .recoverExitingRuns pass
  | persistBackendProtectionChange change => .persistBackendProtectionChange change

/-! ## nothing is lost -/

def meant (initial : RuntimeState) (writes : List StateWrite) (key : String) : Option Json :=
  writes.foldl (fun value w => (w.asked.entries.get? key).or value) (initial.get? key)

theorem meant_concat (initial : RuntimeState) (writes : List StateWrite) (w : StateWrite)
    (key : String) : meant initial (writes ++ [w]) key =
      (w.asked.entries.get? key).or (meant initial writes key) := by
  rw [meant, foldl_append]
  rfl

/-- An update that changes no key outside those it was asked to write, takes no recorded exit
back, and does not set a closed run back to exiting. -/
structure StateWrite.Sound (w : StateWrite) : Prop where
  frame : ∀ key, ¬ w.asked.Has key → w.after.runtimeState.get? key = w.before.runtimeState.get? key
  exitSubmitted : w.before.exitSubmitted = true → w.after.exitSubmitted = true
  liveExit : w.before.liveExit = true → w.after.liveExit = true
  closed : w.before.status = "closed" → w.after.status ≠ "exiting"

/-- Every key holds the value last meant for it, and every update was sound. -/
structure RunStore.Kept (initial : RuntimeState) (s : RunStore) : Prop where
  holds : ∀ key, s.run.runtimeState.get? key = meant initial s.writes key
  sound : ∀ w ∈ s.writes, w.Sound

namespace StatePatch

variable {asked : StatePatch} {key : String}

theorem get?_eq_none (h : ¬ asked.Has key) : asked.entries.get? key = none :=
  Dict.get?_eq_none_iff.mpr h

theorem get?_isSome (h : asked.Has key) : (asked.entries.get? key).isSome :=
  Dict.contains_iff_mem_keys.mpr h

@[simp] theorem get?_single (value : Json) (key' : String) :
    (single key value).entries.get? key' = if key = key' then some value else none := rfl

end StatePatch

/-- The protection state that is asked for, if one is, keeps a recorded exit. -/
def StatePatch.KeepsExit (asked : StatePatch) (run : WorkerRun) : Prop :=
  run.exitSubmitted = true → asked.Has "backend_protection_state" →
    Json.flag (Json.object (asked.entries.get? "backend_protection_state")) "exit_submitted" = true

/-- What a write has to find: the keys that it writes back and was not asked to write are
stored as they were read, the run was not closed if it should be exiting now, and no protection
state without the recorded exit is asked for. -/
def Finds : StateLabel → RunStore → Prop
  | .select, _ => True
  | .update base asked status, s =>
    (∀ key, ¬ asked.Has key → base.get? key = s.run.runtimeState.get? key) ∧
      (status = some "exiting" → s.run.status ≠ "closed") ∧ asked.KeepsExit s.run
  | .persist change, s => change.Expected s.run → change.asked.KeepsExit s.run

theorem StateWrite.Sound.of_written {asked : StatePatch} {before after : WorkerRun}
    (hwritten : ∀ key, after.runtimeState.get? key =
      (asked.entries.get? key).or (before.runtimeState.get? key))
    (hstatus : before.status = "closed" → after.status ≠ "exiting")
    (hexit : asked.KeepsExit before) : StateWrite.Sound ⟨asked, before, after⟩ where
  frame key hkey := by rw [hwritten, asked.get?_eq_none hkey, none_or]
  exitSubmitted h := by
    rw [WorkerRun.exitSubmitted, WorkerRun.protectionState, hwritten]
    by_cases hkey : asked.Has "backend_protection_state"
    · have hasked := hexit h hkey
      cases hget : asked.entries.get? "backend_protection_state" with
      | none => simp [hget] at hasked; cases hasked
      | some value => rwa [hget] at hasked
    · rw [asked.get?_eq_none hkey, none_or]
      exact h
  liveExit h := by
    have hsome : (before.runtimeState.get? "live_exit").isSome := h
    show (after.runtimeState.get? "live_exit").isSome
    rw [hwritten, isSome_or, hsome, Bool.or_true]
  closed := hstatus

namespace RunStore

variable {initial : RuntimeState} {s : RunStore}

/-- The object of the row has each key once, and nothing was lost. -/
structure Valid (initial : RuntimeState) (s : RunStore) : Prop extends s.Kept initial where
  unique : s.run.runtimeState.keys.Nodup

theorem Valid.commit (hs : s.Valid initial) {asked : StatePatch} {f : WorkerRun → WorkerRun}
    (hunique : (f s.run).runtimeState.keys.Nodup)
    (hwritten : ∀ key, (f s.run).runtimeState.get? key =
      (asked.entries.get? key).or (s.run.runtimeState.get? key))
    (hstatus : s.run.status = "closed" → (f s.run).status ≠ "exiting")
    (hexit : asked.KeepsExit s.run) : (s.commit asked f).Valid initial where
  unique := hunique
  holds key := by
    show (f s.run).runtimeState.get? key = meant initial (s.writes ++ [_]) key
    rw [meant_concat, hwritten, hs.holds]
  sound w hw := by
    cases mem_append.mp hw with
    | inl hold => exact hs.sound w hold
    | inr hnew =>
      rw [mem_singleton.mp hnew]
      exact .of_written hwritten hstatus hexit

end RunStore

/-- Every write that finds what it has to keeps everything. -/
def keeping (initial : RuntimeState) : Growth RunStore where
  inv := RunStore.Valid initial
  grows _ _ := True
  refl _ := trivial

namespace StateProg

variable {initial : RuntimeState}

/-- The object to be written has each key once, and is what was read with what is asked. -/
def Writes (state base : RuntimeState) (asked : StatePatch) : Prop :=
  state.keys.Nodup ∧ ∀ key, state.get? key = (asked.entries.get? key).or (base.get? key)

variable {base : RuntimeState}

theorem Writes.single (h : base.keys.Nodup) (key : String) (value : Json) :
    Writes (base.set key value) base (.single key value) := by
  refine ⟨Dict.nodup_keys_set h key value, fun key' => ?_⟩
  rw [Dict.get?_set, StatePatch.get?_single]
  split <;> rfl

theorem Writes.update (h : base.keys.Nodup) (asked : StatePatch) :
    Writes (base.update asked.entries) base asked :=
  ⟨Dict.nodup_keys_update h _, Dict.get?_update asked.unique⟩

theorem Writes.overlay {read state : RuntimeState} {asked : StatePatch}
    (h : Writes state base asked) (hbase : base.keys.Nodup) (hread : read.keys.Nodup) :
    Writes (read.update state) (read.update base) asked := by
  refine ⟨Dict.nodup_keys_update hread _, fun key => ?_⟩
  rw [Dict.get?_update h.1, Dict.get?_update hbase, h.2, Option.or_assoc]

theorem spec_update {state : RuntimeState} {asked : StatePatch} {status : Option String}
    {f : WorkerRun → WorkerRun} (hstate : ∀ run, (f run).runtimeState = state)
    (hstatus : ∀ run, (f run).status = status.getD run.status) :
    Growth.Spec (keeping initial) Finds (fun _ => Writes state base asked)
      (.call (.update base asked status) fun s => ((), s.commit asked f) : StateProg Unit)
      fun _ _ => True := by
  refine .call (Growth.kept_const _) (fun _ => Growth.kept_const True) fun s hs hwrites hfinds => ?_
  obtain ⟨hread, hclosed, hexit⟩ := hfinds
  refine ⟨hs.commit ?_ (fun key => ?_) (fun hbefore => ?_) hexit, trivial, trivial⟩
  · rw [hstate]
    exact hwrites.1
  · rw [hstate, hwrites.2]
    by_cases hkey : asked.Has key
    · obtain ⟨value, hvalue⟩ := isSome_iff_exists.mp (StatePatch.get?_isSome hkey)
      rw [hvalue, some_or, some_or]
    · rw [hread key hkey]
  · rw [hstatus]
    cases status with
    | none => rw [getD_none, hbefore]; decide
    | some status =>
      rintro rfl
      exact hclosed rfl hbefore

theorem spec_getRun {P : Prop} : Growth.Spec (keeping initial) Finds (fun _ => P) getRun
    fun run _ => P ∧ run.runtimeState.keys.Nodup :=
  .read (Growth.kept_const P) (fun _ => Growth.kept_const _) fun _ hs hP => ⟨hP, hs.unique⟩

theorem spec_updateRunRisk (patch : Dict Key Json) :
    Growth.Spec (keeping initial) Finds (fun _ => True) (updateRunRisk patch) fun _ _ => True :=
  .bind spec_getRun fun _ => .pre (fun _ h => .single h.2 _ _)
    (spec_update (fun _ => rfl) fun _ => rfl)

theorem spec_updateRunStatus {statePatch : RuntimeState} {asked : StatePatch}
    (hasked : Writes statePatch base asked) (hbase : base.keys.Nodup) (now : Int)
    (status : String) :
    Growth.Spec (keeping initial) Finds (fun _ => True)
      (updateRunStatus now status statePatch base asked) fun _ _ => True :=
  .bind spec_getRun fun _ => .pre (fun _ h => hasked.overlay hbase h.2)
    (spec_update (fun _ => rfl) fun _ => rfl)

variable {run : WorkerRun}

theorem spec_recoverStatus (hrun : run.runtimeState.keys.Nodup) (now : Int) (status : String)
    (payload : Json) :
    Growth.Spec (keeping initial) Finds (fun _ => True) (recoverStatus run now status payload)
      fun _ _ => True :=
  spec_updateRunStatus (.single hrun _ _) hrun now status

theorem spec_recoverState (hrun : run.runtimeState.keys.Nodup) (payload : Json) :
    Growth.Spec (keeping initial) Finds (fun _ => True) (recoverState run payload)
      fun _ _ => True :=
  .pre (fun _ _ => .single hrun _ _) (spec_update (fun _ => rfl) fun _ => rfl)

theorem spec_persist (change : ProtectionChange) :
    Growth.Spec (keeping initial) Finds (fun _ => True) (persistBackendProtectionChange change)
      fun _ _ => True := by
  refine .call (Growth.kept_const True) (fun _ => Growth.kept_const True) fun s hs _ hexit => ?_
  split
  · next hexpected =>
    obtain ⟨hunique, hwritten⟩ := Writes.update hs.unique change.asked
    refine ⟨RunStore.Valid.commit (f := change.asked.apply) hs hunique hwritten
      (fun hbefore => ?_) (hexit hexpected), trivial, trivial⟩
    show s.run.status ≠ "exiting"
    rw [hbefore]
    decide
  · exact ⟨hs, trivial, trivial⟩

theorem spec_done : Growth.Spec (κ := Empty) (keeping initial) Finds (fun _ => True) (.ret ())
    fun _ _ => True := .ret (Q := fun _ _ => True) (Growth.kept_const True)

theorem spec_recoverStaleRun (hrun : run.runtimeState.keys.Nodup)
    (pass : StalePass) : Growth.Spec (keeping initial) Finds (fun _ => True)
      (recoverStaleRun pass run) fun _ _ => True := by
  have hstatus : ∀ status payload, Growth.Spec (keeping initial) Finds (fun _ => True)
      (recoverStatus run pass.now status payload) fun _ _ => True :=
    fun status payload => spec_recoverStatus hrun pass.now status payload
  have hstate : ∀ payload, Growth.Spec (keeping initial) Finds (fun _ => True)
      (recoverState run payload) fun _ _ => True := fun payload => spec_recoverState hrun payload
  unfold recoverStaleRun
  split
  · exact spec_done
  · split
    · exact hstate _
    · split
      · exact hstatus _ _
      · split
        · simp only
          split
          · exact hstatus _ _
          · exact hstate _
        · split
          · exact hstate _
          · exact hstate _

theorem spec_recoverExitingRun (hrun : run.runtimeState.keys.Nodup)
    (pass : ExitingPass) : Growth.Spec (keeping initial) Finds (fun _ => True)
      (recoverExitingRun pass run) fun _ _ => True := by
  have hstatus : ∀ status payload, Growth.Spec (keeping initial) Finds (fun _ => True)
      (recoverStatus run pass.now status payload) fun _ _ => True :=
    fun status payload => spec_recoverStatus hrun pass.now status payload
  unfold recoverExitingRun
  split
  · exact spec_recoverState hrun _
  · split
    · exact hstatus _ _
    · split
      · exact hstatus _ _
      · exact hstatus _ _

theorem spec_listed {T : RunStore → Prop} [DecidablePred T] {p : WorkerRun → StateProg Unit}
    (hp : ∀ run, run.runtimeState.keys.Nodup →
      Growth.Spec (keeping initial) Finds (fun _ => True) (p run) fun _ _ => True) :
    Growth.Spec (keeping initial) Finds (fun _ => True)
      ((Prog.read .select fun s : RunStore => if T s then some s.run else none).bind fun listed =>
        match listed with
        | some run => p run
        | none => .ret ()) fun _ _ => True := by
  refine .bind (Q := fun listed _ => ∀ run ∈ listed, run.runtimeState.keys.Nodup)
    (.read (Growth.kept_const True) (fun _ => Growth.kept_const _) fun s hs _ => ?_) fun listed => ?_
  · split
    · rintro run ⟨⟩
      exact hs.unique
    · rintro run ⟨⟩
  · cases listed with
    | none => exact .pre (fun _ _ => trivial) spec_done
    | some run =>
      exact .assuming fun hrun => .pre (fun _ _ => trivial) (hp run (hrun run rfl))

end StateProg

theorem StateRequest.spec_program (initial : RuntimeState) (request : StateRequest) :
    Growth.Spec (keeping initial) Finds (fun _ => True) request.program fun _ _ => True := by
  cases request with
  | updateRunRisk patch => exact StateProg.spec_updateRunRisk patch
  | updateRunStatus now status statePatch =>
    have hasked : StateProg.Writes statePatch.entries [] statePatch :=
      ⟨statePatch.unique, fun key => by rw [Dict.get?_nil, or_none]⟩
    exact StateProg.spec_updateRunStatus hasked nodup_nil now status
  | recoverStaleRuns pass =>
    refine StateProg.spec_listed (T := fun s => s.run.listedStale pass.limits pass.listedAt = true)
      fun run hrun => ?_
    split
    · exact StateProg.spec_recoverStaleRun hrun pass
    · exact StateProg.spec_done
  | recoverExitingRuns pass =>
    exact StateProg.spec_listed (T := fun s => s.run.status = "exiting")
      fun run hrun => StateProg.spec_recoverExitingRun hrun pass
  | persistBackendProtectionChange change => exact StateProg.spec_persist change

/-- In every schedule whose writes find what they have to, every key of the runtime state
holds the value last meant for it; no update changed another key, took a recorded exit back or
set the closed run back to exiting. -/
theorem runtime_state_kept {run : WorkerRun} (hrun : run.runtimeState.keys.Nodup)
    {events : List (Event StateRequest)} {last : Config Empty StateLabel RunStore Unit}
    (hlast : (Config.idle { run := run }).run StateRequest.program events = some last)
    (hfinds : (Config.idle { run := run }).MeetsAlong StateRequest.program Finds events) :
    last.world.store.Kept run.runtimeState := by
  have hs : RunStore.Valid run.runtimeState { run := run } :=
    { holds := fun _ => rfl, sound := fun w hw => absurd hw (by simp), unique := hrun }
  exact ((keeping run.runtimeState).run (StateRequest.spec_program run.runtimeState) hs hlast
    hfinds).toKept

/-! ### a run -/

def demoRun : WorkerRun where
  strategyRunId := "run"
  accountScope := "kite:AB1234"
  executionMode := "live"
  workerSessionNonce := some "nonce"
  workerSessionClaimedAt := some 0
  lastHeartbeatAt := some 0
  runtimeState := [("risk", .dict [(.str "max_loss", .int 500)])]

def demoPass : StalePass where
  limits := ⟨15, 60, 90⟩
  listedAt := seconds 100
  now := seconds 100
  checkedAt := "2024-01-02T09:15:00+00:00"

/-- The protection exit of the run is recorded. -/
def demoExit : ProtectionChange where
  protectionState := [(.str "generation", .int 1), (.str "exit_submitted", .bool true)]

/-- The protection exit is recorded before the pass starts. -/
def inTurn : List (Event StateRequest) :=
  [.start (.persistBackendProtectionChange demoExit), .step 0, .start (.recoverStaleRuns demoPass),
    .step 1, .step 1]

/-- The pass has read the run when the protection exit is recorded. -/
def inBetween : List (Event StateRequest) :=
  [.start (.recoverStaleRuns demoPass), .start (.persistBackendProtectionChange demoExit),
    .step 0, .step 1, .step 0]

theorem runtime_state_kept_in_turn :
    ((Config.idle { run := demoRun }).run StateRequest.program inTurn).isSome ∧
      ∀ last, (Config.idle { run := demoRun }).run StateRequest.program inTurn = some last →
        last.world.store.Kept demoRun.runtimeState := by
  refine ⟨by decide +kernel, fun last hlast => runtime_state_kept (by decide) hlast ?_⟩
  refine Config.meetsAlong_start (Config.meetsAlong_op rfl (fun _ _ _ => rfl) ?_)
  refine Config.meetsAlong_start (Config.meetsAlong_op rfl trivial (Config.meetsAlong_op rfl ?_ trivial))
  refine ⟨fun _ _ => rfl, by decide, fun _ hasked => absurd hasked (by decide)⟩

theorem recovery_undoes_exit : ¬ ∀ (run : WorkerRun) (events : List (Event StateRequest))
    (last : Config Empty StateLabel RunStore Unit), run.runtimeState.keys.Nodup →
      (Config.idle { run := run }).run StateRequest.program events = some last →
        last.world.store.Kept run.runtimeState := by
  intro h
  have hany : ((Config.idle { run := demoRun }).run StateRequest.program inBetween).any
      (fun last => last.world.store.writes.any fun w =>
        w.before.exitSubmitted && !w.after.exitSubmitted) = true := by decide +kernel
  obtain ⟨last, hlast, hundone⟩ := (Option.any_eq_true _ _).mp hany
  obtain ⟨w, hw, hexit⟩ := List.any_eq_true.mp hundone
  rw [Bool.and_eq_true, Bool.not_eq_true'] at hexit
  have hkept := (h demoRun inBetween last (by decide) hlast).sound w hw
  rw [hkept.exitSubmitted hexit.1] at hexit
  exact absurd hexit.2 (by decide)

end KiteAlgo
