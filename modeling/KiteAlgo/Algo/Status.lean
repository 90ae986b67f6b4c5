import KiteAlgo.Algo.Kernel

/-!
# KiteAlgo.Algo.Status

The status of an algo instance over runs of dispatches, operator updates and reloads.

A module asks for a status by a patch of `_instance_status`.  The patch stays in the hot
state, and every later dispatch reads the request from the merged state, so that a request
is repeated after an operator has changed the status (`paused_again_after_enable`).
`status_fresh_iff` says exactly at which dispatches that happens.
-/

namespace KiteAlgo.Algo

open List Option
variable {F : Type} [PyFloat F]

/-! ## runs of one dispatch after the other -/

/-- A call that runs for `n` steps with nothing in between. -/
def Call.runFor (c : Call F) : Nat → Instance F → Call F × Instance F
  | 0, s => (c, s)
  | n + 1, s => (c.step s).1.runFor n (c.step s).2

/-- `dispatch_trigger` alone. -/
def Dispatch.run (d : Dispatch F) (s : Instance F) : Call F × Instance F := (d.begin s).runFor 7 s

/-- How `load_active_instances` ends: it raises, or loads what is active and whose type of algo
is registered. -/
inductive Reload where
  | raises
  | loads (registered : Bool)
  deriving DecidableEq, Repr

omit [PyFloat F] in
/-- `load_active_instances`: an active row is loaded with its module. -/
def Instance.reload (s : Instance F) : Reload → Instance F
  | .raises => s
  | .loads registered =>
    let loaded := if registered then s.row.filter LifecycleState.isActive else none
    { s with loaded := loaded, moduleLoaded := loaded.isSome }

/-- What happens to an instance: a trigger is dispatched, the runtime is reloaded, or the status
is updated, by the operator (`admin.update_instance_status`, which reloads) or in the kernel. -/
inductive Op (F : Type) where
  | dispatch (d : Dispatch F)
  | reload (ending : Reload)
  | adminUpdate (status : LifecycleState) (ending : Reload)
  | kernelUpdate (status : LifecycleState)

def Op.step : Op F → Instance F → Instance F
  | .dispatch d, s => (d.run s).2
  | .reload ending, s => s.reload ending
  | .adminUpdate status ending, s =>
    if s.row.isSome then { s with row := some status }.reload ending else s
  | .kernelUpdate status, s =>
    if s.row.isSome then { s with row := some status, loaded := some status } else s

/-- The operations on an instance as a machine. -/
def operations : Machine (Op F) (Instance F) Unit where
  step := Op.step
  out _ _ := []

/-- The actions of the evaluation ask for a status. -/
def Dispatch.asks (d : Dispatch F) (s : Instance F) : Prop :=
  ∃ patch ∈ patchesOf (d.evaluate s.hotState), patch.contains statusKey = true

/-- The dispatch changes the status only if its own evaluation asks for one. -/
def Dispatch.Fresh (d : Dispatch F) (s : Instance F) : Prop :=
  (d.run s).2.row ≠ s.row ∨ (d.run s).2.loaded ≠ s.loaded → d.asks s

def Op.Fresh : Op F → Instance F → Prop
  | .dispatch d, s => d.Fresh s
  | _, _ => True

/-- The dispatch reaches the update of the status: the instance is evaluated, and no call before
the update raises. -/
def Dispatch.ReachesUpdate (d : Dispatch F) (s : Instance F) : Prop :=
  (d.begin s).stage = .evaluate ∧
    ∀ label ∈ [Await.evaluate, .execute, .setHotState, .setCheckpoint, .saveCheckpoint],
      d.ends label = .returns

/-- The hot state still holds a request of an earlier evaluation: this one does not ask, and the
status requested before is neither the one of the instance nor out of reach. -/
def Dispatch.Stale (d : Dispatch F) (s : Instance F) : Prop :=
  d.ReachesUpdate s ∧ ¬ d.asks s ∧ s.row.isSome = true ∧
    ∃ status, requestedStatus s.hotState = some status ∧ s.loaded ≠ some status ∧
      (d.ends .updateStatus = .returns ∨ d.ends .updateStatus = .raises true ∧ s.row ≠ some status)

/-- No dispatch of a run meets such a request. -/
def Op.NotStale : Op F → Instance F → Prop
  | .dispatch d, s => ¬ d.Stale s
  | _, _ => True

/-! ## what a dispatch does to the status -/

section Dispatches

variable {c : Call F} {d : Dispatch F} {s : Instance F}

theorem runFor_failed (h : c.stage = .failed) (n : Nat) (s : Instance F) : c.runFor n s = (c, s) := by
  induction n with
  | zero => rfl
  | succ n ih =>
    have hstep : c.step s = (c, s) := by rw [Call.step, h]
    rw [Call.runFor, hstep]
    exact ih

variable {label : Await} {next : Stage} {write : Instance F → Instance F}

theorem status_of_raise (hstep : c.step s = c.await label write next s)
    (hends : c.request.ends label ≠ .returns) (hrow : (write s).row = s.row)
    (hloaded : (write s).loaded = s.loaded) (n : Nat) :
    (c.runFor (n + 1) s).2.row = s.row ∧ (c.runFor (n + 1) s).2.loaded = s.loaded := by
  rw [Call.runFor, hstep, Call.await]
  split
  · next h => exact absurd h hends
  · rw [runFor_failed rfl]
    exact ⟨hrow, hloaded⟩
  · rw [runFor_failed rfl]
    exact ⟨rfl, rfl⟩

theorem runFor_await (hstep : c.step s = c.await label write next s)
    (hends : c.request.ends label = .returns) (n : Nat) :
    c.runFor (n + 1) s = ({ c with stage := next }).runFor n (write s) := by
  rw [Call.runFor, hstep, Call.await_returns hends]

omit [PyFloat F] in
theorem begin_cases (d : Dispatch F) (s : Instance F) :
    (d.begin s).stage = .skipped ∨
      ∃ status, s.loaded = some status ∧ d.begin s = ⟨d, status, s.hotState, .evaluate⟩ := by
  unfold Dispatch.begin
  split
  · exact .inl rfl
  · next status hloaded =>
      split
      · exact .inr ⟨status, hloaded, rfl⟩
      · exact .inl rfl

theorem runFor_skipped (h : c.stage = .skipped) (n : Nat) (s : Instance F) :
    c.runFor n s = (c, s) := by
  induction n with
  | zero => rfl
  | succ n ih =>
    have hstep : c.step s = (c, s) := by rw [Call.step, h]
    rw [Call.runFor, hstep]
    exact ih

/-- The instance when the dispatch reaches the update of the status. -/
def Call.saved (c : Call F) (s : Instance F) : Instance F :=
  { s with
    hotState := c.pending
    checkpoint := some c.checkpoint
    savedCheckpoint := some c.checkpoint }

theorem runFor_before (hstage : c.stage = .evaluate) (s : Instance F) :
    ((∀ label ∈ [Await.evaluate, .execute, .setHotState, .setCheckpoint, .saveCheckpoint],
        c.request.ends label = .returns) ∧
      c.runFor 7 s = ({ c with stage := if c.desired.isSome then .updateStatus else .returned }).runFor 2
          (c.saved s)) ∨
    ((¬ ∀ label ∈ [Await.evaluate, .execute, .setHotState, .setCheckpoint, .saveCheckpoint],
        c.request.ends label = .returns) ∧
      (c.runFor 7 s).2.row = s.row ∧ (c.runFor 7 s).2.loaded = s.loaded) := by
  have hevaluate : c.step s = c.await .evaluate id .execute s := by rw [Call.step, hstage]
  have hexecute : ({ c with stage := .execute } : Call F).step s =
      ({ c with stage := .execute } : Call F).await .execute id .setHotState s := rfl
  have hset : ({ c with stage := .setHotState } : Call F).step s =
      ({ c with stage := .setHotState } : Call F).await .setHotState
        (fun s => { s with hotState := c.pending }) .setCheckpoint s := rfl
  have hcheckpoint : ∀ s : Instance F, ({ c with stage := .setCheckpoint } : Call F).step s =
      ({ c with stage := .setCheckpoint } : Call F).await .setCheckpoint
        (fun s => { s with checkpoint := some c.checkpoint }) .saveCheckpoint s := fun _ => rfl
  have hsave : ∀ s : Instance F, ({ c with stage := .saveCheckpoint } : Call F).step s =
      ({ c with stage := .saveCheckpoint } : Call F).await .saveCheckpoint
        (fun s => { s with savedCheckpoint := some c.checkpoint })
        (if c.desired.isSome then .updateStatus else .returned) s := fun _ => rfl
  by_cases h1 : c.request.ends .evaluate = .returns
  · rw [runFor_await hevaluate h1]
    by_cases h2 : c.request.ends .execute = .returns
    · rw [id, runFor_await hexecute h2]
      by_cases h3 : c.request.ends .setHotState = .returns
      · rw [id, runFor_await hset h3]
        by_cases h4 : c.request.ends .setCheckpoint = .returns
        · rw [runFor_await (hcheckpoint _) h4]
          by_cases h5 : c.request.ends .saveCheckpoint = .returns
          · rw [runFor_await (hsave _) h5]
            exact .inl ⟨by simp [h1, h2, h3, h4, h5], rfl⟩
          · exact .inr ⟨by simp [h5], status_of_raise (hsave _) h5 rfl rfl 2⟩
        · exact .inr ⟨by simp [h4], status_of_raise (hcheckpoint _) h4 rfl rfl 3⟩
      · exact .inr ⟨by simp [h3], status_of_raise hset h3 rfl rfl 4⟩
    · exact .inr ⟨by simp [h2], status_of_raise hexecute h2 rfl rfl 5⟩
  · exact .inr ⟨by simp [h1], status_of_raise hevaluate h1 rfl rfl 6⟩

variable {status : LifecycleState}

theorem runFor_update (hdesired : c.desired = some status) (s : Instance F) :
    (({ c with stage := .updateStatus } : Call F).runFor 2 s).2 =
      match s.row, c.request.ends .updateStatus with
      | some _, .returns => { s with row := some status, loaded := some status }
      | some _, .raises true => { s with row := some status }
      | _, _ => s := by
  have hstep : ({ c with stage := .updateStatus } : Call F).step s =
      ({ c with stage := .updateStatus } : Call F).await .updateStatus
        (fun s => { s with row := s.row.bind fun _ => c.desired })
        (if s.row.isSome then .adopt else .returned) s := rfl
  obtain ⟨hotState, checkpoint, savedCheckpoint, row, loaded, moduleLoaded⟩ := s
  simp only [Call.runFor, hstep, Call.await]
  cases row with
  | none =>
    cases c.request.ends .updateStatus with
    | returns => rfl
    | raises done => cases done <;> rfl
  | some row =>
    simp only [bind_some, hdesired]
    cases c.request.ends .updateStatus with
    | returns =>
      have hadopt : ∀ s : Instance F, (({ c with stage := .adopt } : Call F).step s).2 =
          { s with loaded := c.desired } := fun _ => rfl
      simp only [isSome_some, if_true, hadopt, hdesired]
    | raises done => cases done <;> rfl

omit [PyFloat F] in
theorem update_changes {ending : Ending} (hloaded : s.loaded ≠ some status) {after : Instance F}
    (hafter : after = match s.row, ending with
      | some _, .returns => { s with row := some status, loaded := some status }
      | some _, .raises true => { s with row := some status }
      | _, _ => s) :
    (after.row ≠ s.row ∨ after.loaded ≠ s.loaded) ↔ s.row.isSome ∧
      (ending = .returns ∨ ending = .raises true ∧ s.row ≠ some status) := by
  subst hafter
  cases hrow : s.row with
  | none => simp [hrow]
  | some row =>
    cases ending with
    | returns => simp [hloaded.symm]
    | raises done => cases done <;> simp [hrow, eq_comm]

/-- A dispatch changes the status exactly when it reaches the update, finds another status
requested in the written state, and the update takes effect. -/
theorem run_changes_iff (d : Dispatch F) (s : Instance F) :
    ((d.run s).2.row ≠ s.row ∨ (d.run s).2.loaded ≠ s.loaded) ↔
      d.ReachesUpdate s ∧ s.row.isSome ∧ ∃ status,
        requestedStatus (pendingState s.hotState (d.evaluate s.hotState)) = some status ∧
        s.loaded ≠ some status ∧ (d.ends .updateStatus = .returns ∨
          d.ends .updateStatus = .raises true ∧ s.row ≠ some status) := by
  rw [Dispatch.run, Dispatch.ReachesUpdate]
  rcases begin_cases d s with hskipped | ⟨found, hloaded, hbegin⟩
  · rw [runFor_skipped hskipped, hskipped]
    constructor
    · rintro (h | h) <;> exact absurd rfl h
    · rintro ⟨⟨h, -⟩, -⟩
      cases h
  · rw [hbegin]
    generalize hc : (⟨d, found, s.hotState, .evaluate⟩ : Call F) = c
    have hrequest : c.request = d := by rw [← hc]
    have hstage : c.stage = .evaluate := by rw [← hc]
    have hpending : c.pending = pendingState s.hotState (d.evaluate s.hotState) := by
      rw [← hc]
      rfl
    have hdesired : ∀ status, c.desired = some status ↔
        requestedStatus (pendingState s.hotState (d.evaluate s.hotState)) = some status ∧
          s.loaded ≠ some status := by
      intro status
      have hfound : c.status = found := by rw [← hc]
      rw [Call.desired, filter_eq_some_iff, hpending, hfound, hloaded]
      simp only [decide_eq_true_eq, ne_eq, some.injEq]
      exact and_congr_right fun _ => not_congr eq_comm
    rcases runFor_before hstage s with ⟨hreturn, hrun⟩ | ⟨hraise, hrow, hsame⟩
    · rw [hrun, hstage]
      rw [hrequest] at hreturn
      cases hnext : c.desired with
      | none =>
        have hidle : (({ c with stage := .returned } : Call F).runFor 2 (c.saved s)).2
            = c.saved s := rfl
        simp only [isSome_none, Bool.false_eq_true, if_false, hidle]
        constructor
        · rintro (h | h) <;> exact absurd rfl h
        · rintro ⟨-, -, status, hstatus, hne, -⟩
          rw [(hdesired status).mpr ⟨hstatus, hne⟩] at hnext
          cases hnext
      | some status =>
        obtain ⟨hstatus, hne⟩ := (hdesired status).mp hnext
        have hchanges := update_changes (s := c.saved s) hne (runFor_update hnext (c.saved s))
        simp only [isSome_some, if_true]
        refine hchanges.trans ?_
        rw [hrequest]
        constructor
        · rintro ⟨hsome, hends⟩
          exact ⟨⟨trivial, hreturn⟩, hsome, status, hstatus, hne, hends⟩
        · rintro ⟨-, hsome, status', hstatus', -, hends⟩
          obtain rfl : status = status' := some.inj (hstatus.symm.trans hstatus')
          exact ⟨hsome, hends⟩
    · rw [hrequest] at hraise
      constructor
      · rintro (h | h)
        · exact absurd hrow h
        · exact absurd hsame h
      · rintro ⟨⟨-, hreturn⟩, -⟩
        exact absurd hreturn hraise

theorem requestedStatus_pending (h : ¬ d.asks s) :
    requestedStatus (pendingState s.hotState (d.evaluate s.hotState)) = requestedStatus s.hotState := by
  have hupdate : ∀ patch state : HotState F, patch.contains statusKey = false →
      (state.update patch).get? statusKey = state.get? statusKey := by
    intro patch
    induction patch with
    | nil => exact fun _ _ => rfl
    | cons entry patch ih =>
      intro state hnot
      obtain ⟨key, value⟩ := entry
      rw [Dict.contains, Dict.get?_cons] at hnot
      split at hnot
      · cases hnot
      · next hne =>
          rw [show state.update ((key, value) :: patch) = (state.set key value).update patch
            from rfl, ih _ hnot, Dict.get?_set_of_ne hne]
  have hfold : ∀ patches : List (HotState F), (∀ patch ∈ patches, patch.contains statusKey = false) →
      ∀ state : HotState F,
        (patches.foldl Dict.update state).get? statusKey = state.get? statusKey := by
    intro patches
    induction patches with
    | nil => exact fun _ _ => rfl
    | cons patch patches ih =>
      intro hnot state
      rw [foldl_cons, ih (fun p hp => hnot p (mem_cons_of_mem patch hp)),
        hupdate patch state (hnot patch (.head _))]
  have hnone : ∀ patch ∈ patchesOf (d.evaluate s.hotState), patch.contains statusKey = false := by
    intro patch hpatch
    by_contra hcontains
    exact h ⟨patch, hpatch, by simpa using hcontains⟩
  rw [requestedStatus, pendingState, hfold _ hnone]
  rfl

theorem fresh_iff (d : Dispatch F) (s : Instance F) : d.Fresh s ↔ ¬ d.Stale s := by
  rw [Dispatch.Fresh, run_changes_iff, Dispatch.Stale]
  constructor
  · rintro hfresh ⟨hreaches, hasks, hrow, status, hstatus, hrest⟩
    refine hasks (hfresh ⟨hreaches, hrow, status, ?_, hrest⟩)
    rw [requestedStatus_pending hasks]
    exact hstatus
  · rintro hstale ⟨hreaches, hrow, status, hstatus, hrest⟩
    by_contra hasks
    rw [requestedStatus_pending hasks] at hstatus
    exact hstale ⟨hreaches, hasks, hrow, status, hstatus, hrest⟩

end Dispatches

/-- In every run of dispatches, updates and reloads, a dispatch changes the status only on a
request of its own evaluation, exactly when no dispatch meets an old request. -/
theorem status_fresh_iff (ops : List (Op F)) (s : Instance F) :
    operations.Along (fun op _ s => op.Fresh s) ops s ↔
      operations.Along (fun op _ s => op.NotStale s) ops s := by
  refine Machine.along_congr (I := fun _ => True) (fun op _ s _ => ?_) (fun _ _ _ _ _ => trivial)
    trivial
  cases op with
  | dispatch d => exact fresh_iff d s
  | reload _ | adminUpdate _ _ | kernelUpdate _ => exact Iff.rfl

/-- A module that pauses itself on its first evaluation and does nothing afterwards. -/
def pausing : Dispatch ℚ where
  evaluate state :=
    if state.contains statusKey then [] else [.statePatch [(statusKey, .str "paused")]]

/-- An instance that paused itself and was enabled again by the operator is paused by the next
trigger, although its module does not ask. -/
theorem paused_again_after_enable :
    ¬ operations.Along (fun op _ s => op.Fresh s)
      [.dispatch pausing, .adminUpdate .enabled (.loads true), .dispatch pausing]
      { row := some .enabled, loaded := some .enabled } := by
  rintro ⟨-, -, hfresh, -⟩
  have hchange := hfresh (.inl (by decide +kernel))
  obtain ⟨patch, hpatch, -⟩ := hchange
  have hnone : (patchesOf (pausing.evaluate (operations.run [.dispatch pausing,
      .adminUpdate .enabled (.loads true)]
      { row := some .enabled, loaded := some .enabled }).hotState)).length = 0 := by
    decide +kernel
  exact List.not_mem_nil (List.length_eq_zero_iff.mp hnone ▸ hpatch)

end KiteAlgo.Algo
