import KiteAlgo.Brackets
import Mathlib.Data.List.Induction

/-!
# KiteAlgo.Brackets.Effects

What one step of a bracket can do, said once: which actions it enqueues (`kinds_step`) and
which status it leaves (`status_observe` and its siblings).  The facts about runs use these
lemmas and do not look into the statements again.
-/

namespace KiteAlgo.Brackets

open List Option Bool
namespace State

variable {s : State}

/-! ## frames -/

@[simp] theorem status_updateBracketStatus (status : BracketStatus) (r : Option Bool)
    (m : Option String) (s : State) : (s.updateBracketStatus status r m).intent.status = status := rfl

@[simp] theorem config_updateBracketStatus (status : BracketStatus) (r : Option Bool)
    (m : Option String) (s : State) :
    (s.updateBracketStatus status r m).intent.config = s.intent.config := rfl

@[simp] theorem actions_updateBracketStatus (status : BracketStatus) (r : Option Bool)
    (m : Option String) (s : State) : (s.updateBracketStatus status r m).actions = s.actions := rfl

@[simp] theorem intent_enqueueAction (kind : ActionKind) (s : State) :
    (s.enqueueAction kind).intent = s.intent := rfl

@[simp] theorem actions_enqueueAction (kind : ActionKind) (s : State) :
    (s.enqueueAction kind).actions = s.actions ++ [({ kind := kind } : Action)] := rfl

@[simp] theorem intent_updateAction (i : Nat) (f : Action → Action) (s : State) :
    (s.updateAction i f).intent = s.intent := rfl

theorem intent_placeExit (e : Exit) (s : State) : (s.placeExit e).intent = s.intent := by
  unfold placeExit
  split <;> rfl

/-- What only executions change: the config, the order intents, the broker and the
executions under way. -/
structure SameWorld (s s' : State) : Prop where
  id : s'.intent.bracketIntentId = s.intent.bracketIntentId
  config : s'.intent.config = s.intent.config
  links : s'.links = s.links
  orders : s'.orders = s.orders
  cancels : s'.cancels = s.cancels
  running : s'.running = s.running

theorem SameWorld.refl (s : State) : SameWorld s s := ⟨rfl, rfl, rfl, rfl, rfl, rfl⟩

theorem SameWorld.trans {s s' s'' : State} (h : SameWorld s s') (h' : SameWorld s' s'') :
    SameWorld s s'' :=
  ⟨h'.id.trans h.id, h'.config.trans h.config, h'.links.trans h.links, h'.orders.trans h.orders,
    h'.cancels.trans h.cancels, h'.running.trans h.running⟩

theorem sameWorld_updateBracketStatus (status : BracketStatus) (r : Option Bool)
    (m : Option String) (s : State) : SameWorld s (s.updateBracketStatus status r m) :=
  ⟨rfl, rfl, rfl, rfl, rfl, rfl⟩

theorem sameWorld_enqueueAction (kind : ActionKind) (s : State) :
    SameWorld s (s.enqueueAction kind) := ⟨rfl, rfl, rfl, rfl, rfl, rfl⟩

theorem sameWorld_placeExit (e : Exit) (s : State) : SameWorld s (s.placeExit e) := by
  unfold placeExit
  split
  · exact sameWorld_enqueueAction _ s
  · exact .refl s

theorem sameWorld_observeEntry (event : OrderEvent) (s : State) :
    SameWorld s (s.observeEntry event) := by
  unfold observeEntry
  split
  · split
    · exact sameWorld_updateBracketStatus _ _ _ s
    · split
      · split
        · exact .refl s
        · exact ((sameWorld_updateBracketStatus _ _ _ s).trans (sameWorld_placeExit _ _)).trans
            (sameWorld_placeExit _ _)
      · split
        · exact sameWorld_updateBracketStatus _ _ _ s
        · exact .refl s
  · exact .refl s

theorem sameWorld_observeExit (config : Config) (e : Exit) (event : OrderEvent) (s : State) :
    SameWorld s (s.observeExit config e event) := by
  unfold observeExit
  split
  · split
    · exact (sameWorld_updateBracketStatus _ _ _ s).trans (sameWorld_enqueueAction _ _)
    · exact sameWorld_updateBracketStatus _ _ _ s
  · exact .refl s

theorem sameWorld_observe (event : OrderEvent) (s : State) :
    SameWorld s (s.applyOrderEventObservation event) := by
  unfold applyOrderEventObservation
  split
  · exact ((sameWorld_observeEntry event s).trans (sameWorld_observeExit _ _ _ _)).trans
      (sameWorld_observeExit _ _ _ _)
  · exact .refl s

/-! ## the actions a step enqueues -/

/-- The kinds of the actions, in order of creation. -/
def kinds (s : State) : List ActionKind := s.actions.map Action.kind

/-- The update arms the exits: the entry filled in a state that does not guard against it. -/
def armsExits (s : State) (event : OrderEvent) : Bool :=
  s.linked event && s.onEntry event && s.fillsEntry event && !s.intent.status.guarded

/-- The placement of an exit, if it is configured. -/
def placement (config : Config) (e : Exit) : List ActionKind :=
  if (config.exit e).truthy then [.place e (config.exit e)] else []

/-- The cancellation of the other exit, if its order is known. -/
def siblingCancel (config : Config) (e : Exit) (event : OrderEvent) : List ActionKind :=
  if completesExit config e event then
    ((config.exit e.other).brokerOrderId.map (ActionKind.cancel e.other)).toList
  else []

/-- The kinds of the actions an update enqueues. -/
def observedKinds (s : State) (event : OrderEvent) : List ActionKind :=
  (if s.armsExits event then
    placement s.intent.config .stoploss ++ placement s.intent.config .target else []) ++
  (if s.linked event then
    siblingCancel s.intent.config .stoploss event ++ siblingCancel s.intent.config .target event
   else [])

variable {f : Action → Action}

theorem kinds_modify {actions : List Action} (hf : ∀ a, (f a).kind = a.kind) (i : Nat) :
    (actions.modify i f).map Action.kind = actions.map Action.kind := by
  apply ext_getElem?
  intro j
  rw [getElem?_map, getElem?_map, getElem?_modify]
  cases actions[j]? with
  | none => rfl
  | some action =>
    simp only [map_some]
    split
    · exact congrArg some (hf action)
    · rfl

theorem kinds_updateAction (hf : ∀ a, (f a).kind = a.kind) (i : Nat) (s : State) :
    (s.updateAction i f).kinds = s.kinds :=
  kinds_modify hf i

@[simp] theorem kinds_updateBracketStatus (status : BracketStatus) (r : Option Bool)
    (m : Option String) (s : State) : (s.updateBracketStatus status r m).kinds = s.kinds := rfl

/-- The rows `enqueue_action` inserts for these kinds. -/
def newActions (kinds : List ActionKind) : List Action := kinds.map fun kind => { kind }

theorem newActions_append (kinds kinds' : List ActionKind) :
    newActions (kinds ++ kinds') = newActions kinds ++ newActions kinds' :=
  map_append

theorem kind_newActions (kinds : List ActionKind) : (newActions kinds).map Action.kind = kinds := by
  rw [newActions, List.map_map]
  exact List.map_id kinds

theorem actions_placeExit (e : Exit) (s : State) :
    (s.placeExit e).actions = s.actions ++ newActions (placement s.intent.config e) := by
  unfold placeExit placement
  split <;> simp [newActions]

theorem actions_observeEntry (event : OrderEvent) (s : State) :
    (s.observeEntry event).actions = s.actions ++ newActions
      (if s.onEntry event && s.fillsEntry event && !s.intent.status.guarded then
        placement s.intent.config .stoploss ++ placement s.intent.config .target else []) := by
  unfold observeEntry
  by_cases hon : s.onEntry event
  · rw [if_pos hon]
    by_cases hend : (endsEarly event && decide (event.filled = 0)) = true
    · have hfill : s.fillsEntry event = false := by
        rw [and_eq_true] at hend
        have hzero := of_decide_eq_true hend.2
        simp [fillsEntry, hzero]
      rw [if_pos hend]
      simp [hfill, newActions]
    · rw [if_neg hend]
      by_cases hfill : s.fillsEntry event
      · rw [if_pos hfill]
        cases hguard : s.intent.status.guarded with
        | true => simp [newActions]
        | false =>
          simp [hon, hfill, actions_placeExit, intent_placeExit, newActions_append]
      · rw [if_neg hfill]
        split <;> simp [hfill, newActions]
  · rw [if_neg hon]
    simp [hon, newActions]

theorem actions_observeExit (config : Config) (e : Exit) (event : OrderEvent) (s : State) :
    (s.observeExit config e event).actions = s.actions ++ newActions (siblingCancel config e event) := by
  unfold observeExit siblingCancel
  split
  · cases (config.exit e.other).brokerOrderId <;> simp [newActions]
  · simp [newActions]

theorem actions_observe (event : OrderEvent) (s : State) :
    (s.applyOrderEventObservation event).actions = s.actions ++ newActions (s.observedKinds event) := by
  unfold applyOrderEventObservation observedKinds armsExits
  split
  · next hlink =>
    simp only [actions_observeExit, actions_observeEntry, hlink, Bool.true_and,
      newActions_append, append_assoc]
  · next hlink => simp [hlink, newActions]

/-- The kinds of the actions a step enqueues. -/
def enqueued (st : Step) (s : State) : List ActionKind :=
  match st with
  | .observe event => s.observedKinds event
  | .requestCancel => [.cancelBracket]
  | _ => []

theorem kinds_commitPlace (i : Nat) (e : Exit) (orderId : String) (s : State) :
    (s.commitPlace i e orderId).kinds = s.kinds := by
  unfold commitPlace
  simp only
  split
  all_goals exact kinds_updateAction (f := Action.succeeded) (fun _ => rfl) i s

theorem kinds_step (st : Step) (s : State) : (step st s).kinds = s.kinds ++ enqueued st s := by
  cases st with
  | observe event =>
    simp only [step, enqueued, kinds]
    rw [actions_observe, map_append, kind_newActions]
  | requestCancel => simp [step, requestCancelBracket, enqueued, kinds]
  | markInconsistent event =>
    simp only [step, markProjectionInconsistent, enqueued, append_nil]
    split <;> rfl
  | link intent => simp [step, enqueued, kinds]
  | claim ids =>
    simp only [step, claimPendingActions, enqueued, append_nil, kinds]
    apply ext_getElem?
    intro i
    rw [getElem?_map, getElem?_map, getElem?_mapIdx]
    cases s.actions[i]? with
    | none => rfl
    | some action =>
      simp only [map_some]
      split <;> rfl
  | place i placement =>
    simp only [step, execPlace, enqueued, append_nil]
    split <;> rfl
  | cancel i error =>
    simp only [step, execCancel, enqueued, append_nil]
    split
    · rfl
    · split <;> rfl
    · rfl
  | commit i =>
    simp only [step, execCommit, enqueued, append_nil]
    split
    · exact kinds_commitPlace i _ _ s
    · exact kinds_updateAction (f := Action.succeeded) (fun _ => rfl) i s
    · rfl
  | rollback i error =>
    simp only [step, execRollback, enqueued, append_nil]
    split <;> rfl
  | recover i =>
    simp only [step, execRecover, enqueued, append_nil]
    split
    · split
      · next error action _ _ _ => exact kinds_updateAction (f := Action.failed error) (fun _ => rfl) i s
      · next error action _ _ _ => exact kinds_updateAction (f := Action.retried error) (fun _ => rfl) i s
    · rfl

/-! ## the status a step leaves -/

/-- The update completes an exit order the bracket knows. -/
def completes (s : State) (event : OrderEvent) : Bool :=
  s.linked event &&
    (completesExit s.intent.config .stoploss event || completesExit s.intent.config .target event)

theorem status_observeExit (config : Config) (e : Exit) (event : OrderEvent) (s : State) :
    (s.observeExit config e event).intent.status =
      if completesExit config e event then .cancelling else s.intent.status := by
  unfold observeExit
  split
  · split <;> rfl
  · rfl

variable {event : OrderEvent}

theorem status_observe_of_completes (h : s.completes event) :
    (s.applyOrderEventObservation event).intent.status = .cancelling := by
  rw [completes, and_eq_true, or_eq_true] at h
  unfold applyOrderEventObservation
  rw [if_pos h.1]
  simp only [status_observeExit]
  split
  · rfl
  · next htarget => rw [if_pos (h.2.resolve_right htarget)]

theorem status_observe (h : s.completes event = false) :
    (s.applyOrderEventObservation event).intent.status = s.intent.status ∨
      (s.applyOrderEventObservation event).intent.status = .failed ∨
      (s.applyOrderEventObservation event).intent.status = .partlyFilled ∨
      ((s.applyOrderEventObservation event).intent.status = .armingExits ∧ s.armsExits event) := by
  unfold applyOrderEventObservation
  by_cases hlink : s.linked event
  · rw [completes, hlink, Bool.true_and, or_eq_false_iff] at h
    rw [if_pos hlink]
    simp only [status_observeExit, h.1, h.2, false_eq_true, if_false]
    unfold observeEntry
    split
    · next hon =>
      split
      · exact .inr (.inl rfl)
      · split
        · next hfill =>
          split
          · exact .inl rfl
          · next hguard =>
            refine .inr (.inr (.inr ⟨?_, ?_⟩))
            · simp [intent_placeExit]
            · simp [armsExits, hlink, hon, hfill, eq_false_iff.mpr hguard]
        · split
          · exact .inr (.inr (.inl rfl))
          · exact .inl rfl
    · exact .inl rfl
  · rw [if_neg hlink]
    exact .inl rfl

/-- The commit of a placement arms the bracket when no placement is left. -/
def armsOnCommit (s : State) (i : Nat) : Bool :=
  match s.running.get? i, s.actions[i]? with
  | some (.placed _), some { kind := .place _ _, .. } => !(s.markActionSucceeded i).placementPending
  | _, _ => false

/-- The recovery of an execution gives up its action. -/
def givesUp (s : State) (i : Nat) : Bool :=
  match s.running.get? i, s.actions[i]? with
  | some (.raised _), some action => decide (maxAttempts ≤ action.attemptCount + 1)
  | _, _ => false

theorem status_commitPlace (i : Nat) (e : Exit) (orderId : String) (s : State) :
    (s.commitPlace i e orderId).intent.status =
      if (s.markActionSucceeded i).placementPending then s.intent.status else .armed := by
  unfold commitPlace
  simp only
  rw [show ((s.markActionSucceeded i).storeOrderId e orderId).placementPending =
    (s.markActionSucceeded i).placementPending from rfl]
  split <;> rfl

theorem status_commit (i : Nat) (s : State) :
    (s.execCommit i).intent.status = .armed ∧ s.armsOnCommit i ∨
      s.armsOnCommit i = false ∧ ((s.execCommit i).intent.status = s.intent.status ∨
        (s.execCommit i).intent.status = .completed) := by
  unfold execCommit armsOnCommit
  cases hrun : s.running.get? i with
  | none => exact .inr ⟨rfl, .inl rfl⟩
  | some phase =>
    cases hact : s.actions[i]? with
    | none => cases phase <;> exact .inr ⟨rfl, .inl rfl⟩
    | some action =>
      obtain ⟨kind, status, count, error⟩ := action
      cases phase with
      | raised error => exact .inr ⟨rfl, .inl rfl⟩
      | cancelled => exact .inr ⟨rfl, .inr rfl⟩
      | placed orderId =>
        cases kind with
        | cancel e orderId => exact .inr ⟨rfl, .inl rfl⟩
        | cancelBracket => exact .inr ⟨rfl, .inl rfl⟩
        | place e payload =>
          simp only [status_commitPlace]
          cases (s.markActionSucceeded i).placementPending with
          | true => exact .inr ⟨rfl, .inl rfl⟩
          | false => exact .inl ⟨rfl, rfl⟩

theorem status_recover (i : Nat) (s : State) :
    (s.execRecover maxAttempts i).intent.status = .armingExits ∧ s.givesUp i ∨
      s.givesUp i = false ∧ (s.execRecover maxAttempts i).intent.status = s.intent.status := by
  unfold execRecover givesUp
  cases hrun : s.running.get? i with
  | none => exact .inr ⟨rfl, rfl⟩
  | some phase =>
    cases hact : s.actions[i]? with
    | none => cases phase <;> exact .inr ⟨rfl, rfl⟩
    | some action =>
      cases phase with
      | placed orderId => exact .inr ⟨rfl, rfl⟩
      | cancelled => exact .inr ⟨rfl, rfl⟩
      | raised error =>
        by_cases h : maxAttempts ≤ action.attemptCount + 1
        · simp only [h, if_true]
          exact .inl ⟨rfl, rfl⟩
        · simp only [h, if_false]
          exact .inr ⟨rfl, rfl⟩

/-! ## what a step does to one action -/

/-- The ways a step can touch the row of an action and its execution. -/
inductive Turn (s s' : State) (i : Nat) : Prop
  | same (ha : s'.actions[i]? = s.actions[i]?) (hr : s'.running.get? i = s.running.get? i)
  | claimed {action : Action} (ha : s.actions[i]? = some action) (hp : action.status = .pending)
      (ha' : s'.actions[i]? = some action.claimed) (hr : s'.running.get? i = s.running.get? i)
  | called {action : Action} {phase : Phase} (ha : s.actions[i]? = some action)
      (hc : action.status = .claimed) (ha' : s'.actions[i]? = some action)
      (hr : s.running.get? i = none) (hr' : s'.running.get? i = some phase)
      (hcancel : ∀ e orderId, action.kind = .cancel e orderId → orderId ∈ s'.cancels)
  | raised {phase phase' : Phase} (ha : s'.actions[i]? = s.actions[i]?)
      (hr : s.running.get? i = some phase) (hr' : s'.running.get? i = some phase')
  | ended {phase : Phase} (hr : s.running.get? i = some phase) (hr' : s'.running.get? i = none)

variable {action : Action} {i : Nat}

theorem ready_eq_some (h : s.ready i = some action) :
    s.running.get? i = none ∧ s.actions[i]? = some action ∧ action.status = .claimed := by
  unfold ready at h
  split at h
  · next hrun =>
    obtain ⟨found, hget, hsome⟩ := bind_eq_some_iff.mp h
    split at hsome
    · next hstatus =>
      obtain rfl := some.inj hsome
      exact ⟨hrun, hget, hstatus⟩
    · exact absurd hsome (by simp)
  · exact absurd h (by simp)

theorem turn_of_call {s' : State} {j : Nat} {phase : Phase} (hready : s.ready j = some action)
    (hactions : s'.actions = s.actions) (hrunning : s'.running = s.running.set j phase)
    (hcancel : ∀ e orderId, action.kind = .cancel e orderId → orderId ∈ s'.cancels) (i : Nat) :
    Turn s s' i := by
  obtain ⟨hrun, hget, hstatus⟩ := ready_eq_some hready
  by_cases hij : i = j
  · subst hij
    have hphase : s'.running.get? i = some phase := by rw [hrunning, Dict.get?_set_self]
    exact .called hget hstatus (by rw [hactions, hget]) hrun hphase hcancel
  · refine .same (by rw [hactions]) ?_
    rw [hrunning, Dict.get?_set_of_ne (Ne.symm hij)]

theorem turn_of_end {s' : State} {j : Nat} {phase : Phase} {f : Action → Action}
    (hrun : s.running.get? j = some phase) (hactions : s'.actions = s.actions.modify j f)
    (hrunning : s'.running = s.running.erase j) (i : Nat) : Turn s s' i := by
  by_cases hij : i = j
  · subst hij
    exact .ended hrun (by rw [hrunning, Dict.get?_erase, if_pos rfl])
  · refine .same ?_ ?_
    · rw [hactions, getElem?_modify_ne _ _ (Ne.symm hij)]
    · rw [hrunning, Dict.get?_erase, if_neg (Ne.symm hij)]

theorem actions_commitPlace (i : Nat) (e : Exit) (orderId : String) (s : State) :
    (s.commitPlace i e orderId).actions = s.actions.modify i Action.succeeded := by
  unfold commitPlace
  simp only
  split <;> rfl

theorem turn_step (st : Step) (s : State) (hi : i < s.actions.length) : Turn s (step st s) i := by
  cases st with
  | observe event =>
    refine .same ?_ ?_
    · simp only [step]
      rw [actions_observe, getElem?_append_left hi]
    · simp only [step]
      rw [(sameWorld_observe event s).running]
  | requestCancel =>
    refine .same ?_ rfl
    simp only [step, requestCancelBracket, actions_enqueueAction, actions_updateBracketStatus]
    rw [getElem?_append_left hi]
  | markInconsistent event =>
    simp only [step, markProjectionInconsistent]
    split <;> exact .same rfl rfl
  | link intent => exact .same rfl rfl
  | claim ids =>
    obtain ⟨action, hget⟩ : ∃ action, s.actions[i]? = some action := ⟨_, getElem?_eq_getElem hi⟩
    have hmap : (step (.claim ids) s).actions[i]? =
        some (if i ∈ ids ∧ action.status = .pending then action.claimed else action) := by
      simp only [step, claimPendingActions]
      rw [getElem?_mapIdx, hget]
      rfl
    by_cases hclaim : i ∈ ids ∧ action.status = .pending
    · rw [if_pos hclaim] at hmap
      exact .claimed hget hclaim.2 hmap rfl
    · rw [if_neg hclaim] at hmap
      exact .same (hmap.trans hget.symm) rfl
  | place j placement =>
    simp only [step, execPlace]
    split
    · next hready => exact turn_of_call hready (by rfl) (by rfl) (by simp) i
    · exact .same rfl rfl
  | cancel j error =>
    simp only [step, execCancel]
    split
    · next hready => exact turn_of_call hready (by rfl) (by rfl) (by simp) i
    · next hready =>
      split
      · exact turn_of_call hready (by rfl) (by rfl) (by simp) i
      · exact turn_of_call hready (by rfl) (by rfl) (by simp) i
    · exact .same rfl rfl
  | commit j =>
    simp only [step, execCommit]
    split
    · next hrun _ => exact turn_of_end hrun (by exact actions_commitPlace j _ _ s) (by rfl) i
    · next hrun _ => exact @turn_of_end s _ j _ Action.succeeded hrun rfl rfl i
    · exact .same rfl rfl
  | rollback j error =>
    have hset : ∀ phase, s.running.get? j = some phase →
        Turn s { s with running := s.running.set j (.raised error) } i := by
      intro phase hrun
      by_cases hij : i = j
      · subst hij
        exact .raised rfl hrun (Dict.get?_set_self _ _ _)
      · exact .same rfl (Dict.get?_set_of_ne (Ne.symm hij) _ _)
    simp only [step, execRollback]
    split
    · next hrun => exact hset _ hrun
    · next hrun => exact hset _ hrun
    · exact .same rfl rfl
  | recover j =>
    simp only [step, execRecover]
    split
    · next error action hrun _ =>
      split
      · exact @turn_of_end s _ j _ (Action.failed error) hrun rfl rfl i
      · exact @turn_of_end s _ j _ (Action.retried error) hrun rfl rfl i
    · exact .same rfl rfl

theorem mem_orders_step (st : Step) {s : State} {order : BrokerOrder}
    (h : order ∈ (step st s).orders.rows) :
    order ∈ s.orders.rows ∨ ∃ action ∈ s.actions, action.status = .claimed ∧
      action.kind.placesExit order.exit := by
  cases st with
  | place i placement =>
    simp only [step, execPlace] at h
    split at h
    · next e payload status n error hready =>
      obtain ⟨-, hget, hstatus⟩ := ready_eq_some hready
      have hmem := mem_of_getElem? hget
      simp only [callPlaceOrder] at h
      split at h
      · exact .inl h
      · exact .inl h
      · exact .inl h
      all_goals
        rcases Keyed.mem_rows_upsert h with rfl | hold
        · exact .inr ⟨_, hmem, hstatus, by simp [ActionKind.placesExit]⟩
        · exact .inl hold.1
    · exact .inl h
  | observe event =>
    simp only [step] at h
    rw [(sameWorld_observe event s).orders] at h
    exact .inl h
  | requestCancel => exact .inl h
  | markInconsistent event =>
    simp only [step, markProjectionInconsistent] at h
    split at h <;> exact .inl h
  | link intent => exact .inl h
  | claim ids => exact .inl h
  | cancel i error =>
    simp only [step, execCancel] at h
    split at h
    · exact .inl h
    · split at h <;> exact .inl h
    · exact .inl h
  | commit i =>
    simp only [step, execCommit, commitPlace] at h
    refine .inl ?_
    repeat' split at h
    all_goals exact h
  | rollback i error =>
    simp only [step, execRollback] at h
    split at h <;> exact .inl h
  | recover i =>
    simp only [step, execRecover] at h
    refine .inl ?_
    repeat' split at h
    all_goals exact h

theorem mem_cancels_step (st : Step) {s : State} {orderId : String} (h : orderId ∈ s.cancels) :
    orderId ∈ (step st s).cancels := by
  cases st with
  | cancel i error =>
    simp only [step, execCancel]
    split
    · exact mem_append_left _ h
    · split <;> exact mem_append_left _ h
    · exact h
  | observe event =>
    simp only [step]
    rw [(sameWorld_observe event s).cancels]
    exact h
  | requestCancel => exact h
  | markInconsistent event =>
    simp only [step, markProjectionInconsistent]
    split <;> exact h
  | link intent => exact h
  | claim ids => exact h
  | place i placement =>
    simp only [step, execPlace]
    split <;> exact h
  | commit i =>
    simp only [step, execCommit, commitPlace]
    repeat' split
    all_goals exact h
  | rollback i error =>
    simp only [step, execRollback]
    split <;> exact h
  | recover i =>
    simp only [step, execRecover]
    repeat' split
    all_goals exact h

end State

end KiteAlgo.Brackets
