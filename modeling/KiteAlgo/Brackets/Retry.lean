import Mathlib
import KiteAlgo.Brackets.Closed

/-!
# KiteAlgo.Brackets.Retry

The attempts at one placement.  The broker creates at most one order for an idempotency
key, and the key of an attempt carries the number of the attempt, so every attempt that
reaches the broker has an order of its own (`get?_attempts`).  An action has more than one
order exactly when an attempt fails after its order was created and a later one is
accepted as well (`one_order_iff`).
-/

namespace KiteAlgo.Brackets

open List Option
/-! ## attempts -/

/-- What the calls of one attempt answer: the broker, and the session that stores the
result. -/
structure Attempt where
  placement : Placement
  commits : Bool
  deriving DecidableEq

namespace Attempt

/-- The broker has the order of the attempt. -/
def accepted (a : Attempt) : Bool :=
  match a.placement with
  | .refused _ => false
  | _ => true

def succeeds (a : Attempt) : Bool :=
  match a.placement with
  | .returned _ => a.commits
  | _ => false

end Attempt

/-- `execute_bracket_action_once` on the action `i`, once it is claimed. -/
def attemptOnce (i : Nat) (a : Attempt) (s : State) : State :=
  let s := (s.claimPendingActions [i]).execPlace i a.placement
  let s := if a.commits then s.execCommit i else s.execRollback i "session failed"
  s.execRecover maxAttempts i

def attempts (i : Nat) : List Attempt → State → State
  | [], s => s
  | a :: rest, s => attempts i rest (attemptOnce i a s)

/-- The attempts that are made, with their numbers, after `c` failed ones: until one goes
through or no more are allowed. -/
def made : Nat → List Attempt → List (Nat × Attempt)
  | _, [] => []
  | c, a :: rest =>
    if c < maxAttempts then (c + 1, a) :: (if a.succeeds then [] else made (c + 1) rest) else []

/-! ## one attempt -/

theorem key_injective (id : String) (e : Exit) {n m : Nat}
    (h : State.idempotencyKey id e n = State.idempotencyKey id e m) : n = m := by
  unfold State.idempotencyKey at h
  exact Nat.repr_injective ((String.append_right_inj _).mp h)

/-- The action `i` places `e`, waits for its next attempt, and `c` have failed. -/
structure Trying (i : Nat) (e : Exit) (c : Nat) (s : State) : Prop where
  action : ∃ payload error, s.actions[i]? = some
    { kind := .place e payload, status := .pending, attemptCount := c, error }
  idle : s.running.get? i = none

/-- The action `i` is over. -/
structure Over (i : Nat) (status : ActionStatus) (s : State) : Prop where
  action : ∃ action, s.actions[i]? = some action ∧ action.status = status
  idle : s.running.get? i = none

theorem claim_of_not_pending {s : State} {i : Nat}
    (h : ∀ action, s.actions[i]? = some action → action.status ≠ .pending) :
    s.claimPendingActions [i] = s := by
  unfold State.claimPendingActions
  have hsame : (s.actions.mapIdx fun j action =>
      if j ∈ [i] ∧ action.status = .pending then action.claimed else action) = s.actions := by
    apply ext_getElem?
    intro j
    rw [getElem?_mapIdx]
    cases hget : s.actions[j]? with
    | none => rfl
    | some action =>
      rw [map_some]
      split
      · next hj =>
        rw [mem_singleton.mp hj.1] at hget
        exact absurd hj.2 (h action hget)
      · rfl
  rw [hsame]

variable {status : ActionStatus}

theorem attemptOnce_of_over {s : State} {i : Nat} (h : Over i status s)
    (hstatus : status ≠ .pending ∧ status ≠ .claimed) (a : Attempt) : attemptOnce i a s = s := by
  obtain ⟨action, hget, hover⟩ := h.action
  have hclaim : s.claimPendingActions [i] = s := by
    apply claim_of_not_pending
    intro action' hget'
    rw [hget] at hget'
    rw [← some.inj hget', hover]
    exact hstatus.1
  have hready : s.ready i = none := by
    have hne : ¬ action.status = .claimed := by rw [hover]; exact hstatus.2
    simp [State.ready, h.idle, hget, hne]
  have hplace : s.execPlace i a.placement = s := by
    unfold State.execPlace
    rw [hready]
  have hcommit : s.execCommit i = s := by
    unfold State.execCommit
    rw [h.idle]
  have hroll : s.execRollback i "session failed" = s := by
    unfold State.execRollback
    rw [h.idle]
  have hrecover : s.execRecover maxAttempts i = s := by
    unfold State.execRecover
    rw [h.idle]
  unfold attemptOnce
  simp only [hclaim, hplace, hcommit, hroll, ite_self, hrecover]

theorem attempts_of_over {s : State} {i : Nat} (h : Over i status s)
    (hstatus : status ≠ .pending ∧ status ≠ .claimed) (as : List Attempt) :
    attempts i as s = s := by
  induction as with
  | nil => rfl
  | cons a as ih => rw [attempts, attemptOnce_of_over h hstatus, ih]

def called (i : Nat) (e : Exit) (c : Nat) (a : Attempt) (s : State) : State :=
  { s.claimPendingActions [i] with
    orders := (State.callPlaceOrder (State.idempotencyKey s.intent.bracketIntentId e (c + 1)) e
      a.placement s.orders).2
    running := s.running.set i (State.callPlaceOrder
      (State.idempotencyKey s.intent.bracketIntentId e (c + 1)) e a.placement s.orders).1 }

theorem getElem?_claim (s : State) (i : Nat) {action : Action} (hget : s.actions[i]? = some action)
    (hpending : action.status = .pending) :
    (s.claimPendingActions [i]).actions[i]? = some action.claimed := by
  unfold State.claimPendingActions
  rw [getElem?_mapIdx, hget, map_some, if_pos ⟨mem_singleton.mpr rfl, hpending⟩]

theorem execPlace_of_trying {s : State} {i : Nat} {e : Exit} {c : Nat} (h : Trying i e c s)
    (a : Attempt) : (s.claimPendingActions [i]).execPlace i a.placement = called i e c a s := by
  obtain ⟨payload, error, hget⟩ := h.action
  have hclaimed := getElem?_claim s i hget rfl
  have hready : (s.claimPendingActions [i]).ready i = some
      { kind := .place e payload, status := .claimed, attemptCount := c, error } := by
    unfold State.ready
    rw [show (s.claimPendingActions [i]).running = s.running from rfl, h.idle, if_pos rfl, hclaimed]
    rfl
  unfold State.execPlace
  rw [hready]
  rfl

section Call

variable {key : String} {e : Exit} {orders : Keyed BrokerOrder.key} {placement : Placement}

theorem get?_callPlaceOrder_of_ne {key' : String} (h : key' ≠ key) :
    (State.callPlaceOrder key e placement orders).2.get? key' = orders.get? key' := by
  unfold State.callPlaceOrder
  split
  all_goals first
    | rfl
    | exact Keyed.get?_upsert_of_ne (fun heq => h heq.symm) orders

theorem isSome_callPlaceOrder (a : Attempt) :
    ((State.callPlaceOrder key e a.placement orders).2.get? key).isSome =
      ((orders.get? key).isSome || a.accepted) := by
  unfold State.callPlaceOrder Attempt.accepted
  cases hget : orders.get? key with
  | some order => cases a.placement <;> simp [hget]
  | none =>
    cases a.placement with
    | refused error => simp [hget]
    | lost orderId error =>
      simp only [isSome_none, Bool.false_or]
      rw [Keyed.get?_upsert, if_pos rfl]
      rfl
    | returned orderId =>
      simp only [isSome_none, Bool.false_or]
      rw [Keyed.get?_upsert, if_pos rfl]
      rfl

theorem callPlaceOrder_returned (answer : String) :
    ∃ order, (State.callPlaceOrder key e (.returned answer) orders).1 = .placed order.orderId ∧
      (State.callPlaceOrder key e (.returned answer) orders).2.get? key = some order := by
  unfold State.callPlaceOrder
  cases hget : orders.get? key with
  | some order => exact ⟨order, rfl, hget⟩
  | none =>
    refine ⟨⟨key, e, answer⟩, rfl, ?_⟩
    simp only
    rw [Keyed.get?_upsert, if_pos rfl]

theorem callPlaceOrder_raised (h : ∀ answer, placement ≠ .returned answer) :
    ∃ error, (State.callPlaceOrder key e placement orders).1 = .raised error := by
  unfold State.callPlaceOrder
  cases placement with
  | refused error => exact ⟨error, by cases orders.get? key <;> rfl⟩
  | lost orderId error => exact ⟨error, by cases orders.get? key <;> rfl⟩
  | returned answer => exact absurd rfl (h answer)

end Call

/-! ## what an attempt leaves -/

section Outcome

variable {s : State} {i c : Nat} {e : Exit} {a : Attempt}

theorem get?_running_called : (called i e c a s).running.get? i = some (State.callPlaceOrder
    (State.idempotencyKey s.intent.bracketIntentId e (c + 1)) e a.placement s.orders).1 :=
  Dict.get?_set_self _ _ _

theorem get?_erase_self (running : Dict Nat Phase) (i : Nat) : (running.erase i).get? i = none := by
  rw [Dict.get?_erase, if_pos rfl]

theorem recover_spec {s : State} {error : String} {action : Action}
    (hrun : s.running.get? i = some (.raised error)) (hget : s.actions[i]? = some action) :
    (s.execRecover maxAttempts i).orders = s.orders ∧
      (s.execRecover maxAttempts i).intent.bracketIntentId = s.intent.bracketIntentId ∧
      (s.execRecover maxAttempts i).running.get? i = none ∧ (s.execRecover maxAttempts i).actions[i]? = some
        (if maxAttempts ≤ action.attemptCount + 1 then action.failed error
         else action.retried error) := by
  unfold State.execRecover
  rw [hrun, hget]
  simp only
  split
  · refine ⟨rfl, rfl, get?_erase_self _ _, ?_⟩
    simp only [State.markActionFailed, State.updateAction, State.actions_updateBracketStatus]
    rw [getElem?_modify, hget]
    simp
  · refine ⟨rfl, rfl, get?_erase_self _ _, ?_⟩
    simp only [State.markActionRetry, State.updateAction]
    rw [getElem?_modify, hget]
    simp

theorem trying_or_over {s' : State} {error : String} (h : Trying i e c s)
    (hintent : s'.intent = s.intent) (hactions : s'.actions = (s.claimPendingActions [i]).actions)
    (hrun : s'.running.get? i = some (.raised error)) :
    (s'.execRecover maxAttempts i).orders = s'.orders ∧
      (s'.execRecover maxAttempts i).intent.bracketIntentId = s.intent.bracketIntentId ∧
      (c + 1 < maxAttempts → Trying i e (c + 1) (s'.execRecover maxAttempts i)) ∧
      (maxAttempts ≤ c + 1 → Over i .failed (s'.execRecover maxAttempts i)) := by
  obtain ⟨payload, old, hget⟩ := h.action
  have hclaimed := getElem?_claim s i hget rfl
  rw [← hactions] at hclaimed
  obtain ⟨horders, hid, hidle, haction⟩ := recover_spec hrun hclaimed
  refine ⟨horders, by rw [hid, hintent], fun hlt => ⟨⟨payload, some error, ?_⟩, hidle⟩,
    fun hge => ⟨⟨_, haction, ?_⟩, hidle⟩⟩
  · rw [haction, if_neg (by simpa [Action.claimed] using hlt)]
    rfl
  · rw [if_pos (by simpa [Action.claimed] using hge)]
    rfl

theorem attemptOnce_of_fails (h : Trying i e c s) (ha : a.succeeds = false) :
    (attemptOnce i a s).orders = (called i e c a s).orders ∧
      (attemptOnce i a s).intent.bracketIntentId = s.intent.bracketIntentId ∧
      (c + 1 < maxAttempts → Trying i e (c + 1) (attemptOnce i a s)) ∧
      (maxAttempts ≤ c + 1 → Over i .failed (attemptOnce i a s)) := by
  have hrun := @get?_running_called s i c e a
  unfold attemptOnce
  simp only [execPlace_of_trying h a]
  by_cases hreturned : ∃ answer, a.placement = .returned answer
  · obtain ⟨answer, hplace⟩ := hreturned
    have hcommits : a.commits = false := by simpa [Attempt.succeeds, hplace] using ha
    obtain ⟨order, hphase, -⟩ := @callPlaceOrder_returned
      (State.idempotencyKey s.intent.bracketIntentId e (c + 1)) e s.orders answer
    rw [hplace, hphase] at hrun
    rw [hcommits]
    have hroll : (called i e c a s).execRollback i "session failed" = { called i e c a s with
          running := (called i e c a s).running.set i (.raised "session failed") } := by
      unfold State.execRollback
      rw [hrun]
    simp only [Bool.false_eq_true, if_false, hroll]
    exact trying_or_over h rfl rfl (Dict.get?_set_self _ _ _)
  · obtain ⟨error, hphase⟩ := @callPlaceOrder_raised
      (State.idempotencyKey s.intent.bracketIntentId e (c + 1)) e s.orders a.placement
      fun answer heq => hreturned ⟨answer, heq⟩
    rw [hphase] at hrun
    have hcommit : (called i e c a s).execCommit i = called i e c a s := by
      unfold State.execCommit
      rw [hrun]
    have hroll : (called i e c a s).execRollback i "session failed" = called i e c a s := by
      unfold State.execRollback
      rw [hrun]
    simp only [hcommit, hroll, ite_self]
    exact trying_or_over h rfl rfl hrun

theorem exit_withOrderId (config : Config) (e : Exit) (orderId : String) :
    ((config.withOrderId e orderId).exit e).brokerOrderId = some orderId := by
  cases e <;> rfl

theorem attemptOnce_of_succeeds (h : Trying i e c s) (ha : a.succeeds) :
    (attemptOnce i a s).orders = (called i e c a s).orders ∧ Over i .succeeded (attemptOnce i a s) ∧
      ∃ order, (called i e c a s).orders.get?
          (State.idempotencyKey s.intent.bracketIntentId e (c + 1)) = some order ∧
        ((attemptOnce i a s).intent.config.exit e).brokerOrderId = some order.orderId := by
  have hrun := @get?_running_called s i c e a
  obtain ⟨payload, old, hget⟩ := h.action
  have hclaimed := getElem?_claim s i hget rfl
  cases hplace : a.placement with
  | refused error => simp [Attempt.succeeds, hplace] at ha
  | lost orderId error => simp [Attempt.succeeds, hplace] at ha
  | returned answer =>
    have hcommits : a.commits := by simpa [Attempt.succeeds, hplace] using ha
    obtain ⟨order, hphase, hkey⟩ := @callPlaceOrder_returned
      (State.idempotencyKey s.intent.bracketIntentId e (c + 1)) e s.orders answer
    rw [hplace, hphase] at hrun
    have hact : (called i e c a s).actions[i]? = some
        (Action.claimed ⟨.place e payload, .pending, c, old⟩) := hclaimed
    have hcommit : (called i e c a s).execCommit i = { (called i e c a s).commitPlace i e order.orderId with
          running := (called i e c a s).running.erase i } := by
      unfold State.execCommit
      rw [hrun, hact]
      rfl
    have hidle := get?_erase_self (called i e c a s).running i
    have hfinal : attemptOnce i a s = { (called i e c a s).commitPlace i e order.orderId with
          running := (called i e c a s).running.erase i } := by
      unfold attemptOnce
      simp only [execPlace_of_trying h a, hcommits, if_true, hcommit]
      unfold State.execRecover
      simp only [hidle]
    rw [hfinal]
    unfold State.commitPlace
    simp only
    have hsucceeded : ((called i e c a s).markActionSucceeded i).actions[i]? = some
        (Action.succeeded (Action.claimed ⟨.place e payload, .pending, c, old⟩)) := by
      unfold State.markActionSucceeded State.updateAction
      rw [getElem?_modify, hact]
      simp
    have hstored : (called i e c a s).orders.get?
        (State.idempotencyKey s.intent.bracketIntentId e (c + 1)) = some order := by
      unfold called
      simp only [hplace]
      exact hkey
    split
    · exact ⟨rfl, ⟨⟨_, hsucceeded, rfl⟩, hidle⟩, order, hstored, exit_withOrderId _ e _⟩
    · exact ⟨rfl, ⟨⟨_, hsucceeded, rfl⟩, hidle⟩, order, hstored, exit_withOrderId _ e _⟩

end Outcome

/-! ## all attempts -/

theorem lt_of_mem_made {c : Nat} {as : List Attempt} {x : Nat × Attempt} (h : x ∈ made c as) :
    c < x.1 := by
  induction as generalizing c with
  | nil => simp [made] at h
  | cons a as ih =>
    rw [made] at h
    split at h
    · cases mem_cons.mp h with
      | inl heq => rw [heq]; exact Nat.lt_succ_self c
      | inr hrest =>
        split at hrest
        · simp at hrest
        · exact Nat.lt_of_succ_lt (ih hrest)
    · simp at h

theorem made_cons {c : Nat} (hc : c < maxAttempts) (a : Attempt) (as : List Attempt) :
    made c (a :: as) = (c + 1, a) :: (if a.succeeds then [] else made (c + 1) as) := by
  rw [made, if_pos hc]

theorem made_of_spent {c : Nat} (hc : maxAttempts ≤ c) (as : List Attempt) : made c as = [] := by
  cases as with
  | nil => rfl
  | cons a as => rw [made, if_neg (by omega)]

/-- The broker or an earlier order of the key gives the attempt an order. -/
def Reaches (e : Exit) (s : State) (x : Nat × Attempt) : Bool :=
  (s.orders.get? (State.idempotencyKey s.intent.bracketIntentId e x.1)).isSome || x.2.accepted

section All

variable {s : State} {i c : Nat} {e : Exit}

theorem get?_attempts_of_not_made (h : Trying i e c s) (hc : c < maxAttempts) (as : List Attempt)
    {key : String}
    (hkey : ∀ x ∈ made c as, key ≠ State.idempotencyKey s.intent.bracketIntentId e x.1) :
    (attempts i as s).orders.get? key = s.orders.get? key := by
  induction as generalizing s c with
  | nil => rfl
  | cons a as ih =>
    rw [made_cons hc, forall_mem_cons] at hkey
    have hcall : (called i e c a s).orders.get? key = s.orders.get? key :=
      get?_callPlaceOrder_of_ne hkey.1
    rw [attempts]
    cases ha : a.succeeds with
    | true =>
      obtain ⟨horders, hover, -⟩ := attemptOnce_of_succeeds h ha
      rw [attempts_of_over hover (by simp), horders, hcall]
    | false =>
      obtain ⟨horders, hid, htrying, hover⟩ := attemptOnce_of_fails h ha
      by_cases hmore : c + 1 < maxAttempts
      · rw [ih (htrying hmore) hmore fun x hx => by
            rw [hid]
            exact hkey.2 x (by simpa [ha] using hx), horders, hcall]
      · rw [attempts_of_over (hover (by omega)) (by simp), horders, hcall]

theorem get?_attempts (h : Trying i e c s) (hc : c < maxAttempts) (as : List Attempt) :
    ∀ x ∈ made c as, ((attempts i as s).orders.get?
      (State.idempotencyKey s.intent.bracketIntentId e x.1)).isSome = Reaches e s x := by
  induction as generalizing s c with
  | nil => simp [made]
  | cons a as ih =>
    have hfirst : ((called i e c a s).orders.get?
        (State.idempotencyKey s.intent.bracketIntentId e (c + 1))).isSome =
        Reaches e s (c + 1, a) := isSome_callPlaceOrder a
    rw [made_cons hc, forall_mem_cons, attempts]
    cases ha : a.succeeds with
    | true =>
      obtain ⟨horders, hover, -⟩ := attemptOnce_of_succeeds h ha
      rw [attempts_of_over hover (by simp), horders]
      exact ⟨hfirst, by simp⟩
    | false =>
      obtain ⟨horders, hid, htrying, hover⟩ := attemptOnce_of_fails h ha
      simp only [Bool.false_eq_true, if_false]
      by_cases hmore : c + 1 < maxAttempts
      · refine ⟨?_, fun x hx => ?_⟩
        · rw [get?_attempts_of_not_made (htrying hmore) hmore as, horders, hfirst]
          intro x hx heq
          rw [hid] at heq
          exact absurd (key_injective _ e heq) (Nat.ne_of_lt (lt_of_mem_made hx))
        · have hlater := ih (htrying hmore) hmore x hx
          rw [hid] at hlater
          rw [hlater, Reaches, Reaches, hid, horders]
          have hne : State.idempotencyKey s.intent.bracketIntentId e x.1 ≠
              State.idempotencyKey s.intent.bracketIntentId e (c + 1) := fun heq =>
            absurd (key_injective _ e heq) (Nat.ne_of_gt (lt_of_mem_made hx))
          rw [show (called i e c a s).orders.get? (State.idempotencyKey s.intent.bracketIntentId e x.1)
            = s.orders.get? (State.idempotencyKey s.intent.bracketIntentId e x.1)
            from get?_callPlaceOrder_of_ne hne]
      · rw [attempts_of_over (hover (by omega)) (by simp), horders, made_of_spent (by omega)]
        exact ⟨hfirst, by simp⟩

theorem stored_of_succeeded (h : Trying i e c s) (hc : c < maxAttempts) (as : List Attempt)
    {action : Action} (hget : (attempts i as s).actions[i]? = some action)
    (hstatus : action.status = .succeeded) :
    ∃ x ∈ made c as, ∃ order, (attempts i as s).orders.get?
        (State.idempotencyKey s.intent.bracketIntentId e x.1) = some order ∧
      ((attempts i as s).intent.config.exit e).brokerOrderId = some order.orderId := by
  induction as generalizing s c with
  | nil =>
    obtain ⟨payload, error, hpending⟩ := h.action
    rw [attempts, hpending] at hget
    rw [← some.inj hget] at hstatus
    exact absurd hstatus (by simp)
  | cons a as ih =>
    rw [attempts] at hget
    rw [made_cons hc, attempts]
    cases ha : a.succeeds with
    | true =>
      obtain ⟨horders, hover, order, horder, hstored⟩ := attemptOnce_of_succeeds h ha
      rw [attempts_of_over hover (by simp)]
      exact ⟨(c + 1, a), by simp, order, by rw [horders]; exact horder, hstored⟩
    | false =>
      obtain ⟨horders, hid, htrying, hover⟩ := attemptOnce_of_fails h ha
      simp only [Bool.false_eq_true, if_false]
      by_cases hmore : c + 1 < maxAttempts
      · obtain ⟨x, hx, order, horder, hstored⟩ := ih (htrying hmore) hmore hget
        rw [hid] at horder
        exact ⟨x, mem_cons_of_mem _ hx, order, horder, hstored⟩
      · rw [attempts_of_over (hover (by omega)) (by simp)] at hget
        obtain ⟨action', hget', hfailed⟩ := (hover (by omega)).action
        rw [hget] at hget'
        rw [← some.inj hget', hstatus] at hfailed
        exact absurd hfailed (by simp)

end All

def ordersOf (e : Exit) (id : String) (orders : Keyed BrokerOrder.key) (xs : List (Nat × Attempt)) :
    List BrokerOrder :=
  xs.filterMap fun x => orders.get? (State.idempotencyKey id e x.1)

theorem countP_le_one_iff {α : Type} (p : α → Bool) (xs : List α) :
    xs.countP p ≤ 1 ↔ xs.Pairwise fun x y => ¬ (p x ∧ p y) := by
  induction xs with
  | nil => simp
  | cons x xs ih =>
    rw [countP_cons, pairwise_cons, ← ih]
    cases hx : p x with
    | false => simp
    | true =>
      have hzero : countP p xs + 1 ≤ 1 ↔ countP p xs = 0 := by omega
      simp only [if_true, true_and, hzero, countP_eq_zero]
      refine ⟨fun hnone => ⟨hnone, ?_⟩, fun h => h.1⟩
      rw [countP_eq_zero.mpr hnone]
      exact Nat.zero_le 1

/-- A placement has at most one order at the broker, and stores it when it succeeds, if and
only if no two of its attempts reach an order: once an attempt has failed after its order
was created, no later one is accepted. -/
theorem one_order_iff {s : State} {i c : Nat} {e : Exit} (h : Trying i e c s)
    (hc : c < maxAttempts) (as : List Attempt) :
    ((ordersOf e s.intent.bracketIntentId (attempts i as s).orders (made c as)).length ≤ 1 ∧
        ∀ action, (attempts i as s).actions[i]? = some action → action.status = .succeeded →
          ∃ order, ordersOf e s.intent.bracketIntentId (attempts i as s).orders (made c as) = [order] ∧
            ((attempts i as s).intent.config.exit e).brokerOrderId = some order.orderId) ↔
      (made c as).Pairwise fun x y => ¬ (Reaches e s x = true ∧ Reaches e s y = true) := by
  have hlength : (ordersOf e s.intent.bracketIntentId (attempts i as s).orders (made c as)).length =
      (made c as).countP (Reaches e s) := by
    rw [ordersOf, List.length_filterMap_eq_countP]
    exact List.countP_congr fun x hx => by rw [get?_attempts h hc as x hx]
  rw [← countP_le_one_iff, ← hlength]
  refine ⟨fun hone => hone.1, fun hone => ⟨hone, fun action hget hstatus => ?_⟩⟩
  obtain ⟨x, hx, order, horder, hstored⟩ := stored_of_succeeded h hc as hget hstatus
  have hmem : order ∈ ordersOf e s.intent.bracketIntentId (attempts i as s).orders (made c as) :=
    List.mem_filterMap.mpr ⟨x, hx, horder⟩
  refine ⟨order, ?_, hstored⟩
  obtain ⟨only, honly⟩ := List.length_eq_one_iff.mp
    (le_antisymm hone (List.length_pos_of_mem hmem))
  rw [honly, List.mem_singleton] at hmem
  rw [honly, hmem]

/-- The bracket with the placement of its stop-loss enqueued. -/
def demoFilled : State := run [demoEvent "E" "COMPLETE" 10] demoBracket

theorem trying_demoFilled : Trying 0 .stoploss 0 demoFilled where
  action := ⟨{ parameters := [("order_type", "SL")] }, none, by decide +kernel⟩
  idle := by decide +kernel

theorem one_order_demo :
    (ordersOf .stoploss "k" (attempts 0 [⟨.refused "margin", true⟩, ⟨.returned "S", true⟩]
      demoFilled).orders (made 0 [⟨.refused "margin", true⟩, ⟨.returned "S", true⟩])).length ≤ 1 :=
  ((one_order_iff trying_demoFilled (by decide)
    [⟨.refused "margin", true⟩, ⟨.returned "S", true⟩]).mpr (by decide +kernel)).1

/-- The broker creates the first order and the answer is lost; the retry carries another key
and creates a second order, and only that one is stored. -/
theorem retry_duplicates_order :
    ((ordersOf .stoploss "k" (attempts 0 [⟨.lost "S1" "timeout", true⟩, ⟨.returned "S2", true⟩]
        demoFilled).orders (made 0 [⟨.lost "S1" "timeout", true⟩, ⟨.returned "S2", true⟩])).map
        BrokerOrder.orderId) = ["S1", "S2"] ∧
      ((attempts 0 [⟨.lost "S1" "timeout", true⟩, ⟨.returned "S2", true⟩]
        demoFilled).intent.config.exit .stoploss).brokerOrderId = some "S2" := by
  decide +kernel

end KiteAlgo.Brackets
