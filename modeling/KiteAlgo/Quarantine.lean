import KiteAlgo.Lib.Blocks
import KiteAlgo.Lib.Dict
import KiteAlgo.Lib.Run

/-!
# KiteAlgo.Quarantine

The failure isolation of the evaluation worker (`runtime.py`, `_dispatch`): failures are
counted for each subscription, and one that fails repeatedly is not dispatched until a
cooldown has passed.

`_dispatch` takes every return of `_dispatch_inner` for a success, and `_dispatch_inner`
catches what `handle_observation` raises and returns.  `quarantine_law_iff`: the law of
the quarantine holds exactly when no attempt raises there.
-/

namespace KiteAlgo.Quarantine

open List Dict
/-! ## one attempt -/

/-- The steps of `_dispatch_inner` that may raise, in their order. -/
inductive Site where
  /-- `candle_history.previous_session_levels`. -/
  | levels
  /-- `_stage_needs_fundamentals`. -/
  | fundamentalsNeeded
  /-- `fundamentals_loader.context_for`. -/
  | fundamentals
  /-- The fundamentals are merged and their age is checked. -/
  | fundamentalsMerge
  /-- `_external_references_for`. -/
  | externalReferences
  /-- `external_loader.context_for`. -/
  | external
  /-- `_pair_operands_for` and `_resolve_pairs`. -/
  | pairs
  /-- `_is_breadth_stage` and `_breadth_membership_for`. -/
  | breadth
  /-- `handle_observation`. -/
  | evaluation
  /-- The counters of the result. -/
  | bookkeeping
  deriving DecidableEq, Repr

/-- What `_dispatch_inner` does with an exception. -/
inductive Handling where
  | escapes
  /-- It is logged, and the attempt goes on without the value. -/
  | goesOn
  /-- It is logged, and `_dispatch_inner` returns. -/
  | returns
  deriving DecidableEq, Repr

namespace Site

def handling : Site → Handling
  | levels | fundamentals | external => .goesOn
  | evaluation => .returns
  | fundamentalsNeeded | fundamentalsMerge | externalReferences | pairs | breadth
  | bookkeeping => .escapes

def order : List Site :=
  [levels, fundamentalsNeeded, fundamentals, fundamentalsMerge, externalReferences, external,
    pairs, breadth, evaluation, bookkeeping]

end Site

/-- A `_dispatch` call: the subscription, the time of the gate, the time when a failure is noted,
and the steps that raise when they are reached. -/
structure Call where
  sub : String
  now : Int
  endedAt : Int
  raises : Site → Bool := fun _ => false

/-- `_dispatch_inner`: whether it returns. -/
def dispatchInner (raises : Site → Bool) : List Site → Bool
  | [] => true
  | site :: rest =>
    if raises site then
      match site.handling with
      | .escapes => false
      | .goesOn => dispatchInner raises rest
      | .returns => true
    else dispatchInner raises rest

namespace Call

/-- The step that ends the attempt with an exception, if one does. -/
def raisesAt (d : Call) : Option Site :=
  Site.order.find? fun site => d.raises site && decide (site.handling ≠ .goesOn)

/-- The attempt raises: its evaluation does not complete. -/
def raised (d : Call) : Bool := d.raisesAt.isSome

end Call

theorem dispatchInner_eq (raises : Site → Bool) (sites : List Site) :
    dispatchInner raises sites =
      match sites.find? fun site => raises site && decide (site.handling ≠ .goesOn) with
      | none => true
      | some site => decide (site.handling = .returns) := by
  induction sites with
  | nil => rfl
  | cons site rest ih =>
    rw [dispatchInner, ih, find?_cons]
    cases raises site with
    | false => rfl
    | true =>
      cases hhandling : site.handling with
      | escapes => simp [hhandling]
      | goesOn => simp
      | returns => simp [hhandling]

/-! ## the worker -/

/-- The quarantine configuration: the threshold is at least one. -/
structure Limits where
  after : Nat
  cooldown : Int
  after_pos : 1 ≤ after

/-- `_sub_failures`, as the counts, and `_quarantined`. -/
structure State where
  failures : Dict String Nat := []
  quarantined : Dict String Int := []

namespace State

def failureCount (s : State) (sub : String) : Nat := (s.failures.get? sub).getD 0

/-- `_is_quarantined`: an elapsed cooldown ends the quarantine. -/
def isQuarantined (s : State) (sub : String) (now : Int) : Bool × State :=
  match s.quarantined.get? sub with
  | none => (false, s)
  | some deadline =>
    if deadline ≤ now then (false, { s with quarantined := s.quarantined.erase sub })
    else (true, s)

/-- `_note_subscription_failure`. -/
def noteFailure (limits : Limits) (sub : String) (now : Int) (s : State) :
    State :=
  let failures := s.failureCount sub + 1
  { failures := s.failures.set sub failures
    quarantined :=
      if limits.after ≤ failures then s.quarantined.set sub (now + limits.cooldown)
      else s.quarantined }

/-- `_note_subscription_success`. -/
def noteSuccess (sub : String) (s : State) : State where
  failures := if s.failureCount sub = 0 then s.failures else s.failures.set sub 0
  quarantined := s.quarantined.erase sub

end State

/-- An evaluation attempt: whether it raised, and when it ended. -/
structure Attempt where
  sub : String
  raised : Bool
  endedAt : Int
  deriving DecidableEq, Repr

def Call.attempt (d : Call) : Attempt := ⟨d.sub, d.raised, d.endedAt⟩

def Attempted (s : State) (d : Call) : Prop :=
  (s.isQuarantined d.sub d.now).1 = false

instance (s : State) (d : Call) : Decidable (Attempted s d) :=
  inferInstanceAs (Decidable (_ = false))

/-- `_dispatch` as a machine that records the attempts. -/
def worker (limits : Limits) :
    Machine Call State Attempt where
  step d s :=
    let gate := s.isQuarantined d.sub d.now
    if gate.1 then gate.2
    else if dispatchInner d.raises Site.order then gate.2.noteSuccess d.sub
    else gate.2.noteFailure limits d.sub d.endedAt
  out d s := if Attempted s d then [d.attempt] else []

/-! ## the law -/

def attemptsOf (sub : String) (attempts : List Attempt) : List Attempt :=
  attempts.filter fun a => decide (a.sub = sub)

/-- What a run of calls says of a subscription: its failure count is the number of raising attempts
since the last one that completed, and it is parked exactly while that number has reached the
threshold, for the cooldown after the last of them. -/
structure Agrees (limits : Limits) (sub : String) (attempts : List Attempt) (s : State) : Prop where
  count : IsLastBlock (fun a => a.raised = true) (attemptsOf sub attempts) (s.failureCount sub)
  parked : s.quarantined.get? sub = if limits.after ≤ s.failureCount sub then
      (attemptsOf sub attempts).getLast?.map fun a => a.endedAt + limits.cooldown
    else none

/-- The law of the quarantine: the counts agree with the attempts after every call, and a call is
skipped exactly when the subscription is parked and the cooldown has not passed. -/
structure Law (limits : Limits) (sub : String) (calls : List Call) : Prop where
  agrees : ∀ past, past <+: calls →
    Agrees limits sub ((worker limits).trace past {}) ((worker limits).run past {})
  gate : AtEach (fun past d => d.sub = sub → (Attempted ((worker limits).run past {}) d ↔
      ¬ (limits.after ≤ ((worker limits).run past {}).failureCount sub ∧
        ∃ a ∈ (attemptsOf sub ((worker limits).trace past {})).getLast?,
          d.now < a.endedAt + limits.cooldown))) calls

/-- No attempt of the subscription raises inside `handle_observation`. -/
def EvaluationsComplete (limits : Limits) (sub : String) (calls : List Call) : Prop :=
  AtEach (fun past d => d.sub = sub → Attempted ((worker limits).run past {}) d →
    d.raisesAt ≠ some .evaluation) calls

section Steps

variable {limits : Limits} {sub : String} {attempts : List Attempt} {s : State} {d : Call}

theorem attemptsOf_concat (a : Attempt) :
    attemptsOf sub (attempts ++ [a]) =
      if a.sub = sub then attemptsOf sub attempts ++ [a] else attemptsOf sub attempts := by
  rw [attemptsOf, filter_append, filter_singleton]
  by_cases h : a.sub = sub <;> simp [attemptsOf, h]

theorem isQuarantined_failures (sub : String) (now : Int) :
    (s.isQuarantined sub now).2.failures = s.failures := by
  unfold State.isQuarantined
  split
  · rfl
  · split <;> rfl

theorem isQuarantined_other {other : String} (hne : sub ≠ other) (now : Int) :
    (s.isQuarantined sub now).2.quarantined.get? other = s.quarantined.get? other := by
  unfold State.isQuarantined
  split
  · rfl
  · split
    · rw [get?_erase, if_neg hne]
    · rfl

theorem isQuarantined_released (h : Attempted s d) :
    (s.isQuarantined d.sub d.now).2.quarantined.get? d.sub = none := by
  unfold Attempted at h
  unfold State.isQuarantined at h ⊢
  split
  · next hnone => exact hnone
  · next deadline hsome =>
      rw [hsome] at h
      split
      · rw [get?_erase, if_pos rfl]
      · next hlater =>
          simp [hlater] at h

theorem step_skipped (h : ¬ Attempted s d) : (worker limits).step d s = s := by
  have hgate : (s.isQuarantined d.sub d.now).1 := by simpa [Attempted] using h
  have hsame : (s.isQuarantined d.sub d.now).2 = s := by
    unfold State.isQuarantined at hgate ⊢
    split
    · rfl
    · next deadline hsome =>
        rw [hsome] at hgate
        split
        · next hpast => simp [hpast] at hgate
        · rfl
  simp only [worker, hgate, if_true, hsame]

theorem step_attempted (h : Attempted s d) :
    (worker limits).step d s =
      if dispatchInner d.raises Site.order then (s.isQuarantined d.sub d.now).2.noteSuccess d.sub
      else (s.isQuarantined d.sub d.now).2.noteFailure limits d.sub d.endedAt := by
  have hgate : (s.isQuarantined d.sub d.now).1 = false := h
  simp only [worker, hgate, Bool.false_eq_true, if_false]

theorem dispatchInner_order (d : Call) :
    dispatchInner d.raises Site.order ↔ d.raised = false ∨ d.raisesAt = some .evaluation := by
  have heq : dispatchInner d.raises Site.order = match d.raisesAt with
      | none => true
      | some site => decide (site.handling = .returns) := dispatchInner_eq d.raises Site.order
  rw [heq, Call.raised]
  cases d.raisesAt with
  | none => simp
  | some site => cases site <;> simp [Site.handling]

theorem failureCount_noteFailure (now : Int) (other : String) :
    (s.noteFailure limits sub now).failureCount other =
      if sub = other then s.failureCount sub + 1 else s.failureCount other := by
  rw [State.failureCount, State.noteFailure, get?_set]
  split <;> rfl

theorem failureCount_noteSuccess (other : String) :
    (s.noteSuccess sub).failureCount other = if sub = other then 0 else s.failureCount other := by
  rw [State.failureCount, State.noteSuccess]
  dsimp only
  split
  · next hzero =>
      split
      · next heq => rw [← heq]; exact hzero
      · rfl
  · rw [get?_set]
    split <;> rfl

theorem Agrees.other (h : Agrees limits sub attempts s) (hne : d.sub ≠ sub) :
    Agrees limits sub (attempts ++ (worker limits).out d s) ((worker limits).step d s) := by
  have hattempts : attemptsOf sub (attempts ++ (worker limits).out d s) = attemptsOf sub attempts := by
    simp only [worker]
    split
    · rw [attemptsOf_concat, if_neg (show ¬ d.attempt.sub = sub from hne)]
    · rw [append_nil]
  have hstep : ((worker limits).step d s).failureCount sub = s.failureCount sub ∧
      ((worker limits).step d s).quarantined.get? sub = s.quarantined.get? sub := by
    by_cases hattempted : Attempted s d
    · have hfailures : (s.isQuarantined d.sub d.now).2.failureCount sub = s.failureCount sub := by
        rw [State.failureCount, isQuarantined_failures]
        rfl
      have hparked := isQuarantined_other (s := s) hne d.now
      rw [step_attempted hattempted]
      split
      · rw [failureCount_noteSuccess, if_neg hne, State.noteSuccess, get?_erase, if_neg hne]
        exact ⟨hfailures, hparked⟩
      · rw [failureCount_noteFailure, if_neg hne, State.noteFailure]
        refine ⟨hfailures, ?_⟩
        dsimp only
        split
        · rw [get?_set_of_ne hne, hparked]
        · exact hparked
    · rw [step_skipped hattempted]
      exact ⟨rfl, rfl⟩
  exact ⟨by rw [hattempts, hstep.1]; exact h.count, by rw [hattempts, hstep.1, hstep.2]; exact h.parked⟩

theorem Agrees.attempted_iff (h : Agrees limits sub attempts s) (hsub : d.sub = sub) :
    Attempted s d ↔ ¬ (limits.after ≤ s.failureCount sub ∧
      ∃ a ∈ (attemptsOf sub attempts).getLast?, d.now < a.endedAt + limits.cooldown) := by
  have hparked := h.parked
  unfold Attempted State.isQuarantined
  rw [hsub, hparked]
  by_cases hafter : limits.after ≤ s.failureCount sub
  · rw [if_pos hafter]
    cases (attemptsOf sub attempts).getLast? with
    | none => simp
    | some a =>
      by_cases hpast : a.endedAt + limits.cooldown ≤ d.now
      · simp [hpast]
      · simp [hpast, hafter, Int.not_le.mp hpast]
  · rw [if_neg hafter]
    simp [hafter]

theorem Agrees.own (h : Agrees limits sub attempts s) (hsub : d.sub = sub)
    (hcompletes : Attempted s d → d.raisesAt ≠ some .evaluation) :
    Agrees limits sub (attempts ++ (worker limits).out d s) ((worker limits).step d s) := by
  subst hsub
  by_cases hattempted : Attempted s d
  · have hout : (worker limits).out d s = [d.attempt] := if_pos hattempted
    have hattempts : attemptsOf d.sub (attempts ++ (worker limits).out d s) =
        attemptsOf d.sub attempts ++ [d.attempt] := by
      rw [hout, attemptsOf_concat, if_pos (show d.attempt.sub = d.sub from rfl)]
    have hfailures : (s.isQuarantined d.sub d.now).2.failureCount d.sub = s.failureCount d.sub := by
      rw [State.failureCount, isQuarantined_failures]
      rfl
    rw [step_attempted hattempted]
    cases hraised : d.raised with
    | true =>
      -- the exception escapes `_dispatch_inner`
      have hescapes : ¬ dispatchInner d.raises Site.order := by
        rw [dispatchInner_order, hraised]
        simpa using hcompletes hattempted
      rw [if_neg hescapes]
      have hcount : ((s.isQuarantined d.sub d.now).2.noteFailure limits d.sub
          d.endedAt).failureCount d.sub = s.failureCount d.sub + 1 := by
        rw [failureCount_noteFailure, if_pos rfl, hfailures]
      constructor
      · rw [hattempts, hcount]
        exact h.count.concat hraised
      · rw [hattempts, hcount, getLast?_concat, State.noteFailure, hfailures]
        dsimp only
        split
        · rw [get?_set, if_pos rfl]
          rfl
        · exact isQuarantined_released hattempted
    | false =>
      have hreturns : dispatchInner d.raises Site.order :=
        (dispatchInner_order d).mpr (Or.inl hraised)
      rw [if_pos hreturns]
      have hcount : ((s.isQuarantined d.sub d.now).2.noteSuccess d.sub).failureCount d.sub = 0 := by
        rw [failureCount_noteSuccess, if_pos rfl]
      constructor
      · rw [hattempts, hcount]
        refine IsLastBlock.concat_of_not ?_
        rw [show d.attempt.raised = false from hraised]
        exact Bool.false_ne_true
      · have hafter := limits.after_pos
        rw [hcount, if_neg (by omega), State.noteSuccess, get?_erase, if_pos rfl]
  · have hout : (worker limits).out d s = [] := if_neg hattempted
    rw [hout, append_nil, step_skipped hattempted]
    exact h

theorem not_agrees_of_evaluation (hsub : d.sub = sub) (hattempted : Attempted s d)
    (hraises : d.raisesAt = some .evaluation) :
    ¬ Agrees limits sub (attempts ++ (worker limits).out d s) ((worker limits).step d s) := by
  intro hagrees
  subst hsub
  have hout : (worker limits).out d s = [d.attempt] := if_pos hattempted
  have hcount : ((worker limits).step d s).failureCount d.sub = 0 := by
    rw [step_attempted hattempted, if_pos ((dispatchInner_order d).mpr (Or.inr hraises)),
      failureCount_noteSuccess, if_pos rfl]
  have hraised : d.attempt.raised := by
    show d.raisesAt.isSome
    rw [hraises]
    rfl
  have hlongest := hagrees.count.longest [d.attempt]
    (by rw [hout, attemptsOf_concat, if_pos (show d.attempt.sub = d.sub from rfl)]
        exact suffix_append _ _)
    (by simpa using hraised)
  rw [hcount] at hlongest
  exact absurd hlongest (by simp)

end Steps

/-! ## the law holds where no evaluation raises -/

section Runs

variable {limits : Limits} {sub : String}

theorem Agrees.initial (limits : Limits) (sub : String) : Agrees limits sub [] {} where
  count := IsLastBlock.nil _
  parked := by
    have hafter := limits.after_pos
    rw [if_neg (show ¬ limits.after ≤ State.failureCount {} sub from by
      rw [show State.failureCount {} sub = 0 from rfl]
      omega)]
    rfl

theorem run_concat (past : List Call) (d : Call) :
    (worker limits).run (past ++ [d]) {} = (worker limits).step d ((worker limits).run past {}) := by
  rw [Machine.run_append]
  rfl

theorem trace_concat (past : List Call) (d : Call) :
    (worker limits).trace (past ++ [d]) {} =
      (worker limits).trace past {} ++ (worker limits).out d ((worker limits).run past {}) := by
  rw [Machine.trace_append, Machine.trace, Machine.trace, append_nil]

theorem EvaluationsComplete.agrees {calls : List Call} (h : EvaluationsComplete limits sub calls) :
    Agrees limits sub ((worker limits).trace calls {}) ((worker limits).run calls {}) := by
  induction calls using reverseRecOn with
  | nil => exact Agrees.initial limits sub
  | append_singleton past d ih =>
    obtain ⟨hpast, hcall⟩ := atEach_concat.mp h
    rw [run_concat, trace_concat]
    by_cases hsub : d.sub = sub
    · exact (ih hpast).own hsub (hcall hsub)
    · exact (ih hpast).other hsub

theorem EvaluationsComplete.of_prefix {past calls : List Call}
    (h : EvaluationsComplete limits sub calls) (hpast : past <+: calls) :
    EvaluationsComplete limits sub past := by
  obtain ⟨rest, rfl⟩ := hpast
  intro before d between hsplit
  exact h before d (between ++ rest) (by rw [hsplit, append_assoc, cons_append])

/-- A failing subscription is quarantined: over every sequence of calls, the failure count is the
number of raising attempts since the last one that completed, and a call is skipped exactly when
that number has reached the threshold and the cooldown has not passed, if and only if no attempt
raises inside `handle_observation`. -/
theorem quarantine_law_iff (limits : Limits) (sub : String) (calls : List Call) :
    Law limits sub calls ↔ EvaluationsComplete limits sub calls := by
  constructor
  · intro hlaw past d rest hcalls hsub hattempted hraises
    have hagrees := hlaw.agrees (past ++ [d]) ⟨rest, by rw [hcalls]; simp⟩
    rw [run_concat, trace_concat] at hagrees
    exact not_agrees_of_evaluation hsub hattempted hraises hagrees
  · intro hcomplete
    constructor
    · intro past hpast
      exact (hcomplete.of_prefix hpast).agrees
    · intro past d rest hcalls hsub
      exact (hcomplete.of_prefix ⟨d :: rest, hcalls.symm⟩).agrees.attempted_iff hsub

end Runs

/-- Three failures park a subscription for ten minutes. -/
def threeFailures : Limits := ⟨3, 600, by decide⟩

/-- A call at a second whose evaluation raises. -/
def crashingCall (t : Int) : Call := { sub := "s", now := t, endedAt := t, raises := (· = .evaluation) }

def crashing : List Call := [0, 1, 2, 3, 4].map crashingCall

/-- Five evaluations in a row raise: all five are attempted, and none of them is counted. -/
theorem crashing_is_not_quarantined :
    ¬ Law threeFailures "s" crashing ∧ (worker threeFailures).trace crashing {} =
        [0, 1, 2, 3, 4].map (fun t => (⟨"s", true, t⟩ : Attempt)) ∧
      ((worker threeFailures).run crashing {}).failureCount "s" = 0 := by
  refine ⟨fun hlaw => ?_, by decide +kernel, by decide +kernel⟩
  have hagrees : Agrees threeFailures "s" ([] ++ (worker threeFailures).out (crashingCall 0) {})
      ((worker threeFailures).step (crashingCall 0) {}) :=
    hlaw.agrees (crashing.take 1) (List.take_prefix 1 crashing)
  have hattempted : Attempted {} (crashingCall 0) := by decide +kernel
  exact not_agrees_of_evaluation rfl hattempted (by decide +kernel) hagrees

end KiteAlgo.Quarantine
