import KiteAlgo.Algo.Kernel

/-!
# KiteAlgo.Algo.Patches

The state patches of one instance when its dispatches interleave at their awaits.

A dispatch reads the hot state, evaluates, and writes the whole state back, so it undoes
what another one has written in between; and the hot state is written before the checkpoint
and the status, whose calls may still raise.  `patches_kept` is the law where neither
happens.
-/

namespace KiteAlgo.Algo

open List Bool
variable {F : Type} [PyFloat F]

/-- A dispatch under way, with the number of writes of the hot state before it read it. -/
structure Running (F : Type) where
  readAt : Nat
  call : Call F

/-- The instance, the dispatches started on it, and how often its hot state was written. -/
structure Dispatches (F : Type) where
  inst : Instance F
  calls : List (Running F) := []
  writes : Nat := 0

/-- What the event loop does next: a trigger is dispatched, or a dispatch goes on. -/
inductive DispatchEvent (F : Type) where
  | start (d : Dispatch F)
  | resume (i : Nat)

/-- The end of the awaited call writes the hot state. -/
def Call.writesHot (c : Call F) : Bool :=
  decide (c.stage = .setHotState) && (c.request.ends .setHotState).effective

def Dispatches.advance (s : Dispatches F) (i : Nat) (r : Running F) : Dispatches F where
  inst := (r.call.step s.inst).2
  calls := s.calls.set i ⟨r.readAt, (r.call.step s.inst).1⟩
  writes := if r.call.writesHot then s.writes + 1 else s.writes

/-- The dispatches of an instance as a machine that records the patches of a dispatch when it
returns without an error. -/
def dispatches : Machine (DispatchEvent F) (Dispatches F) (List (HotState F)) where
  step
    | .start d, s => { s with calls := s.calls ++ [⟨s.writes, d.begin s.inst⟩] }
    | .resume i, s =>
      match s.calls[i]? with
      | none => s
      | some r => s.advance i r
  out
    | .start _, _ => []
    | .resume i, s =>
      match s.calls[i]? with
      | none => []
      | some r =>
        if r.call.stage ≠ .returned ∧ (r.call.step s.inst).1.stage = .returned then
          [patchesOf r.call.actions]
        else []

/-- The hot state is the fold of the patches of the dispatches that returned, in the order of
their ends, and the dispatches that failed changed nothing. -/
structure PatchesKept (inst : Instance F) (events : List (DispatchEvent F)) : Prop where
  folded : (∀ r ∈ (dispatches.run events ⟨inst, [], 0⟩).calls, r.call.stage.isOver = true) →
    (dispatches.run events ⟨inst, [], 0⟩).inst.hotState =
      (dispatches.trace events ⟨inst, [], 0⟩).flatten.foldl Dict.update inst.hotState
  failed : AtEach (fun past e => ∀ i, e = .resume i →
    (∃ r, (dispatches.run events ⟨inst, [], 0⟩).calls[i]? = some r ∧ r.call.stage = .failed) →
    (dispatches.run (past ++ [e]) ⟨inst, [], 0⟩).inst = (dispatches.run past ⟨inst, [], 0⟩).inst)
    events

/-! ## the condition -/

/-- The dispatch has written the hot state and is not over. -/
def Stage.hasWritten : Stage → Bool
  | .setCheckpoint | .saveCheckpoint | .updateStatus | .adopt => true
  | _ => false

/-- The call that a stage awaits, when it may raise. -/
def Stage.awaited : Stage → Option Await
  | .evaluate => some .evaluate
  | .execute => some .execute
  | .setHotState => some .setHotState
  | .setCheckpoint => some .setCheckpoint
  | .saveCheckpoint => some .saveCheckpoint
  | .updateStatus => some .updateStatus
  | .adopt | .returned | .failed | .skipped => none

/-- The step of a dispatch meets the hot state as the dispatch left it: no other one has written
it since this one read it, and from its own write on no call raises. -/
def Running.Undisturbed (r : Running F) (writes : Nat) : Prop :=
  (r.call.writesHot = true → r.call.request.ends .setHotState = .returns ∧ writes = r.readAt) ∧
  (r.call.stage.hasWritten = true → (∀ label ∈ r.call.stage.awaited, r.call.request.ends label = .returns) ∧
      writes = r.readAt + 1)

instance (r : Running F) (writes : Nat) : Decidable (r.Undisturbed writes) :=
  inferInstanceAs (Decidable ((_ → _ ∧ _) ∧ (_ → (∀ _ ∈ r.call.stage.awaited, _) ∧ _)))

/-- The step that an event takes, if any, does. -/
def Undisturbed (s : Dispatches F) : DispatchEvent F → Prop
  | .start _ => True
  | .resume i => ∀ r ∈ s.calls[i]?, r.Undisturbed s.writes

instance (s : Dispatches F) : (e : DispatchEvent F) → Decidable (Undisturbed s e)
  | .start _ => .isTrue trivial
  | .resume i => inferInstanceAs (Decidable (∀ r ∈ s.calls[i]?, r.Undisturbed s.writes))

/-! ## one step of a dispatch -/

section Steps

variable {r : Running F} {inst : Instance F} {writes : Nat}

theorem step_call (c : Call F) (s : Instance F) : ∃ stage, (c.step s).1 = { c with stage := stage } := by
  have hawait : ∀ label write next, ∃ stage,
      (c.await label write next s).1 = { c with stage := stage } := by
    intro label write next
    unfold Call.await
    split <;> exact ⟨_, rfl⟩
  unfold Call.step
  split
  case h_7 => exact ⟨_, rfl⟩
  case h_8 | h_9 | h_10 => exact ⟨c.stage, rfl⟩
  all_goals exact hawait _ _ _

theorem step_actions (c : Call F) (s : Instance F) : (c.step s).1.actions = c.actions := by
  obtain ⟨stage, hstage⟩ := step_call c s
  rw [hstage]
  rfl

theorem step_original (c : Call F) (s : Instance F) : (c.step s).1.original = c.original := by
  obtain ⟨stage, hstage⟩ := step_call c s
  rw [hstage]

/-- What an undisturbed step does: nothing to the instance, or it writes the hot state that the
dispatch read with its patches, or it goes on after that write. -/
inductive Advance (r : Running F) (inst : Instance F) (writes : Nat) : Prop
  | idle (hbefore : r.call.stage.hasWritten = false) (hinst : (r.call.step inst).2 = inst)
      (hwrites : r.call.writesHot = false)
      (hafter : (r.call.step inst).1.stage.hasWritten = false)
      (hreturned : (r.call.step inst).1.stage = .returned ↔ r.call.stage = .returned)
  | write (hbefore : r.call.stage.hasWritten = false) (hread : writes = r.readAt)
      (hinst : (r.call.step inst).2 = { inst with hotState := r.call.pending })
      (hwrites : r.call.writesHot = true) (hafter : (r.call.step inst).1.stage = .setCheckpoint)
  | finish (hbefore : r.call.stage.hasWritten = true) (hread : writes = r.readAt + 1)
      (hhot : (r.call.step inst).2.hotState = inst.hotState) (hwrites : r.call.writesHot = false)
      (hafter : (r.call.step inst).1.stage.hasWritten = true ∨ (r.call.step inst).1.stage = .returned)

theorem advance_idle (next : Stage) (hbefore : r.call.stage.hasWritten = false)
    (hwrites : r.call.writesHot = false) (hreturned : r.call.stage ≠ .returned)
    (hnext : next.hasWritten = false) (hne : next ≠ .returned)
    (hstep : (r.call.step inst).2 = inst ∧
      ((r.call.step inst).1.stage = next ∨ (r.call.step inst).1.stage = .failed)) :
    Advance r inst writes := by
  refine .idle hbefore hstep.1 hwrites ?_ ?_
  · rcases hstep.2 with h | h <;> rw [h]
    · exact hnext
    · rfl
  · rcases hstep.2 with h | h <;> rw [h]
    · exact iff_of_false hne hreturned
    · exact iff_of_false Stage.noConfusion hreturned

theorem Running.Undisturbed.advance (h : r.Undisturbed writes) (inst : Instance F) :
    Advance r inst writes := by
  obtain ⟨hwrite, hfinish⟩ := h
  have hno : r.call.stage ≠ .setHotState → r.call.writesHot = false := by
    intro hne
    simp [Call.writesHot, hne]
  cases hstage : r.call.stage with
  | evaluate =>
    refine advance_idle .execute (by rw [hstage]; rfl) (hno (by rw [hstage]; simp))
      (by rw [hstage]; simp) rfl (by simp) ?_
    rw [Call.step, hstage]
    exact r.call.await_id .evaluate .execute inst
  | execute =>
    refine advance_idle .setHotState (by rw [hstage]; rfl) (hno (by rw [hstage]; simp))
      (by rw [hstage]; simp) rfl (by simp) ?_
    rw [Call.step, hstage]
    exact r.call.await_id .execute .setHotState inst
  | setHotState =>
    cases hends : (r.call.request.ends .setHotState).effective with
    | true =>
      have hwrites : r.call.writesHot := by simp [Call.writesHot, hstage, hends]
      obtain ⟨hreturns, hread⟩ := hwrite hwrites
      have hstep : r.call.step inst =
          ({ r.call with stage := .setCheckpoint }, { inst with hotState := r.call.pending }) := by
        rw [Call.step, hstage]
        exact Call.await_returns hreturns _ _ _
      exact .write (by rw [hstage]; rfl) hread (by rw [hstep]) hwrites (by rw [hstep])
    | false =>
      have hraises : r.call.request.ends .setHotState = .raises false := by
        cases hending : r.call.request.ends .setHotState with
        | returns => rw [hending] at hends; cases hends
        | raises done => rw [hending] at hends; exact congrArg Ending.raises hends
      have hstep : r.call.step inst = ({ r.call with stage := .failed }, inst) := by
        rw [Call.step, hstage]
        simp only [Call.await, hraises]
      refine .idle (by rw [hstage]; rfl) (by rw [hstep]) ?_ (by rw [hstep]; rfl)
        (by rw [hstep, hstage]; simp)
      simp [Call.writesHot, hends]
  | setCheckpoint =>
    obtain ⟨hreturns, hread⟩ := hfinish (by rw [hstage]; rfl)
    have hstep : r.call.step inst = ({ r.call with stage := .saveCheckpoint },
        { inst with checkpoint := some r.call.checkpoint }) := by
      rw [Call.step, hstage]
      exact Call.await_returns (hreturns _ (by rw [hstage]; rfl)) _ _ _
    exact .finish (by rw [hstage]; rfl) hread (by rw [hstep]) (hno (by rw [hstage]; simp))
      (.inl (by rw [hstep]; rfl))
  | saveCheckpoint =>
    obtain ⟨hreturns, hread⟩ := hfinish (by rw [hstage]; rfl)
    have hstep : r.call.step inst =
        ({ r.call with stage := if r.call.desired.isSome then .updateStatus else .returned },
          { inst with savedCheckpoint := some r.call.checkpoint }) := by
      rw [Call.step, hstage]
      exact Call.await_returns (hreturns _ (by rw [hstage]; rfl)) _ _ _
    refine .finish (by rw [hstage]; rfl) hread (by rw [hstep]) (hno (by rw [hstage]; simp)) ?_
    rw [hstep]
    dsimp only
    split
    · exact .inl rfl
    · exact .inr rfl
  | updateStatus =>
    obtain ⟨hreturns, hread⟩ := hfinish (by rw [hstage]; rfl)
    have hstep : r.call.step inst = ({ r.call with stage := if inst.row.isSome then .adopt else .returned },
          { inst with row := inst.row.bind fun _ => r.call.desired }) := by
      rw [Call.step, hstage]
      exact Call.await_returns (hreturns _ (by rw [hstage]; rfl)) _ _ _
    refine .finish (by rw [hstage]; rfl) hread (by rw [hstep]) (hno (by rw [hstage]; simp)) ?_
    rw [hstep]
    dsimp only
    split
    · exact .inl rfl
    · exact .inr rfl
  | adopt =>
    have hread := (hfinish (by rw [hstage]; rfl)).2
    have hstep : r.call.step inst =
        ({ r.call with stage := .returned }, { inst with loaded := r.call.desired }) := by
      rw [Call.step, hstage]
    exact .finish (by rw [hstage]; rfl) hread (by rw [hstep]) (hno (by rw [hstage]; simp))
      (.inr (by rw [hstep]))
  | returned | failed | skipped =>
    have hstep : r.call.step inst = (r.call, inst) := by
      rw [Call.step, hstage]
    refine .idle (by rw [hstage]; rfl) (by rw [hstep]) (hno (by rw [hstage]; simp)) ?_
      (by rw [hstep])
    rw [hstep, hstage]
    rfl

end Steps

/-! ## runs -/

theorem mem_set_cases {α : Type} {xs : List α} {i : Nat} {x y : α} (h : y ∈ xs.set i x) :
    (∃ j, xs[j]? = some y ∧ j ≠ i) ∨ y = x := by
  obtain ⟨j, hj⟩ := mem_iff_getElem?.mp h
  rw [getElem?_set] at hj
  by_cases hij : i = j
  · grind
  · rw [if_neg hij] at hj
    exact .inl ⟨j, hj, Ne.symm hij⟩

/-- What the hot state is, as long as the steps are undisturbed: the fold of the patches of the
dispatches that returned, and of the one that has written it and will return.  A dispatch whose
write was overtaken by another one does not return undisturbed. -/
inductive Hot (base : HotState F) (done : List (HotState F)) (s : Dispatches F) : Prop
  | settled (hhot : s.inst.hotState = done.foldl Dict.update base)
      (hnone : ∀ r ∈ s.calls, r.call.stage.hasWritten = false)
  | written (i : Nat) (r : Running F) (hi : s.calls[i]? = some r)
      (hwritten : r.call.stage.hasWritten = true) (hcurrent : s.writes = r.readAt + 1)
      (hhot : s.inst.hotState = (done ++ patchesOf r.call.actions).foldl Dict.update base)
      (honly : ∀ j r', s.calls[j]? = some r' → r'.call.stage.hasWritten = true → j = i)
  | overtaken (i : Nat) (r : Running F) (hi : s.calls[i]? = some r)
      (hwritten : r.call.stage.hasWritten = true) (hlt : r.readAt + 1 < s.writes)

/-- A dispatch knows the hot state until it is written again. -/
def Reads (s : Dispatches F) : Prop :=
  ∀ r ∈ s.calls, r.readAt ≤ s.writes ∧ (r.readAt = s.writes → r.call.original = s.inst.hotState)

omit [PyFloat F] in
theorem begin_stage (d : Dispatch F) (inst : Instance F) :
    (d.begin inst).stage.hasWritten = false ∧ (d.begin inst).original = inst.hotState := by
  unfold Dispatch.begin
  split
  · exact ⟨rfl, rfl⟩
  · split <;> exact ⟨rfl, rfl⟩

theorem reads_start {s : Dispatches F} (h : Reads s) (d : Dispatch F) :
    Reads (dispatches.step (.start d) s) := by
  intro r hr
  rcases mem_append.mp hr with hold | hnew
  · exact h r hold
  · rw [mem_singleton.mp hnew]
    exact ⟨Nat.le_refl _, fun _ => (begin_stage d s.inst).2⟩

theorem reads_advance {s : Dispatches F} (h : Reads s) {i : Nat} {r : Running F}
    (hi : s.calls[i]? = some r) (hadvance : Advance r s.inst s.writes) :
    Reads (s.advance i r) := by
  have hr := h r (mem_of_getElem? hi)
  have hkeep : ∀ r' ∈ (s.advance i r).calls,
      ∃ r₀ ∈ s.calls, r'.readAt = r₀.readAt ∧ r'.call.original = r₀.call.original := by
    intro r' hr'
    rcases mem_set_cases hr' with ⟨j, hj, -⟩ | rfl
    · exact ⟨r', mem_of_getElem? hj, rfl, rfl⟩
    · exact ⟨r, mem_of_getElem? hi, rfl, step_original r.call s.inst⟩
  intro r' hr'
  obtain ⟨r₀, hr₀, hreadAt, horiginal⟩ := hkeep r' hr'
  obtain ⟨hle, hsame⟩ := h r₀ hr₀
  rw [hreadAt, horiginal]
  cases hadvance with
  | idle _ hinst hwrites _ _ =>
    simp only [Dispatches.advance, hwrites, hinst, false_eq_true, if_false]
    exact ⟨hle, hsame⟩
  | write _ _ _ hwrites _ =>
    simp only [Dispatches.advance, hwrites, if_true]
    exact ⟨by omega, fun heq => by omega⟩
  | finish _ _ hhot hwrites _ =>
    simp only [Dispatches.advance, hwrites, hhot, false_eq_true, if_false]
    exact ⟨hle, hsame⟩

section Advance

variable {base : HotState F} {done : List (HotState F)} {s : Dispatches F} {i : Nat}
  {r : Running F}

theorem advance_other {j : Nat} (hne : j ≠ i) : (s.advance i r).calls[j]? = s.calls[j]? := by
  simp only [Dispatches.advance, getElem?_set_ne (Ne.symm hne)]

theorem advance_self (hi : s.calls[i]? = some r) :
    (s.advance i r).calls[i]? = some ⟨r.readAt, (r.call.step s.inst).1⟩ := by
  obtain ⟨hlt, -⟩ := List.getElem?_eq_some_iff.mp hi
  simp only [Dispatches.advance, getElem?_set_self hlt]

theorem Hot.quiet (h : Hot base done s) (hi : s.calls[i]? = some r)
    (hhot : (s.advance i r).inst.hotState = s.inst.hotState)
    (hwrites : (s.advance i r).writes = s.writes)
    (hstage : (r.call.step s.inst).1.stage.hasWritten = r.call.stage.hasWritten) :
    Hot base done (s.advance i r) := by
  have hactions := step_actions r.call s.inst
  -- the call at an index is the old one, or the one that took the step
  have hcall : ∀ (j : Nat) (r' : Running F), (s.advance i r).calls[j]? = some r' →
      ∃ r₀ : Running F, s.calls[j]? = some r₀ ∧ r'.call.stage.hasWritten = r₀.call.stage.hasWritten := by
    intro j r' hj
    by_cases hij : j = i
    · subst hij
      rw [advance_self hi, Option.some.injEq] at hj
      exact ⟨r, hi, by rw [← hj]; exact hstage⟩
    · rw [advance_other hij] at hj
      exact ⟨r', hj, rfl⟩
  have hkept : ∀ (j : Nat) (r₀ : Running F), s.calls[j]? = some r₀ →
      ∃ r' : Running F, (s.advance i r).calls[j]? = some r' ∧
      r'.call.stage.hasWritten = r₀.call.stage.hasWritten ∧ r'.readAt = r₀.readAt ∧
      r'.call.actions = r₀.call.actions := by
    intro j r₀ hj
    by_cases hij : j = i
    · subst hij
      obtain rfl : r = r₀ := Option.some.inj (hi.symm.trans hj)
      exact ⟨_, advance_self hi, hstage, rfl, hactions⟩
    · exact ⟨r₀, by rw [advance_other hij, hj], rfl, rfl, rfl⟩
  cases h with
  | settled hbase hnone =>
    refine .settled (hhot.trans hbase) fun r' hr' => ?_
    obtain ⟨j, hj⟩ := mem_iff_getElem?.mp hr'
    obtain ⟨r₀, hj₀, hsame⟩ := hcall j r' hj
    rw [hsame]
    exact hnone r₀ (mem_of_getElem? hj₀)
  | written j r₀ hj hwritten hcurrent hbase honly =>
    obtain ⟨r', hj', hsame, hread, hactions'⟩ := hkept j r₀ hj
    refine .written j r' hj' (hsame.trans hwritten) (by rw [hwrites, hread, hcurrent])
      (by rw [hhot, hbase, hactions']) fun j' r'' hj'' hw => ?_
    obtain ⟨r₁, hj₁, hsame₁⟩ := hcall j' r'' hj''
    exact honly j' r₁ hj₁ (hsame₁.symm.trans hw)
  | overtaken j r₀ hj hwritten hlt =>
    obtain ⟨r', hj', hsame, hread, -⟩ := hkept j r₀ hj
    exact .overtaken j r' hj' (hsame.trans hwritten) (by rw [hwrites, hread]; exact hlt)

theorem Hot.advance (h : Hot base done s) (hreads : Reads s) (hi : s.calls[i]? = some r)
    (hadvance : Advance r s.inst s.writes) :
    Hot base (done ++ (dispatches.out (.resume i) s).flatten) (s.advance i r) := by
  have hactions := step_actions r.call s.inst
  have hout : dispatches.out (.resume i) s =
      if r.call.stage ≠ .returned ∧ (r.call.step s.inst).1.stage = .returned then
        [patchesOf r.call.actions] else [] := by
    simp only [dispatches, hi]
  rw [hout]
  cases hadvance with
  | idle hbefore hinst hwrites hafter hreturned =>
    have hnone : ¬ (r.call.stage ≠ .returned ∧ (r.call.step s.inst).1.stage = .returned) :=
      fun hnew => hnew.1 (hreturned.mp hnew.2)
    rw [if_neg hnone, flatten_nil, append_nil]
    refine h.quiet hi ?_ ?_ (hafter.trans hbefore.symm)
    · simp only [Dispatches.advance, hinst]
    · simp only [Dispatches.advance, hwrites, false_eq_true, if_false]
  | write hbefore hread hinst hwrites hafter =>
    have hnone : ¬ (r.call.stage ≠ .returned ∧ (r.call.step s.inst).1.stage = .returned) := by
      rw [hafter]
      exact fun hnew => Stage.noConfusion hnew.2
    rw [if_neg hnone, flatten_nil, append_nil]
    have hnext : (s.advance i r).writes = s.writes + 1 := by
      simp only [Dispatches.advance, hwrites, if_true]
    have hself := advance_self hi
    have hne : ∀ (j : Nat) (r' : Running F), s.calls[j]? = some r' → r'.call.stage.hasWritten →
        j ≠ i := by
      rintro j r' hj hw rfl
      obtain rfl : r = r' := Option.some.inj (hi.symm.trans hj)
      rw [hbefore] at hw
      exact Bool.false_ne_true hw
    cases h with
    | settled hbase hnone' =>
      refine .written i _ hself (by rw [hafter]; rfl) (by rw [hnext, hread]) ?_ ?_
      · have horiginal := (hreads r (mem_of_getElem? hi)).2 hread.symm
        simp only [Dispatches.advance, hinst, hactions]
        rw [Call.pending, pendingState, horiginal, hbase, foldl_append]
      · intro j r' hj hw
        by_contra hij
        rw [advance_other hij] at hj
        have hnot := hnone' r' (mem_of_getElem? hj)
        rw [hw] at hnot
        exact Bool.false_ne_true hnot.symm
    | written j r₀ hj hwritten hcurrent _ _ =>
      refine .overtaken j r₀ ?_ hwritten (by omega)
      rw [advance_other (hne j r₀ hj hwritten), hj]
    | overtaken j r₀ hj hwritten hlt =>
      refine .overtaken j r₀ ?_ hwritten (by omega)
      rw [advance_other (hne j r₀ hj hwritten), hj]
  | finish hbefore hread hhot hwrites hafter =>
    have hsame : (s.advance i r).inst.hotState = s.inst.hotState := hhot
    have hnext : (s.advance i r).writes = s.writes := by
      simp only [Dispatches.advance, hwrites, false_eq_true, if_false]
    have hnot : r.call.stage ≠ .returned := by
      intro heq
      rw [heq] at hbefore
      cases hbefore
    rcases hafter with hafter | hafter
    · have hnone : ¬ (r.call.stage ≠ .returned ∧ (r.call.step s.inst).1.stage = .returned) := by
        rintro ⟨-, heq⟩
        rw [heq] at hafter
        cases hafter
      rw [if_neg hnone, flatten_nil, append_nil]
      exact h.quiet hi hsame hnext (hafter.trans hbefore.symm)
    · rw [if_pos ⟨hnot, hafter⟩, flatten_singleton]
      cases h with
      | settled _ hnone =>
        rw [hnone r (mem_of_getElem? hi)] at hbefore
        cases hbefore
      | written j r₀ hj hwritten hcurrent hbase honly =>
        obtain rfl := honly i r hi hbefore
        obtain rfl : r = r₀ := Option.some.inj (hi.symm.trans hj)
        refine .settled (hsame.trans hbase) fun r' hr' => ?_
        rcases mem_set_cases hr' with ⟨j', hj', hne⟩ | rfl
        · by_contra hw
          exact hne (honly j' r' hj' (by simpa using hw))
        · rw [hafter]
          rfl
      | overtaken j r₀ hj hwritten hlt =>
        have hne : j ≠ i := by
          rintro rfl
          obtain rfl : r = r₀ := Option.some.inj (hi.symm.trans hj)
          omega
        exact .overtaken j r₀ (by rw [advance_other hne, hj]) hwritten (by omega)

end Advance

variable {e : DispatchEvent F}

theorem hot_step {base : HotState F} {past : List (List (HotState F))} {s : Dispatches F}
    (h : Hot base past.flatten s ∧ Reads s) (hcalm : Undisturbed s e) :
    Hot base (past ++ dispatches.out e s).flatten (dispatches.step e s) ∧ Reads (dispatches.step e s) := by
  rw [flatten_append]
  cases e with
  | start d =>
    refine ⟨?_, reads_start h.2 d⟩
    have hnew : (d.begin s.inst).stage.hasWritten = false := (begin_stage d s.inst).1
    have hold : ∀ {j : Nat} {r : Running F}, s.calls[j]? = some r →
        (s.calls ++ [⟨s.writes, d.begin s.inst⟩])[j]? = some r := by
      intro j r hj
      rw [getElem?_append_left (List.getElem?_eq_some_iff.mp hj).1]
      exact hj
    show Hot base (past.flatten ++ []) ⟨s.inst, s.calls ++ [⟨s.writes, d.begin s.inst⟩], s.writes⟩
    rw [append_nil]
    cases h.1 with
    | settled hbase hnone =>
      refine .settled hbase fun r hr => ?_
      rcases mem_append.mp hr with hr | hr
      · exact hnone r hr
      · rw [mem_singleton.mp hr]
        exact hnew
    | written j r hj hwritten hcurrent hbase honly =>
      refine .written j r (hold hj) hwritten hcurrent hbase fun j' r' hj' hw => ?_
      by_cases hlt : j' < s.calls.length
      · rw [getElem?_append_left hlt] at hj'
        exact honly j' r' hj' hw
      · rw [getElem?_append_right (Nat.le_of_not_lt hlt)] at hj'
        have hr' := mem_singleton.mp (mem_of_getElem? hj')
        rw [hr', hnew] at hw
        cases hw
    | overtaken j r hj hwritten hlt => exact .overtaken j r (hold hj) hwritten hlt
  | resume i =>
    cases hi : s.calls[i]? with
    | none =>
      have hstep : dispatches.step (.resume i) s = s := by simp only [dispatches, hi]
      have hout : dispatches.out (.resume i) s = [] := by simp only [dispatches, hi]
      rw [hstep, hout, flatten_nil, append_nil]
      exact h
    | some r =>
      have hstep : dispatches.step (.resume i) s = s.advance i r := by
        simp only [dispatches, hi]
      have hadvance := (hcalm r hi).advance s.inst
      rw [hstep]
      exact ⟨h.1.advance h.2 hi hadvance, reads_advance h.2 hi hadvance⟩

/-- The dispatch has written the hot state, or returned without an error. -/
def Stage.Succeeds (stage : Stage) : Prop := stage.hasWritten = true ∨ stage = .returned

theorem succeeds_step {s : Dispatches F} (hcalm : Undisturbed s e) {j : Nat}
    (h : ∃ r, s.calls[j]? = some r ∧ r.call.stage.Succeeds) :
    ∃ r, (dispatches.step e s).calls[j]? = some r ∧ r.call.stage.Succeeds := by
  obtain ⟨r, hj, hsucceeds⟩ := h
  cases e with
  | start d =>
    refine ⟨r, ?_, hsucceeds⟩
    show (s.calls ++ _)[j]? = some r
    rw [getElem?_append_left (List.getElem?_eq_some_iff.mp hj).1, hj]
  | resume i =>
    cases hi : s.calls[i]? with
    | none =>
      rw [show dispatches.step (.resume i) s = s by simp only [dispatches, hi]]
      exact ⟨r, hj, hsucceeds⟩
    | some r₀ =>
      rw [show dispatches.step (.resume i) s = s.advance i r₀ by simp only [dispatches, hi]]
      by_cases hij : j = i
      · subst hij
        obtain rfl : r₀ = r := Option.some.inj (hi.symm.trans hj)
        refine ⟨_, advance_self hi, ?_⟩
        cases (hcalm r₀ hi).advance s.inst with
        | idle hbefore _ _ _ hreturned =>
          refine .inr (hreturned.mpr (hsucceeds.resolve_left ?_))
          rw [hbefore]
          exact Bool.false_ne_true
        | write _ _ _ _ hafter => exact .inl (by rw [hafter]; rfl)
        | finish _ _ _ _ hafter => exact hafter
      · exact ⟨r, by rw [advance_other hij, hj], hsucceeds⟩

theorem succeeds_of_change {s : Dispatches F} {i : Nat} (hcalm : Undisturbed s (.resume i))
    (hchange : (dispatches.step (.resume i) s).inst ≠ s.inst) :
    ∃ r, (dispatches.step (.resume i) s).calls[i]? = some r ∧ r.call.stage.Succeeds := by
  cases hi : s.calls[i]? with
  | none =>
    rw [show dispatches.step (.resume i) s = s by simp only [dispatches, hi]] at hchange
    exact absurd rfl hchange
  | some r =>
    have hstep : dispatches.step (.resume i) s = s.advance i r := by simp only [dispatches, hi]
    rw [hstep] at hchange ⊢
    refine ⟨_, advance_self hi, ?_⟩
    cases (hcalm r hi).advance s.inst with
    | idle _ hinst _ _ _ => exact absurd hinst hchange
    | write _ _ _ _ hafter => exact .inl (by rw [hafter]; rfl)
    | finish _ _ _ _ hafter => exact hafter

/-- Where no dispatch writes the hot state between the read and the end of another one, and no
call raises in a dispatch that has written it, the patches of the dispatches that report no error
are all kept, in the order of their ends, and a dispatch that reports an error changes nothing. -/
theorem patches_kept (inst : Instance F) {events : List (DispatchEvent F)}
    (hcalm : dispatches.Along (fun e _ s => Undisturbed s e) events ⟨inst, [], 0⟩) :
    PatchesKept inst events where
  folded hover := by
    have hstart : Hot inst.hotState (List.flatten []) ⟨inst, [], 0⟩ ∧
        Reads (⟨inst, [], 0⟩ : Dispatches F) :=
      ⟨.settled rfl fun _ h => absurd h List.not_mem_nil, fun _ h => absurd h List.not_mem_nil⟩
    have hrun := Machine.history (m := dispatches)
      (I := fun past _ s => Hot inst.hotState past.flatten s ∧ Reads s)
      (fun h hstep => hot_step h hstep) hstart hcalm
    rw [List.nil_append] at hrun
    have hnot : ∀ r ∈ (dispatches.run events ⟨inst, [], 0⟩).calls,
        r.call.stage.hasWritten = false := by
      intro r hr
      have hend := hover r hr
      cases hstage : r.call.stage <;> rw [hstage] at hend <;> first | rfl | cases hend
    cases hrun.1 with
    | settled hhot _ => exact hhot
    | written i r hi hwritten _ _ _ =>
      rw [hnot r (List.mem_of_getElem? hi)] at hwritten
      cases hwritten
    | overtaken i r hi hwritten _ =>
      rw [hnot r (List.mem_of_getElem? hi)] at hwritten
      cases hwritten
  failed past e rest hevents i he hfailed := by
    subst he
    rw [hevents] at hcalm hfailed
    obtain ⟨-, hnow, hlater⟩ := Machine.along_append.mp hcalm
    rw [Machine.run_append] at hfailed ⊢
    by_contra hchange
    have hsucceeds := succeeds_of_change hnow hchange
    have hlast := Machine.Along.keeps (P := fun e _ s => Undisturbed s e)
      (fun _ _ _ hstep h => succeeds_step hstep h) hlater hsucceeds
    obtain ⟨r, hr, hstage⟩ := hfailed
    obtain ⟨r', hr', hsucceeds'⟩ := hlast
    obtain rfl : r = r' := Option.some.inj (hr.symm.trans hr')
    rw [hstage] at hsucceeds'
    rcases hsucceeds' with h | h <;> cases h

/-- A dispatch whose module counts under one key. -/
def counting (key : String) (ends : Await → Ending) : Dispatch ℚ where
  evaluate _ := [.statePatch [(key, .int 1)]]
  ends := ends

def freshInstance : Instance ℚ := { row := some .enabled, loaded := some .enabled }

/-- The events of one dispatch alone, with the number `i`. -/
def aloneEvents (d : Dispatch ℚ) (i : Nat) : List (DispatchEvent ℚ) :=
  .start d :: List.replicate 5 (.resume i)

theorem patches_kept_one_by_one :
    PatchesKept freshInstance
      (aloneEvents (counting "a" fun _ => .returns) 0 ++
        aloneEvents (counting "b" fun _ => .returns) 1) := by
  exact patches_kept freshInstance (by decide +kernel)

/-- Two dispatches that overlap lose the patch of the first one, and a checkpoint that cannot be
saved leaves the patch of a dispatch that reports an error. -/
theorem overlapping_dispatches_lose_patches :
    (¬ PatchesKept freshInstance
      ([.start (counting "a" fun _ => .returns), .start (counting "b" fun _ => .returns)] ++
        List.replicate 5 (.resume 0) ++ List.replicate 5 (.resume 1))) ∧
    ¬ PatchesKept freshInstance
      (aloneEvents (counting "a" fun label =>
        if label = .saveCheckpoint then .raises false else .returns) 0) := by
  constructor
  · intro h
    have hhot := congrArg (fun hot => (hot.get? "a").isSome) (h.folded (by decide +kernel))
    exact absurd hhot (by decide +kernel)
  · intro h
    have hinst := h.failed [.start _, .resume 0, .resume 0] (.resume 0) _ rfl 0 rfl
      ⟨_, rfl, by decide +kernel⟩
    exact absurd (congrArg (fun inst => (inst.hotState.get? "a").isSome) hinst) (by decide +kernel)

end KiteAlgo.Algo
