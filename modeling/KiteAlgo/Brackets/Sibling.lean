import KiteAlgo.Brackets.Once

/-!
# KiteAlgo.Brackets.Sibling

Does an exit that completes cancel the other one?  The cancellation is enqueued once, from
the order id the config holds when the update arrives.  It covers the other exit if that id
names every order the other exit has at the broker and no placement of it is still to be
made (`Known`); from then on the cancellation is either waiting or has reached the broker
(`Covered`).  A placement that is still in the queue, or an order whose id is not stored,
is not covered by anything later.
-/

namespace KiteAlgo.Brackets

open List ActionStatus
/-! ## what has been seen -/

/-- The step is an update that reports an order of this exit complete. -/
def reportsComplete (e : Exit) (st : Step) (s : State) : Bool :=
  match st with
  | .observe event => decide (event.word = "COMPLETE") &&
      s.orders.rows.any fun order => decide (order.exit = e ∧ order.orderId = event.orderId)
  | _ => false

/-- An order of this exit has been observed complete. -/
def seenComplete (e : Exit) : List Step → State → Bool
  | [], _ => false
  | st :: steps, s => reportsComplete e st s || seenComplete e steps (step st s)

theorem seenComplete_concat (e : Exit) (steps : List Step) (st : Step) (s : State) :
    seenComplete e (steps ++ [st]) s = (seenComplete e steps s || reportsComplete e st (run steps s)) := by
  induction steps generalizing s with
  | nil => simp [seenComplete, run]
  | cons st' steps ih =>
    rw [cons_append, seenComplete, seenComplete, ih, Bool.or_assoc]
    rfl

/-- The bracket knows all there is of its exits when the update arrives: the update is
linked to it, its order is the one stored for this exit, every order of the other exit is
the one stored for it, and no placement of the other exit is unfinished. -/
def Known (e : Exit) (st : Step) (s : State) : Prop :=
  match st with
  | .observe event =>
    s.linked event = true ∧ (s.intent.config.exit e).brokerOrderId = some event.orderId ∧
      (∀ order ∈ s.orders.rows, order.exit = e.other →
        (s.intent.config.exit e.other).brokerOrderId = some order.orderId) ∧
      ∀ action ∈ s.actions, action.kind.placesExit e.other = true → action.status.unfinished = false
  | _ => True

instance (e : Exit) (s : State) : (st : Step) → Decidable (Known e st s)
  | .observe _ => inferInstanceAs (Decidable (_ ∧ _ ∧ _ ∧ _))
  | .requestCancel | .markInconsistent _ | .link _ | .claim _ | .place _ _ | .cancel _ _ |
    .commit _ | .rollback _ _ | .recover _ => .isTrue trivial

/-- What a step has to meet: the first update that reports an order of this exit complete
finds the bracket knowing, and neither it nor an update after it is a late fill of the
entry. -/
def CancelsSibling (e : Exit) (s : State) (before : List Step) (st : Step) : Prop :=
  (reportsComplete e st (run before s) = true → seenComplete e before s = false →
      Known e st (run before s)) ∧
    (seenComplete e (before ++ [st]) s = true → NotLate st (run before s))

instance (e : Exit) (s : State) (before : List Step) (st : Step) :
    Decidable (CancelsSibling e s before st) :=
  inferInstanceAs (Decidable (_ ∧ _))

structure Sound (s : State) : Prop where
  entry : ¬ s.Left → s.placements = []
  orders : s.placements = [] → s.orders.rows = []
  running : ∀ i phase, s.running.get? i = some phase →
    ∃ action, s.actions[i]? = some action ∧ action.status = .claimed

variable {s : State}

theorem Fresh.sound (h : Fresh s) : Sound s where
  entry := h.placedOnce.entry
  orders := h.placedOnce.orders
  running := by
    intro i phase hrun
    rw [h.running] at hrun
    exact absurd hrun (by simp)

/-- The cancellation of this order has reached the broker, or waits for its execution. -/
def Covers (e : Exit) (orderId : String) (s : State) : Prop :=
  orderId ∈ s.cancels ∨ ∃ i action, s.actions[i]? = some action ∧
    action.kind = .cancel e orderId ∧ s.running.get? i = none ∧ action.status.unfinished = true

/-- The state after a completion of `e` that the bracket knew about. -/
structure Covered (e : Exit) (s : State) : Prop where
  left : s.Left
  placed : ∀ action ∈ s.actions, action.kind.placesExit e.other = true → action.status.unfinished = false
  covers : ∀ order ∈ s.orders.rows, order.exit = e.other → Covers e.other order.orderId s

/-! ## steps -/

variable {i : Nat} {st : Step}

theorem kind_step {action : Action} (h : (step st s).actions[i]? = some action) :
    (∃ old, s.actions[i]? = some old ∧ old.kind = action.kind) ∨
      (s.actions.length ≤ i ∧ action.kind ∈ State.enqueued st s) := by
  have hkind : (s.kinds ++ State.enqueued st s)[i]? = some action.kind := by
    rw [← State.kinds_step, State.kinds, getElem?_map, h]
    rfl
  have hlength : s.kinds.length = s.actions.length := length_map _
  by_cases hi : i < s.actions.length
  · rw [getElem?_append_left (hlength ▸ hi), State.kinds, getElem?_map,
      Option.map_eq_some_iff] at hkind
    exact .inl hkind
  · rw [getElem?_append_right (by omega)] at hkind
    exact .inr ⟨Nat.le_of_not_lt hi, mem_of_getElem? hkind⟩

theorem Sound.running_eq_none (h : Sound s) (hi : s.actions.length ≤ i) :
    s.running.get? i = none := by
  cases hrun : s.running.get? i with
  | none => rfl
  | some phase =>
    obtain ⟨action, hget, -⟩ := h.running i phase hrun
    rw [getElem?_eq_none hi] at hget
    exact absurd hget (by simp)

theorem running_step (st : Step) (hi : s.actions.length ≤ i) (h : s.running.get? i = none) :
    (step st s).running.get? i = none := by
  have hset : ∀ j action phase, s.ready j = some action → (s.running.set j phase).get? i = none := by
    intro j action phase hready
    obtain ⟨-, hget, -⟩ := State.ready_eq_some hready
    have hj : j < s.actions.length := (List.getElem?_eq_some_iff.mp hget).1
    rw [Dict.get?_set_of_ne (by omega), h]
  have herase : ∀ j, (s.running.erase j).get? i = none := by
    intro j
    rw [Dict.get?_erase, h, ite_self]
  cases st with
  | observe event =>
    simp only [step]
    rw [(State.sameWorld_observe event s).running, h]
  | requestCancel => exact h
  | markInconsistent event =>
    simp only [step, State.markProjectionInconsistent]
    split <;> exact h
  | link intent => exact h
  | claim ids => exact h
  | place j placement =>
    simp only [step, State.execPlace]
    split
    · next hready => exact hset j _ _ hready
    · exact h
  | cancel j error =>
    simp only [step, State.execCancel]
    split
    · next hready => exact hset j _ _ hready
    · next hready => split <;> exact hset j _ _ hready
    · exact h
  | commit j =>
    simp only [step, State.execCommit]
    split
    · exact herase j
    · exact herase j
    · exact h
  | rollback j error =>
    have hother : ∀ phase, s.running.get? j = some phase →
        (s.running.set j (.raised error)).get? i = none := by
      intro phase hrun
      have hne : j ≠ i := by
        rintro rfl
        rw [h] at hrun
        exact absurd hrun (by simp)
      rw [Dict.get?_set_of_ne hne, h]
    simp only [step, State.execRollback]
    split
    · next hrun => exact hother _ hrun
    · next hrun => exact hother _ hrun
    · exact h
  | recover j =>
    simp only [step, State.execRecover]
    split
    · split <;> exact herase j
    · exact h

theorem Sound.step (h : Sound s) (st : Step) : Sound (step st s) := by
  refine ⟨entry_step st h.entry, unplaced_step st h.orders, ?_⟩
  intro i phase hrun
  by_cases hi : i < s.actions.length
  · cases State.turn_step st s hi with
    | same ha hr =>
      rw [hr] at hrun
      rw [ha]
      exact h.running i phase hrun
    | claimed ha hp ha' hr =>
      -- a claimed row cannot be claimed again, so nothing runs for a pending one
      rw [hr] at hrun
      obtain ⟨action, hget, hstatus⟩ := h.running i phase hrun
      rw [ha] at hget
      rw [← Option.some.inj hget, hp] at hstatus
      exact absurd hstatus (by simp)
    | called ha hc ha' hr hr' hcancel => exact ⟨_, ha', hc⟩
    | raised ha hr hr' =>
      rw [ha]
      exact h.running i _ hr
    | ended hr hr' =>
      rw [hr'] at hrun
      exact absurd hrun (by simp)
  · have hi := Nat.le_of_not_lt hi
    rw [running_step st hi (h.running_eq_none hi)] at hrun
    exact absurd hrun (by simp)

theorem Sound.run {s : State} (h : Sound s) (steps : List Step) : Sound (run steps s) := by
  induction steps generalizing s with
  | nil => exact h
  | cons st steps ih => exact ih (h.step st)

variable {e : Exit}

theorem placed_step (h : Sound s) (hleft : s.Left) (hlate : NotLate st s)
    (hplaced : ∀ action ∈ s.actions, action.kind.placesExit e → action.status.unfinished = false) :
    ∀ action ∈ (step st s).actions, action.kind.placesExit e → action.status.unfinished = false := by
  intro action hmem hplaces
  obtain ⟨i, hget⟩ := mem_iff_getElem?.mp hmem
  rcases kind_step hget with ⟨old, hold, hkind⟩ | ⟨-, hnew⟩
  · rw [← hkind] at hplaces
    have hfinished := hplaced old (mem_of_getElem? hold) hplaces
    have hi : i < s.actions.length := (List.getElem?_eq_some_iff.mp hold).1
    cases State.turn_step st s hi with
    | same ha hr =>
      rw [ha, hold] at hget
      rw [← Option.some.inj hget]
      exact hfinished
    | claimed ha hp ha' hr =>
      rw [hold] at ha
      rw [Option.some.inj ha, hp] at hfinished
      exact absurd hfinished (by simp [unfinished])
    | called ha hc ha' hr hr' hcancel =>
      rw [hold] at ha
      rw [Option.some.inj ha, hc] at hfinished
      exact absurd hfinished (by simp [unfinished])
    | raised ha hr hr' =>
      rw [ha, hold] at hget
      rw [← Option.some.inj hget]
      exact hfinished
    | ended hr hr' =>
      obtain ⟨action', hget', hstatus⟩ := h.running i _ hr
      rw [hold] at hget'
      rw [Option.some.inj hget', hstatus] at hfinished
      exact absurd hfinished (by simp [unfinished])
  · have hnone : (State.enqueued st s).filter ActionKind.places = [] := by
      have hsame := placements_step_of_left hleft hlate
      rw [placements_step] at hsame
      exact append_right_eq_self.mp hsame
    have hplace : action.kind.places := by
      cases hkind : action.kind <;> simp_all [ActionKind.placesExit, ActionKind.places]
    have hfilter := mem_filter.mpr ⟨hnew, hplace⟩
    rw [hnone] at hfilter
    exact absurd hfilter (by simp)

theorem Covers.step {orderId : String} (h : Covers e orderId s) (st : Step) :
    Covers e orderId (step st s) := by
  rcases h with hdone | ⟨i, action, hget, hkind, hrun, hunfinished⟩
  · exact .inl (State.mem_cancels_step st hdone)
  · have hi : i < s.actions.length := (List.getElem?_eq_some_iff.mp hget).1
    cases State.turn_step st s hi with
    | same ha hr => exact .inr ⟨i, action, ha.trans hget, hkind, hr.trans hrun, hunfinished⟩
    | claimed ha hp ha' hr =>
      rw [hget] at ha
      obtain rfl := Option.some.inj ha
      exact .inr ⟨i, action.claimed, ha', hkind, hr.trans hrun, rfl⟩
    | called ha hc ha' hr hr' hcancel =>
      rw [hget] at ha
      obtain rfl := Option.some.inj ha
      exact .inl (hcancel e orderId hkind)
    | raised ha hr hr' =>
      rw [hrun] at hr
      exact absurd hr (by simp)
    | ended hr hr' =>
      rw [hrun] at hr
      exact absurd hr (by simp)

theorem Covered.step (h : Covered e s) (hsound : Sound s) (hlate : NotLate st s) :
    Covered e (step st s) := by
  refine ⟨h.left.step st, placed_step hsound h.left hlate h.placed, fun order hmem hexit => ?_⟩
  rcases State.mem_orders_step st hmem with hold | ⟨action, haction, hclaimed, hplaces⟩
  · exact (h.covers order hold hexit).step st
  · rw [hexit] at hplaces
    have hfinished := h.placed action haction hplaces
    rw [hclaimed] at hfinished
    exact absurd hfinished (by simp [unfinished])

theorem covered_of_known {event : OrderEvent} (hsound : Sound s)
    (hreport : reportsComplete e (.observe event) s) (hknown : Known e (.observe event) s)
    (hlate : NotLate (.observe event) s) : Covered e (step (.observe event) s) := by
  obtain ⟨hlink, hstored, hsibling, hplaced⟩ := hknown
  rw [reportsComplete, Bool.and_eq_true, decide_eq_true_eq, any_eq_true] at hreport
  obtain ⟨hword, order, hmem, -⟩ := hreport
  have hleft : s.Left := by
    by_contra hnot
    rw [hsound.orders (hsound.entry hnot)] at hmem
    exact absurd hmem (by simp)
  have hcompletes : State.completesExit s.intent.config e event := by
    simp [State.completesExit, hstored, hword]
  refine ⟨hleft.step _, placed_step hsound hleft hlate hplaced, fun other hother hexit => ?_⟩
  simp only [Brackets.step] at hother
  rw [(State.sameWorld_observe event s).orders] at hother
  have hid := hsibling other hother hexit
  have hqueued : .cancel e.other other.orderId ∈ s.observedKinds event := by
    have hcancel : .cancel e.other other.orderId ∈ State.siblingCancel s.intent.config e event := by
      simp [State.siblingCancel, hcompletes, hid]
    rw [State.observedKinds, if_pos hlink]
    apply mem_append_right
    cases e with
    | stoploss => exact mem_append_left _ hcancel
    | target => exact mem_append_right _ hcancel
  obtain ⟨k, hk⟩ := mem_iff_getElem?.mp hqueued
  refine .inr ⟨s.actions.length + k, { kind := .cancel e.other other.orderId }, ?_, rfl, ?_, rfl⟩
  · simp only [Brackets.step]
    rw [State.actions_observe, getElem?_append_right (Nat.le_add_right _ _),
      Nat.add_sub_cancel_left, State.newActions, getElem?_map, hk]
    rfl
  · exact running_step _ (Nat.le_add_right _ _) (hsound.running_eq_none (Nat.le_add_right _ _))

/-! ## runs -/

theorem covered_run (hfresh : Fresh s) {steps : List Step}
    (hsafe : ∀ before st, before ++ [st] <+: steps → CancelsSibling e s before st)
    (hseen : seenComplete e steps s) : Covered e (run steps s) := by
  induction steps using reverseRecOn with
  | nil => exact absurd hseen (by simp [seenComplete])
  | append_singleton steps st ih =>
    obtain ⟨hknown, hlate⟩ := hsafe steps st (prefix_refl _)
    have hsound : Sound (run steps s) := hfresh.sound.run steps
    rw [run_concat]
    cases hbefore : seenComplete e steps s with
    | true =>
      refine (ih (fun before st' hsteps => ?_) hbefore).step hsound (hlate hseen)
      exact hsafe before st' (hsteps.trans (prefix_append steps [st]))
    | false =>
      have hreport : reportsComplete e st (run steps s) := by
        rw [seenComplete_concat, hbefore, Bool.false_or] at hseen
        exact hseen
      cases st with
      | observe event =>
        exact covered_of_known hsound hreport (hknown hreport hbefore) (hlate hseen)
      | _ => exact absurd hreport (by simp [reportsComplete])

/-- In every state of a run in which an order of `e` has been seen complete, the first time
with all the bracket's exits known to it, and in which no action is unfinished, each order
of the other exit has been passed to `cancel_order_fn`. -/
theorem sibling_cancelled {s : State} {e : Exit} (hfresh : Fresh s) {steps : List Step}
    (hsafe : ∀ before st, before ++ [st] <+: steps → CancelsSibling e s before st)
    (hseen : seenComplete e steps s = true)
    (hidle : ∀ action ∈ (run steps s).actions, action.status.unfinished = false) :
    ∀ order ∈ (run steps s).orders.rows, order.exit = e.other → order.orderId ∈ (run steps s).cancels := by
  intro order hmem hexit
  rcases (covered_run hfresh hsafe hseen).covers order hmem hexit with hdone | hwaits
  · exact hdone
  · obtain ⟨i, action, hget, -, -, hunfinished⟩ := hwaits
    rw [hidle action (List.mem_of_getElem? hget)] at hunfinished
    exact absurd hunfinished (by simp)

theorem sibling_cancelled_demo :
    "T" ∈ (run (demoArmed ++ [demoEvent "S" "COMPLETE" 10] ++ demoExecute 2 (.cancel 2 none))
      demoBracket).cancels := by
  have hplaced : ∃ order ∈ (run (demoArmed ++ [demoEvent "S" "COMPLETE" 10] ++
      demoExecute 2 (.cancel 2 none)) demoBracket).orders.rows,
      order.exit = .target ∧ order.orderId = "T" := by
    decide +kernel
  obtain ⟨order, horder, hexit, hid⟩ := hplaced
  rw [← hid]
  exact @sibling_cancelled demoBracket .stoploss fresh_demoBracket _
    (AtEach.concat_prefix (by decide +kernel)) (by decide +kernel) (by decide +kernel)
    order horder hexit

/-- The stop-loss completes while the placement of the target waits in the queue. -/
def demoCrossed : List Step :=
  [demoEvent "E" "COMPLETE" 10] ++ demoExecute 0 (.place 0 (.returned "S")) ++
    [demoEvent "S" "COMPLETE" 10] ++ demoExecute 1 (.place 1 (.returned "T"))

/-- The target is placed, nothing is left to do, and nobody has cancelled it. -/
theorem queued_target_stays :
    seenComplete .stoploss demoCrossed demoBracket = true ∧
      (∀ action ∈ (run demoCrossed demoBracket).actions, action.status.unfinished = false) ∧
      ∃ order ∈ (run demoCrossed demoBracket).orders.rows,
        order.exit = .target ∧ order.orderId ∉ (run demoCrossed demoBracket).cancels := by
  decide +kernel

/-! ## finished actions -/

theorem Sound.idle (h : Sound s) {action : Action} (hget : s.actions[i]? = some action)
    (hdone : action.status.unfinished = false) : s.running.get? i = none := by
  cases hrun : s.running.get? i with
  | none => rfl
  | some phase =>
    obtain ⟨found, hfound, hstatus⟩ := h.running i phase hrun
    obtain rfl := Option.some.inj (hget.symm.trans hfound)
    rw [hstatus] at hdone
    cases hdone

theorem finished_step (h : Sound s) {action : Action} (hget : s.actions[i]? = some action)
    (hdone : action.status.unfinished = false) (st : Step) : (step st s).actions[i]? = some action := by
  have hidle := h.idle hget hdone
  cases State.turn_step st s (List.getElem?_eq_some_iff.mp hget).1 with
  | same ha _ => rw [ha, hget]
  | claimed ha hstatus | called ha hstatus =>
    obtain rfl := Option.some.inj (hget.symm.trans ha)
    rw [hstatus] at hdone
    cases hdone
  | raised _ hr => simp [hidle] at hr
  | ended hr _ => simp [hidle] at hr

/-- An action that has succeeded or failed is never written or carried out again. -/
theorem finished_actions_final (hfresh : Fresh s) (steps more : List Step) {action : Action}
    (hget : (run steps s).actions[i]? = some action) (hdone : action.status.unfinished = false) :
    (run more (run steps s)).actions[i]? = some action ∧
      (run more (run steps s)).running.get? i = none := by
  have hrun : ∀ {s : State}, Sound s → s.actions[i]? = some action →
      (run more s).actions[i]? = some action ∧ (run more s).running.get? i = none := by
    induction more with
    | nil => exact fun h hget => ⟨hget, h.idle hget hdone⟩
    | cons st more ih => exact fun h hget => ih (h.step st) (finished_step h hget hdone st)
  exact hrun (hfresh.sound.run steps) hget

theorem finished_actions_final_demo :
    ∃ action, (run demoArmed demoBracket).actions[0]? = some action ∧
      (run [.claim [0], .recover 0, .requestCancel] (run demoArmed demoBracket)).actions[0]? = some action := by
  have hsome : ((run demoArmed demoBracket).actions[0]?).map (fun a => a.status.unfinished) = some false := by
    decide +kernel
  obtain ⟨action, hget, hdone⟩ := Option.map_eq_some_iff.mp hsome
  exact ⟨action, hget, (finished_actions_final fresh_demoBracket _ _ hget hdone).1⟩

end KiteAlgo.Brackets
