import KiteAlgo.Brackets.Closed

/-!
# KiteAlgo.Brackets.Once

Are the exits of a bracket placed once?  The placements are enqueued when the entry has
filled and the status is not one of those that guard against it.  A bracket leaves its two
entry states once and for all (`Left.step`), so a second arming needs the only other state
without a guard, `cancelling`.
-/

namespace KiteAlgo.Brackets

open List Bool ActionKind
/-- The bracket has left the states of its entry. -/
def State.Left (s : State) : Prop :=
  s.intent.status ≠ .entrySubmitting ∧ s.intent.status ≠ .entryWorking

variable {s : State}

theorem left_of_status {status : BracketStatus} (h : s.intent.status = status)
    (hs : status ≠ .entrySubmitting) (hw : status ≠ .entryWorking) : s.Left := by
  unfold State.Left
  rw [h]
  exact ⟨hs, hw⟩

theorem State.Left.step (h : s.Left) (st : Step) : (step st s).Left := by
  cases st with
  | observe event =>
    cases hcompletes : s.completes event with
    | true => exact left_of_status (State.status_observe_of_completes hcompletes) (by simp) (by simp)
    | false =>
      rcases State.status_observe hcompletes with hsame | hfailed | hpart | harm
      · exact left_of_status hsame h.1 h.2
      · exact left_of_status hfailed (by simp) (by simp)
      · exact left_of_status hpart (by simp) (by simp)
      · exact left_of_status harm.1 (by simp) (by simp)
  | requestCancel => exact ⟨by simp [Brackets.step, State.requestCancelBracket],
      by simp [Brackets.step, State.requestCancelBracket]⟩
  | markInconsistent event =>
    simp only [Brackets.step, State.markProjectionInconsistent]
    split
    · exact ⟨by simp, by simp⟩
    · exact h
  | link intent => exact h
  | claim ids => exact h
  | place i placement =>
    simp only [Brackets.step, State.execPlace]
    split <;> exact h
  | cancel i error =>
    simp only [Brackets.step, State.execCancel]
    split
    · exact h
    · split <;> exact h
    · exact h
  | commit i =>
    rcases State.status_commit i s with ⟨hstatus, -⟩ | ⟨-, hsame | hdone⟩
    · exact left_of_status hstatus (by simp) (by simp)
    · exact left_of_status hsame h.1 h.2
    · exact left_of_status hdone (by simp) (by simp)
  | rollback i error =>
    simp only [Brackets.step, State.execRollback]
    split <;> exact h
  | recover i =>
    rcases State.status_recover i s with ⟨hstatus, -⟩ | ⟨-, hsame⟩
    · exact left_of_status hstatus (by simp) (by simp)
    · exact left_of_status hsame h.1 h.2

theorem State.Left.run {s : State} (h : s.Left) (steps : List Step) : (run steps s).Left := by
  induction steps generalizing s with
  | nil => exact h
  | cons st steps ih => exact ih (h.step st)

/-! ## arming -/

/-- An update that reports the whole entry does not find the bracket cancelling. -/
def NotLate (st : Step) (s : State) : Prop :=
  match st with
  | .observe event => s.intent.status = .cancelling →
      (s.linked event && s.onEntry event && s.fillsEntry event) = false
  | _ => True

instance (st : Step) (s : State) : Decidable (NotLate st s) := by
  unfold NotLate
  split <;> infer_instance

variable {event : OrderEvent}

theorem not_armsExits (hleft : s.Left) (hlate : NotLate (.observe event) s) :
    s.armsExits event = false := by
  unfold State.armsExits
  cases hguard : s.intent.status.guarded with
  | true => simp
  | false =>
    have hcancelling : s.intent.status = .cancelling := by
      obtain ⟨hsub, hwork⟩ := hleft
      revert hguard hsub hwork
      cases s.intent.status <;> simp [BracketStatus.guarded]
    rw [hlate hcancelling]
    rfl

theorem places_siblingCancel (config : Config) (e : Exit) (event : OrderEvent) :
    (State.siblingCancel config e event).filter places = [] := by
  unfold State.siblingCancel
  split
  · cases (config.exit e.other).brokerOrderId <;> rfl
  · rfl

theorem places_enqueued (st : Step) (s : State) :
    (State.enqueued st s).filter places = [] ∨
      ∃ event, st = .observe event ∧ s.armsExits event ∧
        (State.enqueued st s).filter places =
          State.placement s.intent.config .stoploss ++ State.placement s.intent.config .target := by
  cases st with
  | observe event =>
    simp only [State.enqueued, State.observedKinds, filter_append]
    have hcancels : filter places (if s.linked event = true then
        State.siblingCancel s.intent.config .stoploss event ++
          State.siblingCancel s.intent.config .target event else []) = [] := by
      split
      · rw [filter_append, places_siblingCancel, places_siblingCancel]
        rfl
      · rfl
    have hplace : ∀ e, (State.placement s.intent.config e).filter places =
        State.placement s.intent.config e := by
      intro e
      unfold State.placement
      split <;> rfl
    rw [hcancels, append_nil]
    cases harm : s.armsExits event with
    | true =>
      refine .inr ⟨event, rfl, harm, ?_⟩
      rw [if_pos rfl, filter_append, hplace, hplace]
    | false => exact .inl rfl
  | _ => exact .inl rfl

def State.placements (s : State) : List ActionKind := s.kinds.filter ActionKind.places

theorem placements_step (st : Step) (s : State) :
    (step st s).placements = s.placements ++ (State.enqueued st s).filter places := by
  rw [State.placements, State.kinds_step, filter_append]
  rfl

variable {st : Step}

theorem placements_step_of_left (hleft : s.Left) (hlate : NotLate st s) :
    (step st s).placements = s.placements := by
  rw [placements_step]
  rcases places_enqueued st s with hnone | ⟨event, rfl, harm, -⟩
  · rw [hnone, append_nil]
  · rw [not_armsExits hleft hlate] at harm
    exact absurd harm (by simp)

theorem placements_eq_nil :
    s.placements = [] ↔ ∀ action ∈ s.actions, action.kind.places = false := by
  simp [State.placements, State.kinds, filter_eq_nil_iff]

theorem orders_step (st : Step) (h : s.placements = []) (horders : s.orders.rows = []) :
    (step st s).orders.rows = [] := by
  apply eq_nil_iff_forall_not_mem.mpr
  intro order hmem
  rcases State.mem_orders_step st hmem with hold | ⟨action, haction, -, hplaces⟩
  · rw [horders] at hold
    exact absurd hold (by simp)
  · have hnot := placements_eq_nil.mp h action haction
    cases hkind : action.kind <;> simp_all [placesExit, places]

/-! ## placed once -/

/-- A bracket whose exits have not been touched. -/
structure Fresh (s : State) : Prop where
  entry : s.intent.status = .entrySubmitting ∨ s.intent.status = .entryWorking
  actions : s.actions = []
  running : s.running = []
  orders : s.orders.rows = []
  unplaced : ∀ e, (s.intent.config.exit e).brokerOrderId = none

/-- What holds along a run without late fills. -/
structure PlacedOnce (s : State) : Prop where
  bound : ∀ e, s.placements.countP (ActionKind.placesExit e) ≤ 1
  entry : ¬ s.Left → s.placements = []
  orders : s.placements = [] → s.orders.rows = []

theorem Fresh.placedOnce (h : Fresh s) : PlacedOnce s := by
  have hnone : s.placements = [] := by simp [State.placements, State.kinds, h.actions]
  exact ⟨fun e => by simp [hnone], fun _ => hnone, fun _ => h.orders⟩

theorem left_of_armsExits (h : s.armsExits event) :
    (s.applyOrderEventObservation event).Left := by
  cases hcompletes : s.completes event with
  | true => exact left_of_status (State.status_observe_of_completes hcompletes) (by simp) (by simp)
  | false =>
    rw [State.armsExits, and_eq_true, and_eq_true, and_eq_true] at h
    obtain ⟨⟨⟨hlink, hon⟩, hfill⟩, hguard⟩ := h
    have hstatus : (s.applyOrderEventObservation event).intent.status = .armingExits := by
      rw [State.completes, hlink, Bool.true_and, or_eq_false_iff] at hcompletes
      have hearly : ¬ (State.endsEarly event && decide (event.filled = 0)) = true := by
        rw [State.fillsEntry, and_eq_true, and_eq_true, decide_eq_true_eq] at hfill
        rw [and_eq_true, decide_eq_true_eq]
        omega
      have hguard' : ¬ s.intent.status.guarded := by simpa using hguard
      unfold State.applyOrderEventObservation
      rw [if_pos hlink]
      simp only [State.status_observeExit, hcompletes.1, hcompletes.2, false_eq_true, if_false]
      unfold State.observeEntry
      rw [if_pos hon, if_neg hearly, if_pos hfill, if_neg hguard']
      simp [State.intent_placeExit]
    exact left_of_status hstatus (by simp) (by simp)

theorem countP_placement (config : Config) (e : Exit) :
    (State.placement config .stoploss ++ State.placement config .target).countP
      (placesExit e) ≤ 1 := by
  rw [countP_append]
  unfold State.placement
  cases e <;> split <;> split <;> simp [placesExit]

theorem entry_step (st : Step) (h : ¬ s.Left → s.placements = []) (hnot : ¬ (step st s).Left) :
    (step st s).placements = [] := by
  have hleft : ¬ s.Left := fun hleft => hnot (hleft.step st)
  rcases places_enqueued st s with hempty | ⟨event, rfl, harm, -⟩
  · rw [placements_step, h hleft, hempty]
    rfl
  · exact absurd (left_of_armsExits harm) hnot

theorem unplaced_step (st : Step) (h : s.placements = [] → s.orders.rows = [])
    (hnone : (step st s).placements = []) : (step st s).orders.rows = [] := by
  rw [placements_step, append_eq_nil_iff] at hnone
  exact orders_step st hnone.1 (h hnone.1)

theorem PlacedOnce.step (h : PlacedOnce s) (hlate : NotLate st s) : PlacedOnce (step st s) := by
  refine ⟨fun e => ?_, entry_step st h.entry, unplaced_step st h.orders⟩
  by_cases hleft : s.Left
  · rw [placements_step_of_left hleft hlate]
    exact h.bound e
  · rw [placements_step, h.entry hleft, nil_append]
    rcases places_enqueued st s with hempty | ⟨event, rfl, -, hplace⟩
    · rw [hempty]
      exact Nat.zero_le 1
    · rw [hplace]
      exact countP_placement s.intent.config e

theorem PlacedOnce.run {s : State} {steps : List Step} (h : PlacedOnce s)
    (hlate : ∀ before st, before ++ [st] <+: steps → NotLate st (run before s)) :
    PlacedOnce (run steps s) := by
  induction steps using reverseRecOn with
  | nil => exact h
  | append_singleton steps st ih =>
    rw [run_concat]
    refine (ih fun before st' hsteps => ?_).step (hlate steps st (prefix_refl _))
    exact hlate before st' (hsteps.trans (prefix_append steps [st]))

theorem placements_run_of_left {first rest : List Step} (hleft : (run first s).Left)
    (hlate : ∀ before st, before ++ [st] <+: first ++ rest → NotLate st (run before s)) :
    (run (first ++ rest) s).placements = (run first s).placements := by
  induction rest using reverseRecOn with
  | nil => rw [append_nil]
  | append_singleton rest st ih =>
    rw [← append_assoc] at hlate ⊢
    have hbefore := ih fun before st' hsteps =>
      hlate before st' (hsteps.trans (prefix_append (first ++ rest) [st]))
    have hstill : (run (first ++ rest) s).Left := by
      rw [run_append]
      exact hleft.run rest
    rw [run_concat, placements_step_of_left hstill (hlate _ st (prefix_refl _)), hbefore]

/-- In a run in which no complete fill of the entry finds the bracket cancelling, each exit
is enqueued at most once, and none after an exit order at the broker was seen complete. -/
theorem exits_placed_once {s : State} (hfresh : Fresh s) {steps : List Step}
    (hlate : ∀ before st, before ++ [st] <+: steps → NotLate st (run before s)) :
    (∀ e, (run steps s).kinds.countP (ActionKind.placesExit e) ≤ 1) ∧
      ∀ before event after, steps = before ++ .observe event :: after → event.word = "COMPLETE" →
        (∃ order ∈ (run before s).orders.rows, order.orderId = event.orderId) →
        (run steps s).placements = (run before s).placements := by
  refine ⟨fun e => ?_, ?_⟩
  · have hbound := (hfresh.placedOnce.run hlate).bound e
    rw [State.placements, List.countP_filter] at hbound
    refine le_trans (List.countP_mono_left fun kind _ hkind => ?_) hbound
    cases kind <;> simp_all [ActionKind.placesExit, ActionKind.places]
  · rintro before event after rfl - ⟨order, hmem, -⟩
    have hbefore : PlacedOnce (run before s) := hfresh.placedOnce.run fun first st hsteps =>
      hlate first st (hsteps.trans (List.prefix_append before _))
    have hleft : (run before s).Left := by
      by_contra hnot
      rw [hbefore.orders (hbefore.entry hnot)] at hmem
      exact absurd hmem (by simp)
    exact placements_run_of_left hleft hlate

theorem fresh_demoBracket : Fresh demoBracket where
  entry := .inr rfl
  actions := rfl
  running := rfl
  orders := rfl
  unplaced := by
    intro e
    cases e <;> rfl

theorem exits_placed_once_demo :
    (run (demoArmed ++ [demoEvent "E" "COMPLETE" 10, demoEvent "S" "COMPLETE" 10])
        demoBracket).kinds.countP (ActionKind.placesExit .stoploss) ≤ 1 :=
  (exits_placed_once fresh_demoBracket (AtEach.concat_prefix (by decide +kernel))).1 .stoploss

/-- The stop-loss completes and the entry's own update arrives again: both exits are
enqueued a second time. -/
theorem late_entry_rearms :
    (run (demoArmed ++ [demoEvent "S" "COMPLETE" 10, demoEvent "E" "COMPLETE" 10])
        demoBracket).kinds.countP (ActionKind.placesExit .stoploss) = 2 ∧
      (run (demoArmed ++ [demoEvent "S" "COMPLETE" 10, demoEvent "E" "COMPLETE" 10])
        demoBracket).kinds.countP (ActionKind.placesExit .target) = 2 ∧
      (∃ order ∈ (run demoArmed demoBracket).orders.rows, order.orderId = "S") ∧
      (run (demoArmed ++ [demoEvent "S" "COMPLETE" 10, demoEvent "E" "COMPLETE" 10])
        demoBracket).placements ≠ (run demoArmed demoBracket).placements := by
  decide +kernel

end KiteAlgo.Brackets
