import KiteAlgo.Service.Gating

/-!
# KiteAlgo.Service.Fleet

One subscription on the tick clock under workers that take its evaluation lease from each
other.  The workers share the database; each has its own emission windows and stamps its
observations with its own epoch.

Checkpoints are keyed by epoch, and the newest one is consulted only where the epoch has
none, so a worker that returns after another one held the lease reads its own older row and
does not know what was recorded in between (`fired_again_after_alternation`).
`trigger_survives_workers` is the law where every call starts from a row that knows it.
-/

namespace KiteAlgo

open List
variable {F : Type} [PyFloat F]

structure Visit (F : Type) where
  env : ServiceEnv F
  call : Call F

/-- The database, and the emission windows of each worker. -/
structure Fleet (F : Type) where
  db : Db F := {}
  emissionWindows : Dict String (Dict (String × String) (List Int)) := []

/-- What the service of one worker works on. -/
def Fleet.serviceOf (s : Fleet F) (ownerId : String) : ServiceState F :=
  ⟨s.db, (s.emissionWindows.get? ownerId).getD []⟩

/-- The workers of a subscription, which record its events. -/
def fleet (sub : ActiveSubscription F) : Machine (Visit F) (Fleet F) (SignalEvent F) where
  step v s :=
    let after := (service v.env).step ⟨sub, v.call⟩ (s.serviceOf v.env.ownerId)
    { db := after.db
      emissionWindows := s.emissionWindows.set v.env.ownerId after.emissionWindows }
  out v s := ((service v.env).out ⟨sub, v.call⟩ (s.serviceOf v.env.ownerId)).map Prod.snd

/-- Live calls with non-decreasing decision times. -/
structure LiveVisits (visits : List (Visit F)) : Prop where
  live : ∀ v ∈ visits, v.call.allowEmit = true
  ordered : visits.Pairwise fun v w => v.call.now ≤ w.call.now

instance (visits : List (Visit F)) : Decidable (LiveVisits visits) :=
  decidable_of_iff ((∀ v ∈ visits, v.call.allowEmit = true) ∧
    visits.Pairwise fun v w => v.call.now ≤ w.call.now)
    ⟨fun h => ⟨h.1, h.2⟩, fun h => ⟨h.live, h.ordered⟩⟩

/-- The state that a call loads has fired once when any stored state of the subscription has. -/
def KnowsFiring (sub : ActiveSubscription F) (stage : Stage F) (v : Visit F) (s : Fleet F) : Prop :=
  ∀ state ∈ storedStates s.db sub, state.firedOnce = true →
    (loadState s.db sub stage v.call.obs).1.firedOnce = true

/-- The state that a call loads cools down as long as any stored state of the subscription that
still cools down. -/
def KnowsCooldown (sub : ActiveSubscription F) (stage : Stage F) (v : Visit F) (s : Fleet F) : Prop :=
  ∀ state ∈ storedStates s.db sub, ∀ u ∈ state.cooldownUntil,
    u ≤ v.call.now ∨ ∃ w ∈ (loadState s.db sub stage v.call.obs).1.cooldownUntil, u ≤ w

instance (sub : ActiveSubscription F) (stage : Stage F) (v : Visit F) (s : Fleet F) :
    Decidable (KnowsFiring sub stage v s) :=
  inferInstanceAs (Decidable (∀ state ∈ storedStates s.db sub, _ → _))

instance (sub : ActiveSubscription F) (stage : Stage F) (v : Visit F) (s : Fleet F) :
    Decidable (KnowsCooldown sub stage v s) :=
  inferInstanceAs (Decidable (∀ state ∈ storedStates s.db sub, ∀ u ∈ state.cooldownUntil, _ ∨ _))

section Runs

variable {sub : ActiveSubscription F} {document : WorkflowDocument F} {stage : Stage F}
  {alert : AlertSpec F}

/-- Every recorded event is held by a stored state, or over for the calls to come. -/
structure FleetGateInv (sub : ActiveSubscription F) (gate : Gate alert) (past : List (SignalEvent F))
    (visits : List (Visit F)) (s : Fleet F) : Prop where
  calls : LiveVisits visits
  held : ∀ e ∈ past, Holds (gate.hold e.createdAt) s.db sub ∨
    ∀ v ∈ visits, gate.elapsed e.createdAt v.call.now
  apart : past.Pairwise fun e e' => gate.elapsed e.createdAt e'.createdAt

variable {rest : List (Visit F)} {v : Visit F}

omit [PyFloat F] in
theorem LiveVisits.tail (h : LiveVisits (v :: rest)) : LiveVisits rest :=
  ⟨fun w hw => h.live w (mem_cons_of_mem v hw), (pairwise_cons.mp h.ordered).2⟩

/-- The call decides on a state that holds what any stored state does, or what is held is over for
it and for all later calls. -/
def VisitKnows (sub : ActiveSubscription F) (stage : Stage F) (gate : Gate alert) (v : Visit F)
    (rest : List (Visit F)) (s : Fleet F) : Prop :=
  ∀ t, Holds (gate.hold t) s.db sub → gate.hold t (loadState s.db sub stage v.call.obs).1.lifecycle ∨
      ∀ w ∈ v :: rest, gate.elapsed t w.call.now

theorem undisturbed_live (hclock : stage.clock = .known .ltp) {r : Request F}
    (hlive : r.call.allowEmit) (s : ServiceState F) : Undisturbed stage r s :=
  ⟨hlive, fun hcandle => by rw [hclock] at hcandle; cases hcandle⟩

variable {s : Fleet F}

theorem FleetGateInv.step (hsub : Subscribes sub document stage alert)
    (hsignal : stage.breadth = none) (hclock : stage.clock = .known .ltp) {gate : Gate alert}
    {past : List (SignalEvent F)} (h : FleetGateInv sub gate past (v :: rest) s)
    (hknows : VisitKnows sub stage gate v rest s) :
    FleetGateInv sub gate (past ++ (fleet sub).out v s) rest ((fleet sub).step v s) := by
  have hlive := h.calls.live v (.head _)
  obtain ⟨-, heffect⟩ := service_signal v.env (r := ⟨sub, v.call⟩) hsub hsignal
    (s.serviceOf v.env.ownerId)
  have hundisturbed := undisturbed_live hclock (r := ⟨sub, v.call⟩) hlive
    (s.serviceOf v.env.ownerId)
  have hafter : ((fleet sub).step v s).db =
      ((service v.env).step ⟨sub, v.call⟩ (s.serviceOf v.env.ownerId)).db := rfl
  have hrecords : (fleet sub).out v s =
      ((service v.env).out ⟨sub, v.call⟩ (s.serviceOf v.env.ownerId)).map Prod.snd := rfl
  -- what is held before stays held, or is over
  have hheld : ∀ e ∈ past, Holds (gate.hold e.createdAt) ((fleet sub).step v s).db sub ∨
      ∀ w ∈ rest, gate.elapsed e.createdAt w.call.now := by
    intro e he
    rcases h.held e he with hholds | hover
    · rcases hknows e.createdAt hholds with hloaded | hover
      · rw [hafter]
        cases heffect with
        | idle hout hkeep => exact .inl (hkeep _ hholds hloaded)
        | decided input emit before after hnow hspec hgates hbefore hsaved hout =>
          have hhold : gate.hold e.createdAt before := by
            rw [hbefore hundisturbed]
            exact hloaded
          exact .inl (hsaved hlive _ (gate.keep hspec hhold))
      · exact .inr fun w hw => hover w (mem_cons_of_mem v hw)
    · exact .inr fun w hw => hover w (mem_cons_of_mem v hw)
  cases heffect with
  | idle hout hkeep =>
    rw [hrecords, hout, map_nil, append_nil]
    exact ⟨h.calls.tail, hheld, h.apart⟩
  | decided input emit before after hnow hspec hgates hbefore hsaved hout =>
    rcases hout with hout | ⟨hemit, -, e, hout, -, hcreated⟩
    · rw [hrecords, hout, map_nil, append_nil]
      exact ⟨h.calls.tail, hheld, h.apart⟩
    · rw [hemit] at hspec
      rw [hrecords, hout, map_singleton]
      refine ⟨h.calls.tail, fun e' he' => ?_, ?_⟩
      · rcases mem_append.mp he' with he' | he'
        · exact hheld e' he'
        · rw [mem_singleton.mp he', hcreated, hafter, ← hnow]
          exact .inl (hsaved hlive _ (gate.sets hspec))
      · rw [pairwise_append]
        refine ⟨h.apart, pairwise_singleton _ _, fun a ha b hb => ?_⟩
        rw [mem_singleton.mp hb, hcreated]
        rcases h.held a ha with hholds | hover
        · rcases hknows a.createdAt hholds with hloaded | hover
          · have hhold : gate.hold a.createdAt before := by
              rw [hbefore hundisturbed]
              exact hloaded
            rw [← hnow]
            exact gate.blocks hspec hhold
          · exact hover v (.head _)
        · exact hover v (.head _)

theorem fleet_gate_run (hsub : Subscribes sub document stage alert) (hsignal : stage.breadth = none)
    (hclock : stage.clock = .known .ltp) (gate : Gate alert) {visits : List (Visit F)}
    (hlive : LiveVisits visits) (hknows : (fleet sub).Along (VisitKnows sub stage gate) visits s) :
    ((fleet sub).trace visits s).Pairwise fun e e' => gate.elapsed e.createdAt e'.createdAt := by
  have hinit : FleetGateInv sub gate [] visits s := ⟨hlive, by simp, List.Pairwise.nil⟩
  have hfinal := Machine.history (m := fleet sub)
    (fun hinv hP => FleetGateInv.step hsub hsignal hclock hinv hP) hinit hknows
  exact hfinal.apart

/-- The bookkeeping of a trigger survives worker changes on the tick clock, where every call loads
a state that knows what was recorded: an alert that triggers once records at most one event, and the
events of an alert with a cooldown are at least that far apart. -/
theorem trigger_survives_workers (hsub : Subscribes sub document stage alert)
    (hsignal : stage.breadth = none) (hclock : stage.clock = .known .ltp)
    {visits : List (Visit F)} (hlive : LiveVisits visits) (s : Fleet F) :
    (alert.trigger = .known .once → (fleet sub).Along (fun v _ s => KnowsFiring sub stage v s) visits s →
      ((fleet sub).trace visits s).length ≤ 1) ∧
    (∀ c, alert.cooldownS = some c → 0 < c →
      (fleet sub).Along (fun v _ s => KnowsCooldown sub stage v s) visits s →
      ((fleet sub).trace visits s).Pairwise fun e e' =>
        e.createdAt + c * microsPerSecond ≤ e'.createdAt) := by
  refine ⟨fun htrigger hknows => ?_, fun c hc hpos hknows => ?_⟩
  · have hpairs := fleet_gate_run hsub hsignal hclock (onceGate htrigger) hlive (s := s)
      (hknows.mono fun v rest s h => ?_)
    · generalize (fleet sub).trace visits s = events at hpairs
      match events, hpairs with
      | [], _ | [_], _ => simp
      | e :: e' :: events, hpairs =>
        exact ((List.pairwise_cons.mp hpairs).1 e' List.mem_cons_self).elim
    · rintro t ⟨state, hstate, hfired⟩
      exact .inl (h state hstate hfired)
  · have hcooldown : alert.cooldown = some (c * microsPerSecond) := by
      have hne : c ≠ 0 := by omega
      simp [AlertSpec.cooldown, hc, hne]
    have hmicros : 0 < c * microsPerSecond := Int.mul_pos hpos (by decide)
    have hordered : (fleet sub).Along (fun v rest _ => ∀ w ∈ rest, v.call.now ≤ w.call.now) visits s :=
      Machine.Along.of_pairwise hlive.ordered s
    refine fleet_gate_run hsub hsignal hclock (cooldownGate hcooldown hmicros) hlive
      ((hknows.and hordered).mono fun v rest s h => ?_)
    rintro t ⟨state, hstate, u, hu, hle⟩
    rcases h.1 state hstate u hu with hover | ⟨w, hw, huw⟩
    · refine .inr fun later hlater => ?_
      show t + c * microsPerSecond ≤ later.call.now
      rcases List.mem_cons.mp hlater with rfl | hlater
      · omega
      · have hlate := h.2 later hlater
        omega
    · exact .inl ⟨w, hw, by omega⟩

end Runs

/-! ## two workers -/

/-- An alert on a tick above 100 after one that is not, once, with a cooldown of a day. -/
def tickAlert : PyVal ℚ :=
  .ofPairs
    [("version", .int 1), ("name", .str "ticks"), ("instruments", .list [.str "NSE:INFY"]), ("stages", .list
       [.ofPairs
         [("id", .str "above"), ("clock", .str "ltp"), ("conditions", .list
            [.ofPairs [("field", .str "ltp"), ("op", .str "crosses_above"), ("value", .int 100)]])]]),
     ("alerts", .list
       [.ofPairs
         [("id", .str "notify"), ("source", .str "above"), ("trigger", .str "once"),
          ("cooldown_s", .int 86400), ("channels", .list [.str "telegram"])]])]

def tickSub : ActiveSubscription ℚ where
  id := "s1"
  revisionId := "r1"
  alertId := "notify"
  stageId := "above"
  instrumentKey := "NSE:INFY"
  ownerId := "o1"
  workflowId := "w1"
  document := tickAlert

/-- A tick that a worker handles at a second of the epoch; its epoch is named like the worker. -/
def tickVisit (worker : String) (second : Int) (price : ℚ) : Visit ℚ where
  env := { ownerId := worker }
  call :=
    { obs :=
        { ts := second * microsPerSecond, epochId := worker, ltp := some price
          receivedAt := some (second * microsPerSecond) }
      wallNow := second * microsPerSecond }

theorem tickSub_subscribes (check : Stage ℚ → Bool)
    (h : subscribesWith tickSub (fun _ stage alert => stage.breadth.isNone &&
      decide (stage.clock = .known .ltp) && decide (alert.trigger = .known .once) &&
      decide (alert.cooldownS = some 86400) && check stage)) :
    ∃ document stage alert, Subscribes tickSub document stage alert ∧ stage.breadth = none ∧
      stage.clock = .known .ltp ∧ alert.trigger = .known .once ∧ alert.cooldownS = some 86400 ∧
      check stage := by
  obtain ⟨document, stage, alert, hsub, hcheck⟩ := exists_of_subscribesWith tickSub _ h
  simp only [Bool.and_eq_true, decide_eq_true_eq, Option.isNone_iff_eq_none, and_assoc] at hcheck
  exact ⟨document, stage, alert, hsub, hcheck⟩

/-- A worker that takes over continues from the newest row, and the second crossing is silent. -/
theorem trigger_survives_takeover :
    let visits := [tickVisit "a" 0 90, tickVisit "a" 10 110, tickVisit "b" 140 90, tickVisit "b" 150 110]
    ((fleet tickSub).trace visits {}).map (fun e => e.createdAt) = [10 * microsPerSecond] ∧
      ((fleet tickSub).trace visits {}).length ≤ 1 ∧ ((fleet tickSub).trace visits {}).Pairwise fun e e' =>
        e.createdAt + 86400 * microsPerSecond ≤ e'.createdAt := by
  intro visits
  obtain ⟨document, stage, alert, hsub, hsignal, hclock, htrigger, hcooldown, hcheck⟩ :=
    tickSub_subscribes (fun stage =>
      decide ((fleet tickSub).Along (fun v _ s => KnowsFiring tickSub stage v s) visits {}) &&
      decide ((fleet tickSub).Along (fun v _ s => KnowsCooldown tickSub stage v s) visits {}))
      (by decide +kernel)
  simp only [Bool.and_eq_true, decide_eq_true_eq] at hcheck
  have hlive : LiveVisits visits := by decide +kernel
  have hgates := trigger_survives_workers hsub hsignal hclock hlive {}
  exact ⟨by decide +kernel, hgates.1 htrigger hcheck.1, hgates.2 86400 hcooldown (by decide) hcheck.2⟩

/-- The second worker records the alert that fires once; the first one comes back, reads its own
older row and records it again two minutes later. -/
theorem fired_again_after_alternation :
    let visits := [tickVisit "a" 0 90, tickVisit "b" 130 90, tickVisit "b" 140 110,
      tickVisit "a" 270 90, tickVisit "a" 280 110]
    LiveVisits visits ∧
      (∃ document stage alert, Subscribes tickSub document stage alert ∧ stage.breadth = none ∧
        stage.clock = .known .ltp ∧ alert.trigger = .known .once ∧ alert.cooldownS = some 86400) ∧
      (¬ ((fleet tickSub).trace visits {}).length ≤ 1) ∧
      ¬ ((fleet tickSub).trace visits {}).Pairwise fun e e' =>
        e.createdAt + 86400 * microsPerSecond ≤ e'.createdAt := by
  intro visits
  refine ⟨by decide +kernel, ?_, by decide +kernel, by decide +kernel⟩
  obtain ⟨document, stage, alert, hsub, hsignal, hclock, htrigger, hcooldown, -⟩ :=
    tickSub_subscribes (fun _ => true) (by decide +kernel)
  exact ⟨document, stage, alert, hsub, hsignal, hclock, htrigger, hcooldown⟩

end KiteAlgo
