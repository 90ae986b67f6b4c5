import KiteAlgo.Compiler.Accepted
import KiteAlgo.Service.Spec

/-!
# KiteAlgo.Service.Gating

The gates of an alert (expiry, session, `once`, cooldown) over whole runs of the
service, for signal and for breadth stages alike.

The signal path decides with `decide`, on the lifecycle of the state it starts
from: the gates hold as long as that state knows what was recorded.  The breadth
path publishes a crossing without consulting any gate.  `alert_gating` states
each gate with the condition on the calls under which it is kept.
-/

namespace KiteAlgo

variable {F : Type} [PyFloat F]

/-! ## stored lifecycles -/

/-- The stored states of a subscription, over all epochs. -/
def storedStates (db : Db F) (sub : ActiveSubscription F) : List (Checkpoint F) :=
  (db.checkpoints.select fun k _ =>
    decide (k.1 = sub.id) && decide (k.2.1 = sub.instrumentKey)).map fun row => row.2.state

/-- Some stored state of the subscription has the property. -/
def Holds (hold : Lifecycle → Prop) (db : Db F) (sub : ActiveSubscription F) : Prop :=
  ∃ state ∈ storedStates db sub, hold state.lifecycle

omit [PyFloat F] in
theorem mem_storedStates {db : Db F} {sub : ActiveSubscription F} {state : Checkpoint F} :
    state ∈ storedStates db sub ↔
      ∃ epoch row, db.checkpoints.get? (sub.id, sub.instrumentKey, epoch) = some row ∧
        row.state = state := by
  simp only [storedStates, List.mem_map, Prod.exists, Table.mem_select, Bool.and_eq_true, decide_eq_true_eq]
  constructor
  · rintro ⟨id, key, epoch, row, ⟨hrow, rfl, rfl⟩, rfl⟩
    exact ⟨epoch, row, hrow, rfl⟩
  · rintro ⟨epoch, row, hrow, rfl⟩
    exact ⟨_, _, epoch, row, ⟨hrow, rfl, rfl⟩, rfl⟩

omit [PyFloat F] in
theorem holds_of_upsert {hold : Lifecycle → Prop} {db db' : Db F} {sub : ActiveSubscription F}
    {epoch : String} {row : CheckpointRow F}
    (h : db'.checkpoints = db.checkpoints.upsert (sub.id, sub.instrumentKey, epoch) row)
    (hrow : hold row.state.lifecycle) : Holds hold db' sub :=
  ⟨row.state, mem_storedStates.mpr ⟨epoch, row, by rw [h, Table.get?_upsert_self], rfl⟩, hrow⟩

omit [PyFloat F] in
theorem holds_of_upsert_other {hold : Lifecycle → Prop} {db db' : Db F}
    {sub sub' : ActiveSubscription F} {epoch : String} {row : CheckpointRow F}
    (h : db'.checkpoints = db.checkpoints.upsert (sub.id, sub.instrumentKey, epoch) row)
    (hne : sub.id ≠ sub'.id) (hholds : Holds hold db sub') : Holds hold db' sub' := by
  obtain ⟨state, hstate, hhold⟩ := hholds
  obtain ⟨epoch', row', hrow', rfl⟩ := mem_storedStates.mp hstate
  refine ⟨row'.state, mem_storedStates.mpr ⟨epoch', row', ?_, rfl⟩, hhold⟩
  rw [h, Table.get?_upsert_of_ne, hrow']
  simp [hne]

omit [PyFloat F] in
theorem holds_congr {hold : Lifecycle → Prop} {db db' : Db F} {sub sub' : ActiveSubscription F}
    (h : db'.checkpoints = db.checkpoints) (hid : sub'.id = sub.id)
    (hkey : sub'.instrumentKey = sub.instrumentKey) (hholds : Holds hold db sub) :
    Holds hold db' sub' := by
  simpa only [Holds, storedStates, h, hid, hkey] using hholds

/-! ## a call for a signal subscription -/

theorem startOf_lifecycle {env : ServiceEnv F} {sub : ActiveSubscription F} {stage : Stage F}
    {call : Call F} {loaded : Checkpoint F × Int} {db : Db F} {start : Start F}
    (h : startOf env sub stage call loaded db = some start) :
    start.base.events = db.events ∧ (start.base.checkpoints = db.checkpoints ∨
        ∃ row, start.base.checkpoints = db.checkpoints.upsert
            (sub.id, sub.instrumentKey, call.obs.epochId) row ∧
          row.state.lifecycle = loaded.1.lifecycle) ∧
      ((stage.clock = .known .candleClose → isCorrection loaded.1 call.obs = false) →
        start.prepared.correction = false ∧ start.prepared.state.lifecycle = loaded.1.lifecycle) := by
  simp only [startOf] at h
  split at h
  · next hclock =>
      simp only [Option.map_eq_some_iff] at h
      obtain ⟨prepared, hprepared, rfl⟩ := h
      refine ⟨rfl, .inl rfl, fun hfree => ?_⟩
      simp only [prepareBar, hfree hclock, Bool.false_eq_true, if_false] at hprepared
      split at hprepared
      · simp at hprepared
      · obtain rfl := Option.some.inj hprepared
        refine ⟨rfl, ?_⟩
        show (if detectGap stage loaded.1 call.obs then resetObservationState loaded.1
          else loaded.1).lifecycle = _
        split <;> rfl
  · split at h
    · obtain rfl := Option.some.inj h
      simp only [persistContinuityInvalidation]
      split
      · exact ⟨rfl, .inl rfl, fun _ => ⟨trivial, rfl⟩⟩
      · next epoch saved hsave =>
          obtain ⟨hcheckpoints, _, hevents⟩ := saveCheckpoint_ok hsave
          exact ⟨hevents, .inr ⟨_, hcheckpoints, rfl⟩, fun _ => ⟨trivial, rfl⟩⟩
    · obtain rfl := Option.some.inj h
      exact ⟨rfl, .inl rfl, fun _ => ⟨rfl, rfl⟩⟩

/-- The call is live and corrects no bar: it decides on the stored lifecycle. -/
def Undisturbed (stage : Stage F) (r : Request F) (s : ServiceState F) : Prop :=
  r.call.allowEmit = true ∧ (stage.clock = .known .candleClose →
    isCorrection (storedState s r.sub stage r.call.obs) r.call.obs = false)

instance (stage : Stage F) (r : Request F) (s : ServiceState F) :
    Decidable (Undisturbed stage r s) :=
  inferInstanceAs (Decidable (_ ∧ (_ → _)))

/-- What a call for a signal subscription does to the lifecycles: it decides
nothing, or it makes a decision and records its signal if there is one. -/
inductive SignalEffect (stage : Stage F) (alert : AlertSpec F) (env : ServiceEnv F)
    (session : String) (r : Request F) (s s' : ServiceState F)
    (out : List (Request F × SignalEvent F)) : Prop
  | idle (hout : out = [])
      (hkeep : ∀ hold : Lifecycle → Prop, Holds hold s.db r.sub →
        hold (storedState s r.sub stage r.call.obs).lifecycle → Holds hold s'.db r.sub)
  | decided (input : EngineInput F) (emit : Bool) (before after : Lifecycle)
      (hnow : input.now = r.call.now)
      (hspec : TriggerSpec alert input before emit after)
      (hgates : emit = true → (∀ e, alert.expiry env.fromIso = some e → r.call.now < e) ∧
        (resolveSession env session r.sub.instrumentKey r.call.obs.ts).1 = true)
      (hbefore : Undisturbed stage r s → before = (storedState s r.sub stage r.call.obs).lifecycle)
      (hafter : r.call.allowEmit = true → ∀ hold : Lifecycle → Prop, hold after → Holds hold s'.db r.sub)
      (hout : out = [] ∨ (emit = true ∧ r.call.allowEmit = true ∧
        ∃ e, out = [(r, e)] ∧ e.subscriptionId = some r.sub.id ∧ e.createdAt = r.call.now))

omit [PyFloat F] in
theorem correctionNotice_isNotice (env : ServiceEnv F) (sub : ActiveSubscription F) (call : Call F)
    (ev : Evaluation F) : (correctionNotice env sub call ev).isNotice = true := by
  simp [SignalEvent.isNotice, correctionNotice, Dict.get?_set]

theorem service_signal (env : ServiceEnv F) {document : WorkflowDocument F} {stage : Stage F}
    {alert : AlertSpec F} {r : Request F} (hsub : Subscribes r.sub document stage alert)
    (hsignal : stage.breadth = none) (s : ServiceState F) :
    (∀ (hold : Lifecycle → Prop) (sub' : ActiveSubscription F), r.sub.id ≠ sub'.id →
        Holds hold s.db sub' → Holds hold ((service env).step r s).db sub') ∧
      SignalEffect stage alert env document.session r s ((service env).step r s)
        ((service env).out r s) := by
  obtain ⟨sub, call⟩ := r
  have hcases := handleSignal_cases env sub document.session stage alert call s
  simp only [service, handleObservation_signal hsub hsignal]
  generalize (handleSignal env sub document.session stage alert call s).2 = s' at hcases ⊢
  obtain ⟨db', windows⟩ := s'
  simp only at hcases ⊢
  cases hcases with
  | kept => exact ⟨fun _ _ _ h => h, .idle (by simp) fun _ h _ => h⟩
  | @rolledBack start hstart =>
    obtain ⟨hevents, hrows, _⟩ := startOf_lifecycle hstart
    have hout : ((start.base.events.drop s.db.events.length).filter fun e => !e.isNotice).map
        (fun e => ((⟨sub, call⟩ : Request F), e)) = [] := by simp [hevents]
    rcases hrows with hsame | ⟨row, hupsert, hlifecycle⟩
    · exact ⟨fun _ _ _ h => holds_congr hsame rfl rfl h,
        .idle hout fun _ h _ => holds_congr hsame rfl rfl h⟩
    · refine ⟨fun _ _ hne h => holds_of_upsert_other hupsert hne h, .idle hout fun hold _ h => ?_⟩
      exact holds_of_upsert hupsert (hlifecycle ▸ h)
  | @committed start ev _ epoch published _ hstart hev hcheckpoints _ hevents hpublished =>
    obtain ⟨hbase, hrows, hfree⟩ := startOf_lifecycle hstart
    have heval := evaluateSignal_spec hev
    obtain ⟨input, hnow, _, hspec⟩ := heval.trigger
    refine ⟨fun hold sub' hne h => ?_, .decided input ev.engine.emit _ _ hnow hspec heval.gates
      (fun hundisturbed => (hfree hundisturbed.2).2) (fun hlive hold hafter => ?_) ?_⟩
    · refine holds_of_upsert_other hcheckpoints hne ?_
      rcases hrows with hsame | ⟨row, hupsert, _⟩
      · exact holds_congr hsame rfl rfl h
      · exact holds_of_upsert_other hupsert hne h
    · refine holds_of_upsert hcheckpoints ?_
      rw [nextCheckpoint_live hlive]
      exact hafter
    · rw [hbase] at hevents
      cases hpublished with
      | nothing => exact .inl (by simp [hevents])
      | notice _ _ => exact .inl (by simp [hevents, correctionNotice_isNotice])
      | signal hemit hlive =>
        simp only [hevents, List.drop_left, List.filter_cons, List.filter_nil]
        split
        · exact .inr ⟨hemit, hlive, _, rfl, rfl, rfl⟩
        · exact .inl rfl

omit [PyFloat F] in
theorem publishBreadth_events {env : ServiceEnv F} {sub : ActiveSubscription F}
    {document : WorkflowDocument F} {stage : Stage F} {spec : BreadthSpec F} {alert : AlertSpec F}
    {call : Call F} {outcome : BreadthOutcome} {ownerEpoch : Int} {db db' : Db F} {emitted : Bool}
    {suppression : Option Suppression}
    (h : publishBreadth env sub document stage spec alert call outcome ownerEpoch db =
      .ok (db', emitted, suppression)) :
    db'.events = db.events ∨
      db'.events = db.events ++ [crossingEvent sub document.name stage spec alert call outcome] := by
  have hslot : ∀ {slot : SessionSlot} {maximum : Int} {reserved : Db F},
      reserveSessionSlot db slot maximum = some reserved → reserved.events = db.events := by
    intro slot maximum reserved h
    simp only [reserveSessionSlot] at h
    split at h
    · obtain rfl := Option.some.inj h
      rfl
    · split at h
      · obtain rfl := Option.some.inj h
        rfl
      · simp at h
  simp only [publishBreadth] at h
  split at h
  · exact .inl (by cases h; rfl)
  · split at h
    · split at h
      · exact .inl (by cases h; rfl)
      · split at h
        · exact .inl (by cases h; rfl)
        · next reserved hreserved =>
            have hevents : reserved.events = db.events := by
              split at hreserved
              · obtain rfl := Option.some.inj hreserved
                rfl
              · obtain rfl := Option.some.inj hreserved
                rfl
              · exact hslot hreserved
            simp only [bind_eq_ok] at h
            obtain ⟨published, hpublished, h⟩ := h
            cases h
            simp only [publishBreadthCrossing] at hpublished
            split at hpublished
            · simp at hpublished
            · split at hpublished
              · next recorded hrecorded =>
                  cases hpublished
                  rw [(recordSignal_ok hrecorded).1, hevents]
                  exact .inr rfl
              · cases hpublished
                exact .inl hevents
    · exact .inl (by cases h; rfl)

theorem service_breadth (env : ServiceEnv F) {document : WorkflowDocument F} {stage : Stage F}
    {alert : AlertSpec F} {r : Request F} {spec : BreadthSpec F}
    (hsub : Subscribes r.sub document stage alert) (hbreadth : stage.breadth = some spec)
    (s : ServiceState F) :
    (∀ e ∈ s.db.events, e ∈ ((service env).step r s).db.events) ∧ ((service env).out r s = [] ∨
        ∃ e, (service env).out r s = [(r, e)] ∧ e ∈ ((service env).step r s).db.events ∧
          e.subscriptionId = none ∧ e.workflowId = r.sub.workflowId ∧ e.createdAt = r.call.obs.ts) := by
  obtain ⟨sub, call⟩ := r
  have hevents : (handleBreadth env sub document stage spec alert call s).2.db.events =
      s.db.events ∨ ∃ outcome, (handleBreadth env sub document stage spec alert call s).2.db.events =
        s.db.events ++ [crossingEvent sub document.name stage spec alert call outcome] := by
    unfold handleBreadth
    split
    · exact .inl rfl
    · next ownerEpoch db hclaim =>
        obtain ⟨_, _, hclaimed, _⟩ := assertEvaluationOwner_of_claim hclaim
        simp only
        split
        · exact .inl rfl
        · split
          · exact .inl rfl
          · next published emitted suppression hpublish =>
              have hpublished := publishBreadth_events hpublish
              split
              · exact .inl rfl
              · split
                · exact .inl rfl
                · next epoch saved hsave =>
                    obtain ⟨_, _, hsaved⟩ := saveCheckpoint_ok hsave
                    simp only [hsaved]
                    rw [hclaimed] at hpublished
                    exact hpublished.imp_right fun h => ⟨_, h⟩
  have hhandle : handleObservation env sub call s =
      handleBreadth env sub document stage spec alert call s := by
    simp only [handleObservation, hsub.parses, hsub.stage, hsub.alert, hbreadth]
  simp only [service, hhandle]
  rcases hevents with hevents | ⟨outcome, hevents⟩
  · rw [hevents]
    exact ⟨fun _ h => h, .inl (by simp)⟩
  · rw [hevents]
    refine ⟨fun e he => List.mem_append_left _ he, ?_⟩
    simp only [List.drop_left, List.filter_cons, List.filter_nil]
    split
    · exact .inr ⟨_, rfl, by simp, rfl, rfl, rfl⟩
    · exact .inl rfl

/-! ## gates -/

/-- Two events count against the same limit: those of one subscription, and the
workflow-level events of one workflow. -/
def SameScope (e e' : SignalEvent F) : Prop :=
  e.subscriptionId = e'.subscriptionId ∧ (e.subscriptionId = none → e.workflowId = e'.workflowId)

instance (e e' : SignalEvent F) : Decidable (SameScope e e') :=
  inferInstanceAs (Decidable (_ ∧ (_ → _)))

/-- A gate of the engine: what a signal at time `t` leaves in the lifecycle, and
when a later signal is far enough away. -/
structure Gate (alert : AlertSpec F) where
  hold : Int → Lifecycle → Prop
  elapsed : Int → Int → Prop
  keep : ∀ {t input before emit after}, TriggerSpec alert input before emit after →
    hold t before → hold t after
  blocks : ∀ {t input before after}, TriggerSpec alert input before true after →
    hold t before → elapsed t input.now
  sets : ∀ {input before after}, TriggerSpec alert input before true after → hold input.now after

/-- `once`: nothing after the first signal. -/
def onceGate {alert : AlertSpec F} (htrigger : alert.trigger = .known .once) : Gate alert where
  hold _ lifecycle := lifecycle.firedOnce = true
  elapsed _ _ := False
  keep h := h.firedOnce
  blocks h hfired := by simp [(h.once rfl htrigger).1] at hfired
  sets h := (h.once rfl htrigger).2

def cooldownGate {alert : AlertSpec F} {cooldown : Int} (hcooldown : alert.cooldown = some cooldown)
    (hpos : 0 < cooldown) : Gate alert where
  hold t lifecycle := ∃ u, lifecycle.cooldownUntil = some u ∧ t + cooldown ≤ u
  elapsed t now := t + cooldown ≤ now
  keep := by
    rintro t input before emit after h ⟨u, hu, hle⟩
    cases emit with
    | false => exact ⟨u, (h.held rfl).trans hu, hle⟩
    | true =>
      have hover := h.cooldownOver rfl (by simp [hcooldown]) u hu
      exact ⟨_, h.cooldownSet rfl cooldown hcooldown, by omega⟩
  blocks := by
    rintro t input before after h ⟨u, hu, hle⟩
    have hover := h.cooldownOver rfl (by simp [hcooldown]) u hu
    omega
  sets h := ⟨_, h.cooldownSet rfl cooldown hcooldown, Int.le_refl _⟩

/-! ## runs -/

/-- The calls of the subscriptions of one alert; the id of a subscription
determines its instrument. -/
structure AlertCalls (document : WorkflowDocument F) (stage : Stage F) (alert : AlertSpec F)
    (instrumentOf : String → String) (reqs : List (Request F)) : Prop where
  subscribed : ∀ r ∈ reqs, Subscribes r.sub document stage alert
  instrument : ∀ r ∈ reqs, r.sub.instrumentKey = instrumentOf r.sub.id

theorem AlertCalls.tail {document : WorkflowDocument F} {stage : Stage F} {alert : AlertSpec F}
    {instrumentOf : String → String} {r : Request F} {rest : List (Request F)}
    (h : AlertCalls document stage alert instrumentOf (r :: rest)) :
    AlertCalls document stage alert instrumentOf rest where
  subscribed q hq := h.subscribed q (List.mem_cons_of_mem r hq)
  instrument q hq := h.instrument q (List.mem_cons_of_mem r hq)

section Runs

variable {env : ServiceEnv F} {document : WorkflowDocument F} {stage : Stage F}
  {alert : AlertSpec F} {instrumentOf : String → String}

/-- The call decides on a state that knows what any stored state of the
subscription holds, or what is held is over for this and all later calls. -/
def Fresh (stage : Stage F) (gate : Gate alert) (r : Request F) (rest : List (Request F))
    (s : ServiceState F) : Prop :=
  ∀ t, Holds (gate.hold t) s.db r.sub → (Undisturbed stage r s ∧
      gate.hold t (storedState s r.sub stage r.call.obs).lifecycle) ∨
    ∀ q ∈ r :: rest, q.sub.id = r.sub.id → gate.elapsed t q.call.now

/-- Every recorded signal is held by a stored state of its subscription, or is over
for the calls to come. -/
structure SignalGateInv (document : WorkflowDocument F) (stage : Stage F)
    (instrumentOf : String → String) (gate : Gate alert)
    (past : List (Request F × SignalEvent F)) (reqs : List (Request F)) (s : ServiceState F) :
    Prop where
  calls : AlertCalls document stage alert instrumentOf reqs
  subs : ∀ a ∈ past, a.2.subscriptionId = some a.1.sub.id ∧ a.1.sub.instrumentKey = instrumentOf a.1.sub.id
  held : ∀ a ∈ past, Holds (gate.hold a.2.createdAt) s.db a.1.sub ∨
    ∀ q ∈ reqs, q.sub.id = a.1.sub.id → gate.elapsed a.2.createdAt q.call.now
  apart : past.Pairwise fun a b => SameScope a.2 b.2 → gate.elapsed a.2.createdAt b.2.createdAt

variable (env) in
theorem held_step (hsignal : stage.breadth = none) (gate : Gate alert) {r : Request F}
    {rest : List (Request F)} {s : ServiceState F}
    (hcalls : AlertCalls document stage alert instrumentOf (r :: rest))
    (hfresh : Fresh stage gate r rest s) {a : Request F × SignalEvent F}
    (hkey : a.1.sub.instrumentKey = instrumentOf a.1.sub.id)
    (hheld : Holds (gate.hold a.2.createdAt) s.db a.1.sub ∨
      ∀ q ∈ r :: rest, q.sub.id = a.1.sub.id → gate.elapsed a.2.createdAt q.call.now) :
    (Holds (gate.hold a.2.createdAt) ((service env).step r s).db a.1.sub ∨
        ∀ q ∈ rest, q.sub.id = a.1.sub.id → gate.elapsed a.2.createdAt q.call.now) ∧
      ∀ b ∈ (service env).out r s, r.sub.id = a.1.sub.id → gate.elapsed a.2.createdAt b.2.createdAt := by
  have hsub := hcalls.subscribed r (.head _)
  obtain ⟨hother, heffect⟩ := service_signal env hsub hsignal s
  have htime : ∀ b ∈ (service env).out r s, b.2.createdAt = r.call.now := by
    cases heffect with
    | idle hout _ => simp [hout]
    | decided _ _ _ _ _ _ _ _ _ hout =>
      rcases hout with hout | ⟨_, _, e, hout, _, hcreated⟩
      · simp [hout]
      · simp [hout, hcreated]
  have hover : (∀ q ∈ r :: rest, q.sub.id = a.1.sub.id → gate.elapsed a.2.createdAt q.call.now) →
      (Holds (gate.hold a.2.createdAt) ((service env).step r s).db a.1.sub ∨
        ∀ q ∈ rest, q.sub.id = a.1.sub.id → gate.elapsed a.2.createdAt q.call.now) ∧
      ∀ b ∈ (service env).out r s, r.sub.id = a.1.sub.id → gate.elapsed a.2.createdAt b.2.createdAt := by
    intro h
    refine ⟨.inr fun q hq => h q (List.mem_cons_of_mem r hq), fun b hb hid => ?_⟩
    rw [htime b hb]
    exact h r (.head _) hid
  rcases hheld with hheld | h
  · by_cases hid : r.sub.id = a.1.sub.id
    · have hinstrument : r.sub.instrumentKey = a.1.sub.instrumentKey := by
        rw [hkey, ← hid]
        exact hcalls.instrument r (.head _)
      have hstored : Holds (gate.hold a.2.createdAt) s.db r.sub :=
        holds_congr rfl hid hinstrument hheld
      rcases hfresh _ hstored with ⟨hundisturbed, hhold⟩ | h
      · cases heffect with
        | idle hout hkeep =>
          refine ⟨.inl ?_, by simp [hout]⟩
          exact holds_congr rfl hid.symm hinstrument.symm (hkeep _ hstored hhold)
        | decided input emit before after hnow hspec _ hbefore hafter hout =>
          rw [← hbefore hundisturbed] at hhold
          refine ⟨.inl ?_, fun b hb _ => ?_⟩
          · exact holds_congr rfl hid.symm hinstrument.symm
              (hafter hundisturbed.1 _ (gate.keep hspec hhold))
          · rw [htime b hb, ← hnow]
            rcases hout with hout | ⟨hemit, _⟩
            · simp [hout] at hb
            · rw [hemit] at hspec
              exact gate.blocks hspec hhold
      · exact hover fun q hq hqid => h q hq (hqid.trans hid.symm)
    · exact ⟨.inl (hother _ _ hid hheld), fun b _ hb => absurd hb hid⟩
  · exact hover h

theorem SignalGateInv.step (hsignal : stage.breadth = none) {gate : Gate alert}
    {past : List (Request F × SignalEvent F)} {r : Request F} {rest : List (Request F)}
    {s : ServiceState F} (h : SignalGateInv document stage instrumentOf gate past (r :: rest) s)
    (hfresh : Fresh stage gate r rest s) :
    SignalGateInv document stage instrumentOf gate (past ++ (service env).out r s) rest
      ((service env).step r s) := by
  obtain ⟨hcalls, hsubs, hheld, hapart⟩ := h
  have hearlier := fun a ha =>
    held_step env hsignal gate hcalls hfresh (hsubs a ha).2 (hheld a ha)
  obtain ⟨_, heffect⟩ := service_signal env (hcalls.subscribed r (.head _)) hsignal s
  have hown : ∀ b ∈ (service env).out r s, b.1 = r ∧ b.2.subscriptionId = some r.sub.id ∧
      Holds (gate.hold b.2.createdAt) ((service env).step r s).db r.sub := by
    cases heffect with
    | idle hout _ => simp [hout]
    | decided input emit before after hnow hspec _ _ hafter hout =>
      rcases hout with hout | ⟨hemit, hlive, e, hout, hid, hcreated⟩
      · simp [hout]
      · rw [hemit] at hspec
        intro b hb
        rw [hout, List.mem_singleton] at hb
        subst hb
        refine ⟨rfl, hid, ?_⟩
        rw [hcreated, ← hnow]
        exact hafter hlive _ (gate.sets hspec)
  have hpair : ((service env).out r s).Pairwise fun a b =>
      SameScope a.2 b.2 → gate.elapsed a.2.createdAt b.2.createdAt := by
    cases heffect with
    | idle hout _ => simp [hout]
    | decided _ _ _ _ _ _ _ _ _ hout =>
      rcases hout with hout | ⟨_, _, e, hout, _⟩ <;> simp [hout]
  refine ⟨hcalls.tail, fun a ha => ?_, fun a ha => ?_, ?_⟩
  · rcases List.mem_append.mp ha with ha | ha
    · exact hsubs a ha
    · obtain ⟨hr, hid, _⟩ := hown a ha
      rw [hr]
      exact ⟨hid, hcalls.instrument r (.head _)⟩
  · rcases List.mem_append.mp ha with ha | ha
    · exact (hearlier a ha).1
    · obtain ⟨hr, _, hholds⟩ := hown a ha
      rw [hr]
      exact .inl hholds
  · rw [List.pairwise_append]
    refine ⟨hapart, hpair, fun a ha b hb hscope => (hearlier a ha).2 b hb ?_⟩
    have hid := hscope.1
    rw [(hsubs a ha).1, (hown b hb).2.1] at hid
    exact (Option.some.inj hid).symm

/-- No workflow-level event of the workflow stands against one at the call's time. -/
def BreadthOpen (gate : Gate alert) (r : Request F) (s : ServiceState F) : Prop :=
  ∀ e ∈ s.db.events, e.subscriptionId = none → e.workflowId = r.sub.workflowId →
    gate.elapsed e.createdAt r.call.obs.ts

/-- Every recorded crossing is in the events table. -/
structure BreadthGateInv (document : WorkflowDocument F) (stage : Stage F)
    (instrumentOf : String → String) (gate : Gate alert)
    (past : List (Request F × SignalEvent F)) (reqs : List (Request F)) (s : ServiceState F) :
    Prop where
  calls : AlertCalls document stage alert instrumentOf reqs
  stored : ∀ a ∈ past, a.2 ∈ s.db.events ∧ a.2.subscriptionId = none
  apart : past.Pairwise fun a b => SameScope a.2 b.2 → gate.elapsed a.2.createdAt b.2.createdAt

theorem BreadthGateInv.step {spec : BreadthSpec F} (hbreadth : stage.breadth = some spec)
    {gate : Gate alert} {past : List (Request F × SignalEvent F)} {r : Request F}
    {rest : List (Request F)} {s : ServiceState F}
    (h : BreadthGateInv document stage instrumentOf gate past (r :: rest) s)
    (hopen : BreadthOpen gate r s) :
    BreadthGateInv document stage instrumentOf gate (past ++ (service env).out r s) rest
      ((service env).step r s) := by
  obtain ⟨hcalls, hstored, hapart⟩ := h
  obtain ⟨hkept, hout⟩ :=
    service_breadth env (hcalls.subscribed r (.head _)) hbreadth s
  refine ⟨hcalls.tail, fun a ha => ?_, ?_⟩
  · rcases List.mem_append.mp ha with ha | ha
    · exact ⟨hkept _ (hstored a ha).1, (hstored a ha).2⟩
    · rcases hout with hout | ⟨e, hout, hmem, hnone, _⟩
      · simp [hout] at ha
      · rw [hout, List.mem_singleton] at ha
        subst ha
        exact ⟨hmem, hnone⟩
  · rcases hout with hout | ⟨e, hout, _, _, hworkflow, hcreated⟩
    · simpa [hout] using hapart
    · rw [hout, List.pairwise_append]
      refine ⟨hapart, List.pairwise_singleton _ _, fun a ha b hb hscope => ?_⟩
      obtain rfl := List.mem_singleton.mp hb
      obtain ⟨hmem, hnone⟩ := hstored a ha
      show gate.elapsed a.2.createdAt e.createdAt
      rw [hcreated]
      exact hopen a.2 hmem hnone ((hscope.2 hnone).trans hworkflow)

theorem gate_run (env : ServiceEnv F) (gate : Gate alert) {reqs : List (Request F)}
    (hcalls : AlertCalls document stage alert instrumentOf reqs) {s : ServiceState F}
    (hkept : (service env).Along (fun r rest s =>
      (stage.breadth.isNone = true → Fresh stage gate r rest s) ∧
      (stage.breadth.isSome = true → BreadthOpen gate r s)) reqs s) :
    ((service env).trace reqs s).Pairwise fun a b =>
      SameScope a.2 b.2 → gate.elapsed a.2.createdAt b.2.createdAt := by
  cases hbreadth : stage.breadth with
  | none =>
    have hinit : SignalGateInv document stage instrumentOf gate [] reqs s :=
      ⟨hcalls, by simp, by simp, List.Pairwise.nil⟩
    have hfinal := Machine.history (m := service env)
      (fun hinv hP => hinv.step hbreadth (hP.1 (by simp [hbreadth]))) hinit hkept
    exact hfinal.apart
  | some spec =>
    have hinit : BreadthGateInv document stage instrumentOf gate [] reqs s :=
      ⟨hcalls, by simp, List.Pairwise.nil⟩
    have hfinal := Machine.history (m := service env)
      (fun hinv hP => hinv.step hbreadth (hP.2 (by simp [hbreadth]))) hinit hkept
    exact hfinal.apart

/-! ## the four gates -/

/-- A breadth call comes before the alert expires. -/
def ExpiryKept (env : ServiceEnv F) (stage : Stage F) (alert : AlertSpec F) (r : Request F)
    (_rest : List (Request F)) (_s : ServiceState F) : Prop :=
  stage.breadth.isSome = true → ∀ e ∈ alert.expiry env.fromIso, r.call.obs.ts < e

/-- A breadth call comes in an active session. -/
def SessionKept (env : ServiceEnv F) (session : String) (stage : Stage F) (r : Request F)
    (_rest : List (Request F)) (_s : ServiceState F) : Prop :=
  stage.breadth.isSome = true → (resolveSession env session r.sub.instrumentKey r.call.obs.ts).1 = true

/-- A signal call that finds `fired_once` in any stored state of its subscription
is live, corrects no bar and decides on a state that has it; a breadth call finds no
event of its workflow. -/
def OnceKept (stage : Stage F) (r : Request F) (_rest : List (Request F)) (s : ServiceState F) :
    Prop :=
  (stage.breadth.isNone = true → ∀ state ∈ storedStates s.db r.sub, state.firedOnce = true →
    Undisturbed stage r s ∧ (storedState s r.sub stage r.call.obs).firedOnce = true) ∧
  (stage.breadth.isSome = true → ∀ e ∈ s.db.events, e.subscriptionId = none →
    e.workflowId ≠ r.sub.workflowId)

/-- A signal call that finds a cooldown until `u` in any stored state of its
subscription is live, corrects no bar and decides on a state that cools down at
least until then, unless `u` has passed for it and all later calls; a breadth call
comes a cooldown after every event of its workflow. -/
def CooldownKept (stage : Stage F) (cooldown : Int) (r : Request F) (rest : List (Request F))
    (s : ServiceState F) : Prop :=
  (stage.breadth.isNone = true → ∀ state ∈ storedStates s.db r.sub, ∀ u ∈ state.cooldownUntil,
    (Undisturbed stage r s ∧ ∃ v ∈ (storedState s r.sub stage r.call.obs).cooldownUntil, u ≤ v) ∨
    ∀ q ∈ r :: rest, q.sub.id = r.sub.id → u ≤ q.call.now) ∧
  (stage.breadth.isSome = true → ∀ e ∈ s.db.events, e.subscriptionId = none →
    e.workflowId = r.sub.workflowId → e.createdAt + cooldown ≤ r.call.obs.ts)

instance (env : ServiceEnv F) (stage : Stage F) (alert : AlertSpec F) (r : Request F)
    (rest : List (Request F)) (s : ServiceState F) :
    Decidable (ExpiryKept env stage alert r rest s) :=
  inferInstanceAs (Decidable (stage.breadth.isSome = true →
    ∀ e ∈ alert.expiry env.fromIso, r.call.obs.ts < e))

instance (env : ServiceEnv F) (session : String) (stage : Stage F) (r : Request F)
    (rest : List (Request F)) (s : ServiceState F) :
    Decidable (SessionKept env session stage r rest s) :=
  inferInstanceAs (Decidable (_ → _))

instance (stage : Stage F) (r : Request F) (rest : List (Request F)) (s : ServiceState F) :
    Decidable (OnceKept stage r rest s) :=
  inferInstanceAs (Decidable ((_ → ∀ state ∈ storedStates s.db r.sub, _ → _) ∧
    (_ → ∀ e ∈ s.db.events, _ → _)))

instance (stage : Stage F) (cooldown : Int) (r : Request F) (rest : List (Request F))
    (s : ServiceState F) : Decidable (CooldownKept stage cooldown r rest s) :=
  inferInstanceAs (Decidable
    ((stage.breadth.isNone = true → ∀ state ∈ storedStates s.db r.sub, ∀ u ∈ state.cooldownUntil,
      (Undisturbed stage r s ∧ ∃ v ∈ (storedState s r.sub stage r.call.obs).cooldownUntil, u ≤ v) ∨
      ∀ q ∈ r :: rest, q.sub.id = r.sub.id → u ≤ q.call.now) ∧
    (stage.breadth.isSome = true → ∀ e ∈ s.db.events, e.subscriptionId = none →
      e.workflowId = r.sub.workflowId → e.createdAt + cooldown ≤ r.call.obs.ts)))

theorem recorded_by {r : Request F} (hsub : Subscribes r.sub document stage alert)
    {s : ServiceState F} {a : Request F × SignalEvent F} (ha : a ∈ (service env).out r s) :
    a.1 = r ∧ ((a.2.createdAt = r.call.now ∧ (∀ e, alert.expiry env.fromIso = some e → r.call.now < e) ∧
          (resolveSession env document.session r.sub.instrumentKey r.call.obs.ts).1 = true) ∨
        (stage.breadth.isSome = true ∧ a.2.createdAt = r.call.obs.ts)) := by
  cases hbreadth : stage.breadth with
  | none =>
    obtain ⟨_, heffect⟩ := service_signal env hsub hbreadth s
    cases heffect with
    | idle hout _ => simp [hout] at ha
    | decided _ _ _ _ _ _ hgates _ _ hout =>
      rcases hout with hout | ⟨hemit, _, event, hout, _, hcreated⟩
      · simp [hout] at ha
      · obtain rfl := List.mem_singleton.mp (hout ▸ ha)
        exact ⟨rfl, .inl ⟨hcreated, hgates hemit⟩⟩
  | some spec =>
    obtain ⟨_, hout | ⟨event, hout, _, _, _, hcreated⟩⟩ := service_breadth env hsub hbreadth s
    · simp [hout] at ha
    · obtain rfl := List.mem_singleton.mp (hout ▸ ha)
      exact ⟨rfl, .inr ⟨rfl, hcreated⟩⟩

theorem forall_trace {P : Request F → Prop} {Q : Request F × SignalEvent F → Prop}
    (hout : ∀ r s, Subscribes r.sub document stage alert → P r → ∀ a ∈ (service env).out r s, Q a)
    {reqs : List (Request F)} (hcalls : AlertCalls document stage alert instrumentOf reqs)
    {s : ServiceState F} (hP : (service env).Along (fun r _ _ => P r) reqs s) :
    ∀ a ∈ (service env).trace reqs s, Q a := by
  induction reqs generalizing s with
  | nil => simp [Machine.trace]
  | cons r rest ih =>
    intro a ha
    rcases List.mem_append.mp ha with ha | ha
    · exact hout r s (hcalls.subscribed r (.head _)) hP.1 a ha
    · exact ih hcalls.tail hP.2 a ha

/-- The gates of an alert over every run of calls for its subscriptions, each under
its own condition on the calls. -/
theorem alert_gating (env : ServiceEnv F) {reqs : List (Request F)}
    (hcalls : AlertCalls document stage alert instrumentOf reqs) (s : ServiceState F) :
    ((service env).Along (ExpiryKept env stage alert) reqs s →
      ∀ a ∈ (service env).trace reqs s, ∀ e, alert.expiry env.fromIso = some e → a.2.createdAt < e) ∧
    ((service env).Along (SessionKept env document.session stage) reqs s → ∀ a ∈ (service env).trace reqs s,
        (resolveSession env document.session a.1.sub.instrumentKey a.1.call.obs.ts).1 = true) ∧
    (alert.trigger = .known .once → (service env).Along (OnceKept stage) reqs s →
      ((service env).trace reqs s).Pairwise fun a b => ¬ SameScope a.2 b.2) ∧
    (∀ c, alert.cooldownS = some c → 0 < c →
      (service env).Along (CooldownKept stage (c * microsPerSecond)) reqs s →
      ((service env).trace reqs s).Pairwise fun a b => SameScope a.2 b.2 →
        a.2.createdAt + c * microsPerSecond ≤ b.2.createdAt) := by
  refine ⟨fun hkept => ?_, fun hkept => ?_, fun htrigger hkept => ?_, fun c hc hpos hkept => ?_⟩
  · refine forall_trace (fun r s hsub hP a ha e he => ?_) hcalls hkept
    obtain ⟨_, ⟨hcreated, hexpiry, _⟩ | ⟨hsome, hcreated⟩⟩ := recorded_by hsub ha
    · rw [hcreated]
      exact hexpiry e he
    · rw [hcreated]
      exact hP hsome e he
  · refine forall_trace (fun r s hsub hP a ha => ?_) hcalls hkept
    obtain ⟨hr, ⟨_, _, hactive⟩ | ⟨hsome, _⟩⟩ := recorded_by hsub ha
    · rw [hr]
      exact hactive
    · rw [hr]
      exact hP hsome
  · refine gate_run env (onceGate htrigger) hcalls (hkept.mono fun r rest s h => ⟨?_, ?_⟩)
    · rintro hnone t ⟨state, hstate, hfired⟩
      exact .inl (h.1 hnone state hstate hfired)
    · exact fun hsome e he hnone hworkflow => h.2 hsome e he hnone hworkflow
  · have hcooldown : alert.cooldown = some (c * microsPerSecond) := by
      have hne : c ≠ 0 := by omega
      simp [AlertSpec.cooldown, hc, hne]
    have hmicros : 0 < c * microsPerSecond := Int.mul_pos hpos (by decide)
    refine gate_run env (cooldownGate hcooldown hmicros) hcalls
      (hkept.mono fun r rest s h => ⟨?_, h.2⟩)
    rintro hnone t ⟨state, hstate, u, hu, hle⟩
    rcases h.1 hnone state hstate u hu with ⟨hundisturbed, v, hv, huv⟩ | hover
    · exact .inl ⟨hundisturbed, v, hv, by omega⟩
    · exact .inr fun q hq hid => Int.le_trans hle (hover q hq hid)

end Runs

/-! ## one alert on a signal stage and on a breadth stage -/

/-- An alert that fires once, with a cooldown of a day, on the given stage. -/
def onceAlert (stage : List (String × PyVal ℚ)) : PyVal ℚ :=
  .ofPairs
    [("version", .int 1), ("name", .str "above"), ("instruments", .list [.str "NSE:INFY", .str "NSE:TCS"]),
     ("stages", .list
       [.ofPairs ([("id", .str "above"), ("clock", .str "candle_close"),
         ("timeframe", .str "5m")] ++ stage)]),
     ("alerts", .list
       [.ofPairs
         [("id", .str "notify"), ("source", .str "above"), ("trigger", .str "once"),
          ("cooldown_s", .int 86400), ("channels", .list [.str "telegram"])]])]

def crossingStage : List (String × PyVal ℚ) :=
  [("conditions", .list
    [.ofPairs [("field", .str "close"), ("op", .str "crosses_above"), ("value", .int 100)]])]

/-- Two instruments with a close above 100 within half an hour. -/
def participationStage : List (String × PyVal ℚ) :=
  [("type", .str "breadth"), ("breadth", .ofPairs
     [("condition", .ofPairs
        [("all", .list
          [.ofPairs [("field", .str "close"), ("op", .str "gt"), ("value", .int 100)]])]),
      ("distinct_instruments", .int 2), ("window", .str "30m")])]

/-- A completed bar of a subscription of the alert, named by its instrument. -/
def gatedBar (stage : List (String × PyVal ℚ)) (instrument : String) (second : Int) (close : ℚ) :
    Request ℚ where
  sub :=
    { id := instrument, revisionId := "r1", alertId := "notify", stageId := "above"
      instrumentKey := instrument, ownerId := "o1", workflowId := "w1"
      document := onceAlert stage }
  call :=
    { obs :=
        { ts := second * microsPerSecond, epochId := "candle", close := some close, final := true }
      membership :=
        { members := ["NSE:INFY", "NSE:TCS"], universeRevision := some 1, resolvedAt := some 0 } }

theorem alertCalls_gatedBar (stage : List (String × PyVal ℚ))
    (check : WorkflowDocument ℚ → Stage ℚ → AlertSpec ℚ → Bool)
    (h : subscribesWith (gatedBar stage "NSE:INFY" 0 0).sub check = true)
    (bars : List (String × Int × ℚ)) :
    ∃ document resolved alert, check document resolved alert = true ∧
      AlertCalls document resolved alert id (bars.map fun b => gatedBar stage b.1 b.2.1 b.2.2) := by
  obtain ⟨document, resolved, alert, hsub, hcheck⟩ := exists_of_subscribesWith _ check h
  refine ⟨document, resolved, alert, hcheck, fun r hr => ?_, fun r hr => ?_⟩
  · obtain ⟨b, _, rfl⟩ := List.mem_map.mp hr
    exact ⟨hsub.parses, hsub.stage, hsub.alert⟩
  · obtain ⟨b, _, rfl⟩ := List.mem_map.mp hr
    rfl

/-- The signal stage keeps the gates: the second crossing of the day records
nothing. -/
theorem signal_keeps_gates :
    let env : ServiceEnv ℚ := { ownerId := "worker" }
    let bars := [("NSE:INFY", (0 : Int), (90 : ℚ)), ("NSE:INFY", 300, 110), ("NSE:INFY", 600, 90),
      ("NSE:INFY", 900, 110)]
    let reqs := bars.map fun b => gatedBar crossingStage b.1 b.2.1 b.2.2
    ((service env).trace reqs {}).map (fun a => a.2.createdAt) = [300000000] ∧
      (((service env).trace reqs {}).Pairwise fun a b => ¬ SameScope a.2 b.2) ∧
      ((service env).trace reqs {}).Pairwise fun a b => SameScope a.2 b.2 →
        a.2.createdAt + 86400 * microsPerSecond ≤ b.2.createdAt := by
  intro env bars reqs
  obtain ⟨document, stage, alert, hcheck, hcalls⟩ := alertCalls_gatedBar crossingStage
    (fun _ stage alert => decide (alert.trigger = .known .once) && decide (alert.cooldownS = some 86400) &&
      decide ((service env).Along (OnceKept stage) reqs {}) &&
      decide ((service env).Along (CooldownKept stage (86400 * microsPerSecond)) reqs {}))
    (by decide +kernel) bars
  simp only [Bool.and_eq_true, decide_eq_true_eq] at hcheck
  obtain ⟨⟨⟨htrigger, hcooldown⟩, honce⟩, hcool⟩ := hcheck
  have hgates := alert_gating env hcalls {}
  exact ⟨by decide +kernel, hgates.2.2.1 htrigger honce, hgates.2.2.2 86400 hcooldown (by decide) hcool⟩

/-- The same alert on the breadth stage: the threshold is crossed twice within the
hour and outside the session, and both crossings are recorded. -/
theorem breadth_ignores_gates :
    let env : ServiceEnv ℚ :=
      { ownerId := "worker", sessionProvider := fun _ _ _ => some (false, "closed") }
    let bars := [("NSE:INFY", (0 : Int), (110 : ℚ)), ("NSE:TCS", 300, 110), ("NSE:INFY", 3000, 110),
      ("NSE:TCS", 3300, 110)]
    let reqs := bars.map fun b => gatedBar participationStage b.1 b.2.1 b.2.2
    (∃ p, Parse.parseWorkflowDict (onceAlert participationStage) = .ok p ∧
      ∀ fromIso sha256, ∃ c, Compile.compileDocument fromIso sha256 p = .ok c) ∧
    (∃ document stage alert, AlertCalls document stage alert id reqs ∧
      alert.trigger = .known .once ∧ alert.cooldownS = some 86400 ∧ ¬ ∀ a ∈ (service env).trace reqs {},
        (resolveSession env document.session a.1.sub.instrumentKey a.1.call.obs.ts).1 = true) ∧
    (¬ ((service env).trace reqs {}).Pairwise fun a b => ¬ SameScope a.2 b.2) ∧
    ¬ ((service env).trace reqs {}).Pairwise fun a b => SameScope a.2 b.2 →
        a.2.createdAt + 86400 * microsPerSecond ≤ b.2.createdAt := by
  intro env bars reqs
  refine ⟨?_, ?_, by decide +kernel, by decide +kernel⟩
  · obtain ⟨p, hp, hcheck⟩ := Compile.exists_of_parsesWith
      (onceAlert participationStage) Compile.compilesPlainly
      (by decide +kernel)
    exact ⟨p, hp, Compile.exists_compile_of_compilesPlainly hcheck⟩
  · obtain ⟨document, stage, alert, hcheck, hcalls⟩ := alertCalls_gatedBar participationStage
      (fun document _ alert => decide (alert.trigger = .known .once) &&
        decide (alert.cooldownS = some 86400) && decide (¬ ∀ a ∈ (service env).trace reqs {},
          (resolveSession env document.session a.1.sub.instrumentKey a.1.call.obs.ts).1 = true))
      (by decide +kernel) bars
    simp only [Bool.and_eq_true, decide_eq_true_eq, and_assoc] at hcheck
    exact ⟨document, stage, alert, hcalls, hcheck⟩

end KiteAlgo
