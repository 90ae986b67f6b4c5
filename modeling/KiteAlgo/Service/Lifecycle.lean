import KiteAlgo.Service.Spec
import Mathlib.Data.String.Basic

/-!
# KiteAlgo.Service.Lifecycle

The live lifecycle of a candle subscription over whole runs: cooldown and
once-per-session, with live bars and warmup bars in any interleaving.

Warmup removes the lifecycle keys from the checkpoint it saves, whoever wrote
them.  A warmup bar inside a running cooldown, or in a session that already had
its signal, therefore ends the lifecycle early; in a run without such a bar the
guarantees hold (`lifecycle_survives_warmup`).
-/

namespace KiteAlgo

open List
variable {F : Type} [PyFloat F]

/-! ## bars in order -/

/-- The stored state of an epoch, empty before the first save. -/
def epochState (s : ServiceState F) (sub : ActiveSubscription F) (epoch : String) : Checkpoint F :=
  ((loadCheckpoint s.db sub.id sub.instrumentKey epoch).getD ({}, 0)).1

/-- The calls of one subscription: bars of one epoch, in strictly increasing order,
decided at their own time. -/
structure BarsInOrder (sub : ActiveSubscription F) (epoch : String) (reqs : List (Request F)) :
    Prop where
  own : ∀ r ∈ reqs, r.sub = sub
  oneEpoch : ∀ r ∈ reqs, r.call.obs.epochId = epoch
  decided : ∀ r ∈ reqs, r.call.now = r.call.obs.ts
  increasing : reqs.Pairwise fun r q => r.call.obs.ts < q.call.obs.ts

omit [PyFloat F] in
theorem BarsInOrder.tail {sub : ActiveSubscription F} {epoch : String} {r : Request F}
    {rest : List (Request F)} (h : BarsInOrder sub epoch (r :: rest)) :
    BarsInOrder sub epoch rest where
  own q hq := h.own q (mem_cons_of_mem r hq)
  oneEpoch q hq := h.oneEpoch q (mem_cons_of_mem r hq)
  decided q hq := h.decided q (mem_cons_of_mem r hq)
  increasing := (pairwise_cons.mp h.increasing).2

omit [PyFloat F] in
theorem BarsInOrder.now_lt {sub : ActiveSubscription F} {epoch : String} {r q : Request F}
    {rest : List (Request F)} (h : BarsInOrder sub epoch (r :: rest)) (hq : q ∈ rest) :
    r.call.now < q.call.now := by
  rw [h.decided r mem_cons_self, h.decided q (mem_cons_of_mem r hq)]
  exact (pairwise_cons.mp h.increasing).1 q hq

/-- The bars to come, and the stored bar before all of them. -/
structure BarsAhead (sub : ActiveSubscription F) (epoch : String) (reqs : List (Request F))
    (s : ServiceState F) : Prop where
  bars : BarsInOrder sub epoch reqs
  ahead : ∀ b, (epochState s sub epoch).lastBarTs = some b → ∀ r ∈ reqs, b < r.call.obs.ts

/-- What a bar does to the state of its epoch: nothing, with nothing recorded, or a
decision on the stored lifecycle. -/
inductive BarStep (env : ServiceEnv F) (session : String) (alert : AlertSpec F) (r : Request F)
    (stored stored' : Checkpoint F) (out : List (Request F × SignalEvent F)) : Prop
  | kept (hstored : stored' = stored) (hout : out = [])
  | live (input : EngineInput F) (emit : Bool) (hlive : r.call.allowEmit = true)
      (hnow : input.now = r.call.now)
      (hsession : input.sessionId = some (resolveSession env session r.sub.instrumentKey r.call.obs.ts).2)
      (hspec : TriggerSpec alert input stored.lifecycle emit stored'.lifecycle)
      (hout : out = [] ∨ (emit = true ∧ ∃ e, out = [(r, e)]))
  | warmup (hwarm : r.call.allowEmit = false) (hout : out = [])

section Candle

variable {env : ServiceEnv F} {sub : ActiveSubscription F} {document : WorkflowDocument F}
  {stage : Stage F} {alert : AlertSpec F} {epoch : String}

omit [PyFloat F] in
theorem storedState_candle (hclock : stage.clock = .known .candleClose) (s : ServiceState F)
    (obs : Observation F) : storedState s sub stage obs = epochState s sub obs.epochId := by
  simp [storedState, epochState, loadState, hclock]

variable (env) in
theorem BarsAhead.step (hsub : Subscribes sub document stage alert) (hsignal : stage.breadth = none)
    (hclock : stage.clock = .known .candleClose) {r : Request F} {rest : List (Request F)}
    {s : ServiceState F} (h : BarsAhead sub epoch (r :: rest) s) :
    BarsAhead sub epoch rest ((service env).step r s) ∧
      BarStep env document.session alert r (epochState s sub epoch)
        (epochState ((service env).step r s) sub epoch) ((service env).out r s) := by
  obtain ⟨hbars, hahead⟩ := h
  obtain ⟨rsub, call⟩ := r
  obtain rfl : rsub = sub := hbars.own _ (.head _)
  have hepoch : call.obs.epochId = epoch := hbars.oneEpoch _ (.head _)
  have hnew : ∀ b, (storedState s rsub stage call.obs).lastBarTs = some b → b < call.obs.ts := by
    rw [storedState_candle hclock, hepoch]
    exact fun b hb => hahead b hb _ (.head _)
  rcases service_newBar hsub hsignal hclock hnew with ⟨hdb, hout⟩ | ⟨ev, hcommit⟩
  · have hsame : epochState ((service env).step ⟨rsub, call⟩ s) rsub epoch =
        epochState s rsub epoch := by rw [epochState, hdb]; rfl
    refine ⟨⟨hbars.tail, ?_⟩, .kept hsame hout⟩
    rw [hsame]
    exact fun b hb q hq => hahead b hb q (.tail _ hq)
  · obtain ⟨heval, hstored, hout⟩ := hcommit
    have hnext := hstored call.obs rfl
    rw [storedState_candle hclock, storedState_candle hclock, hepoch] at hnext
    rw [storedState_candle hclock, hepoch] at heval
    have hbefore := (barState_lifecycle stage (epochState s rsub epoch) call.obs)
    refine ⟨⟨hbars.tail, fun b hb q hq => ?_⟩, ?_⟩
    · rw [hnext, (nextCheckpoint_bar stage call _ _).1] at hb
      have hlater := (pairwise_cons.mp hbars.increasing).1 q hq
      split at hb
      · obtain rfl := Option.some.inj hb
        exact hlater
      · rw [heval.continuity.lastBarTs, heval.frame.lastBarTs_eq] at hb
        simp only [barState] at hb
        split at hb
        · simp [resetObservationState] at hb
        · exact hahead b hb q (.tail _ hq)
    · cases hlive : call.allowEmit with
      | false =>
        refine .warmup hlive (hout.resolve_right ?_)
        simp [hlive]
      | true =>
        obtain ⟨input, hnow, hsession, hspec⟩ := heval.trigger
        refine .live input ev.engine.emit hlive hnow hsession ?_ ?_
        · rw [hnext, nextCheckpoint_live hlive, ← hbefore]
          exact hspec
        · rcases hout with hout | ⟨hemit, _, hout⟩
          · exact .inl hout
          · exact .inr ⟨hemit, hout⟩

/-- A warmup bar finds no cooldown that is still running. -/
def WarmupOutsideCooldown (sub : ActiveSubscription F) (epoch : String) (r : Request F)
    (_rest : List (Request F)) (s : ServiceState F) : Prop :=
  r.call.allowEmit = false → ∀ u ∈ (epochState s sub epoch).cooldownUntil, u ≤ r.call.obs.ts

instance (sub : ActiveSubscription F) (epoch : String) (r : Request F) (rest : List (Request F))
    (s : ServiceState F) : Decidable (WarmupOutsideCooldown sub epoch r rest s) :=
  inferInstanceAs (Decidable (r.call.allowEmit = false →
    ∀ u ∈ (epochState s sub epoch).cooldownUntil, u ≤ r.call.obs.ts))

/-- Every recorded signal is over for the bars to come, or the stored cooldown
covers it. -/
structure CooldownInv (sub : ActiveSubscription F) (epoch : String) (cooldown : Int)
    (past : List (Request F × SignalEvent F)) (reqs : List (Request F)) (s : ServiceState F) :
    Prop where
  ahead : BarsAhead sub epoch reqs s
  covered : ∀ a ∈ past, (∀ r ∈ reqs, a.1.call.now + cooldown ≤ r.call.now) ∨
    ∃ u, (epochState s sub epoch).cooldownUntil = some u ∧ a.1.call.now + cooldown ≤ u
  apart : past.Pairwise fun a b => a.1.call.now + cooldown ≤ b.1.call.now

theorem CooldownInv.step (hsub : Subscribes sub document stage alert)
    (hsignal : stage.breadth = none) (hclock : stage.clock = .known .candleClose) {cooldown : Int}
    (hcooldown : alert.cooldown = some cooldown) {past : List (Request F × SignalEvent F)}
    {r : Request F} {rest : List (Request F)} {s : ServiceState F}
    (h : CooldownInv sub epoch cooldown past (r :: rest) s)
    (hwarmup : WarmupOutsideCooldown sub epoch r rest s) :
    CooldownInv sub epoch cooldown (past ++ (service env).out r s) rest
      ((service env).step r s) := by
  obtain ⟨hahead, hcovered, hapart⟩ := h
  have hbars := hahead.bars
  have hdecided := hbars.decided r (.head _)
  obtain ⟨hahead', hstep⟩ := hahead.step env hsub hsignal hclock
  cases hstep with
  | kept hstored hout =>
    rw [hout, append_nil]
    refine ⟨hahead', fun a ha => ?_, hapart⟩
    rw [hstored]
    exact (hcovered a ha).imp_left fun hover q hq => hover q (mem_cons_of_mem r hq)
  | warmup hwarm hout =>
    rw [hout, append_nil]
    refine ⟨hahead', fun a ha => .inl fun q hq => ?_, hapart⟩
    rcases hcovered a ha with hover | ⟨u, hu, hle⟩
    · exact hover q (mem_cons_of_mem r hq)
    · have hover := hwarmup hwarm u hu
      have hlt := hbars.now_lt hq
      omega
  | live input emit hlive hnow _ hspec hout =>
    rw [← hnow] at hdecided
    cases emit with
    | false =>
      have hout : (service env).out r s = [] := hout.resolve_right (by simp)
      rw [hout, append_nil]
      refine ⟨hahead', fun a ha => ?_, hapart⟩
      have hsame : (epochState ((service env).step r s) sub epoch).cooldownUntil =
        (epochState s sub epoch).cooldownUntil := hspec.held rfl
      rw [hsame]
      exact (hcovered a ha).imp_left fun hover q hq => hover q (mem_cons_of_mem r hq)
    | true =>
      -- the signal is due, so every earlier one is at least a cooldown away
      have hpast : ∀ a ∈ past, a.1.call.now + cooldown ≤ r.call.now := by
        intro a ha
        rcases hcovered a ha with hover | ⟨u, hu, hle⟩
        · exact hover r (.head _)
        · have hover := hspec.cooldownOver rfl (by simp [hcooldown]) u hu
          omega
      have hset : (epochState ((service env).step r s) sub epoch).cooldownUntil =
        some (input.now + cooldown) := hspec.cooldownSet rfl cooldown hcooldown
      have hout' : ∀ b ∈ (service env).out r s, b.1 = r := by
        rcases hout with hout | ⟨_, e, hout⟩ <;> simp [hout]
      refine ⟨hahead', fun a ha => ?_, ?_⟩
      · rcases mem_append.mp ha with ha | ha
        · refine .inl fun q hq => ?_
          have hle := hpast a ha
          have hlt := hbars.now_lt hq
          omega
        · rw [hout' a ha, ← hnow]
          exact .inr ⟨_, hset, le_refl _⟩
      · rw [pairwise_append]
        refine ⟨hapart, ?_, fun a ha b hb => ?_⟩
        · rcases hout with hout | ⟨_, e, hout⟩ <;> simp [hout]
        · rw [hout' b hb]
          exact hpast a ha

/-! ## once per session -/

def Request.sessionId (env : ServiceEnv F) (session : String) (r : Request F) : String :=
  (resolveSession env session r.sub.instrumentKey r.call.obs.ts).2

/-- A warmup bar lies in a session that had no signal. -/
def WarmupOutsideSession (env : ServiceEnv F) (session : String) (sub : ActiveSubscription F)
    (epoch : String) (r : Request F) (_rest : List (Request F)) (s : ServiceState F) : Prop :=
  r.call.allowEmit = false → (epochState s sub epoch).lastSession ≠ some (r.sessionId env session)

instance (env : ServiceEnv F) (session : String) (sub : ActiveSubscription F) (epoch : String)
    (r : Request F) (rest : List (Request F)) (s : ServiceState F) :
    Decidable (WarmupOutsideSession env session sub epoch r rest s) :=
  inferInstanceAs (Decidable (r.call.allowEmit = false →
    (epochState s sub epoch).lastSession ≠ some (r.sessionId env session)))

/-- The session of every recorded signal is over for the bars to come, or is the
stored one. -/
structure SessionInv (env : ServiceEnv F) (session : String) (sub : ActiveSubscription F)
    (epoch : String) (past : List (Request F × SignalEvent F)) (reqs : List (Request F))
    (s : ServiceState F) : Prop where
  ahead : BarsAhead sub epoch reqs s
  ordered : reqs.Pairwise fun r q => r.sessionId env session ≤ q.sessionId env session
  covered : ∀ a ∈ past, (∀ r ∈ reqs, a.1.sessionId env session < r.sessionId env session) ∨
    ((∀ r ∈ reqs, a.1.sessionId env session ≤ r.sessionId env session) ∧
      (epochState s sub epoch).lastSession = some (a.1.sessionId env session))
  apart : past.Pairwise fun a b => a.1.sessionId env session ≠ b.1.sessionId env session

theorem SessionInv.step (hsub : Subscribes sub document stage alert)
    (hsignal : stage.breadth = none) (hclock : stage.clock = .known .candleClose)
    (htrigger : alert.trigger = .known .oncePerSession)
    {past : List (Request F × SignalEvent F)} {r : Request F} {rest : List (Request F)}
    {s : ServiceState F} (h : SessionInv env document.session sub epoch past (r :: rest) s)
    (hwarmup : WarmupOutsideSession env document.session sub epoch r rest s) :
    SessionInv env document.session sub epoch (past ++ (service env).out r s) rest
      ((service env).step r s) := by
  obtain ⟨hahead, hordered, hcovered, hapart⟩ := h
  rw [pairwise_cons] at hordered
  obtain ⟨hlater, hordered'⟩ := hordered
  obtain ⟨hahead', hstep⟩ := hahead.step env hsub hsignal hclock
  -- a signal whose session is not the bar's is over from here on
  have hover : ∀ a ∈ past, (epochState s sub epoch).lastSession ≠
      some (r.sessionId env document.session) → ∀ q ∈ r :: rest,
        a.1.sessionId env document.session < q.sessionId env document.session := by
    intro a ha hne
    rcases hcovered a ha with hover | ⟨hle, hstored⟩
    · exact hover
    · have hlt : a.1.sessionId env document.session < r.sessionId env document.session :=
        lt_of_le_of_ne (hle r (.head _)) fun heq => hne (heq ▸ hstored)
      intro q hq
      rcases mem_cons.mp hq with rfl | hq
      · exact hlt
      · exact lt_of_lt_of_le hlt (hlater q hq)
  have htail : ∀ a ∈ past, (epochState ((service env).step r s) sub epoch).lastSession =
      (epochState s sub epoch).lastSession →
      (∀ q ∈ rest, a.1.sessionId env document.session < q.sessionId env document.session) ∨
        ((∀ q ∈ rest, a.1.sessionId env document.session ≤ q.sessionId env document.session) ∧
          (epochState ((service env).step r s) sub epoch).lastSession =
            some (a.1.sessionId env document.session)) := by
    intro a ha hsame
    rw [hsame]
    rcases hcovered a ha with hover | ⟨hle, hstored⟩
    · exact .inl fun q hq => hover q (mem_cons_of_mem r hq)
    · exact .inr ⟨fun q hq => hle q (mem_cons_of_mem r hq), hstored⟩
  cases hstep with
  | kept hstored hout =>
    rw [hout, append_nil]
    exact ⟨hahead', hordered', fun a ha => htail a ha (by rw [hstored]), hapart⟩
  | warmup hwarm hout =>
    rw [hout, append_nil]
    refine ⟨hahead', hordered', fun a ha => .inl fun q hq => ?_, hapart⟩
    exact hover a ha (hwarmup hwarm) q (mem_cons_of_mem r hq)
  | live input emit hlive _ hsession hspec hout =>
    cases emit with
    | false =>
      have hout : (service env).out r s = [] := hout.resolve_right (by simp)
      rw [hout, append_nil]
      refine ⟨hahead', hordered', fun a ha => ?_, hapart⟩
      rcases hspec.lastSession with hsame | hset
      · exact htail a ha hsame
      · by_cases hcurrent : (epochState s sub epoch).lastSession = some (r.sessionId env document.session)
        · exact htail a ha ((hset.trans hsession).trans hcurrent.symm)
        · exact .inl fun q hq => hover a ha hcurrent q (mem_cons_of_mem r hq)
    | true =>
      obtain ⟨hne, hset⟩ := hspec.oncePerSession rfl htrigger _ hsession
      have hout' : ∀ b ∈ (service env).out r s, b.1 = r := by
        rcases hout with hout | ⟨_, e, hout⟩ <;> simp [hout]
      refine ⟨hahead', hordered', fun a ha => ?_, ?_⟩
      · rcases mem_append.mp ha with ha | ha
        · exact .inl fun q hq => hover a ha hne q (mem_cons_of_mem r hq)
        · rw [hout' a ha]
          exact .inr ⟨hlater, hset⟩
      · rw [pairwise_append]
        refine ⟨hapart, ?_, fun a ha b hb => ?_⟩
        · rcases hout with hout | ⟨_, e, hout⟩ <;> simp [hout]
        · rw [hout' b hb]
          exact ne_of_lt (hover a ha hne r (.head _))

/-! ## whole runs -/

variable (env) in
/-- The live lifecycle survives every run in which no warmup bar meets a running
cooldown, respectively a session that had its signal. -/
theorem lifecycle_survives_warmup (hsub : Subscribes sub document stage alert)
    (hsignal : stage.breadth = none) (hclock : stage.clock = .known .candleClose)
    {reqs : List (Request F)} (hbars : BarsInOrder sub epoch reqs) {s : ServiceState F}
    (hempty : epochState s sub epoch = {}) :
    (∀ c, alert.cooldownS = some c → 0 < c → (service env).Along (WarmupOutsideCooldown sub epoch) reqs s →
      ((service env).trace reqs s).Pairwise fun a b =>
        a.1.call.now + c * microsPerSecond ≤ b.1.call.now) ∧
    (alert.trigger = .known .oncePerSession → (reqs.Pairwise fun r q =>
        r.sessionId env document.session ≤ q.sessionId env document.session) →
      (service env).Along (WarmupOutsideSession env document.session sub epoch) reqs s →
      ((service env).trace reqs s).Pairwise fun a b =>
        a.1.sessionId env document.session ≠ b.1.sessionId env document.session) := by
  have hahead : BarsAhead sub epoch reqs s := ⟨hbars, by simp [hempty]⟩
  constructor
  · intro c hc hpos hwarmup
    have hcooldown : alert.cooldown = some (c * microsPerSecond) := by
      have hne : c ≠ 0 := by omega
      simp [AlertSpec.cooldown, hc, hne]
    have hinit : CooldownInv sub epoch (c * microsPerSecond) [] reqs s :=
      ⟨hahead, by simp, List.Pairwise.nil⟩
    have hfinal := Machine.history (m := service env)
      (fun hinv hP => hinv.step hsub hsignal hclock hcooldown hP) hinit hwarmup
    exact hfinal.apart
  · intro htrigger hordered hwarmup
    have hinit : SessionInv env document.session sub epoch [] reqs s :=
      ⟨hahead, hordered, by simp, List.Pairwise.nil⟩
    have hfinal := Machine.history (m := service env)
      (fun hinv hP => hinv.step hsub hsignal hclock htrigger hP) hinit hwarmup
    exact hfinal.apart

end Candle

/-- An alert with a cooldown of one hour on a five-minute crossing of 100. -/
def crossingAlert : PyVal ℚ :=
  .ofPairs
    [("version", .int 1), ("name", .str "crossing"), ("instruments", .list [.str "NSE:INFY"]),
     ("stages", .list
       [.ofPairs
         [("id", .str "cross"), ("clock", .str "candle_close"), ("timeframe", .str "5m"),
          ("conditions", .list
            [.ofPairs [("field", .str "close"), ("op", .str "crosses_above"), ("value", .int 100)]])]]),
     ("alerts", .list
       [.ofPairs
         [("id", .str "notify"), ("source", .str "cross"), ("trigger", .str "once_per_session"),
          ("cooldown_s", .int 3600), ("channels", .list [.str "telegram"])]])]

def crossingSub : ActiveSubscription ℚ where
  id := "s1"
  revisionId := "r1"
  alertId := "notify"
  stageId := "cross"
  instrumentKey := "NSE:INFY"
  ownerId := "o1"
  workflowId := "w1"
  document := crossingAlert

/-- A completed bar at a second of the epoch. -/
def crossingBar (live : Bool) (second : Int) (close : ℚ) : Request ℚ where
  sub := crossingSub
  call :=
    { obs := { ts := second * microsPerSecond, epochId := "candle", close := some close, final := true }
      allowEmit := live }

theorem crossingSub_subscribes :
    ∃ document stage alert, Subscribes crossingSub document stage alert ∧
      document.session = "nse_equity" ∧ stage.breadth = none ∧
      stage.clock = .known .candleClose ∧ alert.cooldownS = some 3600 ∧
      alert.trigger = .known .oncePerSession := by
  obtain ⟨document, stage, alert, hsub, hcheck⟩ := exists_of_subscribesWith crossingSub
    (fun document stage alert => decide (document.session = "nse_equity") &&
      stage.breadth.isNone && decide (stage.clock = .known .candleClose) &&
      decide (alert.cooldownS = some 3600) && decide (alert.trigger = .known .oncePerSession))
    (by decide +kernel)
  simp only [Bool.and_eq_true, decide_eq_true_eq, Option.isNone_iff_eq_none, and_assoc] at hcheck
  exact ⟨document, stage, alert, hsub, hcheck⟩

/-- A warmup bar on the next day, when the cooldown and the session of the signal
are over, does no harm. -/
theorem warmup_next_day :
    let env : ServiceEnv ℚ := { ownerId := "worker" }
    let reqs := [crossingBar true 0 90, crossingBar true 300 110, crossingBar false 86400 90,
      crossingBar true 86700 110]
    ((service env).trace reqs {}).map (fun a => a.1.call.now) = [300000000, 86700000000] ∧
      (((service env).trace reqs {}).Pairwise fun a b =>
        a.1.call.now + 3600 * microsPerSecond ≤ b.1.call.now) ∧
      ((service env).trace reqs {}).Pairwise fun a b =>
        a.1.sessionId env "nse_equity" ≠ b.1.sessionId env "nse_equity" := by
  intro env reqs
  obtain ⟨document, stage, alert, hsub, hsession, hsignal, hclock, hcooldown, htrigger⟩ :=
    crossingSub_subscribes
  have hbars : BarsInOrder crossingSub "candle" reqs := by
    constructor <;> simp [reqs, crossingBar, Call.now, microsPerSecond]
  have hruns := lifecycle_survives_warmup env hsub hsignal hclock hbars (s := {}) rfl
  rw [hsession] at hruns
  exact ⟨by decide +kernel, hruns.1 3600 hcooldown (by decide) (by decide +kernel),
    hruns.2 htrigger (by decide +kernel) (by decide +kernel)⟩

/-- A warmup bar five minutes after a signal removes its cooldown and its session:
the next crossing is signalled ten minutes after the first, on the same day. -/
theorem warmup_drops_lifecycle :
    let env : ServiceEnv ℚ := { ownerId := "worker" }
    let reqs := [crossingBar true 0 90, crossingBar true 300 110, crossingBar false 600 90,
      crossingBar true 900 110]
    (∃ document stage alert, Subscribes crossingSub document stage alert ∧
      document.session = "nse_equity" ∧ stage.breadth = none ∧
      stage.clock = .known .candleClose ∧ alert.cooldownS = some 3600 ∧
      alert.trigger = .known .oncePerSession) ∧
    BarsInOrder crossingSub "candle" reqs ∧
    ((service env).trace reqs {}).map (fun a => a.1.call.now) = [300000000, 900000000] ∧
    ¬ (((service env).trace reqs {}).Pairwise fun a b =>
        a.1.call.now + 3600 * microsPerSecond ≤ b.1.call.now) ∧
    ¬ ((service env).trace reqs {}).Pairwise fun a b =>
        a.1.sessionId env "nse_equity" ≠ b.1.sessionId env "nse_equity" := by
  intro env reqs
  refine ⟨crossingSub_subscribes, ?_, by decide +kernel, by decide +kernel, by decide +kernel⟩
  constructor <;> simp [reqs, crossingBar, Call.now, microsPerSecond]

end KiteAlgo
