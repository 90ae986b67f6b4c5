import Mathlib.Data.List.Chain
import KiteAlgo.Engine
import KiteAlgo.Lib.Run

/-!
# KiteAlgo.Engine.Emission

The emission law of the trigger engine: what the emissions of a chain of
decisions, each on the state the last one left, have to do with one another.

One decision says little.  What it leaves in the bookkeeping (`EmissionSpec`)
is an invariant of the chain (`Bookkeeping`), which relates every emission to
the one before it.
-/

namespace KiteAlgo

open List
variable {F : Type} [PyFloat F]

/-! ## what a decision does to the bookkeeping -/

/-- The first two gates of `decide`: the alert is unexpired and the session active. -/
def AlertSpec.admits (fromIso : String → Option Int) (alert : AlertSpec F)
    (input : EngineInput F) : Bool :=
  !((alert.expiry fromIso).any fun e => decide (e ≤ input.now)) && input.sessionActive

/-- The bookkeeping that relates a decision to the last emission: when it was,
whether the rule is armed since, and the session that is consumed. -/
structure EmissionSpec (alert : AlertSpec F) (input : EngineInput F) (state : EvalState F)
    (d : EngineDecision F) : Prop where
  lastEmitted : d.newState.lastEmittedTs = if d.emit then some input.now else state.lastEmittedTs
  interval : d.emit = true → alert.trigger = .known .reminder →
    ∀ t, state.lastEmittedTs = some t → t + alert.reminderInterval ≤ input.now
  armed : d.emit = true → state.armed = true ∨ alert.rearmHit input.currentValue = true
  disarmed : d.emit = true → alert.rearmLevel.isSome = true → d.newState.armed = false
  rearmed : state.armed = false → d.newState.armed = true → alert.rearmHit input.currentValue = true
  session : d.newState.lastSession = state.lastSession ∨
    ∃ sid, input.sessionId = some sid ∧ d.newState.lastSession = some sid

variable {completed : Bool} {input : EngineInput F} {state state' : EvalState F}

theorem EmissionSpec.keep {alert : AlertSpec F} {reason : Option Suppression}
    (hlast : state'.lastEmittedTs = state.lastEmittedTs)
    (harmed : state.armed = false → state'.armed →
      alert.rearmHit input.currentValue) (hsession : state'.lastSession = state.lastSession ∨
      ∃ sid, input.sessionId = some sid ∧ state'.lastSession = some sid) :
    EmissionSpec alert input state ⟨false, reason, completed, state'⟩ where
  lastEmitted := hlast
  interval h := absurd h Bool.false_ne_true
  armed h := absurd h Bool.false_ne_true
  disarmed h := absurd h Bool.false_ne_true
  rearmed := harmed
  session := hsession

omit [PyFloat F] in
theorem triggerGate_kept {alert : AlertSpec F}
    (h : triggerGate alert input state = .ok (state', completed)) :
    state'.lastEmittedTs = state.lastEmittedTs ∧ state'.armed = state.armed ∧
      (state'.lastSession = state.lastSession ∨
        ∃ sid, input.sessionId = some sid ∧ state'.lastSession = some sid) ∧
      (alert.trigger = .known .reminder → ∀ t, state.lastEmittedTs = some t →
        t + alert.reminderInterval ≤ input.now) := by
  unfold triggerGate at h
  split at h
  · next htrigger =>
      split at h
      · simp at h
      · obtain ⟨rfl, rfl⟩ := Prod.mk.inj (Except.ok.inj h)
        exact ⟨rfl, rfl, .inl rfl, by simp [htrigger]⟩
  · next htrigger =>
      split at h
      · obtain ⟨rfl, rfl⟩ := Prod.mk.inj (Except.ok.inj h)
        exact ⟨rfl, rfl, .inl rfl, by simp [htrigger]⟩
      · next sid hsid =>
          split at h
          · simp at h
          · obtain ⟨rfl, rfl⟩ := Prod.mk.inj (Except.ok.inj h)
            exact ⟨rfl, rfl, .inr ⟨sid, hsid, rfl⟩, by simp [htrigger]⟩
  · split at h
    · simp at h
    · next hover =>
        obtain ⟨rfl, rfl⟩ := Prod.mk.inj (Except.ok.inj h)
        refine ⟨rfl, rfl, .inl rfl, fun _ t ht => ?_⟩
        simp only [ht, Option.any_some, decide_eq_true_eq] at hover
        omega
  · next hreminder =>
      obtain ⟨rfl, rfl⟩ := Prod.mk.inj (Except.ok.inj h)
      exact ⟨rfl, rfl, .inl rfl, fun htrigger => absurd htrigger hreminder⟩

theorem decideDue_emission (alert : AlertSpec F) (input : EngineInput F)
    (harmed : state.armed) :
    EmissionSpec alert input state (decideDue alert input state) := by
  unfold decideDue
  split
  · exact .keep rfl (fun h => by simp [harmed] at h) (.inl rfl)
  · next state' completed hgate =>
      obtain ⟨hlast, harmed', hsession, hinterval⟩ := triggerGate_kept hgate
      split
      · exact .keep hlast (fun h => by simp [harmed] at h) hsession
      · exact {
          lastEmitted := rfl
          interval := fun _ => hinterval
          armed := fun _ => .inl harmed
          disarmed := fun _ hlevel => by simp [emitState, Option.isNone_eq_false_iff.mpr hlevel]
          rearmed := fun h => by simp [harmed] at h
          session := hsession }

theorem rearm_kept (alert : AlertSpec F) (value : Option F) (state : EvalState F) :
    (rearm alert value state).lastEmittedTs = state.lastEmittedTs ∧
      (rearm alert value state).lastSession = state.lastSession ∧
      ((rearm alert value state).armed → state.armed ∨ alert.rearmHit value) := by
  unfold rearm
  split
  · next hhit =>
      rw [Bool.and_eq_true] at hhit
      exact ⟨rfl, rfl, fun _ => .inr hhit.2⟩
  · exact ⟨rfl, rfl, .inl⟩

theorem decideArmed_emission (alert : AlertSpec F) (input : EngineInput F) (fired : Bool)
    (state : EvalState F) :
    EmissionSpec alert input state (decideArmed alert input fired state) := by
  obtain ⟨hlast, hsession, hhit⟩ := rearm_kept alert input.currentValue state
  have hrearmed : state.armed = false → (rearm alert input.currentValue state).armed →
      alert.rearmHit input.currentValue := by
    intro hoff hon
    exact (hhit hon).resolve_left (by simp [hoff])
  simp only [decideArmed]
  split
  · exact .keep hlast hrearmed (.inl hsession)
  · split
    · exact .keep hlast hrearmed (.inl hsession)
    · next harmed =>
        have hon : (rearm alert input.currentValue state).armed := by simpa using harmed
        have hdue := decideDue_emission alert input hon
        exact {
          lastEmitted := by rw [hdue.lastEmitted, hlast]
          interval := by rw [← hlast]; exact hdue.interval
          armed := fun _ => hhit hon
          disarmed := hdue.disarmed
          rearmed := fun hoff _ => hrearmed hoff hon
          session := by rw [← hsession]; exact hdue.session }

theorem decideAlert_closed {fromIso : String → Option Int} {alert : AlertSpec F}
    (hclosed : alert.admits fromIso input = false) (state : EvalState F) :
    (decideAlert fromIso alert input state).emit = false ∧
      (decideAlert fromIso alert input state).newState = state := by
  unfold decideAlert
  split
  · exact ⟨rfl, rfl⟩
  · next hexpiry =>
      split
      · exact ⟨rfl, rfl⟩
      · next hsession => simp_all [AlertSpec.admits]

theorem decideAlert_emission (fromIso : String → Option Int) (alert : AlertSpec F)
    (input : EngineInput F) (state : EvalState F) :
    EmissionSpec alert input state (decideAlert fromIso alert input state) := by
  have hsame : ∀ reason, EmissionSpec alert input state ⟨false, reason, false, state⟩ :=
    fun _ => .keep rfl (fun hoff hon => by simp [hoff] at hon) (.inl rfl)
  have hinit : ∀ fired, EmissionSpec alert input state
      (decideArmed alert input fired { state with initialized := true }) := by
    intro fired
    have h := decideArmed_emission alert input fired { state with initialized := true }
    exact ⟨h.1, h.2, h.3, h.4, h.5, h.6⟩
  unfold decideAlert
  split
  · exact hsame _
  · split
    · exact hsame _
    · split
      · exact decideArmed_emission alert input input.fired state
      · split
        · split
          · exact hinit true
          · exact .keep rfl (fun hoff hon => by simp [hoff] at hon) (.inl rfl)
        · exact hinit input.fired

/-! ## chains of decisions -/

/-- The engine as a machine: every call decides on the state the call before left,
and is recorded when it emits. -/
def engine (fromIso : String → Option Int) (alert : AlertSpec F) :
    Machine (EngineInput F) (EvalState F) (EngineInput F) where
  step input state := (decideAlert fromIso alert input state).newState
  out input state := if (decideAlert fromIso alert input state).emit then [input] else []

/-- The state that a chain of calls from the empty state leaves. -/
def stateAfter (fromIso : String → Option Int) (alert : AlertSpec F)
    (calls : List (EngineInput F)) : EvalState F :=
  (engine fromIso alert).run calls {}

/-- The calls of a chain from the empty state that emitted, in order. -/
def emissions (fromIso : String → Option Int) (alert : AlertSpec F)
    (calls : List (EngineInput F)) : List (EngineInput F) :=
  (engine fromIso alert).trace calls {}

/-- The call emits after those of `past`. -/
def Emits (fromIso : String → Option Int) (alert : AlertSpec F) (past : List (EngineInput F))
    (input : EngineInput F) : Prop :=
  (decideAlert fromIso alert input (stateAfter fromIso alert past)).emit = true

/-- A list that never returns to an element it has left. -/
def NeverReturns {α : Type} (xs : List α) : Prop :=
  AtEach (fun past x => x ∈ past → past.getLast? = some x) xs

section Chains

variable {fromIso : String → Option Int} {alert : AlertSpec F}

theorem stateAfter_concat (calls : List (EngineInput F)) (input : EngineInput F) :
    stateAfter fromIso alert (calls ++ [input]) =
      (decideAlert fromIso alert input (stateAfter fromIso alert calls)).newState := by
  rw [stateAfter, Machine.run_append]
  rfl

theorem emissions_concat (calls : List (EngineInput F)) (input : EngineInput F) :
    emissions fromIso alert (calls ++ [input]) = emissions fromIso alert calls ++
      if (decideAlert fromIso alert input (stateAfter fromIso alert calls)).emit then [input]
      else [] := by
  rw [emissions, Machine.trace_append]
  congr 1
  exact append_nil _

/-- What the bookkeeping knows of the emissions of a chain. -/
structure Bookkeeping (alert : AlertSpec F) (emitted : List (EngineInput F))
    (state : EvalState F) : Prop where
  lastEmitted : state.lastEmittedTs = emitted.getLast?.map (·.now)
  cooldown : ∀ c, alert.cooldown = some c → state.cooldownUntil = emitted.getLast?.map fun x => x.now + c
  once : alert.trigger = .known .once → emitted ≠ [] → state.firedOnce = true

theorem bookkeeping_stateAfter (fromIso : String → Option Int) (alert : AlertSpec F)
    (calls : List (EngineInput F)) :
    Bookkeeping alert (emissions fromIso alert calls) (stateAfter fromIso alert calls) := by
  induction calls using reverseRecOn with
  | nil => exact ⟨rfl, fun _ _ => rfl, fun _ h => absurd rfl h⟩
  | append_singleton calls input ih =>
    have hspec := (decideAlert_spec fromIso alert input (stateAfter fromIso alert calls)).trigger
    have hlast := (decideAlert_emission fromIso alert input
      (stateAfter fromIso alert calls)).lastEmitted
    rw [stateAfter_concat, emissions_concat]
    cases hemit : (decideAlert fromIso alert input (stateAfter fromIso alert calls)).emit with
    | false =>
      rw [hemit] at hspec hlast
      rw [if_neg Bool.false_ne_true, append_nil]
      refine ⟨hlast.trans ih.lastEmitted, fun c hc => ?_, fun htrigger hne => ?_⟩
      · exact (hspec.held rfl).trans (ih.cooldown c hc)
      · exact hspec.firedOnce (ih.once htrigger hne)
    | true =>
      rw [hemit] at hspec hlast
      rw [if_pos rfl]
      refine ⟨?_, fun c hc => ?_, fun htrigger _ => (hspec.once rfl htrigger).2⟩
      · rw [getLast?_concat]
        exact hlast
      · rw [getLast?_concat]
        exact hspec.cooldownSet rfl c hc

theorem emissions_isChain {R : EngineInput F → EngineInput F → Prop}
    (h : ∀ calls x y, Emits fromIso alert calls y →
      (emissions fromIso alert calls).getLast? = some x → R x y) (calls : List (EngineInput F)) :
    (emissions fromIso alert calls).IsChain R := by
  induction calls using reverseRecOn with
  | nil => exact .nil
  | append_singleton calls input ih =>
    rw [emissions_concat]
    split
    · next hemit =>
        refine List.IsChain.append ih (isChain_singleton input) fun x hx y hy => ?_
        obtain rfl : input = y := by simpa using hy
        exact h calls x input hemit hx
    · simpa using ih

theorem emissions_once (htrigger : alert.trigger = .known .once) (calls : List (EngineInput F)) :
    (emissions fromIso alert calls).length ≤ 1 := by
  induction calls using reverseRecOn with
  | nil => exact Nat.zero_le 1
  | append_singleton calls input ih =>
    rw [emissions_concat]
    split
    · next hemit =>
        have hfresh : (stateAfter fromIso alert calls).firedOnce = false :=
          ((decideAlert_spec fromIso alert input _).trigger.once hemit htrigger).1
        have hnone : emissions fromIso alert calls = [] := by
          by_contra hne
          have hfired := (bookkeeping_stateAfter fromIso alert calls).once htrigger hne
          rw [hfresh] at hfired
          exact Bool.false_ne_true hfired
        rw [hnone]
        exact Nat.le_refl 1
    · simpa using ih

theorem emissions_cooldown {c : Int} (hc : alert.cooldown = some c) (calls : List (EngineInput F)) :
    (emissions fromIso alert calls).IsChain fun x y => x.now + c ≤ y.now := by
  refine emissions_isChain (fun calls x y hemit hlast => ?_) calls
  have huntil := (bookkeeping_stateAfter fromIso alert calls).cooldown c hc
  rw [hlast] at huntil
  exact (decideAlert_spec fromIso alert y _).trigger.cooldownOver hemit (by simp [hc]) _ huntil

theorem emissions_reminder (htrigger : alert.trigger = .known .reminder)
    (calls : List (EngineInput F)) :
    (emissions fromIso alert calls).IsChain fun x y => x.now + alert.reminderInterval ≤ y.now := by
  refine emissions_isChain (fun calls x y hemit hlast => ?_) calls
  have hts := (bookkeeping_stateAfter fromIso alert calls).lastEmitted
  rw [hlast] at hts
  exact (decideAlert_emission fromIso alert y _).interval hemit htrigger _ hts

variable {mid : List (EngineInput F)} {y : EngineInput F}

theorem rearmed_of_emits {state : EvalState F} (hoff : state.armed = false)
    (hemit : (decideAlert fromIso alert y ((engine fromIso alert).run mid state)).emit) :
    ∃ z ∈ mid ++ [y], alert.admits fromIso z ∧ alert.rearmHit z.currentValue := by
  induction mid generalizing state with
  | nil =>
    have harmed := (decideAlert_emission fromIso alert y state).armed hemit
    rw [hoff] at harmed
    refine ⟨y, mem_singleton.mpr rfl, ?_, harmed.resolve_left Bool.false_ne_true⟩
    by_contra hclosed
    have hquiet := (decideAlert_closed (Bool.eq_false_iff.mpr hclosed) state).1
    rw [show (decideAlert fromIso alert y state).emit from hemit] at hquiet
    exact Bool.false_ne_true hquiet.symm
  | cons z mid ih =>
    have hspec := decideAlert_emission fromIso alert z state
    cases hon : (decideAlert fromIso alert z state).newState.armed with
    | false =>
      obtain ⟨z', hz', hhit⟩ := ih hon hemit
      exact ⟨z', mem_cons_of_mem z hz', hhit⟩
    | true =>
      refine ⟨z, (.head _), ?_, hspec.rearmed hoff hon⟩
      by_contra hclosed
      have hsame := (decideAlert_closed (Bool.eq_false_iff.mpr hclosed) state).2
      rw [hsame, hoff] at hon
      exact Bool.false_ne_true hon

variable {x : EngineInput F}

theorem rearmed_between (hlevel : alert.rearmLevel.isSome) {past : List (EngineInput F)}
    (hx : Emits fromIso alert past x) (hy : Emits fromIso alert (past ++ x :: mid) y) :
    ∃ z ∈ mid ++ [y], alert.admits fromIso z ∧ alert.rearmHit z.currentValue := by
  have hoff := (decideAlert_emission fromIso alert x _).disarmed hx hlevel
  refine rearmed_of_emits hoff ?_
  rw [Emits, stateAfter, Machine.run_append] at hy
  exact hy

variable {calls : List (EngineInput F)}

theorem mem_of_mem_emissions (hx : x ∈ emissions fromIso alert calls) : x ∈ calls := by
  induction calls using reverseRecOn with
  | nil => exact hx
  | append_singleton calls input ih =>
    rw [emissions_concat, mem_append] at hx
    rw [mem_append]
    refine hx.imp ih fun hnew => ?_
    split at hnew
    · exact hnew
    · exact absurd hnew not_mem_nil

/-- No session has two emissions: the latest session seen stays consumed by its emission, and
an earlier one is not seen again. -/
theorem emissions_oncePerSession (htrigger : alert.trigger = .known .oncePerSession)
    (hids : NeverReturns (calls.filterMap (·.sessionId))) :
    ((emissions fromIso alert calls).filterMap (·.sessionId)).Nodup ∧
      ∀ sid ∈ (emissions fromIso alert calls).filterMap (·.sessionId),
        (calls.filterMap (·.sessionId)).getLast? = some sid →
          (stateAfter fromIso alert calls).lastSession = some sid := by
  induction calls using reverseRecOn with
  | nil => exact ⟨nodup_nil, fun _ h => absurd h not_mem_nil⟩
  | append_singleton calls input ih =>
    have hkept := (decideAlert_emission fromIso alert input
      (stateAfter fromIso alert calls)).session
    rw [filterMap_append] at hids
    rw [emissions_concat, stateAfter_concat, filterMap_append, filterMap_append]
    cases hid : input.sessionId with
    | none =>
      have hsame := hkept.resolve_right (by simp [hid])
      have hnil : [input].filterMap (·.sessionId) = [] := by simp [hid]
      rw [hnil, append_nil] at hids
      rw [hsame, hnil, append_nil]
      split
      · rw [hnil, append_nil]
        exact ih hids
      · rw [filterMap_nil, append_nil]
        exact ih hids
    | some b =>
      have hone : [input].filterMap (·.sessionId) = [b] := by simp [hid]
      rw [hone, NeverReturns, atEach_concat] at hids
      obtain ⟨hnodup, hlatest⟩ := ih hids.1
      -- a session with an emission is the latest one, and so consumed
      have hconsumed : b ∈ (emissions fromIso alert calls).filterMap (·.sessionId) →
          (stateAfter fromIso alert calls).lastSession = some b := by
        intro hb
        obtain ⟨x, hx, hxb⟩ := mem_filterMap.mp hb
        have hmem := mem_filterMap.mpr ⟨x, mem_of_mem_emissions hx, hxb⟩
        exact hlatest b hb (hids.2 hmem)
      rw [hone, getLast?_concat]
      split
      · next hemit =>
          have hspec := (decideAlert_spec fromIso alert input
            (stateAfter fromIso alert calls)).trigger.oncePerSession hemit htrigger b hid
          rw [hone]
          refine ⟨nodup_append.mpr ⟨hnodup, nodup_singleton b, ?_⟩, ?_⟩
          · intro sid hsid b' hb' heq
            rw [mem_singleton] at hb'
            subst hb' heq
            exact hspec.1 (hconsumed hsid)
          · intro sid _ hsid
            rw [← hsid]
            exact hspec.2
      · rw [filterMap_nil, append_nil]
        refine ⟨hnodup, fun sid hsid hlast => ?_⟩
        obtain rfl := Option.some.inj hlast
        cases hkept with
        | inl hsame => exact hsame.trans (hconsumed hsid)
        | inr hnew =>
          obtain ⟨sid', hsid', hnew⟩ := hnew
          rw [hnew, ← hsid', hid]

end Chains

/-- The emission law of an alert, over a chain of calls from the empty state.  A session id that
is absent belongs to no session. -/
structure EmissionLaw (fromIso : String → Option Int) (alert : AlertSpec F)
    (calls : List (EngineInput F)) : Prop where
  once : alert.trigger = .known .once → (emissions fromIso alert calls).length ≤ 1
  cooldown : ∀ c, alert.cooldownS = some c → 0 < c →
    (emissions fromIso alert calls).IsChain fun x y => x.now + c * microsPerSecond ≤ y.now
  reminder : alert.trigger = .known .reminder →
    (emissions fromIso alert calls).IsChain fun x y => x.now + alert.reminderInterval ≤ y.now
  rearm : alert.rearmLevel.isSome = true → ∀ past x mid y rest, calls = past ++ x :: (mid ++ y :: rest) →
      Emits fromIso alert past x → Emits fromIso alert (past ++ x :: mid) y →
      ∃ z ∈ mid ++ [y], alert.admits fromIso z = true ∧ alert.rearmHit z.currentValue = true
  oncePerSession : alert.trigger = .known .oncePerSession → NeverReturns (calls.filterMap (·.sessionId)) →
    ((emissions fromIso alert calls).filterMap (·.sessionId)).Nodup
  closed : AtEach (fun past x => alert.admits fromIso x = false → ¬ Emits fromIso alert past x ∧
      stateAfter fromIso alert (past ++ [x]) = stateAfter fromIso alert past) calls

/-- Every alert keeps the emission law on every chain of calls. -/
theorem emission_law (fromIso : String → Option Int) (alert : AlertSpec F)
    (calls : List (EngineInput F)) : EmissionLaw fromIso alert calls where
  once htrigger := emissions_once htrigger calls
  cooldown c hc hpos := by
    refine emissions_cooldown ?_ calls
    have hne : c ≠ 0 := by omega
    simp [AlertSpec.cooldown, hc, hne]
  reminder htrigger := emissions_reminder htrigger calls
  rearm hlevel _ _ _ _ _ _ hx hy := rearmed_between hlevel hx hy
  oncePerSession htrigger hids := (emissions_oncePerSession htrigger hids).1
  closed past x _ _ hclosed := by
    obtain ⟨hquiet, hsame⟩ := decideAlert_closed hclosed (stateAfter fromIso alert past)
    rw [Emits, hquiet, stateAfter_concat, hsame]
    exact ⟨Bool.false_ne_true, rfl⟩

end KiteAlgo
