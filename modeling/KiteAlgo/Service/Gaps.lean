import KiteAlgo.Service.Lifecycle

/-!
# KiteAlgo.Service.Gaps

Streaks and sequences across feed gaps, over whole runs of completed bars.

`_reset_observation_state` clears the continuity keys after a gap but not
`stage_advanced`, so a streak or an armed sequence from before the gap goes on.
`gap_never_extends` is the guarantee for the runs in which a gap finds the
machine of the stage idle.  What a bar counts as is a ghost history beside the
service: one entry for each bar the stored state accounts for, replaced when the
bar is corrected.
-/

namespace KiteAlgo

variable {F : Type} [PyFloat F]

/-! ## bars as the stage machines see them -/

/-- A bar the stored state accounts for: whether it came after a gap, whether the
stage's own conditions held, and whether the first leg of the sequence held. -/
structure HandledBar where
  ts : Int
  gap : Bool
  matched : Bool
  arms : Bool
  deriving DecidableEq, Repr

def groupsHold (input : EvalInput F) (groups : List (ConditionGroup F)) (state : EvalState F) :
    Bool :=
  match runGroups input groups state with
  | .ok run => run.matched == some true
  | .error _ => false

/-- The first leg of the stage's sequence holds, after the stage's own groups. -/
def firstLegHolds (stage : Stage F) (input : EvalInput F) (state : EvalState F) : Bool :=
  match stage.sequence, runGroups input stage.groupPairs state with
  | some sequence, .ok own => groupsHold input sequence.first own.state
  | _, _ => false

def handledBar (stage : Stage F) (input : EvalInput F) (state : EvalState F) (gap : Bool) :
    HandledBar where
  ts := input.obs.ts
  gap
  matched := groupsHold input stage.groupPairs state
  arms := firstLegHolds stage input state

/-- The last `n` bars matched, and none of them but the first came after a gap. -/
def MatchedSinceGap (n : Nat) (bars : List HandledBar) : Prop :=
  ∃ before last, bars = before ++ last ∧ last.length = n ∧ (∀ b ∈ last, b.matched = true) ∧
    ∀ b ∈ last.tail, b.gap = false

/-- Some bar armed the sequence, and no gap came after it. -/
def ArmedSinceGap (bars : List HandledBar) : Prop :=
  ∃ before bar after, bars = before ++ bar :: after ∧ bar.arms = true ∧ ∀ b ∈ after, b.gap = false

/-- The last bar completes a sequence that an earlier bar armed, with no gap after
the arming bar. -/
def CompletedSinceGap (bars : List HandledBar) : Prop :=
  ∃ earlier last, bars = earlier ++ [last] ∧ ArmedSinceGap earlier ∧ last.gap = false

theorem MatchedSinceGap.zero (bars : List HandledBar) : MatchedSinceGap 0 bars :=
  ⟨bars, [], by simp, rfl, by simp, by simp⟩

variable {bar : HandledBar} {bars : List HandledBar}

theorem MatchedSinceGap.snoc {n : Nat} (h : MatchedSinceGap n bars) (hmatched : bar.matched = true)
    (hgap : bar.gap = true → n = 0) : MatchedSinceGap (n + 1) (bars ++ [bar]) := by
  obtain ⟨before, last, rfl, hlength, hall, hgaps⟩ := h
  refine ⟨before, last ++ [bar], by simp, by simp [hlength], ?_, ?_⟩
  · intro b hb
    rcases List.mem_append.mp hb with hb | hb
    · exact hall b hb
    · rw [List.mem_singleton.mp hb]
      exact hmatched
  · cases last with
    | nil => simp
    | cons first last =>
      intro b hb
      rcases List.mem_append.mp hb with hb | hb
      · exact hgaps b hb
      · rw [List.mem_singleton.mp hb]
        cases hbar : bar.gap with
        | false => rfl
        | true => simp [hgap hbar] at hlength

theorem ArmedSinceGap.snoc (h : ArmedSinceGap bars) (hgap : bar.gap = false) :
    ArmedSinceGap (bars ++ [bar]) := by
  obtain ⟨before, armed, after, rfl, harms, hafter⟩ := h
  refine ⟨before, armed, after ++ [bar], by simp, harms, fun b hb => ?_⟩
  rcases List.mem_append.mp hb with hb | hb
  · exact hafter b hb
  · rw [List.mem_singleton.mp hb]
    exact hgap

/-! ## one evaluation of a stage machine -/

variable {id : String} {state : EvalState F}

omit [PyFloat F] in
theorem advancedState_congr {obs obs' : Observation F} (h : obs'.epochId = obs.epochId) :
    advancedState state id obs' = advancedState state id obs := by
  simp only [advancedState, h]

omit [PyFloat F] in
theorem advancedState_of_eq {state' : EvalState F}
    (h : state'.stageAdvanced.get? id = state.stageAdvanced.get? id) (obs : Observation F) :
    advancedState state' id obs = advancedState state id obs := by
  simp only [advancedState, h]

omit [PyFloat F] in
theorem advancedState_commit (state : EvalState F) (id : String) (sub : AdvancedState)
    (obs : Observation F) :
    advancedState (commitAdvancedState state id sub obs) id obs =
      { sub with epochId := some obs.epochId } := by
  simp [advancedState, commitAdvancedState]

/-- A rule about the machine of a stage: `Ok` relates the bars so far to the
machine, `Idle` says that the machine holds nothing a gap could carry over, and
`Goal` is what firing promises. -/
structure GapRule (stage : Stage F) (Ok : List HandledBar → AdvancedState → Prop)
    (Idle : AdvancedState → Int → Prop) (Goal : List HandledBar → Prop) : Prop where
  fresh : Ok [] {}
  step : ∀ {bars input state r gap}, Ok bars (advancedState state stage.id input.obs) →
    (gap = true → Idle (advancedState state stage.id input.obs) input.obs.ts) →
    evaluateStage stage input state = .ok r →
    Ok (bars ++ [handledBar stage input state gap]) (advancedState r.state stage.id input.obs) ∧
      (r.fired = true → Goal (bars ++ [handledBar stage input state gap]))

theorem streak_gapRule {stage : Stage F} {required : Int}
    (hbars : stage.consecutiveBars = some required) :
    GapRule stage (fun bars sub => ∀ n : Nat, (n : Int) ≤ sub.streak → MatchedSinceGap n bars)
      (fun sub _ => sub.streak = 0) (MatchedSinceGap required.toNat) := by
  refine ⟨fun n hn => ?_, ?_⟩
  · have hzero : n = 0 := by
      have : (n : Int) ≤ 0 := hn
      omega
    rw [hzero]
    exact .zero []
  · intro bars input state r gap hok hidle h
    simp only [evaluateStage, bind_eq_ok, hbars] at h
    obtain ⟨own, hown, h⟩ := h
    obtain rfl := Except.ok.inj h
    have hsame := (keepsMachines_of_runGroups hown).stageAdvanced
    have hsub : advancedState own.state stage.id input.obs =
        advancedState state stage.id input.obs := advancedState_of_eq (by rw [hsame]) _
    rw [advancedState_commit, hsub]
    generalize advancedState state stage.id input.obs = sub at hok hidle
    have hgrown : ∀ n : Nat, (n : Int) ≤ (applyConsecutiveBars required own.matched sub).sub.streak →
        MatchedSinceGap n (bars ++ [handledBar stage input state gap]) := by
      intro n hn
      by_cases hmatched : own.matched = some true
      · simp only [applyConsecutiveBars, hmatched, if_true] at hn
        cases n with
        | zero => exact .zero _
        | succ k =>
          have hk : (k : Int) ≤ sub.streak := by omega
          refine (hok k hk).snoc ?_ fun hgap => ?_
          · simp [handledBar, groupsHold, hown, hmatched]
          · have hstreak := hidle hgap
            omega
      · simp only [applyConsecutiveBars, hmatched, if_false] at hn
        have hzero : n = 0 := by omega
        rw [hzero]
        exact .zero _
    refine ⟨hgrown, fun hfired => ?_⟩
    simp only [applyConsecutiveBars, Bool.and_eq_true, decide_eq_true_eq] at hfired
    by_cases hpos : 0 ≤ required
    · refine hgrown required.toNat ?_
      rw [Int.toNat_of_nonneg hpos]
      exact hfired.1
    · rw [Int.toNat_of_nonpos (by omega)]
      exact .zero _

/-- The sequence is not armed, or its bounds have elapsed at time `ts`. -/
def SequenceSpec.IdleAt (sequence : SequenceSpec F) (sub : AdvancedState) (ts : Int) : Prop :=
  (sequence.expire sub { ts, epochId := "" }).armed = false

theorem sequence_gapRule {stage : Stage F} {sequence : SequenceSpec F}
    (hbars : stage.consecutiveBars = none) (hsequence : stage.sequence = some sequence) :
    GapRule stage (fun bars sub => sub.armed = true → ArmedSinceGap bars) sequence.IdleAt
      CompletedSinceGap := by
  refine ⟨by simp, ?_⟩
  intro bars input state r gap hok hidle h
  simp only [evaluateStage, bind_eq_ok, hbars, hsequence] at h
  obtain ⟨own, hown, step, hstep, h⟩ := h
  obtain rfl := Except.ok.inj h
  have hsame := (keepsMachines_of_runGroups hown).stageAdvanced
  have hsub : advancedState own.state stage.id input.obs =
      advancedState state stage.id input.obs := advancedState_of_eq (by rw [hsame]) _
  rw [hsub] at hstep
  rw [advancedState_commit]
  generalize advancedState state stage.id input.obs = sub at hok hidle hstep
  simp only [applySequence] at hstep
  split at hstep
  · next harmed =>
      -- the machine was armed by an earlier bar, and this bar is not one after a gap
      have hstill : sub.armed = true := by
        unfold SequenceSpec.expire at harmed
        split at harmed
        · simp [AdvancedState.disarm] at harmed
        · exact harmed
      have hgap : gap = false := by
        cases hgap : gap with
        | false => rfl
        | true =>
          have hunarmed : (sequence.expire sub input.obs).armed = false := hidle hgap
          simp [hunarmed] at harmed
      simp only [completeSequence, bind_eq_ok] at hstep
      obtain ⟨leg, _, hstep⟩ := hstep
      obtain rfl := Except.ok.inj hstep
      refine ⟨fun _ => (hok hstill).snoc hgap, fun _ => ⟨bars, _, rfl, hok hstill, hgap⟩⟩
  · simp only [armSequence, bind_eq_ok] at hstep
    obtain ⟨leg, hleg, hstep⟩ := hstep
    obtain rfl := Except.ok.inj hstep
    refine ⟨fun harmed => ?_, by simp⟩
    split at harmed
    · next hmatched =>
        refine ⟨bars, _, [], rfl, ?_, by simp⟩
        simp [handledBar, firstLegHolds, hsequence, hown, groupsHold, hleg, hmatched]
    · next hunarmed _ => exact absurd harmed hunarmed

/-! ## the service with its history of bars -/

/-- What a bar is evaluated on; none when it is not evaluated. -/
def preparedBar (env : ServiceEnv F) (stage : Stage F) (r : Request F) (s : ServiceState F) :
    Option (Prepared F) :=
  if (claimEvaluation s.db r.sub.id r.sub.instrumentKey env.ownerId env.lease r.call.now).isSome then
    prepareBar stage (epochState s r.sub r.call.obs.epochId) r.call.obs
  else none

/-- The service and the bars its stored state accounts for. -/
structure Watched (F : Type) where
  service : ServiceState F
  history : List HandledBar := []

/-- What the stage reports at a bar, with the bars up to and including it. -/
structure StageReport where
  bars : List HandledBar
  fired : Bool
  deriving DecidableEq, Repr

/-- The bars before an evaluated bar; a corrected bar replaces the last one. -/
def barsBefore (prepared : Prepared F) (history : List HandledBar) : List HandledBar :=
  if prepared.correction then history.dropLast else history

/-- The bar came after a gap, or corrects one that did. -/
def countsAsGap (prepared : Prepared F) (history : List HandledBar) : Bool :=
  prepared.gap || (prepared.correction && history.getLast?.any HandledBar.gap)

/-- The bars up to and including an evaluated bar. -/
def barsUpTo (stage : Stage F) (r : Request F) (prepared : Prepared F)
    (history : List HandledBar) : List HandledBar :=
  barsBefore prepared history ++
    [handledBar stage r.call.input prepared.state.toEvalState (countsAsGap prepared history)]

/-- The number of saves of an epoch's checkpoint. -/
def savedEpoch (s : ServiceState F) (sub : ActiveSubscription F) (epoch : String) : Option Int :=
  (loadCheckpoint s.db sub.id sub.instrumentKey epoch).map Prod.snd

/-- The service, watched: every evaluated bar gives a report, and every saved one an
entry of the history. -/
def watch (env : ServiceEnv F) (stage : Stage F) : Machine (Request F) (Watched F) StageReport where
  step r w :=
    let s := (service env).step r w.service
    let saved := savedEpoch s r.sub r.call.obs.epochId ≠ savedEpoch w.service r.sub r.call.obs.epochId
    ⟨s, match preparedBar env stage r w.service with
      | some prepared => if saved then barsUpTo stage r prepared w.history else w.history
      | none => w.history⟩
  out r w :=
    match preparedBar env stage r w.service with
    | some prepared =>
      match evaluateStage stage r.call.input prepared.state.toEvalState with
      | .ok result => [⟨barsUpTo stage r prepared w.history, result.fired⟩]
      | .error _ => []
    | none => []

section Runs

variable {env : ServiceEnv F} {sub : ActiveSubscription F} {document : WorkflowDocument F}
  {stage : Stage F} {alert : AlertSpec F} {epoch : String}

theorem service_bar (hsub : Subscribes sub document stage alert) (hsignal : stage.breadth = none)
    (hclock : stage.clock = .known .candleClose) (env : ServiceEnv F) (call : Call F)
    (s : ServiceState F) :
    ((service env).step ⟨sub, call⟩ s).db = s.db ∨
      ∃ prepared ev, preparedBar env stage ⟨sub, call⟩ s = some prepared ∧
        EvaluationSpec env (resolveSession env document.session sub.instrumentKey call.obs.ts) stage
          alert call prepared.state.toEvalState ev ∧
        epochState ((service env).step ⟨sub, call⟩ s) sub call.obs.epochId =
          nextCheckpoint stage call prepared.state ev.engine.newState ∧
        savedEpoch ((service env).step ⟨sub, call⟩ s) sub call.obs.epochId ≠
          savedEpoch s sub call.obs.epochId := by
  have hstart : ∀ {start : Start F},
      startOf env sub stage call (loadState s.db sub stage call.obs) s.db = some start →
      prepareBar stage (epochState s sub call.obs.epochId) call.obs = some start.prepared ∧
        start.base = s.db := by
    intro start h
    have hload : (loadState s.db sub stage call.obs).1 = epochState s sub call.obs.epochId :=
      storedState_candle hclock s call.obs
    simp only [startOf, hclock, if_true, hload, Option.map_eq_some_iff] at h
    obtain ⟨prepared, hprepared, rfl⟩ := h
    exact ⟨hprepared, rfl⟩
  have hcases := handleSignal_cases env sub document.session stage alert call s
  simp only [service, handleObservation_signal hsub hsignal]
  generalize (handleSignal env sub document.session stage alert call s).2 = s' at hcases ⊢
  obtain ⟨db', windows⟩ := s'
  simp only at hcases ⊢
  cases hcases with
  | kept => exact .inl rfl
  | rolledBack h => exact .inl (hstart h).2
  | committed hclaim h hev hcheckpoints hepoch _ _ =>
    obtain ⟨hprepared, hbase⟩ := hstart h
    rw [hbase] at hcheckpoints hepoch
    refine .inr ⟨_, _, ?_, evaluateSignal_spec hev, ?_, ?_⟩
    · simp only [preparedBar, hclaim, if_true, hprepared]
    · simp [epochState, loadCheckpoint, hcheckpoints]
    · simp only [savedEpoch, loadCheckpoint, hcheckpoints, Table.get?_upsert_self, Option.map_some,
        Option.map_map]
      cases hrow : s.db.checkpoints.get? (sub.id, sub.instrumentKey, call.obs.epochId) with
      | none => simp
      | some row =>
        have hne : row.ownerEpoch + 1 ≠ row.ownerEpoch := by omega
        simp [hepoch row hrow, hne]

/-! ## the invariant -/

/-- The calls of one subscription: completed bars of one epoch, with layers other
than the stage itself. -/
structure CompletedBars (sub : ActiveSubscription F) (stage : Stage F) (epoch : String)
    (reqs : List (Request F)) : Prop where
  own : ∀ r ∈ reqs, r.sub = sub
  oneEpoch : ∀ r ∈ reqs, r.call.obs.epochId = epoch
  final : ∀ r ∈ reqs, r.call.obs.final = true
  layers : ∀ r ∈ reqs, ∀ layer ∈ r.call.layers, stage.id ≠ layer.1.id

variable {r : Request F} {rest : List (Request F)}

omit [PyFloat F] in
theorem CompletedBars.tail
    (h : CompletedBars sub stage epoch (r :: rest)) : CompletedBars sub stage epoch rest where
  own q hq := h.own q (List.mem_cons_of_mem r hq)
  oneEpoch q hq := h.oneEpoch q (List.mem_cons_of_mem r hq)
  final q hq := h.final q (List.mem_cons_of_mem r hq)
  layers q hq := h.layers q (List.mem_cons_of_mem r hq)

/-- A bar after a gap finds the stage's machine idle. -/
def GapFindsIdle (stage : Stage F) (Idle : AdvancedState → Int → Prop) (r : Request F)
    (_rest : List (Request F)) (w : Watched F) : Prop :=
  let stored := epochState w.service r.sub r.call.obs.epochId
  detectGap stage stored r.call.obs = true →
    Idle (advancedState stored.toEvalState stage.id r.call.obs) r.call.obs.ts

instance (stage : Stage F) (Idle : AdvancedState → Int → Prop) [∀ sub ts, Decidable (Idle sub ts)]
    (r : Request F) (rest : List (Request F)) (w : Watched F) :
    Decidable (GapFindsIdle stage Idle r rest w) :=
  inferInstanceAs (Decidable (_ → Idle _ _))

/-- The state before the last bar is the one a correction starts from: it accounts
for the bars before, has no gap of its own left to detect, and was idle if the last
bar came after a gap. -/
structure PriorOk (stage : Stage F) (epoch : String)
    (Ok : List HandledBar → AdvancedState → Prop) (Idle : AdvancedState → Int → Prop)
    (history : List HandledBar) (prior : EvalState F) (ts : Int) : Prop where
  ok : ∀ obs : Observation F, obs.epochId = epoch → Ok history.dropLast (advancedState prior stage.id obs)
  noGap : ∀ obs : Observation F, obs.ts = ts → detectGap stage { toEvalState := prior } obs = false
  idle : ∀ obs : Observation F, obs.epochId = epoch → history.getLast?.any HandledBar.gap = true →
    Idle (advancedState prior stage.id obs) ts

/-- The stored state accounts for the history, and so does the state before the
last bar for the rest of it. -/
structure WatchInv (stage : Stage F) (epoch : String)
    (Ok : List HandledBar → AdvancedState → Prop) (Idle : AdvancedState → Int → Prop)
    (stored : Checkpoint F) (history : List HandledBar) : Prop where
  current : ∀ obs : Observation F, obs.epochId = epoch →
    Ok history (advancedState stored.toEvalState stage.id obs)
  prior : ∀ prior ts, stored.lastBarState = some prior → stored.lastBarTs = some ts →
    PriorOk stage epoch Ok Idle history prior ts

structure PreparedOk (stage : Stage F) (epoch : String)
    (Ok : List HandledBar → AdvancedState → Prop) (Idle : AdvancedState → Int → Prop)
    (history : List HandledBar) (prepared : Prepared F) (ts : Int) : Prop where
  ok : ∀ obs : Observation F, obs.epochId = epoch →
    Ok (barsBefore prepared history) (advancedState prepared.state.toEvalState stage.id obs)
  noGap : ∀ obs : Observation F, obs.ts = ts →
    detectGap stage { toEvalState := prepared.state.toEvalState } obs = false
  idle : ∀ obs : Observation F, obs.epochId = epoch → countsAsGap prepared history = true →
    Idle (advancedState prepared.state.toEvalState stage.id obs) ts

omit [PyFloat F] in
theorem detectGap_congr {state state' : Checkpoint F} {obs obs' : Observation F}
    (hstate : state'.lastBarTs = state.lastBarTs) (hts : obs'.ts = obs.ts) :
    detectGap stage state' obs' = detectGap stage state obs := by
  simp only [detectGap, hstate, hts]

variable {Idle : AdvancedState → Int → Prop} {Ok : List HandledBar → AdvancedState → Prop}
  {prepared : Prepared F} {w : Watched F}

theorem preparedOk_of_inv
    (hinv : WatchInv stage epoch Ok Idle (epochState w.service sub epoch) w.history)
    (hown : r.sub = sub) (hepoch : r.call.obs.epochId = epoch)
    (hidle : GapFindsIdle stage Idle r [] w)
    (h : preparedBar env stage r w.service = some prepared) :
    PreparedOk stage epoch Ok Idle w.history prepared r.call.obs.ts := by
  obtain ⟨rsub, call⟩ := r
  obtain rfl : rsub = sub := hown
  obtain rfl : call.obs.epochId = epoch := hepoch
  simp only [GapFindsIdle] at hidle
  simp only [preparedBar] at h
  split at h
  case isFalse => simp at h
  obtain ⟨hcurrent, hprior⟩ := hinv
  generalize epochState w.service rsub call.obs.epochId = stored at h hidle hcurrent hprior
  simp only [prepareBar] at h
  split at h
  · next hcorrection =>
      simp only [Option.map_eq_some_iff] at h
      obtain ⟨prior, hstate, h⟩ := h
      obtain ⟨ts, hlast, hts⟩ : ∃ ts, stored.lastBarTs = some ts ∧ call.obs.ts = ts := by
        simp only [isCorrection] at hcorrection
        split at hcorrection
        · next ts _ hlast _ =>
            simp only [Bool.and_eq_true, decide_eq_true_eq] at hcorrection
            exact ⟨ts, hlast, hcorrection.1.2⟩
        · simp at hcorrection
      obtain ⟨hok, hnogap, hidle'⟩ := hprior prior ts hstate hlast
      have hgap := hnogap call.obs hts
      simp only [hgap] at h
      subst h
      rw [← hts] at hnogap hidle'
      exact ⟨hok, hnogap, fun obs hobs hcounts => hidle' obs hobs (by simpa [countsAsGap] using hcounts)⟩
  · split at h
    · simp at h
    · obtain rfl := Option.some.inj h
      have hmachine : ∀ obs : Observation F,
          advancedState (if detectGap stage stored call.obs then resetObservationState stored
            else stored).toEvalState stage.id obs = advancedState stored.toEvalState stage.id obs := by
        intro obs
        split <;> rfl
      refine ⟨fun obs hobs => ?_, fun obs hobs => ?_, fun obs hobs hcounts => ?_⟩
      · rw [hmachine]
        exact hcurrent obs hobs
      · split
        · rfl
        · next hgap =>
            have hsame : detectGap stage { toEvalState := stored.toEvalState } obs =
              detectGap stage stored call.obs := detectGap_congr rfl hobs
            rw [hsame]
            simpa using hgap
      · rw [hmachine, advancedState_congr hobs]
        exact hidle (by simpa [countsAsGap] using hcounts)

variable {call : Call F}

omit [PyFloat F] in
theorem nextCheckpoint_final (hfinal : call.obs.final = true) (state : Checkpoint F)
    (decided : EvalState F) :
    (nextCheckpoint stage call state decided).lastBarState = some state.toEvalState ∧
      (nextCheckpoint stage call state decided).lastBarTs = some call.obs.ts := by
  simp [nextCheckpoint, hfinal]

theorem saved_machine {session : Bool × String} {state : Checkpoint F} {ev : Evaluation F}
    (hlayers : ∀ layer ∈ call.layers, stage.id ≠ layer.1.id)
    (heval : EvaluationSpec env session stage alert call state.toEvalState ev) :
    ∃ result, evaluateStage stage call.input state.toEvalState = .ok result ∧ ∀ obs : Observation F,
        advancedState (nextCheckpoint stage call state ev.engine.newState).toEvalState stage.id obs =
          advancedState result.state stage.id obs := by
  have hrule := heval.rule
  simp only [evaluateRule, bind_eq_ok] at hrule
  obtain ⟨result, hresult, hrest⟩ := hrule
  refine ⟨result, hresult, fun obs => advancedState_of_eq ?_ obs⟩
  rw [(nextCheckpoint_bar stage call state ev.engine.newState).2, heval.continuity.stageAdvanced]
  exact (frame_of_evaluateLayers hrest).2 stage.id hlayers

theorem watchInv_of_saved {history : List HandledBar} {result : PredicateResult F}
    {next : Checkpoint F} (hepoch : r.call.obs.epochId = epoch)
    (hready : PreparedOk stage epoch Ok Idle history prepared r.call.obs.ts)
    (hok : Ok (barsUpTo stage r prepared history)
      (advancedState result.state stage.id r.call.obs)) (hmachine : ∀ obs : Observation F,
      advancedState next.toEvalState stage.id obs = advancedState result.state stage.id obs)
    (hprior : next.lastBarState = some prepared.state.toEvalState)
    (hlast : next.lastBarTs = some r.call.obs.ts) :
    WatchInv stage epoch Ok Idle next (barsUpTo stage r prepared history) := by
  constructor
  · intro obs hobs
    rw [hmachine, advancedState_congr (hobs.trans hepoch.symm)]
    exact hok
  · intro prior ts hstate hts
    obtain rfl := Option.some.inj (hprior.symm.trans hstate)
    obtain rfl := Option.some.inj (hlast.symm.trans hts)
    refine ⟨?_, hready.noGap, ?_⟩
    · rw [barsUpTo, List.dropLast_concat]
      exact hready.ok
    · intro obs hobs hgap
      rw [barsUpTo, List.getLast?_concat] at hgap
      exact hready.idle obs hobs hgap

variable {Goal : List HandledBar → Prop}

theorem WatchInv.step (hrule : GapRule stage Ok Idle Goal)
    (hsub : Subscribes sub document stage alert) (hsignal : stage.breadth = none)
    (hclock : stage.clock = .known .candleClose) (hbars : CompletedBars sub stage epoch (r :: rest))
    (hinv : WatchInv stage epoch Ok Idle (epochState w.service sub epoch) w.history)
    (hidle : GapFindsIdle stage Idle r rest w) :
    WatchInv stage epoch Ok Idle (epochState ((watch env stage).step r w).service sub epoch)
        ((watch env stage).step r w).history ∧
      ∀ report ∈ (watch env stage).out r w, report.fired = true → Goal report.bars := by
  have hown := hbars.own r (.head _)
  have hepoch := hbars.oneEpoch r (.head _)
  have hready : ∀ {prepared}, preparedBar env stage r w.service = some prepared →
      PreparedOk stage epoch Ok Idle w.history prepared r.call.obs.ts :=
    fun h => preparedOk_of_inv hinv hown hepoch hidle h
  have hstage : ∀ {prepared result}, preparedBar env stage r w.service = some prepared →
      evaluateStage stage r.call.input prepared.state.toEvalState = .ok result →
      Ok (barsUpTo stage r prepared w.history) (advancedState result.state stage.id r.call.obs) ∧
        (result.fired = true → Goal (barsUpTo stage r prepared w.history)) :=
    fun hprepared hresult => hrule.step ((hready hprepared).ok r.call.obs hepoch)
      ((hready hprepared).idle r.call.obs hepoch) hresult
  refine ⟨?_, ?_⟩
  · have hfinal := hbars.final r (.head _)
    have hlayers := hbars.layers r (.head _)
    show WatchInv stage epoch Ok Idle (epochState ((service env).step r w.service) sub epoch) _
    obtain ⟨rsub, call⟩ := r
    obtain rfl : rsub = sub := hown
    obtain rfl : call.obs.epochId = epoch := hepoch
    rcases service_bar hsub hsignal hclock env call w.service with
      hsame | ⟨prepared, ev, hprepared, heval, hstored, hsaved⟩
    · have hstate : epochState ((service env).step ⟨rsub, call⟩ w.service) rsub call.obs.epochId =
          epochState w.service rsub call.obs.epochId := by rw [epochState, hsame]; rfl
      have hnot : savedEpoch ((service env).step ⟨rsub, call⟩ w.service) rsub call.obs.epochId =
          savedEpoch w.service rsub call.obs.epochId := by rw [savedEpoch, hsame]; rfl
      have hhistory : ((watch env stage).step ⟨rsub, call⟩ w).history = w.history := by
        simp only [watch, hnot, ne_eq, not_true_eq_false, if_false]
        split <;> rfl
      rw [hstate, hhistory]
      exact hinv
    · obtain ⟨result, hresult, hmachine⟩ := saved_machine hlayers heval
      have hhistory : ((watch env stage).step ⟨rsub, call⟩ w).history =
          barsUpTo stage ⟨rsub, call⟩ prepared w.history := by
        simp only [watch, hprepared, ne_eq, hsaved, not_false_eq_true, if_true]
      obtain ⟨hprior, hlast⟩ := nextCheckpoint_final hfinal prepared.state ev.engine.newState
      rw [hstored, hhistory]
      exact watchInv_of_saved rfl (hready hprepared) (hstage hprepared hresult).1 hmachine hprior
        hlast
  · intro report hreport hfired
    simp only [watch] at hreport
    split at hreport
    · next prepared hprepared =>
        split at hreport
        · next result hresult =>
            rw [List.mem_singleton] at hreport
            subst hreport
            exact (hstage hprepared hresult).2 hfired
        · simp at hreport
    · simp at hreport

theorem reports_of_gapRule (hrule : GapRule stage Ok Idle Goal)
    (hsub : Subscribes sub document stage alert) (hsignal : stage.breadth = none)
    (hclock : stage.clock = .known .candleClose) {reqs : List (Request F)}
    (hbars : CompletedBars sub stage epoch reqs) {s : ServiceState F}
    (hempty : epochState s sub epoch = {})
    (hidle : (watch env stage).Along (GapFindsIdle stage Idle) reqs ⟨s, []⟩) :
    ∀ report ∈ (watch env stage).trace reqs ⟨s, []⟩, report.fired = true → Goal report.bars := by
  have hinit : WatchInv stage epoch Ok Idle (epochState s sub epoch) [] := by
    rw [hempty]
    exact ⟨fun _ _ => hrule.fresh, by simp⟩
  have hfinal := Machine.history (m := watch env stage)
    (I := fun past reqs w => CompletedBars sub stage epoch reqs ∧
      WatchInv stage epoch Ok Idle (epochState w.service sub epoch) w.history ∧
      ∀ report ∈ past, report.fired = true → Goal report.bars)
    (fun {past r rest w} hI hP => by
      obtain ⟨hbars, hinv, hpast⟩ := hI
      obtain ⟨hinv', hout⟩ := hinv.step hrule hsub hsignal hclock hbars hP
      refine ⟨hbars.tail, hinv', fun report hreport => ?_⟩
      rcases List.mem_append.mp hreport with hreport | hreport
      · exact hpast report hreport
      · exact hout report hreport)
    (show _ ∧ _ ∧ ∀ report ∈ ([] : List StageReport), _ from ⟨hbars, hinit, by simp⟩) hidle
  simpa using hfinal.2.2

/-- A data gap never extends a streak nor completes a sequence, in every run in
which each bar after a gap finds no streak, respectively no armed sequence that is
still within its bounds. -/
theorem gap_never_extends (env : ServiceEnv F) (hsub : Subscribes sub document stage alert)
    (hsignal : stage.breadth = none) (hclock : stage.clock = .known .candleClose)
    {reqs : List (Request F)} (hbars : CompletedBars sub stage epoch reqs) {s : ServiceState F}
    (hempty : epochState s sub epoch = {}) :
    (∀ required, stage.consecutiveBars = some required →
      (watch env stage).Along (GapFindsIdle stage fun sub _ => sub.streak = 0) reqs ⟨s, []⟩ →
      ∀ report ∈ (watch env stage).trace reqs ⟨s, []⟩, report.fired = true →
        MatchedSinceGap required.toNat report.bars) ∧
    (∀ sequence, stage.consecutiveBars = none → stage.sequence = some sequence →
      (watch env stage).Along (GapFindsIdle stage sequence.IdleAt) reqs ⟨s, []⟩ →
      ∀ report ∈ (watch env stage).trace reqs ⟨s, []⟩, report.fired = true →
        CompletedSinceGap report.bars) :=
  ⟨fun _ hrequired hidle => reports_of_gapRule (streak_gapRule hrequired) hsub hsignal hclock hbars
      hempty hidle,
    fun _ hnone hsequence hidle => reports_of_gapRule (sequence_gapRule hnone hsequence) hsub
      hsignal hclock hbars hempty hidle⟩

end Runs

/-! ## a streak across a gap -/

/-- An alert on three five-minute bars in a row above 100. -/
def streakAlert : PyVal ℚ :=
  .ofPairs
    [("version", .int 1), ("name", .str "streak"), ("instruments", .list [.str "NSE:INFY"]),
     ("stages", .list
       [.ofPairs
         [("id", .str "above"), ("clock", .str "candle_close"), ("timeframe", .str "5m"),
          ("consecutive_bars", .int 3), ("conditions", .list
            [.ofPairs [("field", .str "close"), ("op", .str "gt"), ("value", .int 100)]])]]),
     ("alerts", .list
       [.ofPairs
         [("id", .str "notify"), ("source", .str "above"), ("channels", .list [.str "telegram"])]])]

def streakSub : ActiveSubscription ℚ where
  id := "s1"
  revisionId := "r1"
  alertId := "notify"
  stageId := "above"
  instrumentKey := "NSE:INFY"
  ownerId := "o1"
  workflowId := "w1"
  document := streakAlert

/-- A completed bar at a second of the epoch. -/
def streakBar (second : Int) (close : ℚ) : Request ℚ where
  sub := streakSub
  call :=
    { obs :=
        { ts := second * microsPerSecond, epochId := "candle", close := some close, final := true } }

theorem streakSub_subscribes (check : Stage ℚ → Bool)
    (h : subscribesWith streakSub (fun _ stage _ => stage.breadth.isNone &&
      decide (stage.clock = .known .candleClose) && decide (stage.consecutiveBars = some 3) &&
      check stage) = true) :
    ∃ document stage alert, Subscribes streakSub document stage alert ∧ stage.breadth = none ∧
      stage.clock = .known .candleClose ∧ stage.consecutiveBars = some 3 ∧ check stage = true := by
  obtain ⟨document, stage, alert, hsub, hcheck⟩ := exists_of_subscribesWith streakSub _ h
  simp only [Bool.and_eq_true, decide_eq_true_eq, Option.isNone_iff_eq_none, and_assoc] at hcheck
  exact ⟨document, stage, alert, hsub, hcheck⟩

theorem completedBars_streakBar (stage : Stage ℚ) (bars : List (Int × ℚ)) :
    CompletedBars streakSub stage "candle" (bars.map fun b => streakBar b.1 b.2) := by
  constructor <;> rintro r hr
  all_goals
    obtain ⟨b, _, rfl⟩ := List.mem_map.mp hr
    simp [streakBar]

/-- After a gap that finds no streak, three bars above 100 fire. -/
theorem streak_after_gap :
    let env : ServiceEnv ℚ := { ownerId := "worker" }
    let reqs := [(0, 90), (3000, 110), (3300, 110), (3600, 110)].map fun b => streakBar b.1 b.2
    ∃ document stage alert, Subscribes streakSub document stage alert ∧
      ((watch env stage).trace reqs ⟨{}, []⟩).map StageReport.fired = [false, false, false, true] ∧
      ∀ report ∈ (watch env stage).trace reqs ⟨{}, []⟩, report.fired = true →
        MatchedSinceGap 3 report.bars := by
  intro env reqs
  obtain ⟨document, stage, alert, hsub, hsignal, hclock, hrequired, hcheck⟩ :=
    streakSub_subscribes (fun stage =>
      decide (((watch env stage).trace reqs ⟨{}, []⟩).map StageReport.fired =
        [false, false, false, true]) &&
      decide ((watch env stage).Along (GapFindsIdle stage fun sub _ => sub.streak = 0) reqs
        ⟨{}, []⟩)) (by decide +kernel)
  simp only [Bool.and_eq_true, decide_eq_true_eq] at hcheck
  have hbars := completedBars_streakBar stage [(0, 90), (3000, 110), (3300, 110), (3600, 110)]
  exact ⟨document, stage, alert, hsub, hcheck.1,
    (gap_never_extends env hsub hsignal hclock hbars (s := {}) rfl).1 3 hrequired hcheck.2⟩

/-- Two bars above 100, a gap of 45 minutes and one more bar fire as three in a
row. -/
theorem streak_across_gap :
    let env : ServiceEnv ℚ := { ownerId := "worker" }
    let reqs := [(0, 110), (300, 110), (3000, 110)].map fun b => streakBar b.1 b.2
    ∃ document stage alert, Subscribes streakSub document stage alert ∧ stage.breadth = none ∧
      stage.clock = .known .candleClose ∧ stage.consecutiveBars = some 3 ∧
      CompletedBars streakSub stage "candle" reqs ∧
      ∃ report ∈ (watch env stage).trace reqs ⟨{}, []⟩, report.fired = true ∧
        ¬ MatchedSinceGap 3 report.bars := by
  intro env reqs
  let bars : List HandledBar :=
    [⟨0, false, true, false⟩, ⟨300000000, false, true, false⟩, ⟨3000000000, true, true, false⟩]
  obtain ⟨document, stage, alert, hsub, hsignal, hclock, hrequired, hcheck⟩ :=
    streakSub_subscribes (fun stage =>
      decide (⟨bars, true⟩ ∈ (watch env stage).trace reqs ⟨{}, []⟩)) (by decide +kernel)
  rw [decide_eq_true_eq] at hcheck
  refine ⟨document, stage, alert, hsub, hsignal, hclock, hrequired,
    completedBars_streakBar stage [(0, 110), (300, 110), (3000, 110)], ⟨bars, true⟩, hcheck, rfl, ?_⟩
  rintro ⟨before, last, heq, hlength, _, hgaps⟩
  have hbefore : before = [] := by
    have := congrArg List.length heq
    rw [List.length_append, hlength] at this
    exact List.length_eq_zero_iff.mp (by simpa [bars] using this)
  rw [hbefore, List.nil_append] at heq
  have := hgaps ⟨3000000000, true, true, false⟩ (by simp [← heq, bars])
  simp at this

end KiteAlgo
