import Mathlib.Data.List.TakeWhile
import KiteAlgo.Service.Spec

/-!
# KiteAlgo.Service.Storm

The budget of emissions per minute.  `_record_emission` forgets only what no later decision counts,
so the window that `_storm_budget_exceeded` reads counts as all emissions would.
-/

namespace KiteAlgo

open List Bool
/-! ## pruned windows -/

/-- The entries of a closed interval of the length. -/
def countWithin (length start : Int) (ts : List Int) : Nat :=
  ts.countP fun t => decide (start ≤ t ∧ t ≤ start + length)

def countSince (start : Int) (ts : List Int) : Nat := ts.countP fun t => decide (start ≤ t)

/-- A window is what is left of all entries, those gone being older than the length before some entry,
and no closed interval holds more entries than the budget. -/
structure Kept (budget : Nat) (length : Int) (all window : List Int) : Prop where
  gone : ∃ dropped, all = dropped ++ window ∧ ∀ t ∈ dropped, ∃ e ∈ all, t < e - length
  sorted : all.Pairwise (· ≤ ·)
  bounded : ∀ start, countWithin length start all ≤ budget

/-- `_record_emission` on the window of a pair. -/
def pruned (budget : Nat) (length now : Int) (window : List Int) : List Int :=
  (window.drop (window.length - budget - 10)).dropWhile fun t => decide (t < now - length)

variable {budget : Nat} {length now : Int} {all window : List Int}

theorem kept_nil (budget : Nat) (length : Int) : Kept budget length [] [] where
  gone := ⟨[], rfl, by simp⟩
  sorted := List.Pairwise.nil
  bounded _ := Nat.zero_le _

theorem old_of_mem_cut (hsorted : window.Pairwise (· ≤ ·)) (hcount : countSince now window ≤ budget)
    {t : Int} (ht : t ∈ window.take (window.length - budget - 10)) : t < now := by
  by_contra hnew
  have hsplit := take_append_drop (window.length - budget - 10) window
  have hlater : ∀ u ∈ window.drop (window.length - budget - 10), now ≤ u := by
    intro u hu
    rw [← hsplit] at hsorted
    have := (pairwise_append.mp hsorted).2.2 t ht u hu
    omega
  have hall : countSince now (window.drop (window.length - budget - 10)) =
      (window.drop (window.length - budget - 10)).length :=
    countP_eq_length.mpr fun u hu => decide_eq_true (hlater u hu)
  have hle : countSince now (window.drop (window.length - budget - 10)) ≤ countSince now window :=
    (drop_sublist _ _).countP_le
  have hpos : 0 < window.length - budget - 10 := by
    by_contra hzero
    rw [Nat.eq_zero_of_not_pos hzero] at ht
    simp at ht
  rw [hall, length_drop] at hle
  omega

theorem exists_pruned (hsorted : window.Pairwise (· ≤ ·))
    (hcount : countSince (now - length) window ≤ budget) :
    ∃ old, window = old ++ pruned budget length now window ∧ ∀ t ∈ old, t < now - length := by
  refine ⟨window.take (window.length - budget - 10) ++
    (window.drop (window.length - budget - 10)).takeWhile fun t => decide (t < now - length), ?_, ?_⟩
  · rw [pruned, append_assoc, takeWhile_append_dropWhile, take_append_drop]
  · intro t ht
    rcases mem_append.mp ht with hcut | hfront
    · exact old_of_mem_cut hsorted hcount hcut
    · simpa using mem_takeWhile_imp hfront

theorem Kept.emit (h : Kept budget length all window) (hnow : ∀ t ∈ all, t ≤ now)
    (hbudget : countSince (now - length) window < budget) :
    Kept budget length (all ++ [now]) (pruned budget length now (window ++ [now])) := by
  obtain ⟨dropped, hall, hdropped⟩ := h.gone
  -- what the window has lost is too old to count
  have hold : ∀ t ∈ dropped, t < now - length := by
    intro t ht
    obtain ⟨e, he, hlt⟩ := hdropped t ht
    have := hnow e he
    omega
  have hsame : countSince (now - length) all = countSince (now - length) window := by
    rw [hall, countSince, countP_append, countP_eq_zero.mpr, Nat.zero_add, countSince]
    intro t ht
    have := hold t ht
    simp
    omega
  have hsorted : (all ++ [now]).Pairwise (· ≤ ·) := by
    rw [pairwise_append]
    refine ⟨h.sorted, pairwise_singleton _ _, fun t ht u hu => ?_⟩
    rw [mem_singleton.mp hu]
    exact hnow t ht
  have hcount : countSince (now - length) (window ++ [now]) ≤ budget := by
    rw [countSince, countP_append, countP_singleton]
    rw [countSince] at hbudget
    split <;> omega
  have hsuffix : (window ++ [now]).Pairwise (· ≤ ·) := by
    rw [hall, append_assoc] at hsorted
    exact (pairwise_append.mp hsorted).2.1
  obtain ⟨old, hwindow, holds⟩ := exists_pruned hsuffix hcount
  constructor
  · refine ⟨dropped ++ old, ?_, fun t ht => ⟨now, by simp, ?_⟩⟩
    · rw [hall, append_assoc, append_assoc, hwindow.symm]
    · rcases mem_append.mp ht with ht | ht
      · exact hold t ht
      · exact holds t ht
  · exact hsorted
  · intro start
    have hbound := h.bounded start
    rw [countWithin] at hbound ⊢
    rw [countP_append, countP_singleton]
    split
    · next hin =>
      rw [decide_eq_true_eq] at hin
      have hle : all.countP (fun t => decide (start ≤ t ∧ t ≤ start + length)) ≤
          countSince (now - length) all :=
        countP_mono_left fun t _ ht => by
          simp only [decide_eq_true_eq] at ht ⊢
          omega
      omega
    · omega

/-! ## decisions -/

variable {F : Type}

/-- A decision on an alert, and whether an emission is recorded where the budget allows it. -/
structure Decision (F : Type) where
  sub : ActiveSubscription F
  now : Int
  emits : Bool

/-- The workflow and alert for which a decision counts. -/
def Decision.pair (d : Decision F) : String × String := (d.sub.workflowId, d.sub.alertId)

def Decision.records (env : ServiceEnv F) (d : Decision F) (s : ServiceState F) : Bool :=
  d.emits && !stormBudgetExceeded env s d.sub d.now

/-- Decisions one after another, with the emissions they record. -/
def storm (env : ServiceEnv F) : Machine (Decision F) (ServiceState F) ((String × String) × Int) where
  step d s :=
    if d.records env s then { s with emissionWindows := recordEmission env s.emissionWindows d.sub d.now }
    else s
  out d s := if d.records env s then [(d.pair, d.now)] else []

def emissionsOf (pair : String × String) (emitted : List ((String × String) × Int)) : List Int :=
  (emitted.filter fun e => decide (e.1 = pair)).map Prod.snd

def ServiceState.emissionWindow (s : ServiceState F) (pair : String × String) : List Int :=
  (s.emissionWindows.get? pair).getD []

theorem stormBudgetExceeded_eq_false_iff {env : ServiceEnv F} (hbudget : 1 ≤ env.deliveryBudgetPerWindow)
    (s : ServiceState F) (d : Decision F) :
    stormBudgetExceeded env s d.sub d.now = false ↔
      countSince (d.now - env.deliveryBudgetWindow) (s.emissionWindow d.pair) < env.deliveryBudgetPerWindow := by
  have hzero : (0 : Nat) < env.deliveryBudgetPerWindow := hbudget
  rw [stormBudgetExceeded, ServiceState.emissionWindow, Decision.pair]
  cases s.emissionWindows.get? (d.sub.workflowId, d.sub.alertId) with
  | none => simpa [countSince] using hzero
  | some window =>
    cases window with
    | nil => simpa [countSince] using hzero
    | cons t window =>
      simp only [decide_eq_false_iff_not, Nat.not_le, Option.getD_some, countSince,
        countP_eq_length_filter]

theorem emissionWindow_recordEmission (env : ServiceEnv F) (s : ServiceState F) (d : Decision F)
    (pair : String × String) :
    ServiceState.emissionWindow { s with emissionWindows := recordEmission env s.emissionWindows d.sub d.now } pair =
      if d.pair = pair then
        pruned env.deliveryBudgetPerWindow env.deliveryBudgetWindow d.now (s.emissionWindow d.pair ++ [d.now])
      else s.emissionWindow pair := by
  have hset : recordEmission env s.emissionWindows d.sub d.now =
      s.emissionWindows.set d.pair (pruned env.deliveryBudgetPerWindow env.deliveryBudgetWindow d.now
        (s.emissionWindow d.pair ++ [d.now])) := rfl
  rw [ServiceState.emissionWindow, hset, Dict.get?_set]
  split
  · rfl
  · rfl

/-- At each point of a run the windows count as all emissions would. -/
structure Counting (env : ServiceEnv F) (emitted : List ((String × String) × Int))
    (rest : List (Decision F)) (s : ServiceState F) : Prop where
  kept : ∀ pair, Kept env.deliveryBudgetPerWindow env.deliveryBudgetWindow (emissionsOf pair emitted)
    (s.emissionWindow pair)
  past : ∀ pair, ∀ t ∈ emissionsOf pair emitted, ∀ d ∈ rest, d.pair = pair → t ≤ d.now

theorem Counting.step {env : ServiceEnv F} (hbudget : 1 ≤ env.deliveryBudgetPerWindow)
    {emitted : List ((String × String) × Int)} {d : Decision F} {rest : List (Decision F)}
    {s : ServiceState F} (h : Counting env emitted (d :: rest) s)
    (hlater : ∀ e ∈ rest, d.pair = e.pair → d.now ≤ e.now) :
    Counting env (emitted ++ (storm env).out d s) rest ((storm env).step d s) := by
  have hpast : ∀ pair, ∀ t ∈ emissionsOf pair emitted, ∀ e ∈ rest, e.pair = pair → t ≤ e.now :=
    fun pair t ht e he => h.past pair t ht e (mem_cons_of_mem d he)
  cases hrecords : d.records env s with
  | false =>
    simp only [storm, hrecords, false_eq_true, if_false, append_nil]
    exact ⟨h.kept, hpast⟩
  | true =>
    simp only [storm, hrecords, if_true]
    rw [Decision.records, and_eq_true, not_eq_true',
      stormBudgetExceeded_eq_false_iff hbudget] at hrecords
    have hemitted : ∀ pair, emissionsOf pair (emitted ++ [(d.pair, d.now)]) =
        if d.pair = pair then emissionsOf pair emitted ++ [d.now] else emissionsOf pair emitted := by
      intro pair
      by_cases hpair : d.pair = pair <;> simp [emissionsOf, hpair]
    constructor
    · intro pair
      rw [hemitted, emissionWindow_recordEmission]
      by_cases hpair : d.pair = pair
      · subst hpair
        rw [if_pos rfl, if_pos rfl]
        exact (h.kept d.pair).emit (fun t ht => h.past d.pair t ht d (.head _) rfl) hrecords.2
      · rw [if_neg hpair, if_neg hpair]
        exact h.kept pair
    · intro pair t ht e he hpair
      rw [hemitted] at ht
      split at ht
      · next heq =>
        rcases mem_append.mp ht with ht | ht
        · exact hpast pair t ht e he hpair
        · rw [mem_singleton.mp ht]
          exact hlater e he (heq.trans hpair.symm)
      · exact hpast pair t ht e he hpair

/-! ## the service decides so -/

theorem emissionWindows_step (env : ServiceEnv F) (d : Decision F) {s s' : ServiceState F}
    (h : s.emissionWindows = s'.emissionWindows) :
    ((storm env).step d s).emissionWindows = ((storm env).step d s').emissionWindows := by
  have hexceeded : stormBudgetExceeded env s d.sub d.now = stormBudgetExceeded env s' d.sub d.now := by
    rw [stormBudgetExceeded, stormBudgetExceeded, h]
  have hrecords : d.records env s = d.records env s' := by
    rw [Decision.records, Decision.records, hexceeded]
  simp only [storm, hrecords]
  cases d.records env s' with
  | false => exact h
  | true => simp [h]

theorem finishSignal_storm (env : ServiceEnv F) (sub : ActiveSubscription F) (stage : Stage F)
    (alert : AlertSpec F) (call : Call F) (start : Start F) (ev : Evaluation F) (ownerEpoch : Int)
    (db : Db F) (s : ServiceState F) :
    ∃ emits, (finishSignal env sub stage alert call start ev ownerEpoch db s).2.emissionWindows =
      ((storm env).step ⟨sub, call.now, emits⟩ s).emissionWindows := by
  rw [finishSignal]
  by_cases hexceeded : ev.engine.emit && call.allowEmit && stormBudgetExceeded env s sub call.now
  · refine ⟨false, ?_⟩
    simp only [hexceeded, if_true]
    rfl
  · by_cases hcap : ev.engine.emit && call.allowEmit && alert.maxPerSession.any fun m => decide (m ≠ 0)
    · refine ⟨false, ?_⟩
      simp only [hexceeded, hcap, if_true]
      rfl
    · refine ⟨ev.engine.emit && call.allowEmit, ?_⟩
      have hwindows : ((storm env).step ⟨sub, call.now, ev.engine.emit && call.allowEmit⟩ s).emissionWindows =
          if ev.engine.emit && call.allowEmit then recordEmission env s.emissionWindows sub call.now
          else s.emissionWindows := by
        simp only [storm, Decision.records]
        cases hlive : ev.engine.emit && call.allowEmit with
        | false => rfl
        | true =>
          rw [hlive, Bool.true_and, not_eq_true] at hexceeded
          simp only [hexceeded, Bool.not_false, Bool.and_self, if_true]
      simp only [hexceeded, hcap, hwindows, if_false, false_eq_true]
      split <;> rfl

variable [PyFloat F]

theorem handleObservation_storm (env : ServiceEnv F) (sub : ActiveSubscription F) (call : Call F)
    (s : ServiceState F) :
    ∃ emits, (handleObservation env sub call s).2.emissionWindows =
      ((storm env).step ⟨sub, call.now, emits⟩ s).emissionWindows := by
  have hquiet : ∀ s' : ServiceState F, s'.emissionWindows = s.emissionWindows →
      ∃ emits, s'.emissionWindows = ((storm env).step ⟨sub, call.now, emits⟩ s).emissionWindows :=
    fun s' h => ⟨false, h⟩
  rw [handleObservation]
  split
  · exact hquiet s rfl
  · exact hquiet s rfl
  · split
    · split
      · rw [handleBreadth]
        split
        · exact hquiet s rfl
        · dsimp only
          split
          · exact hquiet s rfl
          · split
            · exact hquiet s rfl
            · split
              · exact hquiet s rfl
              · split
                · exact hquiet s rfl
                · exact hquiet _ rfl
      · rw [handleSignal]
        split
        · exact hquiet s rfl
        · dsimp only
          split
          · exact hquiet s rfl
          · split
            · exact hquiet _ rfl
            · exact finishSignal_storm ..
    · exact hquiet s rfl

theorem service_storm (env : ServiceEnv F) (reqs : List (Request F)) (s : ServiceState F) :
    ∃ ds : List (Decision F),
      ds.map (fun d => (d.sub, d.now)) = reqs.map (fun r => (r.sub, r.call.now)) ∧
        ((service env).run reqs s).emissionWindows = ((storm env).run ds s).emissionWindows := by
  have hcongr : ∀ (ds : List (Decision F)) (s s' : ServiceState F), s.emissionWindows = s'.emissionWindows →
      ((storm env).run ds s).emissionWindows = ((storm env).run ds s').emissionWindows := by
    intro ds
    induction ds with
    | nil => exact fun _ _ h => h
    | cons d ds ih => exact fun s s' h => ih _ _ (emissionWindows_step env d h)
  induction reqs generalizing s with
  | nil => exact ⟨[], rfl, rfl⟩
  | cons r reqs ih =>
    obtain ⟨emits, hstep⟩ := handleObservation_storm env r.sub r.call s
    obtain ⟨ds, hds, hrun⟩ := ih ((service env).step r s)
    refine ⟨⟨r.sub, r.call.now, emits⟩ :: ds, ?_, ?_⟩
    · rw [map_cons, map_cons, hds]
    · exact hrun.trans (hcongr ds _ _ hstep)

/-- A service that allows one emission a minute. -/
def stormEnv : ServiceEnv ℚ := { ownerId := "worker-1", deliveryBudgetPerWindow := 1 }

/-- Decisions at the start, after half a minute and after a minute and a second. -/
def stormDecisions : List (Decision ℚ) :=
  [0, 30, 61].map fun s =>
    { sub :=
        { id := "sub-1", revisionId := "rev-1", alertId := "breakout", stageId := "momentum",
          instrumentKey := "NSE:INFY", ownerId := "user-1", workflowId := "wf-1", document := .none }
      now := s * microsPerSecond, emits := true }

example : emissionsOf ("wf-1", "breakout") ((storm stormEnv).trace stormDecisions {}) = [0, 61000000] := by
  decide +kernel

end KiteAlgo
