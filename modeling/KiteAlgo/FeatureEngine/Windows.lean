import KiteAlgo.Lib.Newest
import KiteAlgo.FeatureEngine

/-!
# KiteAlgo.FeatureEngine.Windows

What a window holds after a run of declarations, live bars and history reads: the bars
with the greatest timestamps, in their order, as long as every bar is offered in time.
-/

namespace KiteAlgo

open List Option
variable {F : Type}

/-! ## the newest bars -/

/-- The bars with the `n` greatest of the offered timestamps, in increasing order, each in the
version that was offered last. -/
def newestBars (n : Nat) (offered : List (Bar F)) : List (Bar F) :=
  (newestKeys n (offered.map Bar.ts)).filterMap fun t =>
    offered.reverse.find? fun bar => decide (bar.ts = t)

/-- The bar is offered in time: later than all bars before it, or with one of the `n` greatest
of their timestamps. -/
def InTime (n : Nat) (past : List (Bar F)) (bar : Bar F) : Prop :=
  bar.ts ∈ newestKeys n (past.map Bar.ts) ∨ ∀ b ∈ past, b.ts < bar.ts

instance decidableBarInTime (n : Nat) (past : List (Bar F)) (bar : Bar F) :
    Decidable (InTime n past bar) :=
  inferInstanceAs (Decidable (_ ∨ _))

/-- The entries under which a window stores bars. -/
def barEntries (bars : List (Bar F)) : Dict Int (Bar F) := bars.map fun bar => (bar.ts, bar)

@[simp] theorem keys_barEntries (bars : List (Bar F)) :
    (barEntries bars).keys = bars.map Bar.ts := by
  simp [barEntries, Dict.keys]

theorem barEntries_append (bars more : List (Bar F)) :
    barEntries (bars ++ more) = barEntries bars ++ barEntries more := map_append

theorem barEntries_concat (bars : List (Bar F)) (bar : Bar F) :
    barEntries (bars ++ [bar]) = barEntries bars ++ [(bar.ts, bar)] := barEntries_append bars [bar]

theorem get?_reverse_barEntries (bars : List (Bar F)) (t : Int) :
    Dict.get? (barEntries bars).reverse t = bars.reverse.find? fun bar => decide (bar.ts = t) := by
  induction bars using reverseRecOn with
  | nil => rfl
  | append_singleton bars bar ih =>
    rw [barEntries_append, reverse_append, reverse_append]
    by_cases ht : bar.ts = t
    · simp [barEntries, ht]
    · simpa [barEntries, ht] using ih

theorem values_newest (n : Nat) (offered : List (Bar F)) :
    (Dict.newest n (barEntries offered)).values = newestBars n offered := by
  simp only [Dict.newest, Dict.values, List.map_filterMap, keys_barEntries, get?_reverse_barEntries,
    newestBars]
  refine List.filterMap_congr fun t _ => ?_
  rw [Option.map_map]
  exact Option.map_id'

variable {n : Nat} {offered : List (Bar F)}

theorem atEach_timely_iff :
    AtEach (Dict.Timely n) (barEntries offered) ↔ AtEach (InTime n) offered := by
  have hiff : ∀ (past : List (Bar F)) (bar : Bar F),
      Dict.Timely n (barEntries past) (bar.ts, bar) ↔ InTime n past bar := by
    intro past bar
    simp [Dict.Timely, InTime]
  induction offered using reverseRecOn with
  | nil => exact ⟨fun _ => atEach_nil, fun _ => atEach_nil⟩
  | append_singleton past bar ih =>
    rw [barEntries_concat, atEach_concat, atEach_concat]
    exact and_congr ih (hiff past bar)

theorem map_ts_newestBars (n : Nat) (offered : List (Bar F)) :
    (newestBars n offered).map Bar.ts = newestKeys n (offered.map Bar.ts) := by
  have hfind : ∀ t ∈ offered.map Bar.ts,
      ∃ bar, offered.reverse.find? (fun bar => decide (bar.ts = t)) = some bar ∧ bar.ts = t := by
    intro t ht
    obtain ⟨bar, hbar, hts⟩ := mem_map.mp ht
    obtain ⟨found, hfound⟩ := isSome_iff_exists.mp
      ((find?_isSome (p := fun bar : Bar F => decide (bar.ts = t))).mpr
        ⟨bar, mem_reverse.mpr hbar, decide_eq_true hts⟩)
    exact ⟨found, hfound, by simpa using find?_some hfound⟩
  have hkeys : ∀ ts : List Int, (∀ t ∈ ts, t ∈ offered.map Bar.ts) →
      (ts.filterMap fun t => offered.reverse.find? fun bar => decide (bar.ts = t)).map Bar.ts = ts := by
    intro ts hts
    induction ts with
    | nil => rfl
    | cons t ts ih =>
      obtain ⟨bar, hbar, rfl⟩ := hfind t (hts t (.head _))
      rw [filterMap_cons, hbar, map_cons, ih fun t' ht' => hts t' (.tail _ ht')]
  exact hkeys _ fun t ht => mem_of_mem_newestKeys ht

theorem ts_le_getLast_newestBars (hn : 0 < n) {last : Bar F}
    (h : (newestBars n offered).getLast? = some last) : ∀ bar ∈ offered, bar.ts ≤ last.ts := by
  intro bar hbar
  obtain ⟨t, ht, hle⟩ := exists_le_mem_newestKeys hn (mem_map_of_mem (f := Bar.ts) hbar)
  obtain ⟨front, hfront⟩ := getLast?_eq_some_iff.mp h
  have hsorted := pairwise_newestKeys n (offered.map Bar.ts)
  rw [← map_ts_newestBars, hfront, map_append] at ht hsorted
  rw [mem_append] at ht
  refine hle.trans (ht.elim (fun hmem => ?_) fun hmem => le_of_eq (by simpa using hmem))
  exact le_of_lt ((pairwise_append.mp hsorted).2.2 t hmem last.ts (by simp))

/-! ## runs -/

inductive FeatureCall (F : Type) [PyFloat F] where
  | declare (instrumentKey timeframe : String) (spec : FeatureSpec F)
  | onBar (instrumentKey timeframe : String) (obs : Observation F)
  | warm (instrumentKey timeframe : String) (history : Nat → Option (List (Observation F)))

variable [PyFloat F]

namespace FeatureEngine

/-- `FeatureEngine(max_window=maxWindow)`. -/
def ofMaxWindow (maxWindow : Nat) : FeatureEngine F :=
  { fresh with maxWindow := max 50 maxWindow, bound := le_max_left _ _ }

/-- The window of an instrument and a timeframe. -/
def windowAt (engine : FeatureEngine F) (key : WindowKey) : Window F :=
  (engine.windows.get? key).getD []

def after (compute : FeatureSpec F → List (Bar F) → Option F) :
    FeatureCall F → FeatureEngine F → FeatureEngine F
  | .declare instrumentKey timeframe spec, engine => engine.declare instrumentKey timeframe spec
  | .onBar instrumentKey timeframe obs, engine => (engine.onBar compute instrumentKey timeframe obs).2
  | .warm instrumentKey timeframe history, engine =>
    (engine.warm compute instrumentKey timeframe history).2

/-- The history `warm` puts into a window: none when it is full or the history cannot be read. -/
def historyRead (engine : FeatureEngine F) (key : WindowKey)
    (history : Nat → Option (List (Observation F))) : List (Observation F) :=
  if engine.maxWindow ≤ (engine.windowAt key).bars.length then []
  else (history engine.maxWindow).getD []

/-- The bars a call offers to a window: the live bar, or the history that is read. -/
def offers (key : WindowKey) : FeatureCall F → FeatureEngine F → List (Bar F)
  | .declare _ _ _, _ => []
  | .onBar instrumentKey timeframe obs, _ =>
    if (instrumentKey, timeframe) = key then [.ofObservation obs] else []
  | .warm instrumentKey timeframe history, engine =>
    if (instrumentKey, timeframe) = key then (engine.historyRead key history).map .ofObservation
    else []

/-- The engine, with the bars offered to one window. -/
def feed (compute : FeatureSpec F → List (Bar F) → Option F) (key : WindowKey) :
    Machine (FeatureCall F) (FeatureEngine F) (Bar F) where
  step := after compute
  out := offers key

variable {compute : FeatureSpec F → List (Bar F) → Option F}

@[simp] theorem maxWindow_recompute (engine : FeatureEngine F) (instrumentKey timeframe : String) :
    (engine.recompute compute instrumentKey timeframe).2.maxWindow = engine.maxWindow := by
  simp only [recompute]
  split
  · rfl
  · split <;> rfl

omit [PyFloat F] in
theorem foldl_upsert (maxWindow : Nat) (bars : List (Observation F)) (window : Window F) :
    bars.foldl (fun w obs => w.upsert maxWindow (.ofObservation obs)) window =
      Dict.offerAll maxWindow (barEntries (bars.map .ofObservation)) window := by
  rw [Dict.offerAll, barEntries, List.map_map, List.foldl_map]
  rfl

theorem windows_warm (engine : FeatureEngine F) (instrumentKey timeframe : String)
    (history : Nat → Option (List (Observation F))) :
    (engine.warm compute instrumentKey timeframe history).2.windows =
      engine.windows.set (instrumentKey, timeframe)
        (Dict.offerAll engine.maxWindow
          (barEntries ((engine.historyRead (instrumentKey, timeframe) history).map .ofObservation))
          (engine.windowAt (instrumentKey, timeframe))) := by
  simp only [warm, historyRead, ← windowAt.eq_1, ← foldl_upsert]
  split
  · rfl
  · cases history engine.maxWindow with
    | none => rfl
    | some bars =>
      rw [windows_recompute]
      exact Dict.set_set _ _ _ _

theorem maxWindow_warm (engine : FeatureEngine F) (instrumentKey timeframe : String)
    (history : Nat → Option (List (Observation F))) :
    (engine.warm compute instrumentKey timeframe history).2.maxWindow = engine.maxWindow := by
  simp only [warm]
  split
  · rfl
  · cases history engine.maxWindow with
    | none => rfl
    | some bars => exact maxWindow_recompute _ _ _

theorem windowAt_onBar (engine : FeatureEngine F) (key : WindowKey) (obs : Observation F) :
    (engine.onBar compute key.1 key.2 obs).2.windowAt key =
      (engine.windowAt key).upsert engine.maxWindow (.ofObservation obs) := by
  rw [windowAt, onBar, windows_recompute, Dict.get?_set_self]
  rfl

theorem results_onBar (engine : FeatureEngine F) (key : WindowKey) (obs : Observation F) :
    (engine.onBar compute key.1 key.2 obs).1 = (engine.declaredFor key).map fun e =>
      (e.1, compute e.2 ((engine.onBar compute key.1 key.2 obs).2.windowAt key).bars) := by
  rw [windowAt_onBar, onBar, recompute]
  simp only [Dict.get?_set_self]
  split
  · next hempty =>
      have hnone : engine.declaredFor key = [] := List.isEmpty_iff.mp hempty
      rw [hnone]
      rfl
  · rfl

variable (compute) in
theorem windowAt_after (key : WindowKey) (call : FeatureCall F) (engine : FeatureEngine F) :
    (after compute call engine).maxWindow = engine.maxWindow ∧ (after compute call engine).windowAt key =
        Dict.offerAll engine.maxWindow (barEntries (offers key call engine)) (engine.windowAt key) := by
  cases call with
  | declare instrumentKey timeframe spec => exact ⟨rfl, rfl⟩
  | onBar instrumentKey timeframe obs =>
    refine ⟨maxWindow_recompute _ _ _, ?_⟩
    simp only [after, onBar, windowAt, windows_recompute, offers, Dict.get?_set]
    split
    · next hkey => rw [hkey]; rfl
    · rfl
  | warm instrumentKey timeframe history =>
    refine ⟨maxWindow_warm _ _ _ _, ?_⟩
    rw [after, windowAt, windows_warm, offers, Dict.get?_set]
    split
    · next hkey => rw [hkey]; rfl
    · rfl

variable (compute) in
theorem windowAt_run (maxWindow : Nat) (key : WindowKey) (calls : List (FeatureCall F)) :
    ((feed compute key).run calls (ofMaxWindow maxWindow)).maxWindow = max 50 maxWindow ∧
      ((feed compute key).run calls (ofMaxWindow maxWindow)).windowAt key = Dict.offerAll (max 50 maxWindow)
          (barEntries ((feed compute key).trace calls (ofMaxWindow maxWindow))) [] := by
  have hall : (feed compute key).Along (fun _ _ _ => True) calls (ofMaxWindow maxWindow) :=
    Machine.Along.of_forall (fun _ _ => trivial) _
  have hempty : (ofMaxWindow maxWindow : FeatureEngine F).maxWindow = max 50 maxWindow ∧
      (ofMaxWindow maxWindow : FeatureEngine F).windowAt key =
        Dict.offerAll (max 50 maxWindow) (barEntries []) [] := ⟨rfl, rfl⟩
  refine Machine.history (I := fun bars _ (engine : FeatureEngine F) =>
    engine.maxWindow = max 50 maxWindow ∧
      engine.windowAt key = Dict.offerAll (max 50 maxWindow) (barEntries bars) []) ?_ hempty hall
  rintro past call rest engine ⟨hmax, hwindow⟩ -
  obtain ⟨hbound, hafter⟩ := windowAt_after compute key call engine
  refine ⟨hbound.trans hmax, ?_⟩
  have hoffer : ((feed compute key).step call engine).windowAt key = _ := hafter
  rw [hoffer, hmax, hwindow, barEntries_append, Dict.offerAll, Dict.offerAll, Dict.offerAll,
    foldl_append]
  rfl

theorem bars_run {maxWindow : Nat} {key : WindowKey} {calls : List (FeatureCall F)}
    (h : AtEach (InTime (max 50 maxWindow)) ((feed compute key).trace calls (ofMaxWindow maxWindow))) :
    (((feed compute key).run calls (ofMaxWindow maxWindow)).windowAt key).bars =
      newestBars (max 50 maxWindow) ((feed compute key).trace calls (ofMaxWindow maxWindow)) := by
  rw [(windowAt_run compute maxWindow key calls).2,
    Dict.offerAll_eq_newest (by omega) (atEach_timely_iff.mpr h)]
  exact values_newest _ _

/-- In a run that offers every bar in time the window holds the newest of them in the order of
time, the field snapshot reads the last of these, no bar offered is newer, and the next live
bar in time has the features computed over the newest bars. -/
theorem bars_eq_newestBars (compute : FeatureSpec F → List (Bar F) → Option F) (maxWindow : Nat)
    (key : WindowKey) (calls : List (FeatureCall F))
    (h : AtEach (InTime (max 50 maxWindow)) ((feed compute key).trace calls (ofMaxWindow maxWindow))) :
    let engine := (feed compute key).run calls (ofMaxWindow maxWindow)
    let offered := (feed compute key).trace calls (ofMaxWindow maxWindow)
    let newest := newestBars (max 50 maxWindow) offered
    (engine.windowAt key).bars = newest ∧ (newest.map Bar.ts).Pairwise (· < ·) ∧ (∀ f ∈ completedFields,
        numberAt (engine.fieldSnapshot key.1 key.2) (fieldFeature (Named.name f)) =
          (newest.getLast?.bind fun bar => bar.field f).filter PyFloat.isFinite) ∧
      (∀ last, newest.getLast? = some last → ∀ bar ∈ offered, bar.ts ≤ last.ts) ∧
      ∀ obs, InTime (max 50 maxWindow) offered (.ofObservation obs) →
        (engine.onBar compute key.1 key.2 obs).1 = (engine.declaredFor key).map fun e =>
          (e.1, compute e.2 (newestBars (max 50 maxWindow) (offered ++ [.ofObservation obs]))) := by
  intro engine offered newest
  have hbars : (engine.windowAt key).bars = newest := bars_run h
  refine ⟨hbars, ?_, fun f hf => ?_, fun last hlast => ?_, fun obs hobs => ?_⟩
  · rw [map_ts_newestBars]
    exact pairwise_newestKeys _ _
  · rw [numberAt_fieldSnapshot _ _ _ hf, latestField, ← hbars, latestBar, windowAt]
    cases engine.windows.get? key <;> rfl
  · exact ts_le_getLast_newestBars (by omega) hlast
  · have htrace : (feed compute key).trace (calls ++ [.onBar key.1 key.2 obs])
        (ofMaxWindow maxWindow) = offered ++ [.ofObservation obs] := by
      rw [Machine.trace_append]
      simp [Machine.trace, feed, offers, offered]
    have hlater : AtEach (InTime (max 50 maxWindow)) ((feed compute key).trace
        (calls ++ [.onBar key.1 key.2 obs]) (ofMaxWindow maxWindow)) := by
      rw [htrace]
      exact atEach_concat.mpr ⟨h, hobs⟩
    have hnext := bars_run hlater
    rw [htrace, Machine.run_append] at hnext
    rw [results_onBar]
    exact congrArg (fun bars => (engine.declaredFor key).map fun e => (e.1, compute e.2 bars)) hnext

/-- A daily bar that closes at `close`. -/
def dailyBar (ts : Int) (close : ℚ) : Observation ℚ := { ts := ts, epochId := "", close := some close }

/-- The bars come in one after another, one of them corrected. -/
theorem daily_bars_newest :
    (((feed (fun _ _ => none) ("NSE:INFY", "1d")).run
      [.onBar "NSE:INFY" "1d" (dailyBar 1 10), .onBar "NSE:INFY" "1d" (dailyBar 2 20),
       .warm "NSE:INFY" "1d" (fun _ => some [dailyBar 1 11])]
      (ofMaxWindow 400)).windowAt ("NSE:INFY", "1d")).bars =
      [.ofObservation (dailyBar 1 11), .ofObservation (dailyBar 2 20)] :=
  (bars_eq_newestBars (fun _ _ => none) 400 ("NSE:INFY", "1d")
    [.onBar "NSE:INFY" "1d" (dailyBar 1 10), .onBar "NSE:INFY" "1d" (dailyBar 2 20),
     .warm "NSE:INFY" "1d" (fun _ => some [dailyBar 1 11])] (by decide +kernel)).1.trans
    (by decide +kernel)

/-- A history that reaches behind the live bars is appended after them: the latest bar of the
window is then the older one. -/
theorem older_history_comes_last :
    ¬ ∀ calls : List (FeatureCall ℚ),
      (((feed (fun _ _ => none) ("NSE:INFY", "1d")).run calls
        (ofMaxWindow 400)).windowAt ("NSE:INFY", "1d")).bars =
        newestBars 400 ((feed (fun _ _ => none) ("NSE:INFY", "1d")).trace calls (ofMaxWindow 400)) := by
  intro h
  have hrun := h
    [.onBar "NSE:INFY" "1d" (dailyBar 2 20), .warm "NSE:INFY" "1d" (fun _ => some [dailyBar 1 10])]
  revert hrun
  decide +kernel

end FeatureEngine

end KiteAlgo
