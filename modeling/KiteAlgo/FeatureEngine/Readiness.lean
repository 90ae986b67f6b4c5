import KiteAlgo.FeatureEngine.Needs
import KiteAlgo.FeatureEngine.Windows

/-!
# KiteAlgo.FeatureEngine.Readiness

Whether an accepted feature ever has a number: when the bars it needs and its offset fit
into the window.
-/

namespace KiteAlgo

open List Dict
namespace FeatureEngine

open Features

/-! ## a feature over a history -/

section History

variable {F : Type} [PyFloat F] (compute : FeatureSpec F → List (Bar F) → Option F) (key : WindowKey)
  (spec : FeatureSpec F)

/-- A new engine with one declared feature after live bars. -/
def afterBars (history : List (Observation F)) : FeatureEngine F :=
  history.foldl (fun engine obs => (engine.onBar compute key.1 key.2 obs).2)
    ((fresh : FeatureEngine F).declare key.1 key.2 spec)

variable {compute key spec}

theorem afterBars_concat (history : List (Observation F)) (obs : Observation F) :
    afterBars compute key spec (history ++ [obs]) =
      ((afterBars compute key spec history).onBar compute key.1 key.2 obs).2 := by
  rw [afterBars, foldl_append]
  rfl

@[simp] theorem specs_recompute (engine : FeatureEngine F) (instrumentKey timeframe : String) :
    (engine.recompute compute instrumentKey timeframe).2.specs = engine.specs := by
  simp only [recompute]
  split
  · rfl
  · split <;> rfl

variable (compute key spec) in
theorem windowAt_afterBars (history : List (Observation F)) :
    (afterBars compute key spec history).maxWindow = 400 ∧
      (afterBars compute key spec history).declaredFor key = [(spec.featureId, spec)] ∧
      (afterBars compute key spec history).windowAt key =
        Dict.offerAll 400 (barEntries (history.map .ofObservation)) [] := by
  induction history using reverseRecOn with
  | nil => exact ⟨rfl, by simp [afterBars, declaredFor, declare, fresh, Dict.set], rfl⟩
  | append_singleton history obs ih =>
    obtain ⟨hmax, hspecs, hwindow⟩ := ih
    rw [afterBars_concat]
    refine ⟨(maxWindow_recompute _ _ _).trans hmax, ?_, ?_⟩
    · rw [declaredFor, onBar, specs_recompute]
      exact hspecs
    · rw [windowAt_onBar, hmax, hwindow, map_append, map_singleton, barEntries_concat]
      exact (Dict.offerAll_concat _ _ (_, Bar.ofObservation obs) []).symm

theorem latest_onBar {engine : FeatureEngine F} (hdeclared : engine.declaredFor key ≠ [])
    (obs : Observation F) :
    (engine.onBar compute key.1 key.2 obs).2.latest.get? key =
      some (engine.onBar compute key.1 key.2 obs).1 := by
  have hempty : (engine.declaredFor key).isEmpty = false := by
    cases hs : engine.declaredFor key with
    | nil => exact absurd hs hdeclared
    | cons e es => rfl
  rw [onBar, recompute]
  simp only [get?_set_self]
  split
  · next hnone => exact absurd (hempty.symm.trans hnone) Bool.false_ne_true
  · exact get?_set_self _ _ _

theorem value_afterBars (history : List (Observation F)) (obs : Observation F) :
    (afterBars compute key spec (history ++ [obs])).value key.1 key.2 spec.featureId =
      compute spec ((afterBars compute key spec (history ++ [obs])).windowAt key).bars := by
  obtain ⟨-, hspecs, -⟩ := windowAt_afterBars compute key spec history
  have hdeclared : (afterBars compute key spec history).declaredFor key ≠ [] := by simp [hspecs]
  rw [afterBars_concat, value, latest_onBar hdeclared, results_onBar, hspecs]
  simp

end History

/-! ## complete histories -/

variable {f : FeatureFunction} {source : Option FieldName} {spec : FeatureSpec ℚ} {key : WindowKey}

/-- An observation with all the numbers the indicators read, and a positive volume. -/
def CompleteHistory (history : List (Observation ℚ)) : Prop :=
  ∀ obs ∈ history, Complete (.ofObservation obs)

variable {history : List (Observation ℚ)}

theorem complete_windowAt (h : CompleteHistory history) :
    ∀ bar ∈ ((afterBars compute key spec history).windowAt key).bars, Complete bar := by
  intro bar hbar
  rw [(windowAt_afterBars _ _ _ history).2.2] at hbar
  obtain ⟨e, he, rfl⟩ := mem_map.mp hbar
  obtain ⟨b, hb, rfl⟩ := mem_map.mp (mem_of_mem_offerAll he)
  obtain ⟨obs, hobs, rfl⟩ := mem_map.mp hb
  exact h obs hobs

theorem length_windowAt (history : List (Observation ℚ)) :
    ((afterBars compute key spec history).windowAt key).bars.length =
      (offerAll 400 (barEntries (history.map .ofObservation)) []).length := by
  rw [(windowAt_afterBars _ _ _ history).2.2]
  exact length_map _

theorem value_ne_none_iff (hadmitted : Admitted f source spec) {obs : Observation ℚ}
    (h : CompleteHistory (history ++ [obs])) :
    (afterBars compute key spec (history ++ [obs])).value key.1 key.2 spec.featureId ≠ none ↔
      ∃ need, neededBars f spec = some need ∧ need + spec.offset.toNat ≤
        ((afterBars compute key spec (history ++ [obs])).windowAt key).bars.length := by
  rw [value_afterBars, ← Option.isSome_iff_ne_none]
  exact isSome_compute hadmitted (complete_windowAt h)

def barOfOnes (ts : Int) : Observation ℚ :=
  { ts, epochId := "", high := some 1, low := some 1, close := some 1, volume := some 1 }

theorem complete_barOfOnes (ts : Int) : Complete (.ofObservation (barOfOnes ts)) :=
  ⟨rfl, rfl, rfl, 1, rfl, by norm_num⟩

/-- The feature has a number once enough complete bars with different timestamps came in. -/
def BecomesKnown (key : WindowKey) (spec : FeatureSpec ℚ) : Prop :=
  ∃ count, ∀ history : List (Observation ℚ), CompleteHistory history →
    count ≤ (history.map Observation.ts).dedup.length →
      (afterBars compute key spec history).value key.1 key.2 spec.featureId ≠ none

theorem fits_of_becomesKnown (hadmitted : Admitted f source spec) (h : BecomesKnown key spec) :
    ∃ need, neededBars f spec = some need ∧ need + spec.offset.toNat ≤ 400 := by
  obtain ⟨count, h⟩ := h
  let history := (range count).map fun i : Nat => barOfOnes i
  have hcomplete : CompleteHistory (history ++ [barOfOnes count]) := by
    intro obs hobs
    rw [mem_append, mem_singleton, mem_map] at hobs
    rcases hobs with ⟨i, -, rfl⟩ | rfl
    · exact complete_barOfOnes i
    · exact complete_barOfOnes count
  have htimes : (history ++ [barOfOnes count]).map Observation.ts =
      (range (count + 1)).map fun i : Nat => (i : Int) := by
    simp [history, range_succ, barOfOnes, Function.comp_def]
  have hcount : count ≤ ((history ++ [barOfOnes count]).map Observation.ts).dedup.length := by
    rw [htimes, (nodup_range.map fun i j hij => Int.ofNat_inj.mp hij).dedup, length_map,
      length_range]
    exact Nat.le_succ count
  obtain ⟨need, hneed, hle⟩ :=
    (value_ne_none_iff hadmitted hcomplete).mp (h (history ++ [barOfOnes count]) hcomplete hcount)
  rw [length_windowAt] at hle
  exact ⟨need, hneed, hle.trans (full_offerAll 400 _).1⟩

/-- `sma(period)` of the closes. -/
def smaOperand (period : Int) : Operand ℚ :=
  { kind := .indicator, name := some "sma", params := [(Key.str "period", .int period)] }

theorem admitted_smaOperand {period : Int}
    (h : (Compile.validateNamedIndicator (smaOperand period) "sma" "left").passes) :
    Admitted .sma none (inlineSpec (smaOperand period) "sma") := by
  have hkeys : (smaOperand period).params.keys.Nodup := nodup_singleton _
  exact .inline rfl hkeys h

end FeatureEngine

end KiteAlgo
