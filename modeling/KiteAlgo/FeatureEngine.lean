import KiteAlgo.Planner

/-!
# KiteAlgo.FeatureEngine

The shared feature engine (`workflows/feature_engine.py`): one bounded window of
completed bars per instrument and timeframe, the features declared for it, and their
latest values.

`_compute`, which turns a window into one number, is a parameter.  A window is a
dictionary from timestamps to bars in the order the bars came in.
-/

namespace KiteAlgo

open List
/-! ## windows -/

structure Bar (F : Type) where
  ts : Int
  open_ : Option F := none
  high : Option F := none
  low : Option F := none
  close : Option F := none
  volume : Option F := none
  deriving DecidableEq

variable {F : Type}

def Bar.ofObservation (obs : Observation F) : Bar F :=
  { ts := obs.ts, open_ := obs.open_, high := obs.high, low := obs.low, close := obs.close,
    volume := obs.volume }

/-- `bar.get(name)`. -/
def Bar.field (bar : Bar F) : BarField → Option F
  | .ltp => none
  | .open_ => bar.open_
  | .high => bar.high
  | .low => bar.low
  | .close => bar.close
  | .volume => bar.volume

def completedFields : List BarField := [.open_, .high, .low, .close, .volume]

/-- `_Window`: bars by timestamp, in the order they came in. -/
abbrev Window (F : Type) := Dict Int (Bar F)

/-- `_Window.upsert`: a known timestamp is corrected in place, a new one is appended
and the oldest bars make room. -/
def Window.upsert (maxWindow : Nat) (window : Window F) (bar : Bar F) : Window F :=
  if window.contains bar.ts then window.set bar.ts bar
  else
    let grown := window ++ [(bar.ts, bar)]
    grown.drop (grown.length - maxWindow)

def Window.bars (window : Window F) : List (Bar F) := window.values

/-! ## the engine -/

abbrev WindowKey := String × String

/-- `FeatureEngine`.  The constructor keeps at least 50 bars; features are declared,
and their values stored, under their ids. -/
structure FeatureEngine (F : Type) [PyFloat F] where
  maxWindow : Nat := 400
  windows : Dict WindowKey (Window F) := []
  specs : Dict WindowKey (Dict String (FeatureSpec F)) := []
  latest : Dict WindowKey (Dict String (Option F)) := []
  bound : 50 ≤ maxWindow := by decide
  declared : ∀ key table, specs.get? key = some table → ∀ e ∈ table, e.1 = e.2.featureId := by simp
  computed : ∀ key values, latest.get? key = some values →
    ∀ e ∈ values, ∃ spec : FeatureSpec F, e.1 = spec.featureId := by simp

variable [PyFloat F]

namespace FeatureEngine

/-- The engine of a worker that has just started. -/
def fresh : FeatureEngine F := {}

def declaredFor (engine : FeatureEngine F) (key : WindowKey) : Dict String (FeatureSpec F) :=
  (engine.specs.get? key).getD []

theorem id_of_mem_declaredFor {engine : FeatureEngine F} {key : WindowKey}
    {e : String × FeatureSpec F} (h : e ∈ engine.declaredFor key) : e.1 = e.2.featureId := by
  unfold declaredFor at h
  cases htable : engine.specs.get? key with
  | none => simp [htable] at h
  | some table => exact engine.declared key table htable e (by simpa [htable] using h)

def declare (engine : FeatureEngine F) (instrumentKey timeframe : String) (spec : FeatureSpec F) :
    FeatureEngine F :=
  let key := (instrumentKey, timeframe)
  { engine with
    specs := engine.specs.set key ((engine.declaredFor key).set spec.featureId spec)
    declared := by
      intro key' table htable e he
      rw [Dict.get?_set] at htable
      split at htable
      · obtain rfl := Option.some.inj htable
        rcases Dict.mem_set he with rfl | he
        · rfl
        · exact id_of_mem_declaredFor he
      · exact engine.declared key' table htable e he }

def results (compute : FeatureSpec F → List (Bar F) → Option F) (engine : FeatureEngine F)
    (key : WindowKey) (window : Window F) : Dict String (Option F) :=
  (engine.declaredFor key).map fun e => (e.1, compute e.2 window.bars)

/-- `_recompute`: every declared feature once; nothing without declarations or
without a window. -/
def recompute (compute : FeatureSpec F → List (Bar F) → Option F) (engine : FeatureEngine F)
    (instrumentKey timeframe : String) : Dict String (Option F) × FeatureEngine F :=
  let key := (instrumentKey, timeframe)
  match engine.windows.get? key with
  | none => ([], engine)
  | some window =>
    if (engine.declaredFor key).isEmpty then ([], engine)
    else
      (engine.results compute key window, { engine with
         latest := engine.latest.set key (engine.results compute key window)
         computed := by
           intro key' values hvalues e he
           rw [Dict.get?_set] at hvalues
           split at hvalues
           · obtain rfl := Option.some.inj hvalues
             obtain ⟨entry, hentry, rfl⟩ := List.mem_map.mp he
             exact ⟨entry.2, id_of_mem_declaredFor hentry⟩
           · exact engine.computed key' values hvalues e he })

def onBar (compute : FeatureSpec F → List (Bar F) → Option F) (engine : FeatureEngine F)
    (instrumentKey timeframe : String) (obs : Observation F) :
    Dict String (Option F) × FeatureEngine F :=
  let key := (instrumentKey, timeframe)
  let window := (engine.windows.get? key).getD []
  let engine :=
    { engine with
      windows := engine.windows.set key (window.upsert engine.maxWindow (.ofObservation obs)) }
  engine.recompute compute instrumentKey timeframe

/-- The windows `release` drops: those of an instrument, or one of them. -/
def doomed (engine : FeatureEngine F) (instrumentKey : String) (timeframe : Option String)
    (key : WindowKey) : Bool :=
  engine.windows.contains key && decide (key.1 = instrumentKey) &&
    (timeframe.isNone || decide (timeframe = some key.2))

/-- `release`: declarations and values go with the window. -/
def release (engine : FeatureEngine F) (instrumentKey : String) (timeframe : Option String) :
    FeatureEngine F :=
  let kept := fun key => !engine.doomed instrumentKey timeframe key
  { engine with
    windows := engine.windows.filter fun e => kept e.1
    specs := engine.specs.filter fun e => kept e.1
    latest := engine.latest.filter fun e => kept e.1
    declared := by
      intro key table htable
      rw [Dict.get?_filterKeys kept] at htable
      split at htable
      · exact engine.declared key table htable
      · cases htable
    computed := by
      intro key values hvalues
      rw [Dict.get?_filterKeys kept] at hvalues
      split at hvalues
      · exact engine.computed key values hvalues
      · cases hvalues }

/-- `warm`: a window that is not full takes the bars of the history, if it can be read. -/
def warm (compute : FeatureSpec F → List (Bar F) → Option F) (engine : FeatureEngine F)
    (instrumentKey timeframe : String) (history : Nat → Option (List (Observation F))) :
    Nat × FeatureEngine F :=
  let key := (instrumentKey, timeframe)
  let window := (engine.windows.get? key).getD []
  let engine := { engine with windows := engine.windows.set key window }
  if engine.maxWindow ≤ window.bars.length then (0, engine)
  else
    match history engine.maxWindow with
    | none => (0, engine)
    | some bars =>
      let filled := bars.foldl (fun w obs => w.upsert engine.maxWindow (.ofObservation obs)) window
      let engine := { engine with windows := engine.windows.set key filled }
      (bars.length, (engine.recompute compute instrumentKey timeframe).2)

/-- A table of feature values as the evaluator receives it. -/
def toValues (values : Dict String (Option F)) : Values F := values.map fun e => (e.1, optFloat e.2)

def snapshot (engine : FeatureEngine F) (instrumentKey timeframe : String) : Values F :=
  toValues ((engine.latest.get? (instrumentKey, timeframe)).getD [])

def latestBar (engine : FeatureEngine F) (instrumentKey timeframe : String) : Option (Bar F) :=
  (engine.windows.get? (instrumentKey, timeframe)).bind fun window => window.bars.getLast?

/-- `field_snapshot`: the fields of the latest completed bar. -/
def fieldSnapshot (engine : FeatureEngine F) (instrumentKey timeframe : String) : Values F :=
  match engine.latestBar instrumentKey timeframe with
  | none => []
  | some bar => completedFields.map fun f =>
    (fieldFeature (Named.name f), optFloat ((bar.field f).filter PyFloat.isFinite))

/-! ## lookups -/

/-- The number a snapshot holds for a feature; an unknown feature and an unknown
value are the same. -/
def value (engine : FeatureEngine F) (instrumentKey timeframe featureId : String) : Option F :=
  (((engine.latest.get? (instrumentKey, timeframe)).getD []).get? featureId).join

omit [PyFloat F] in
theorem get?_toValues (values : Dict String (Option F)) (name : String) :
    (toValues values).get? name = (values.get? name).map optFloat := by
  induction values with
  | nil => rfl
  | cons e values ih =>
    obtain ⟨k, v⟩ := e
    by_cases hk : k = name
    · simp [toValues, hk]
    · have ih' : Dict.get? (values.map fun e => (e.1, optFloat e.2)) name =
        (Dict.get? values name).map optFloat := ih
      simp [toValues, hk, ih']

theorem toFloat?_optFloat (v : Option F) : (optFloat v : PyVal F).toFloat? = v := by
  cases v <;> rfl

theorem numberAt_snapshot (engine : FeatureEngine F) (instrumentKey timeframe name : String) :
    numberAt (engine.snapshot instrumentKey timeframe) name =
      engine.value instrumentKey timeframe name := by
  rw [numberAt, snapshot, get?_toValues, value]
  cases Dict.get? ((engine.latest.get? (instrumentKey, timeframe)).getD []) name with
  | none => rfl
  | some v => exact toFloat?_optFloat v

/-- The field as the latest completed bar has it. -/
def latestField (engine : FeatureEngine F) (instrumentKey timeframe : String) (f : BarField) :
    Option F :=
  (engine.latestBar instrumentKey timeframe).bind fun bar => bar.field f

theorem fieldFeature_inj {a b : String} (h : fieldFeature a = fieldFeature b) : a = b := by
  have hlist := congrArg String.toList h
  simp only [fieldFeature, String.toList_append] at hlist
  exact String.toList_inj.mp (append_cancel_left hlist)

theorem numberAt_fieldSnapshot (engine : FeatureEngine F) (instrumentKey timeframe : String)
    {f : BarField} (hf : f ∈ completedFields) :
    numberAt (engine.fieldSnapshot instrumentKey timeframe) (fieldFeature (Named.name f)) =
      (engine.latestField instrumentKey timeframe f).filter PyFloat.isFinite := by
  rw [numberAt, fieldSnapshot, latestField]
  cases engine.latestBar instrumentKey timeframe with
  | none => rfl
  | some bar =>
    have hget := Dict.get?_map_of_mem (fun f : BarField => fieldFeature (Named.name f))
      (fun f => (optFloat ((bar.field f).filter PyFloat.isFinite) : PyVal F))
      (fun f' h => Named.name_inj (fieldFeature_inj h)) hf
    simp only [hget, Option.bind_some]
    exact toFloat?_optFloat _

theorem featureId_ne_fieldFeature (spec : FeatureSpec F) (f : BarField) :
    spec.featureId ≠ fieldFeature (Named.name f) := by
  intro h
  have hbrace : '\x7b' ∈ spec.featureId.toList := by
    simp [FeatureSpec.featureId, featureFeatureId, PyVal.jsonDumps]
  rw [h] at hbrace
  cases f <;> revert hbrace <;> decide

theorem get?_snapshot_fieldFeature (engine : FeatureEngine F) (instrumentKey timeframe : String)
    (f : BarField) :
    (engine.snapshot instrumentKey timeframe).get? (fieldFeature (Named.name f)) = none := by
  rw [snapshot, get?_toValues, Option.map_eq_none_iff, Dict.get?_eq_none_iff]
  cases hvalues : engine.latest.get? (instrumentKey, timeframe) with
  | none => simp [Dict.keys]
  | some values =>
    intro hmem
    obtain ⟨e, he, hkey⟩ := mem_map.mp hmem
    obtain ⟨spec, hspec⟩ := engine.computed _ values hvalues e he
    exact featureId_ne_fieldFeature spec f (hspec.symm.trans hkey)

theorem nodup_keys_fieldSnapshot (engine : FeatureEngine F) (instrumentKey timeframe : String) :
    (engine.fieldSnapshot instrumentKey timeframe).keys.Nodup := by
  unfold fieldSnapshot
  cases engine.latestBar instrumentKey timeframe with
  | none => exact nodup_nil
  | some bar =>
    have hnodup : (completedFields.map fun f => fieldFeature (Named.name f)).Nodup := by decide
    simpa [Dict.keys, Function.comp_def] using hnodup

omit [PyFloat F] in
theorem upsert_ne_nil {maxWindow : Nat} (hmax : 0 < maxWindow) (window : Window F) (bar : Bar F) :
    window.upsert maxWindow bar ≠ [] := by
  unfold Window.upsert
  split
  · intro hempty
    have hget := Dict.get?_set_self window bar.ts bar
    simp [hempty] at hget
  · intro hempty
    have hlength := congrArg length hempty
    simp at hlength
    omega

@[simp] theorem windows_recompute (compute : FeatureSpec F → List (Bar F) → Option F)
    (engine : FeatureEngine F) (instrumentKey timeframe : String) :
    (engine.recompute compute instrumentKey timeframe).2.windows = engine.windows := by
  simp only [recompute]
  split
  · rfl
  · split <;> rfl

theorem latestBar_onBar (compute : FeatureSpec F → List (Bar F) → Option F)
    (engine : FeatureEngine F) (instrumentKey timeframe : String) (obs : Observation F) :
    ∃ bar, (engine.onBar compute instrumentKey timeframe obs).2.latestBar instrumentKey timeframe =
      some bar := by
  have hne := upsert_ne_nil (Nat.lt_of_lt_of_le (by decide : 0 < 50) engine.bound)
    ((engine.windows.get? (instrumentKey, timeframe)).getD []) (.ofObservation obs)
  rw [latestBar, onBar, windows_recompute, Dict.get?_set_self]
  have hbars : Window.bars (Window.upsert engine.maxWindow
      ((engine.windows.get? (instrumentKey, timeframe)).getD []) (.ofObservation obs)) ≠ [] := by
    simpa [Window.bars, Dict.values] using hne
  exact ⟨_, getLast?_eq_some_getLast hbars⟩

end FeatureEngine

end KiteAlgo
