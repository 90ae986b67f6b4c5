import KiteAlgo.Bindings.Replacement
import KiteAlgo.Planner.Spec
import KiteAlgo.Service
import Mathlib

/-!
# KiteAlgo.Dispatch

How the worker hands a completed bar to the service (`workflows/runtime.py`): the bar
goes into its feature window, and `_plan_dispatch` turns the plan of the subscription
into the features of its stage and of each of its layers.

Feature ids do not name a timeframe.  The stage's features are merged over all
timeframes of the plan, the first timeframe in sorted order winning, and a field
operand is looked up in the observation first; the two theorems at the end say
exactly when an operand nevertheless gets the value of its own timeframe.
-/

namespace KiteAlgo

open Compile Dict
variable {F : Type} [PyFloat F]

/-! ## the model -/

def SubscriptionPlan.hasFeatures (plan : SubscriptionPlan F) : Bool :=
  !plan.specs.isEmpty || !plan.featureTimeframes.isEmpty

/-- The snapshots of the plan's timeframes; the first value of a name stays. -/
def mergedTimeframes (engine : FeatureEngine F) (instrumentKey : String) (timeframes : List String) :
    Values F :=
  timeframes.foldl (fun merged timeframe =>
    (merged.mergeDefaults (engine.snapshot instrumentKey timeframe)).mergeDefaults
      (engine.fieldSnapshot instrumentKey timeframe)) []

/-- A stage reference reads the referenced stage's own snapshot. -/
def addAlias (engine : FeatureEngine F) (instrumentKey : String) (merged : Values F)
    (entry : String × String × String) : Values F :=
  match engine.value instrumentKey entry.2.1 entry.2.2 with
  | some v => merged.setDefault entry.1 (.float v)
  | none => merged

/-- The features of the subscription's own stage. -/
def mergedFeatures (engine : FeatureEngine F) (plan : SubscriptionPlan F) (instrumentKey : String) :
    Values F :=
  plan.stageAliases.foldl (addAlias engine instrumentKey)
    (mergedTimeframes engine instrumentKey plan.featureTimeframes)

/-- The features of a layer: its own snapshot, and the fields of its latest bar. -/
def layerFeatures (engine : FeatureEngine F) (instrumentKey timeframe : String) : Values F :=
  (engine.snapshot instrumentKey timeframe).update (engine.fieldSnapshot instrumentKey timeframe)

def planDispatch (engine : FeatureEngine F) (plan : SubscriptionPlan F) (instrumentKey : String) :
    Option (Values F) × Option (List (Stage F × Option (Values F))) :=
  if plan.hasFeatures then
    let merged := mergedFeatures engine plan instrumentKey
    let layers := plan.layers.map fun layer =>
      (layer.1, (layer.2.filter fun t => t ≠ "").map (layerFeatures engine instrumentKey))
    (if merged.isEmpty then none else some merged, if layers.isEmpty then none else some layers)
  else (none, none)

/-- One completed bar of a dispatch timeframe: the window is updated first, and the
plan's features fall back to the snapshot just computed.  Absent features count as
none. -/
def pollCandle (compute : FeatureSpec F → List (Bar F) → Option F) (plan : SubscriptionPlan F)
    (instrumentKey timeframe : String) (engine : FeatureEngine F) (call : Call F) :
    FeatureEngine F × Call F :=
  let updated := engine.onBar compute instrumentKey timeframe call.obs
  let dispatch := planDispatch updated.2 plan instrumentKey
  (updated.2, { call with
     features := dispatch.1.getD (FeatureEngine.toValues updated.1)
     layers := (dispatch.2.getD []).map fun layer => (layer.1, layer.2.getD []) })

theorem get?_mergedTimeframes (engine : FeatureEngine F) (instrumentKey : String)
    (timeframes : List String) (name : String) :
    (mergedTimeframes engine instrumentKey timeframes).get? name = timeframes.findSome? fun timeframe =>
        ((engine.snapshot instrumentKey timeframe).get? name).or
          ((engine.fieldSnapshot instrumentKey timeframe).get? name) := by
  have hloop : ∀ (timeframes : List String) (merged : Values F),
      (timeframes.foldl (fun merged timeframe =>
        (merged.mergeDefaults (engine.snapshot instrumentKey timeframe)).mergeDefaults
          (engine.fieldSnapshot instrumentKey timeframe)) merged).get? name =
        (merged.get? name).or (timeframes.findSome? fun timeframe =>
          ((engine.snapshot instrumentKey timeframe).get? name).or
            ((engine.fieldSnapshot instrumentKey timeframe).get? name)) := by
    intro timeframes
    induction timeframes with
    | nil => intro merged; simp
    | cons timeframe timeframes ih =>
      intro merged
      rw [List.foldl_cons, ih, get?_mergeDefaults, get?_mergeDefaults, List.findSome?_cons]
      cases merged.get? name with
      | some v => rfl
      | none =>
        simp only [Option.none_or]
        generalize ((engine.snapshot instrumentKey timeframe).get? name).or
          ((engine.fieldSnapshot instrumentKey timeframe).get? name) = found
        cases found <;> rfl
  exact hloop timeframes []

variable {engine : FeatureEngine F} {instrumentKey name : String}

theorem get?_addAliases {aliases : List (String × String × String)}
    (hname : ∀ a ∈ aliases, a.1 ≠ name) (merged : Values F) :
    (aliases.foldl (addAlias engine instrumentKey) merged).get? name = merged.get? name := by
  induction aliases generalizing merged with
  | nil => rfl
  | cons a aliases ih =>
    rw [List.foldl_cons, ih fun b hb => hname b (List.mem_cons_of_mem a hb)]
    unfold addAlias
    split
    · rw [get?_setDefault, if_neg (hname a List.mem_cons_self)]
    · rfl

theorem get?_fieldSnapshot_featureId (engine : FeatureEngine F) (instrumentKey timeframe : String)
    (spec : FeatureSpec F) :
    (engine.fieldSnapshot instrumentKey timeframe).get? spec.featureId = none := by
  rw [get?_eq_none_iff]
  unfold FeatureEngine.fieldSnapshot
  cases engine.latestBar instrumentKey timeframe with
  | none => simp [keys]
  | some bar =>
    simp only [keys, List.map_map, List.mem_map, not_exists, not_and]
    intro f _ h
    exact FeatureEngine.featureId_ne_fieldFeature spec f h.symm

variable {spec : FeatureSpec F}

theorem featureId_ne_alias {function : FeatureFunction}
    (hfunction : Named.name function = spec.function) (id : String) :
    stageRefPrefix ++ id ≠ spec.featureId := by
  intro h
  have hlist := congrArg (fun s : String => s.toList.take 2) h
  simp only [FeatureSpec.featureId, featureFeatureId, ← hfunction, stageRefPrefix,
    String.toList_append, List.append_assoc] at hlist
  cases function <;> simp [Named.name] at hlist

/-! ## own operands -/

/-- The timeframe is the first one of the plan whose snapshot holds the feature. -/
structure FirstHolder (engine : FeatureEngine F) (plan : SubscriptionPlan F)
    (instrumentKey featureId timeframe : String) : Prop where
  planned : timeframe ∈ plan.featureTimeframes
  holds : (engine.snapshot instrumentKey timeframe).contains featureId = true
  least : ∀ t ∈ plan.featureTimeframes,
    (engine.snapshot instrumentKey t).contains featureId = true → Text.le timeframe t = true

theorem contains_snapshot (engine : FeatureEngine F) (instrumentKey timeframe featureId : String) :
    (engine.snapshot instrumentKey timeframe).contains featureId = true ↔
      ∃ v, (engine.snapshot instrumentKey timeframe).get? featureId = some v := by
  rw [contains, Option.isSome_iff_exists]

variable {plan : SubscriptionPlan F}

theorem numberAt_mergedTimeframes (engine : FeatureEngine F) (instrumentKey : String)
    (hsorted : plan.featureTimeframes.Pairwise fun x y => Text.le x y = true) :
    let merged := mergedTimeframes engine instrumentKey plan.featureTimeframes
    (∃ timeframe, FirstHolder engine plan instrumentKey spec.featureId timeframe ∧
      numberAt merged spec.featureId = engine.value instrumentKey timeframe spec.featureId) ∨
    ((∀ t ∈ plan.featureTimeframes, (engine.snapshot instrumentKey t).contains spec.featureId = false) ∧
      numberAt merged spec.featureId = none) := by
  intro merged
  have hget : merged.get? spec.featureId = plan.featureTimeframes.findSome? fun timeframe =>
      (engine.snapshot instrumentKey timeframe).get? spec.featureId := by
    rw [get?_mergedTimeframes]
    simp only [get?_fieldSnapshot_featureId, Option.or_none]
  cases hfound : plan.featureTimeframes.findSome? fun timeframe =>
      (engine.snapshot instrumentKey timeframe).get? spec.featureId with
  | none =>
    refine .inr ⟨fun t ht => ?_, by rw [numberAt, hget, hfound]; rfl⟩
    rw [List.findSome?_eq_none_iff] at hfound
    rw [contains, hfound t ht]
    rfl
  | some v =>
    obtain ⟨before, timeframe, after, htimeframes, hv, hbefore⟩ :=
      List.findSome?_eq_some_iff.mp hfound
    refine .inl ⟨timeframe, ⟨?_, ?_, fun t ht hholds => ?_⟩, ?_⟩
    · simp [htimeframes]
    · rw [contains, hv]
      rfl
    · rw [htimeframes] at ht hsorted
      obtain ⟨w, hw⟩ := (contains_snapshot _ _ _ _).mp hholds
      rcases List.mem_append.mp ht with ht | ht
      · simp [hbefore t ht] at hw
      · rcases List.mem_cons.mp ht with rfl | ht
        · exact (Text.le_total t t).elim id id
        · exact (List.pairwise_cons.mp (List.pairwise_append.mp hsorted).2.1).1 t ht
    · rw [← FeatureEngine.numberAt_snapshot, numberAt, numberAt, hget, hfound, hv]

theorem FirstHolder.unique {featureId t t' : String}
    (h : FirstHolder engine plan instrumentKey featureId t)
    (h' : FirstHolder engine plan instrumentKey featureId t') : t = t' :=
  Text.le_antisymm (h.least t' h'.planned h'.holds) (h'.least t h.planned h.holds)

variable {operand : Operand F}

theorem resolveOperand_inline (hname : operand.inlineName = some name) (input : EvalInput F) :
    resolveOperand input operand = .ok (numberAt input.features (inlineSpec operand name).featureId) := by
  have hid := featureOperandId_inline hname
  unfold Operand.inlineName at hname
  split at hname
  · next hkind =>
      obtain ⟨hnamed, _⟩ := Option.filter_eq_some_iff.mp hname
      rw [resolveOperand, resolveNested]
      simp only [hkind, hnamed, hid, Option.bind_some]
  · simp at hname

theorem addAliases_ne_nil (aliases : List (String × String × String)) {merged : Values F}
    (h : merged ≠ []) : aliases.foldl (addAlias engine instrumentKey) merged ≠ [] := by
  induction aliases generalizing merged with
  | nil => exact h
  | cons a aliases ih =>
    refine ih ?_
    unfold addAlias
    split
    · next v hv =>
        intro hempty
        have hget := get?_setDefault merged a.1 a.1 (.float v : PyVal F)
        simp [hempty] at hget
    · exact h

theorem pollCandle_features {timeframe : String} (htimeframe : timeframe ∈ plan.featureTimeframes)
    (compute : FeatureSpec F → List (Bar F) → Option F) (instrumentKey : String)
    (engine : FeatureEngine F) (call : Call F) :
    let out := pollCandle compute plan instrumentKey timeframe engine call
    out.2.features = mergedFeatures out.1 plan instrumentKey := by
  intro out
  obtain ⟨bar, hbar⟩ := engine.latestBar_onBar compute instrumentKey timeframe call.obs
  have hhas : plan.hasFeatures = true := by
    rw [SubscriptionPlan.hasFeatures]
    have hne : plan.featureTimeframes ≠ [] := List.ne_nil_of_mem htimeframe
    simp [hne]
  have hmerged : mergedTimeframes out.1 instrumentKey plan.featureTimeframes ≠ [] := by
    intro hempty
    have hget := get?_mergedTimeframes out.1 instrumentKey plan.featureTimeframes
      (fieldFeature (Named.name BarField.open_))
    rw [hempty, get?_nil] at hget
    have hnone := List.findSome?_eq_none_iff.mp hget.symm timeframe htimeframe
    have hlatest : out.1.latestBar instrumentKey timeframe = some bar := hbar
    simp [FeatureEngine.fieldSnapshot, hlatest, completedFields] at hnone
  have hne : mergedFeatures out.1 plan instrumentKey ≠ [] := addAliases_ne_nil _ hmerged
  have hdispatch : (planDispatch out.1 plan instrumentKey).1 =
      some (mergedFeatures out.1 plan instrumentKey) := by
    rw [planDispatch, if_pos hhas]
    simp [hne]
  have hfeatures : out.2.features = (planDispatch out.1 plan instrumentKey).1.getD (FeatureEngine.toValues
        (engine.onBar compute instrumentKey timeframe call.obs).1) := rfl
  rw [hfeatures, hdispatch]
  rfl

/-- An inline indicator of the dispatched stage gets the value of its own timeframe
exactly when the first timeframe of the plan that holds the feature has that value. -/
theorem own_indicator_resolves_iff {raw : PyVal F} {p : Parse.Parsed F}
    {c : Compile.CompiledWorkflow F} {fromIso : String → Option Int} {sha256 : String → String}
    (hp : Parse.parseWorkflowDict raw = .ok p)
    (hc : Compile.compileDocument fromIso sha256 p = .ok c) {stageId timeframe : String}
    {stage : Stage F} (hstage : p.document.stage? stageId = some stage)
    (htimeframe : stage.timeframe = some timeframe) {target : Operand F} {name featureId : String}
    (hreads : Reads stage.allConditions target) (hname : target.inlineName = some name)
    (hid : featureOperandId target = some featureId) :
    ∃ plan, buildSubscriptionPlan p.document stageId = .ok plan ∧
      ∀ (compute : FeatureSpec F → List (Bar F) → Option F) (instrumentKey : String)
        (engine : FeatureEngine F) (call : Call F),
        let out := pollCandle compute plan instrumentKey timeframe engine call
        resolveOperand out.2.input target = .ok (out.1.value instrumentKey timeframe featureId) ↔
          ∀ first, FirstHolder out.1 plan instrumentKey featureId first →
            out.1.value instrumentKey first featureId = out.1.value instrumentKey timeframe featureId := by
  have hdoc := acceptedStages_of_compileDocument hp hc
  obtain ⟨plan, hbuild, hplan⟩ := buildSubscriptionPlan_ok hdoc hstage
  have hmem : stage ∈ p.document.stages := List.mem_of_find?_eq_some hstage
  have hne : timeframe ≠ "" := by
    rintro rfl
    exact ((Parse.wf_of_parseWorkflowDict hp).stages stage hmem).timeframe htimeframe
  have hown := hplan.own timeframe hne htimeframe
  refine ⟨plan, hbuild, fun compute instrumentKey engine call => ?_⟩
  intro out
  obtain rfl : (inlineSpec target name).featureId = featureId :=
    Option.some.inj ((featureOperandId_inline hname).symm.trans hid)
  -- The operand's function is registered, so no alias shadows its id.
  have halias : ∀ a ∈ plan.stageAliases, a.1 ≠ (inlineSpec target name).featureId := by
    intro a ha
    obtain ⟨id, hid⟩ := hplan.aliases a ha
    obtain ⟨function, hfunction⟩ := hreads.function (hdoc.operands stage hmem) hname
    rw [hid]
    exact featureId_ne_alias hfunction id
  rw [resolveOperand_inline hname]
  have hinput : out.2.input.features = mergedFeatures out.1 plan instrumentKey :=
    pollCandle_features hown compute instrumentKey engine call
  rw [hinput, Except.ok.injEq, numberAt, mergedFeatures, get?_addAliases halias, ← numberAt]
  rcases numberAt_mergedTimeframes out.1 instrumentKey hplan.sorted with
    ⟨first, hfirst, hvalue⟩ | ⟨hnone, hvalue⟩
  · rw [hvalue]
    exact ⟨fun h other hother => hother.unique hfirst ▸ h, fun h => h first hfirst⟩
  · rw [hvalue]
    have hown : out.1.value instrumentKey timeframe (inlineSpec target name).featureId = none := by
      rw [← FeatureEngine.numberAt_snapshot, numberAt]
      have hfalse := hnone timeframe hown
      rw [Dict.contains, Option.isSome_eq_false_iff, Option.isNone_iff_eq_none] at hfalse
      rw [hfalse]
      rfl
    rw [hown]
    refine ⟨fun _ first hfirst => ?_, fun _ => rfl⟩
    have hholds := hfirst.holds
    rw [hnone first hfirst.planned] at hholds
    simp at hholds

/-! ## layers -/

theorem layers_of_buildSubscriptionPlan {document : WorkflowDocument F} {stageId : String}
    {stage : Stage F} (hstage : document.stage? stageId = some stage)
    (hbuild : buildSubscriptionPlan document stageId = .ok plan) :
    plan.layers = (stageChain document stageId).map (fun s => (s, s.timeframe)) ∧
      ∀ layer ∈ stageChain document stageId, ∀ timeframe, layer.timeframe = some timeframe →
        timeframe ≠ "" → timeframe ∈ plan.featureTimeframes := by
  simp only [buildSubscriptionPlan, hstage, bind_eq_ok] at hbuild
  obtain ⟨needs, _, hplan⟩ := hbuild
  obtain rfl := Except.ok.inj hplan
  refine ⟨rfl, fun layer hlayer timeframe htimeframe hne => ?_⟩
  simp only [mem_sortedSet, List.mem_filter, List.mem_append, List.mem_filterMap]
  exact ⟨.inr ⟨layer, hlayer, htimeframe⟩, by simpa using hne⟩

theorem pollCandle_layers (hhas : plan.hasFeatures = true)
    (compute : FeatureSpec F → List (Bar F) → Option F) (instrumentKey timeframe : String)
    (engine : FeatureEngine F) (call : Call F) :
    let out := pollCandle compute plan instrumentKey timeframe engine call
    out.2.layers = plan.layers.map fun layer =>
      (layer.1, ((layer.2.filter fun t => t ≠ "").map (layerFeatures out.1 instrumentKey)).getD []) := by
  intro out
  have hlayers : out.2.layers = ((planDispatch out.1 plan instrumentKey).2.getD []).map fun layer =>
      (layer.1, layer.2.getD []) := rfl
  rw [hlayers, planDispatch, if_pos hhas]
  cases plan.layers with
  | nil => rfl
  | cons layer layers => simp

variable {f : BarField}

theorem numberAt_layerFeatures (engine : FeatureEngine F) (instrumentKey timeframe : String)
    (hf : f ∈ completedFields) :
    numberAt (layerFeatures engine instrumentKey timeframe) (fieldFeature (Named.name f)) =
      (engine.latestField instrumentKey timeframe f).filter PyFloat.isFinite := by
  rw [← FeatureEngine.numberAt_fieldSnapshot engine instrumentKey timeframe hf, numberAt, numberAt,
    layerFeatures, get?_update (engine.nodup_keys_fieldSnapshot instrumentKey timeframe),
    FeatureEngine.get?_snapshot_fieldFeature, Option.or_none]

theorem resolveOperand_field (hkind : operand.kind = .field)
    (hname : operand.name = some (Named.name f)) (input : EvalInput F) :
    resolveOperand input operand =
      .ok ((input.obs.field f).or (numberAt input.features (fieldFeature (Named.name f)))) := by
  rw [resolveOperand, resolveNested]
  simp only [hkind, hname, Option.getD_some, resolveField, Named.ofName?_name]
  cases input.obs.field f <;> rfl

/-- A bar field of a layer is the field of the layer's latest completed bar exactly
when the dispatched bar lacks the field (and the stored one is finite) or has the
same value. -/
theorem layer_field_resolves_iff {raw : PyVal F} {p : Parse.Parsed F}
    (hp : Parse.parseWorkflowDict raw = .ok p) {stageId : String} {stage : Stage F}
    (hstage : p.document.stage? stageId = some stage) {plan : SubscriptionPlan F}
    (hbuild : buildSubscriptionPlan p.document stageId = .ok plan) {layer : Stage F}
    (hlayer : layer ∈ stageChain p.document stageId) {layerTimeframe : String}
    (hlayerTimeframe : layer.timeframe = some layerTimeframe) {operand : Operand F} {f : BarField}
    (hf : f ∈ completedFields) (hkind : operand.kind = .field)
    (hname : operand.name = some (Named.name f))
    (compute : FeatureSpec F → List (Bar F) → Option F) (instrumentKey timeframe : String)
    (engine : FeatureEngine F) (call : Call F) :
    let out := pollCandle compute plan instrumentKey timeframe engine call
    let latest := out.1.latestField instrumentKey layerTimeframe f
    (∃ features, (layer, features) ∈ out.2.layers) ∧ ∀ features, (layer, features) ∈ out.2.layers →
        (resolveOperand { out.2.input with features } operand = .ok latest ↔
          (call.obs.field f = none ∧ ∀ v, latest = some v → PyFloat.isFinite v = true) ∨
            ∃ v, call.obs.field f = some v ∧ latest = some v) := by
  intro out latest
  have hmem : layer ∈ p.document.stages := by
    have hchain : layer ∈ stageAndChain p.document stageId := by
      rw [stageAndChain, hstage]
      exact List.mem_cons_of_mem stage hlayer
    exact mem_stages_of_mem_stageAndChain hchain
  have hne : layerTimeframe ≠ "" := by
    rintro rfl
    exact ((Parse.wf_of_parseWorkflowDict hp).stages layer hmem).timeframe hlayerTimeframe
  obtain ⟨hlayers, htimeframes⟩ := layers_of_buildSubscriptionPlan hstage hbuild
  have hhas : plan.hasFeatures = true := by
    have hne : plan.featureTimeframes ≠ [] :=
      List.ne_nil_of_mem (htimeframes layer hlayer layerTimeframe hlayerTimeframe hne)
    simp [SubscriptionPlan.hasFeatures, hne]
  have hfilter : (layer.timeframe.filter fun t => t ≠ "") = some layerTimeframe := by
    simp [hlayerTimeframe, Option.filter, hne]
  have hout : out.2.layers = (stageChain p.document stageId).map fun s =>
      (s, ((s.timeframe.filter fun t => t ≠ "").map (layerFeatures out.1 instrumentKey)).getD []) := by
    rw [pollCandle_layers hhas compute instrumentKey timeframe engine call, hlayers, List.map_map]
    rfl
  rw [hout]
  refine ⟨⟨_, List.mem_map_of_mem hlayer⟩, fun features hfeatures => ?_⟩
  obtain ⟨s, _, hs⟩ := List.mem_map.mp hfeatures
  obtain ⟨rfl, rfl⟩ := Prod.mk.inj hs
  rw [hfilter, resolveOperand_field hkind hname]
  simp only [Option.map_some, Option.getD_some, Except.ok.injEq]
  rw [numberAt_layerFeatures out.1 instrumentKey layerTimeframe hf]
  show (call.obs.field f).or (latest.filter PyFloat.isFinite) = latest ↔ _
  cases call.obs.field f with
  | some v =>
    refine ⟨fun h => .inr ⟨v, rfl, h.symm⟩, ?_⟩
    rintro (⟨h, _⟩ | ⟨w, hw, hlatest⟩)
    · simp at h
    · exact hw.trans hlatest.symm
  | none =>
    cases latest with
    | none => simp
    | some w => simp [Option.filter]

/-! ## a five-minute stage on top of a layer -/

/-- The close above its average, on five minutes and on the layer's timeframe. -/
def layeredDocument (layerTimeframe : String) : PyVal ℚ :=
  let above : PyVal ℚ := .list
    [.ofPairs
      [("left", .ofPairs [("field", .str "close")]), ("op", .str "gt"),
       ("right", .ofPairs [("indicator", .str "ema"), ("period", .int 20)])]]
  .ofPairs
    [("version", .int 1), ("name", .str "layered"), ("instruments", .list [.str "NSE:INFY"]),
     ("stages", .list
       [.ofPairs
         [("id", .str "trend"), ("clock", .str "candle_close"), ("timeframe", .str layerTimeframe),
          ("conditions", above)],
        .ofPairs
         [("id", .str "entry"), ("clock", .str "candle_close"), ("timeframe", .str "5minute"),
          ("input", .str "trend"), ("conditions", above)]]),
     ("alerts", .list
       [.ofPairs
         [("id", .str "notify"), ("source", .str "entry"), ("channels", .list [.str "telegram"])]])]

def lastClose : FeatureSpec ℚ → List (Bar ℚ) → Option ℚ :=
  fun _ bars => bars.getLast?.bind fun bar => bar.close

/-- The engine after a layer bar with close 200, with the plan's features declared. -/
def layeredEngine (plan : SubscriptionPlan ℚ) (layerTimeframe : String) : FeatureEngine ℚ :=
  let declared := plan.specs.foldl (fun engine s => engine.declare "NSE:INFY" s.1 s.2)
    (FeatureEngine.fresh : FeatureEngine ℚ)
  (declared.onBar lastClose "NSE:INFY" layerTimeframe
    { ts := 0, epochId := "candle", close := some 200, volume := some 7, final := true }).2

/-- A five-minute bar with close 100 and no volume. -/
def entryCall : Call ℚ :=
  { obs := { ts := 300000000, epochId := "candle", close := some 100, final := true } }

/-- The five-minute bar dispatched after the layer bar. -/
def layeredPoll (plan : SubscriptionPlan ℚ) (layerTimeframe : String) : FeatureEngine ℚ × Call ℚ :=
  pollCandle lastClose plan "NSE:INFY" "5minute" (layeredEngine plan layerTimeframe) entryCall

/-- The parts of a layered subscription, with what `check` says about an operand of
the stage. -/
def layeredWith (check : SubscriptionPlan ℚ → Stage ℚ → Operand ℚ → Bool) (p : Parse.Parsed ℚ) : Bool :=
  match p.document.stage? "entry", buildSubscriptionPlan p.document "entry" with
  | some stage, .ok plan =>
    decide (stage.timeframe = some "5minute") &&
      (operandsOf stage.allConditions).any fun o => check plan stage o
  | _, _ => false

theorem exists_of_layeredWith {check : SubscriptionPlan ℚ → Stage ℚ → Operand ℚ → Bool}
    {p : Parse.Parsed ℚ} (h : layeredWith check p = true) :
    ∃ stage plan target, p.document.stage? "entry" = some stage ∧
      buildSubscriptionPlan p.document "entry" = .ok plan ∧ stage.timeframe = some "5minute" ∧
      Reads stage.allConditions target ∧ check plan stage target = true := by
  unfold layeredWith at h
  split at h
  · next stage plan hstage hplan =>
      simp only [Bool.and_eq_true, decide_eq_true_eq, List.any_eq_true] at h
      obtain ⟨htimeframe, target, htarget, hcheck⟩ := h
      exact ⟨stage, plan, target, hstage, hplan, htimeframe, ⟨target, htarget, .self target⟩, hcheck⟩
  · simp at h

def resolvesTo (input : EvalInput ℚ) (operand : Operand ℚ) (v : ℚ) : Bool :=
  match resolveOperand input operand with
  | .ok r => decide (r = some v)
  | .error _ => false

theorem resolveOperand_of_resolvesTo {input : EvalInput ℚ} {operand : Operand ℚ} {v : ℚ}
    (h : resolvesTo input operand v = true) : resolveOperand input operand = .ok (some v) := by
  unfold resolvesTo at h
  split at h
  · next r hr =>
      obtain rfl : r = some v := by simpa using h
      exact hr
  · simp at h

/-- Below a daily layer the average is that of the five-minute bars. -/
theorem daily_layer_keeps_own_average :
    ∃ p plan target featureId, Parse.parseWorkflowDict (layeredDocument "day") = .ok p ∧
      buildSubscriptionPlan p.document "entry" = .ok plan ∧ featureOperandId target = some featureId ∧
      resolveOperand (layeredPoll plan "day").2.input target =
        .ok ((layeredPoll plan "day").1.value "NSE:INFY" "5minute" featureId) := by
  obtain ⟨p, hp, hcheck⟩ := Compile.exists_of_parsesWith (layeredDocument "day")
    (fun p => Compile.compilesPlainly p && layeredWith (fun plan _ o =>
      o.inlineName.isSome && (featureOperandId o).any fun featureId =>
        decide (plan.featureTimeframes = ["5minute", "day"]) &&
          ((layeredPoll plan "day").1.snapshot "NSE:INFY" "5minute").contains featureId) p)
    (by decide +kernel)
  simp only [Bool.and_eq_true] at hcheck
  obtain ⟨stage, plan, target, hstage, hplan, htimeframe, hreads, htarget⟩ :=
    exists_of_layeredWith hcheck.2
  simp only [Bool.and_eq_true, Option.isSome_iff_exists, Option.any_eq_true, decide_eq_true_eq]
    at htarget
  obtain ⟨⟨name, hname⟩, featureId, hid, htimeframes, hholds⟩ := htarget
  obtain ⟨c, hc⟩ := Compile.exists_compile_of_compilesPlainly hcheck.1 (fun _ => none) id
  obtain ⟨plan', hplan', hiff⟩ :=
    own_indicator_resolves_iff hp hc hstage htimeframe hreads hname hid
  obtain rfl : plan' = plan := by simpa [hplan] using hplan'.symm
  refine ⟨p, plan', target, featureId, hp, hplan, hid,
    (hiff lastClose "NSE:INFY" (layeredEngine plan' "day") entryCall).mpr fun first hfirst => ?_⟩
  have hplanned := hfirst.planned
  have hleast := hfirst.least "5minute" (by simp [htimeframes]) hholds
  rw [htimeframes] at hplanned
  rcases List.mem_cons.mp hplanned with rfl | hday
  · rfl
  · obtain rfl : first = "day" := by simpa using hday
    exact absurd hleast (by decide)

/-- Below a fifteen-minute layer the stage compares with the layer's average. -/
theorem quarter_hour_layer_shadows_average :
    ∃ p stage plan target featureId,
      Parse.parseWorkflowDict (layeredDocument "15minute") = .ok p ∧
      (∀ fromIso sha256, ∃ c, Compile.compileDocument fromIso sha256 p = .ok c) ∧
      p.document.stage? "entry" = some stage ∧ stage.timeframe = some "5minute" ∧
      buildSubscriptionPlan p.document "entry" = .ok plan ∧ Reads stage.allConditions target ∧
      target.inlineName.isSome = true ∧ featureOperandId target = some featureId ∧
      (layeredPoll plan "15minute").1.value "NSE:INFY" "5minute" featureId = some 100 ∧
      resolveOperand (layeredPoll plan "15minute").2.input target = .ok (some 200) := by
  obtain ⟨p, hp, hcheck⟩ := Compile.exists_of_parsesWith (layeredDocument "15minute")
    (fun p => Compile.compilesPlainly p && layeredWith (fun plan _ o =>
      o.inlineName.isSome && (featureOperandId o).any fun featureId =>
        decide ((layeredPoll plan "15minute").1.value "NSE:INFY" "5minute" featureId = some 100) &&
          resolvesTo (layeredPoll plan "15minute").2.input o 200) p)
    (by decide +kernel)
  simp only [Bool.and_eq_true] at hcheck
  obtain ⟨stage, plan, target, hstage, hplan, htimeframe, hreads, htarget⟩ :=
    exists_of_layeredWith hcheck.2
  simp only [Bool.and_eq_true, Option.any_eq_true, decide_eq_true_eq] at htarget
  obtain ⟨hinline, featureId, hid, hvalue, hresolve⟩ := htarget
  refine ⟨p, stage, plan, target, featureId, hp,
    Compile.exists_compile_of_compilesPlainly hcheck.1, hstage, htimeframe, hplan, hreads, hinline,
    hid, hvalue, resolveOperand_of_resolvesTo hresolve⟩

def fieldOperand (f : BarField) : Operand ℚ := { kind := .field, name := some (Named.name f) }

/-- The dispatched bar has no volume, so the layer sees that of its own bar. -/
theorem layer_volume_is_own :
    ∃ p plan layer features, Parse.parseWorkflowDict (layeredDocument "day") = .ok p ∧
      buildSubscriptionPlan p.document "entry" = .ok plan ∧
      layer ∈ stageChain p.document "entry" ∧ layer.timeframe = some "day" ∧
      (layer, features) ∈ (layeredPoll plan "day").2.layers ∧
      resolveOperand { (layeredPoll plan "day").2.input with features } (fieldOperand .volume) =
        .ok ((layeredPoll plan "day").1.latestField "NSE:INFY" "day" .volume) := by
  obtain ⟨p, hp, hcheck⟩ := Compile.exists_of_parsesWith (layeredDocument "day")
    (fun p => layeredWith (fun _ _ _ => true) p &&
      (stageChain p.document "entry").any fun layer => decide (layer.timeframe = some "day"))
    (by decide +kernel)
  simp only [Bool.and_eq_true, List.any_eq_true, decide_eq_true_eq] at hcheck
  obtain ⟨hsub, layer, hlayer, hlayerTimeframe⟩ := hcheck
  obtain ⟨stage, plan, _, hstage, hplan, _, _, _⟩ := exists_of_layeredWith hsub
  obtain ⟨⟨features, hfeatures⟩, hiff⟩ := layer_field_resolves_iff hp hstage hplan hlayer
    hlayerTimeframe (by decide : BarField.volume ∈ completedFields)
    (rfl : (fieldOperand .volume).kind = .field) rfl lastClose "NSE:INFY" "5minute"
    (layeredEngine plan "day") entryCall
  exact ⟨p, plan, layer, features, hp, hplan, hlayer, hlayerTimeframe, hfeatures,
    (hiff features hfeatures).mpr (.inl ⟨rfl, fun _ _ => rfl⟩)⟩

/-- The dispatched bar has a close, and the layer compares with it. -/
theorem layer_close_is_dispatched :
    ∃ p plan layer features operand,
      Parse.parseWorkflowDict (layeredDocument "day") = .ok p ∧
      (∀ fromIso sha256, ∃ c, Compile.compileDocument fromIso sha256 p = .ok c) ∧
      buildSubscriptionPlan p.document "entry" = .ok plan ∧
      (layer, features) ∈ (layeredPoll plan "day").2.layers ∧ layer.timeframe = some "day" ∧
      operand ∈ operandsOf layer.conditions ∧ operand.kind = .field ∧
      operand.name = some (Named.name BarField.close) ∧
      (layeredPoll plan "day").1.latestField "NSE:INFY" "day" .close = some 200 ∧
      resolveOperand { (layeredPoll plan "day").2.input with features } operand = .ok (some 100) := by
  obtain ⟨p, hp, hcheck⟩ := Compile.exists_of_parsesWith (layeredDocument "day")
    (fun p => Compile.compilesPlainly p && layeredWith (fun plan _ _ =>
      decide ((layeredPoll plan "day").1.latestField "NSE:INFY" "day" .close = some 200) &&
        (layeredPoll plan "day").2.layers.any fun entry =>
          decide (entry.1.timeframe = some "day") && (operandsOf entry.1.conditions).any fun o =>
            decide (o.kind = .field) && decide (o.name = some (Named.name BarField.close)) &&
              resolvesTo { (layeredPoll plan "day").2.input with features := entry.2 } o 100) p)
    (by decide +kernel)
  simp only [Bool.and_eq_true] at hcheck
  obtain ⟨stage, plan, _, hstage, hplan, _, _, hlayers⟩ := exists_of_layeredWith hcheck.2
  simp only [Bool.and_eq_true, List.any_eq_true, decide_eq_true_eq] at hlayers
  obtain ⟨hlatest, ⟨layer, features⟩, hmem, htimeframe, operand, hoperand, ⟨hkind, hname⟩, hresolve⟩ :=
    hlayers
  refine ⟨p, plan, layer, features, operand, hp,
    Compile.exists_compile_of_compilesPlainly hcheck.1, hplan, hmem, htimeframe, hoperand, hkind,
    hname, hlatest, resolveOperand_of_resolvesTo hresolve⟩

end KiteAlgo
