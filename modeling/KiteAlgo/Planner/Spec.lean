import KiteAlgo.Lib.Table
import KiteAlgo.Planner
import KiteAlgo.Predicates.Reach

/-!
# KiteAlgo.Planner.Spec

What the traversals of the planner find in an accepted document.  No coercion on
the way can raise there and no expression is too deep, so the plan exists, and its
specs and timeframes are described by membership: the inline indicators reachable
from the own groups of the stage and its layers, and the feature stages.
-/

namespace KiteAlgo

open Compile Check List Option

variable {F : Type} [PyFloat F]

variable {α : Type} {visit : Operand F → Except PyErr (List α)}

omit [PyFloat F] in
theorem gatherOperands_ok {operands : List (Operand F)}
    (h : ∀ o ∈ operands, ∃ found, visit o = .ok found) :
    ∃ out, gatherOperands visit operands = .ok out ∧
      ∀ x, x ∈ out ↔ ∃ o ∈ operands, ∃ found, visit o = .ok found ∧ x ∈ found := by
  induction operands with
  | nil => exact ⟨[], rfl, by simp⟩
  | cons o operands ih =>
    obtain ⟨found, hfound⟩ := h o (.head _)
    obtain ⟨rest, hrest, hmem⟩ := ih fun q hq => h q (mem_cons_of_mem o hq)
    refine ⟨found ++ rest, by simp [gatherOperands, hfound, hrest], fun x => ?_⟩
    simp [hmem, hfound]

theorem gatherArgs_ok {args : List (PyVal F)}
    (h : ∀ v ∈ args, ∃ child found, coerceExpressionArg v = .ok (some child) ∧ visit child = .ok found) :
    ∃ out, gatherArgs visit args = .ok out ∧
      ∀ x, x ∈ out ↔ ∃ v ∈ args, ∃ child found, coerceExpressionArg v = .ok (some child) ∧
        visit child = .ok found ∧ x ∈ found := by
  induction args with
  | nil => exact ⟨[], rfl, by simp⟩
  | cons v args ih =>
    obtain ⟨child, found, hchild, hfound⟩ := h v (.head _)
    obtain ⟨rest, hrest, hmem⟩ := ih fun w hw => h w (mem_cons_of_mem v hw)
    refine ⟨found ++ rest, by simp [gatherArgs, hchild, hfound, hrest], fun x => ?_⟩
    simp [hmem, hchild, hfound]

/-! ## the operands of a stage -/

omit [PyFloat F] in
theorem expressionArgs_singleton (key : Key) (args : List (PyVal F)) :
    expressionArgs [(key, .list args)] = args := by
  simp [expressionArgs]

variable {operand : Operand F}

omit [PyFloat F] in
theorem Operand.IsExpression.inlineName (h : operand.IsExpression) : operand.inlineName = none := by
  simp [Operand.inlineName, h.unnamed]

variable {name : String}

theorem featureOperandId_inline (h : operand.inlineName = some name) :
    featureOperandId operand = some (inlineSpec operand name).featureId := by
  unfold Operand.inlineName at h
  split at h
  · next hkind =>
      obtain ⟨hname, hinline⟩ := filter_eq_some_iff.mp h
      have hinline : Text.startsWith name stageRefPrefix = false := by simpa using hinline
      have hoffset : offsetSuffix (some (operand.offset.getD 0)) = offsetSuffix operand.offset := by
        cases operand.offset with
        | none => rfl
        | some n => rfl
      simp [featureOperandId, hkind, hname, hinline, FeatureSpec.featureId, inlineSpec, hoffset]
  · simp at h

theorem collectOperandSpecs_leaf (timeframe : String) (depth : Nat)
    (hleaf : ¬ operand.IsExpression) :
    collectOperandSpecs timeframe (depth + 1) operand = .ok (operand.inlineName.toList.map fun name =>
        ⟨timeframe, "inline", inlineSpec operand name⟩) := by
  by_cases hkind : operand.kind = .indicator
  · cases hnamed : operand.namedAs with
    | none => exact absurd ⟨hkind, hnamed⟩ hleaf
    | some name =>
      by_cases href : Text.startsWith name stageRefPrefix = true <;>
        simp [collectOperandSpecs, Operand.inlineName, hkind, hnamed, href, Option.filter]
  · simp [collectOperandSpecs, Operand.inlineName, hkind]

theorem collectOperandSpecs_ok (timeframe : String) {levels depth : Nat}
    (hvalid : ValidAt levels operand) (hdepth : levels < depth) :
    ∃ needs, collectOperandSpecs timeframe depth operand = .ok needs ∧
      ∀ need, need ∈ needs ↔ ∃ target name, Reaches operand target ∧
        target.inlineName = some name ∧ need = ⟨timeframe, "inline", inlineSpec target name⟩ := by
  induction depth generalizing levels operand with
  | zero => omega
  | succ depth ih =>
    by_cases hexpr : operand.IsExpression
    · obtain ⟨below, rfl, ⟨parts⟩⟩ := hvalid.parts hexpr
      have hargs : expressionArgs operand.params = [parts.a, parts.b] := by
        rw [parts.params, expressionArgs_singleton]
      have hchildren : ∀ v ∈ [parts.a, parts.b], ∃ child found,
          coerceExpressionArg v = .ok (some child) ∧
            collectOperandSpecs timeframe depth child = .ok found := by
        intro v hv
        obtain ⟨child, hchild, hbelow⟩ := parts.coerced v hv
        obtain ⟨found, hfound, _⟩ := ih hbelow (by omega)
        exact ⟨child, found, hchild, hfound⟩
      obtain ⟨needs, hneeds, hmem⟩ := gatherArgs_ok hchildren
      refine ⟨needs, ?_, fun need => ?_⟩
      · simp [collectOperandSpecs, hexpr.kind, hexpr.unnamed, hargs, hneeds]
      rw [hmem]
      constructor
      · rintro ⟨v, hv, child, found, hchild, hfound, hneed⟩
        obtain ⟨child', hchild', hbelow⟩ := parts.coerced v hv
        obtain rfl : child' = child := by simpa [hchild'] using hchild
        obtain ⟨found', hfound', hmem'⟩ := ih hbelow (by omega : below < depth)
        obtain rfl : found' = found := by simpa [hfound'] using hfound
        obtain ⟨target, name, hreach, hname, rfl⟩ := (hmem' need).mp hneed
        exact ⟨target, name, .arg hexpr parts.arithmeticArgs hv hchild hreach, hname, rfl⟩
      · rintro ⟨target, name, hreach, hname, rfl⟩
        rcases (parts.reaches_iff hexpr).mp hreach with rfl | ⟨v, hv, child, hchild, hbelow, hreach⟩
        · simp [hexpr.inlineName] at hname
        · obtain ⟨found, hfound, hmem'⟩ := ih hbelow (by omega : below < depth)
          exact ⟨v, hv, child, found, hchild, hfound, (hmem' _).mpr ⟨target, name, hreach, hname, rfl⟩⟩
    · refine ⟨_, collectOperandSpecs_leaf timeframe depth hexpr, fun need => ?_⟩
      simp only [List.mem_map, mem_toList]
      constructor
      · rintro ⟨name, hname, rfl⟩
        exact ⟨operand, name, .self operand, hname, rfl⟩
      · rintro ⟨target, name, hreach, hname, rfl⟩
        rw [hreach.eq_of_not_isExpression hexpr] at hname ⊢
        exact ⟨name, hname, rfl⟩

/-- Resolving the conditions reads the operand. -/
def Reads (conditions : List (Condition F)) (target : Operand F) : Prop :=
  ∃ o ∈ operandsOf conditions, Reaches o target

theorem Reads.function {conditions : List (Condition F)} {target : Operand F}
    (h : Reads conditions target) (hvalid : ∀ o ∈ operandsOf conditions, Validated o)
    (hname : target.inlineName = some name) : ∃ f : FeatureFunction, Named.name f = name := by
  obtain ⟨o, ho, hreach⟩ := h
  obtain ⟨below, hbelow⟩ := hreach.validAt (validAt_of_validated (hvalid o ho))
  unfold Operand.inlineName at hname
  split at hname
  · next hkind =>
      obtain ⟨hnamed, hinline⟩ := filter_eq_some_iff.mp hname
      obtain ⟨hnamed, _⟩ := filter_eq_some_iff.mp hnamed
      exact hbelow.function hkind hnamed (by simpa using hinline)
  · simp at hname

variable {stage : Stage F}

theorem operandSpecs_ok (hvalid : ∀ o ∈ operandsOf stage.ownConditions, Validated o) :
    ∃ needs, operandSpecs stage = .ok needs ∧
      ∀ need, need ∈ needs ↔ ∃ target name, Reads stage.ownConditions target ∧
        target.inlineName = some name ∧
        need = ⟨stage.timeframeOrDay, "inline", inlineSpec target name⟩ := by
  have hcollect := fun o ho => collectOperandSpecs_ok stage.timeframeOrDay
    (validAt_of_validated (hvalid o ho)) (by decide : maxArithmeticDepth < maxTraversalDepth + 1)
  obtain ⟨needs, hneeds, hmem⟩ := gatherOperands_ok fun o ho => (hcollect o ho).imp fun _ h => h.1
  refine ⟨needs, hneeds, fun need => ?_⟩
  rw [hmem]
  constructor
  · rintro ⟨o, ho, found, hfound, hneed⟩
    obtain ⟨found', hfound', hmem'⟩ := hcollect o ho
    obtain rfl : found' = found := by simpa [hfound'] using hfound
    obtain ⟨target, name, hreach, hrest⟩ := (hmem' need).mp hneed
    exact ⟨target, name, ⟨o, ho, hreach⟩, hrest⟩
  · rintro ⟨target, name, ⟨o, ho, hreach⟩, hrest⟩
    obtain ⟨found, hfound, hmem'⟩ := hcollect o ho
    exact ⟨o, ho, found, hfound, (hmem' need).mpr ⟨target, name, hreach, hrest⟩⟩

variable {document : WorkflowDocument F} {s : Stage F}

omit [PyFloat F] in
theorem mem_stages_of_mem_chainFrom {steps : Nat} {seen : List String}
    (h : s ∈ chainFrom document steps seen stage) : s ∈ document.stages := by
  induction steps generalizing seen stage with
  | zero => simp [chainFrom] at h
  | succ steps ih =>
    simp only [chainFrom] at h
    split at h
    · simp at h
    · next parent hparent =>
        split at h
        · simp at h
        · rcases mem_append.mp h with h | h
          · exact ih h
          · obtain rfl : s = parent := by simpa using h
            obtain ⟨id, _, hid⟩ := bind_eq_some_iff.mp hparent
            exact mem_reverse.mp (mem_of_find?_eq_some hid)

variable {stageId : String}

omit [PyFloat F] in
theorem mem_stages_of_mem_stageAndChain (h : s ∈ stageAndChain document stageId) :
    s ∈ document.stages := by
  unfold stageAndChain at h
  split at h
  · simp at h
  · next stage hstage =>
      rcases mem_cons.mp h with rfl | h
      · exact mem_of_find?_eq_some hstage
      · unfold stageChain at h
        split at h
        · simp at h
        · exact mem_stages_of_mem_chainFrom h

/-- What the planner relies on in an accepted document. -/
structure AcceptedStages (document : WorkflowDocument F) : Prop where
  operands : ∀ s ∈ document.stages, ∀ o ∈ operandsOf s.allConditions, Validated o
  functions : ∀ s ∈ document.stages, s.function ≠ none → s.type = .known .feature

theorem acceptedStages_of_compileDocument {raw : PyVal F} {p : Parse.Parsed F}
    {c : CompiledWorkflow F} {fromIso : String → Option Int} {sha256 : String → String}
    (hp : Parse.parseWorkflowDict raw = .ok p) (hc : compileDocument fromIso sha256 p = .ok c) :
    AcceptedStages p.document := by
  have hwf := Parse.wf_of_parseWorkflowDict hp
  obtain ⟨hasUniverse, featureIds, stageIds, hstages, _⟩ :=
    passes_of_accepts (accepts_of_compileDocument hc)
  refine ⟨fun s hs => validated_of_validateStage (hwf.stages s hs).id (hstages s hs),
    fun s hs hfunction => ?_⟩
  have hstage := hstages s hs
  unfold validateStage at hstage
  rw [if_neg (hwf.stages s hs).id] at hstage
  simp only [passes_all_cons, Bool.and_eq_true] at hstage
  by_contra htype
  have hreport := hstage.2.1
  rw [if_neg htype] at hreport
  simp [hfunction] at hreport

/-! ## needs -/

omit [PyFloat F] in
theorem operandsOf_own_subset {o : Operand F} (h : o ∈ operandsOf s.ownConditions) :
    o ∈ operandsOf s.allConditions := by
  obtain ⟨c, hc, ho⟩ := mem_flatMap.mp h
  refine mem_flatMap.mpr ⟨c, ?_, ho⟩
  simp [Stage.allConditions, hc]

/-- The need is an inline indicator of the stage or of a layer. -/
def InlineNeed (stages : List (Stage F)) (need : FeatureNeed F) : Prop :=
  ∃ s ∈ stages, ∃ target name, Reads s.ownConditions target ∧ target.inlineName = some name ∧
    need = ⟨s.timeframeOrDay, "inline", inlineSpec target name⟩

def StageNeed (document : WorkflowDocument F) (need : FeatureNeed F) : Prop :=
  ∃ s ∈ document.stages, s.type = .known .feature ∧ featureStageNeed s = some need

theorem gatherStages_ok {stages : List (Stage F)}
    (hvalid : ∀ s ∈ stages, ∀ o ∈ operandsOf s.ownConditions, Validated o) :
    ∃ needs, subscriptionNeeds.gatherStages stages = .ok needs ∧
      ∀ need, need ∈ needs ↔ InlineNeed stages need := by
  induction stages with
  | nil => exact ⟨[], rfl, by simp [InlineNeed]⟩
  | cons s stages ih =>
    obtain ⟨found, hfound, hmem⟩ := operandSpecs_ok (hvalid s (.head _))
    obtain ⟨rest, hrest, hmemRest⟩ := ih fun q hq => hvalid q (mem_cons_of_mem s hq)
    refine ⟨found ++ rest, by simp [subscriptionNeeds.gatherStages, hfound, hrest], fun need => ?_⟩
    rw [mem_append, hmem, hmemRest]
    simp [InlineNeed]

omit [PyFloat F] in
theorem mem_stages_of_mem_referencedStages (h : s ∈ referencedStages document stage) :
    s ∈ document.stages := by
  obtain ⟨o, _, ho⟩ := mem_filterMap.mp h
  split at ho
  · obtain ⟨ho, _⟩ := filter_eq_some_iff.mp ho
    exact mem_of_find?_eq_some ho
  · simp at ho

omit [PyFloat F] in
theorem function_ne_none_of_featureStageNeed {need : FeatureNeed F}
    (h : featureStageNeed s = some need) : s.function ≠ none := by
  intro hnone
  simp [featureStageNeed, hnone] at h

theorem subscriptionNeeds_ok (hdoc : AcceptedStages document) {ancestors : List (Stage F)}
    (hstages : ∀ s ∈ stage :: ancestors, s ∈ document.stages) :
    ∃ needs, subscriptionNeeds document stage ancestors = .ok needs ∧
      ∀ need, need ∈ needs ↔ InlineNeed (stage :: ancestors) need ∨ StageNeed document need := by
  have hvalid : ∀ s ∈ stage :: ancestors, ∀ o ∈ operandsOf s.ownConditions, Validated o :=
    fun s hs o ho => hdoc.operands s (hstages s hs) o (operandsOf_own_subset ho)
  obtain ⟨own, hown, hmemOwn⟩ := operandSpecs_ok (hvalid stage (.head _))
  obtain ⟨inherited, hinherited, hmemInherited⟩ :=
    gatherStages_ok fun s hs => hvalid s (mem_cons_of_mem stage hs)
  have hneeds : subscriptionNeeds document stage ancestors = .ok (own ++ inherited ++
      (document.stages.filter fun s => s.type = .known .feature).filterMap featureStageNeed ++
      ((stage :: ancestors).flatMap (referencedStages document)).filterMap featureStageNeed) := by
    simp only [subscriptionNeeds, hown, hinherited, ok_bind]
  refine ⟨_, hneeds, fun need => ?_⟩
  have hdeclared : need ∈ (document.stages.filter fun s => s.type = .known .feature).filterMap
      featureStageNeed ↔ StageNeed document need := by
    simp [StageNeed, mem_filterMap, and_assoc]
  -- A referenced stage with a function is a feature stage of the document.
  have hreferenced : need ∈ ((stage :: ancestors).flatMap (referencedStages document)).filterMap
      featureStageNeed → StageNeed document need := by
    intro h
    obtain ⟨s, hs, hneed⟩ := mem_filterMap.mp h
    obtain ⟨_, _, hs⟩ := mem_flatMap.mp hs
    have hmem := mem_stages_of_mem_referencedStages hs
    exact ⟨s, hmem, hdoc.functions s hmem (function_ne_none_of_featureStageNeed hneed), hneed⟩
  have hinline : InlineNeed (stage :: ancestors) need ↔ need ∈ own ∨ need ∈ inherited := by
    rw [hmemOwn, hmemInherited]
    simp [InlineNeed]
  rw [mem_append, mem_append, mem_append, hdeclared, hinline]
  constructor
  · rintro (((h | h) | h) | h)
    · exact .inl (.inl h)
    · exact .inl (.inr h)
    · exact .inr h
    · exact .inr (hreferenced h)
  · rintro ((h | h) | h)
    · exact .inl (.inl (.inl h))
    · exact .inl (.inl (.inr h))
    · exact .inl (.inr h)

theorem mem_foldl_dedup [BEq α] [LawfulBEq α] (xs acc : List α) (x : α) :
    x ∈ xs.foldl (fun acc x => if x ∈ acc then acc else acc ++ [x]) acc ↔ x ∈ acc ∨ x ∈ xs := by
  induction xs generalizing acc with
  | nil => simp
  | cons y xs ih =>
    rw [foldl_cons, ih]
    split <;> simp <;> grind

theorem mem_sortedSet {x : String} {xs : List String} : x ∈ sortedSet xs ↔ x ∈ xs := by
  rw [sortedSet, mem_sortBy, mem_foldl_dedup]
  simp

structure PlanSpec (document : WorkflowDocument F) (stage : Stage F) (ancestors : List (Stage F))
    (plan : SubscriptionPlan F) : Prop where
  layers : plan.layers = ancestors.map fun s => (s, s.timeframe)
  specs : ∀ timeframe featureId,
    (∃ spec, (timeframe, spec) ∈ plan.specs ∧ spec.featureId = featureId) ↔
      ∃ need, (InlineNeed (stage :: ancestors) need ∨ StageNeed document need) ∧
        need.timeframe = timeframe ∧ need.spec.featureId = featureId
  own : ∀ timeframe, timeframe ≠ "" → stage.timeframe = some timeframe → timeframe ∈ plan.featureTimeframes
  sorted : plan.featureTimeframes.Pairwise fun x y => Text.le x y = true
  aliases : ∀ a ∈ plan.stageAliases, ∃ id, a.1 = stageRefPrefix ++ id

theorem buildSubscriptionPlan_ok (hdoc : AcceptedStages document)
    (hstage : document.stage? stageId = some stage) :
    ∃ plan, buildSubscriptionPlan document stageId = .ok plan ∧
      PlanSpec document stage (stageChain document stageId) plan := by
  have hchain : stageAndChain document stageId = stage :: stageChain document stageId := by
    simp [stageAndChain, hstage]
  obtain ⟨needs, hneeds, hmem⟩ := subscriptionNeeds_ok hdoc fun s hs =>
    mem_stages_of_mem_stageAndChain (hchain ▸ hs)
  refine ⟨_, by simp only [buildSubscriptionPlan, hstage, hneeds, ok_bind]; rfl, ?_⟩
  refine ⟨rfl, fun timeframe featureId => ?_, fun timeframe hne htf => ?_,
    pairwise_sortBy Text.le_total Text.le_trans _, fun a ha => ?_⟩
  · simp only [List.mem_map, ← hmem]
    constructor
    · rintro ⟨spec, ⟨e, he, heq⟩, hid⟩
      obtain ⟨rfl, rfl⟩ : e.1.1 = timeframe ∧ e.2 = spec := by simpa using heq
      rcases Table.exists_of_mem_foldl_set (fun n : FeatureNeed F => (n.timeframe, n.spec.featureId))
        (fun n => n.spec) he with h | ⟨need, hneed, rfl⟩
      · simp at h
      · exact ⟨need, hneed, rfl, hid⟩
    · rintro ⟨need, hneed, rfl, rfl⟩
      have hkey := (Table.mem_keys_foldl_set
        (fun n : FeatureNeed F => (n.timeframe, n.spec.featureId)) (fun n => n.spec) needs []
        (need.timeframe, need.spec.featureId)).mpr (.inr ⟨need, hneed, rfl⟩)
      obtain ⟨e, he, hekey⟩ := mem_map.mp hkey
      rcases Table.exists_of_mem_foldl_set (fun n : FeatureNeed F => (n.timeframe, n.spec.featureId))
        (fun n => n.spec) he with h | ⟨found, _, rfl⟩
      · simp at h
      · obtain ⟨htf, hid⟩ : found.timeframe = need.timeframe ∧
          found.spec.featureId = need.spec.featureId := by simpa using hekey
        exact ⟨found.spec, ⟨_, he, by simp [htf]⟩, hid⟩
  · simp only [mem_sortedSet, mem_filter, mem_append]
    refine ⟨.inl (.inl (.inr ?_)), by simpa using hne⟩
    simp [htf]
  · rw [mem_sortBy, mem_foldl_dedup] at ha
    obtain ⟨need, hneed, halias⟩ := mem_filterMap.mp (ha.resolve_left (by simp))
    unfold needAlias at halias
    split at halias
    · simp at halias
    · next htag =>
        obtain rfl := some.inj halias
        rcases (hmem need).mp hneed with ⟨_, _, _, _, _, _, rfl⟩ | ⟨s, _, _, hs⟩
        · exact absurd rfl htag
        · obtain ⟨function, _, rfl⟩ := map_eq_some_iff.mp hs
          exact ⟨s.id, rfl⟩

end KiteAlgo
