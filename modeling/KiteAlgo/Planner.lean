import KiteAlgo.Predicates

/-!
# KiteAlgo.Planner

What a subscription needs from outside its own bar: the layer chain and the
feature plan (`workflows/feature_planner.py`), and the traversals by which the
worker finds the pair operands, external references and fundamentals of a stage
(`pairs.py`, `external_context.py`, `registry.py`, `runtime.py`).

A traversal coerces the raw arguments of an expression on the way, which can
raise, so each of them returns in `Except`.
-/

namespace KiteAlgo

variable {F : Type} [PyFloat F]

/-! ## features -/

/-- `FeatureSpec`: one declared feature dependency. -/
structure FeatureSpec (F : Type) where
  function : String
  params : Dict Key (PyVal F)
  source : String := "close"
  offset : Int := 0
  output : Option (PyVal F) := none

def FeatureSpec.featureId (spec : FeatureSpec F) : String :=
  featureFeatureId spec.function spec.params spec.source ++ offsetSuffix (some spec.offset)

/-- A feature on a timeframe, tagged by where it comes from. -/
structure FeatureNeed (F : Type) where
  timeframe : String
  tag : String
  spec : FeatureSpec F

/-- `stage.timeframe or "day"`. -/
def Stage.timeframeOrDay (stage : Stage F) : String :=
  (stage.timeframe.filter fun t => t ≠ "").getD "day"

/-- The stage with an id, as `next(...)` finds it. -/
def WorkflowDocument.stage? (document : WorkflowDocument F) (id : String) : Option (Stage F) :=
  document.stages.find? fun s => s.id = id

/-- `{stage.id: stage for stage in stages}.get(id)`: the last stage with the id. -/
def WorkflowDocument.lastStage? (document : WorkflowDocument F) (id : String) : Option (Stage F) :=
  document.stages.reverse.find? fun s => s.id = id

/-- The ancestors of a stage, root first, with the steps still allowed and the
stages already seen. -/
def chainFrom (document : WorkflowDocument F) : Nat → List String → Stage F → List (Stage F)
  | 0, _, _ => []
  | steps + 1, seen, stage =>
    match stage.input.bind document.lastStage? with
    | none => []
    | some parent =>
      if parent.id ∈ seen then []
      else chainFrom document steps (parent.id :: seen) parent ++ [parent]

/-- `stage_chain`.  Every step sees a new stage, so their number bounds the walk. -/
def stageChain (document : WorkflowDocument F) (stageId : String) : List (Stage F) :=
  match document.lastStage? stageId with
  | none => []
  | some stage => chainFrom document document.stages.length [stageId] stage

/-! ## walking operands -/

/-- The arguments of an expression: the items of every list among its entries. -/
def expressionArgs (params : Dict Key (PyVal F)) : List (PyVal F) :=
  params.flatMap fun e =>
    match e.2 with
    | .list xs => xs
    | _ => []

def maxTraversalDepth : Nat := 6

/-- Gather from the arguments of an expression, one after another. -/
def gatherArgs {α : Type} (visit : Operand F → Except PyErr (List α)) :
    List (PyVal F) → Except PyErr (List α)
  | [] => .ok []
  | arg :: args => do
    let child ← Compile.coerceExpressionArg arg
    let found ← (child.map visit).getD (.ok [])
    let rest ← gatherArgs visit args
    .ok (found ++ rest)

/-- Gather from a list of operands, one after another. -/
def gatherOperands {α : Type} (visit : Operand F → Except PyErr (List α)) :
    List (Operand F) → Except PyErr (List α)
  | [] => .ok []
  | operand :: operands => do
    let found ← visit operand
    let rest ← gatherOperands visit operands
    .ok (found ++ rest)

/-- The feature of a named indicator operand. -/
def inlineSpec (operand : Operand F) (name : String) : FeatureSpec F where
  function := name
  params := operand.params
  source := operand.sourceOrClose
  offset := operand.offset.getD 0
  output := operand.params.get? "output"

/-- `_collect_operand_specs`, with the depth still allowed. -/
def collectOperandSpecs (timeframe : String) :
    Nat → Operand F → Except PyErr (List (FeatureNeed F))
  | 0, _ => .ok []
  | levels + 1, operand =>
    if operand.kind ≠ .indicator then .ok []
    else
      match operand.namedAs with
      | some name =>
        if Text.startsWith name stageRefPrefix then .ok []
        else .ok [⟨timeframe, "inline", inlineSpec operand name⟩]
      | none => gatherArgs (collectOperandSpecs timeframe levels) (expressionArgs operand.params)

/-- `_operand_specs`: the features of the stage's own groups. -/
def operandSpecs (stage : Stage F) : Except PyErr (List (FeatureNeed F)) :=
  gatherOperands (collectOperandSpecs stage.timeframeOrDay (maxTraversalDepth + 1))
    (operandsOf stage.ownConditions)

/-- Some argument of an expression passes, tried one after another. -/
def anyArg (test : Operand F → Except PyErr Bool) : List (PyVal F) → Except PyErr Bool
  | [] => .ok false
  | arg :: args => do
    let child ← Compile.coerceExpressionArg arg
    let found ← (child.map test).getD (.ok false)
    if found then .ok true else anyArg test args

/-- Some operand passes, tried one after another. -/
def anyOperand (test : Operand F → Except PyErr Bool) : List (Operand F) → Except PyErr Bool
  | [] => .ok false
  | operand :: operands => do
    let found ← test operand
    if found then .ok true else anyOperand test operands

/-- `operand_uses_fundamentals`, with the depth still allowed. -/
def operandUsesFundamentals : Nat → Operand F → Except PyErr Bool
  | 0, _ => .ok false
  | levels + 1, operand =>
    match operand.kind with
    | .field => .ok (operand.name.any isFundamentalsName)
    | .indicator => anyArg (operandUsesFundamentals levels) (expressionArgs operand.params)
    | _ => .ok false

def stageUsesFundamentals (stage : Stage F) : Except PyErr Bool :=
  anyOperand (operandUsesFundamentals (maxTraversalDepth + 1)) (operandsOf stage.ownConditions)

def collectPairOperands (conditions : List (Condition F)) : List (Operand F) :=
  (operandsOf conditions).filter fun operand => operand.kind = .pair

/-- The name of an `external.*` field operand. -/
def externalName (operand : Operand F) : Option String :=
  if operand.kind = .field then
    operand.name.filter fun name => Text.startsWith name "external."
  else none

def collectExternalReferences (conditions : List (Condition F)) : List String :=
  (operandsOf conditions).filterMap externalName

/-! ## the plan of a subscription -/

structure SubscriptionPlan (F : Type) where
  layers : List (Stage F × Option String) := []
  featureTimeframes : List String := []
  specs : List (String × FeatureSpec F) := []
  stageAliases : List (String × String × String) := []

def stageSpec (stage : Stage F) (function : String) : FeatureSpec F where
  function
  params := stage.stageParams
  source := (stage.sourceField.filter fun s => s ≠ "").getD "close"
  output := stage.stageParams.get? "output"

/-- The need of a stage that computes a function. -/
def featureStageNeed (stage : Stage F) : Option (FeatureNeed F) :=
  (stage.function.filter fun f => f ≠ "").map fun function =>
    ⟨stage.timeframeOrDay, stageRefPrefix ++ stage.id, stageSpec stage function⟩

/-- The stages that a stage's own operands reference by `stage:<id>`. -/
def referencedStages (document : WorkflowDocument F) (stage : Stage F) : List (Stage F) :=
  (operandsOf stage.ownConditions).filterMap fun operand =>
    if operand.kind = .indicator ∧ operand.isStageRef then
      (document.stage? (Text.dropFront (operand.name.getD "") stageRefPrefix.length)).filter
        fun s => s.timeframe.any fun t => t ≠ ""
    else none

/-- `sorted(set(xs))` of texts. -/
def sortedSet (xs : List String) : List String :=
  sortBy Text.le (xs.foldl (fun acc x => if x ∈ acc then acc else acc ++ [x]) [])

/-- `<=` on alias triples. -/
def leAlias (a b : String × String × String) : Bool :=
  if a.1 ≠ b.1 then Text.le a.1 b.1
  else if a.2.1 ≠ b.2.1 then Text.le a.2.1 b.2.1
  else Text.le a.2.2 b.2.2

/-- The needs of a subscription: the operands of its stage and layers, every
feature stage of the document, and the stages its operands reference. -/
def subscriptionNeeds (document : WorkflowDocument F) (stage : Stage F)
    (ancestors : List (Stage F)) : Except PyErr (List (FeatureNeed F)) := do
  let own ← operandSpecs stage
  let inherited ← gatherStages ancestors
  let declared := (document.stages.filter fun s => s.type = .known .feature).filterMap featureStageNeed
  let referenced := ((stage :: ancestors).flatMap (referencedStages document)).filterMap featureStageNeed
  .ok (own ++ inherited ++ declared ++ referenced)
where
  /-- The operands of the layers. -/
  gatherStages : List (Stage F) → Except PyErr (List (FeatureNeed F))
    | [] => .ok []
    | s :: ss => do
      let found ← operandSpecs s
      let rest ← gatherStages ss
      .ok (found ++ rest)

/-- The alias under which a feature stage's value is found. -/
def needAlias (need : FeatureNeed F) : Option (String × String × String) :=
  if need.tag = "inline" then none else some (need.tag, need.timeframe, need.spec.featureId)

/-- `build_subscription_plan`.  The specs stand in the order they are met; the
source keeps them in a set first. -/
def buildSubscriptionPlan (document : WorkflowDocument F) (stageId : String) :
    Except PyErr (SubscriptionPlan F) :=
  match document.stage? stageId with
  | none => .ok {}
  | some stage => do
    let ancestors := stageChain document stageId
    let needs ← subscriptionNeeds document stage ancestors
    let merged : Dict (String × String) (FeatureSpec F) :=
      needs.foldl (fun acc n => acc.set (n.timeframe, n.spec.featureId) n.spec) []
    let referenced := ((stage :: ancestors).flatMap (referencedStages document)).filterMap
      fun s => s.timeframe
    let timeframes := merged.keys.map Prod.fst ++ stage.timeframe.toList ++ referenced ++
      ancestors.filterMap fun s => s.timeframe
    let aliases := needs.filterMap needAlias
    .ok
      { layers := ancestors.map fun s => (s, s.timeframe)
        featureTimeframes := sortedSet (timeframes.filter fun t => t ≠ "")
        specs := merged.map fun e => (e.1.1, e.2)
        stageAliases := sortBy leAlias
          (aliases.foldl (fun acc a => if a ∈ acc then acc else acc ++ [a]) []) }

/-- The stage of a subscription and its ancestors. -/
def stageAndChain (document : WorkflowDocument F) (stageId : String) : List (Stage F) :=
  match document.stage? stageId with
  | none => []
  | some stage => stage :: stageChain document stageId

def externalReferencesFor (document : WorkflowDocument F) (stageId : String) : List String :=
  ((stageAndChain document stageId).flatMap fun s =>
    collectExternalReferences s.ownConditions).foldl
      (fun acc x => if x ∈ acc then acc else acc ++ [x]) []

def pairOperandsFor (document : WorkflowDocument F) (stageId : String) : List (Operand F) :=
  (stageAndChain document stageId).flatMap fun s => collectPairOperands s.ownConditions

def stageNeedsFundamentals (document : WorkflowDocument F) (stageId : String) :
    Except PyErr Bool :=
  anyStage (stageAndChain document stageId)
where
  /-- Some stage of the chain uses fundamentals. -/
  anyStage : List (Stage F) → Except PyErr Bool
    | [] => .ok false
    | s :: ss => do
      let found ← stageUsesFundamentals s
      if found then .ok true else anyStage ss

end KiteAlgo
