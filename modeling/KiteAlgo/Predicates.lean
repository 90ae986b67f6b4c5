import KiteAlgo.Compiler

/-!
# KiteAlgo.Predicates

Pure condition evaluation (`alerts/predicates.py`): state in, state out.

An `EvalState` is the dictionary a checkpoint stores, with one field per key the
code reads or writes; each condition owns the entry of its `condKey` in `conds`,
and each stage with a streak or a sequence owns its entry in `stageAdvanced`.
Timestamps are microseconds since the epoch.  The evidence that `_apply_sequence`
collects is dropped by its caller and not modelled.
-/

namespace KiteAlgo

/-! ## observations and state -/

/-- `_OBSERVATION_FIELDS`. -/
inductive BarField where
  | ltp
  | open_
  | high
  | low
  | close
  | volume
  deriving DecidableEq, Repr

instance : Named BarField where
  all := [.ltp, .open_, .high, .low, .close, .volume]
  name
    | .ltp => "ltp"
    | .open_ => "open"
    | .high => "high"
    | .low => "low"
    | .close => "close"
    | .volume => "volume"
  mem_all e := by cases e <;> simp
  name_inj {e e'} h := by cases e <;> cases e' <;> simp_all

section Types

variable (F : Type)

/-- `Observation`, as far as evaluation reads it. -/
structure Observation where
  ts : Int
  epochId : String
  ltp : Option F := none
  open_ : Option F := none
  high : Option F := none
  low : Option F := none
  close : Option F := none
  volume : Option F := none
  final : Bool := false
  receivedAt : Option Int := none

structure CondState where
  epochId : Option String := none
  prev : Option F := none
  baseline : Option F := none
  baselineTs : Option Int := none
  within : Option Bool := none
  pctMatched : Option Bool := none
  prevDayHighSeen : Bool := false
  prevDayHighBroken : Bool := false
  prevDayLowSeen : Bool := false
  prevDayLowBroken : Bool := false
  hystMatched : Bool := false

end Types

/-- The sub-state of a stage with a streak or a sequence. -/
structure AdvancedState where
  epochId : Option String := none
  streak : Int := 0
  armed : Bool := false
  armedTs : Option Int := none
  armedBarTs : Option Int := none
  barsSinceArm : Int := 0
  deriving DecidableEq, Repr

/-- The evaluation part of a checkpoint: predicate state, trigger bookkeeping and
feed bookkeeping. -/
structure EvalState (F : Type) where
  epochId : Option String := none
  conds : Dict String (CondState F) := []
  stageAdvanced : Dict String AdvancedState := []
  initialized : Bool := false
  armed : Bool := true
  firedOnce : Bool := false
  lastSession : Option String := none
  lastEmittedTs : Option Int := none
  cooldownUntil : Option Int := none
  lastBarTs : Option Int := none
  lastTickReceivedAt : Option Int := none
  lastTickTs : Option Int := none
  continuityInvalidatedAt : Option Int := none
  continuityInvalidationReason : Option String := none

/-- A mapping from names to values: the context, the features, the evidence. -/
abbrev Values (F : Type) := Dict String (PyVal F)

structure EvalInput (F : Type) where
  obs : Observation F
  context : Values F := []
  features : Values F := []

structure PredicateResult (F : Type) where
  matched : Option Bool
  fired : Bool
  evidence : Values F
  state : EvalState F

variable {F : Type}

/-- `getattr(obs, name)`. -/
def Observation.field (obs : Observation F) : BarField → Option F
  | .ltp => obs.ltp
  | .open_ => obs.open_
  | .high => obs.high
  | .low => obs.low
  | .close => obs.close
  | .volume => obs.volume

variable [PyFloat F]

/-! ## operands -/

/-- The prefix of a reference to a feature stage. -/
def stageRefPrefix : String := "stage:"

def Operand.isStageRef (operand : Operand F) : Bool :=
  operand.name.any fun n => Text.startsWith n stageRefPrefix

/-- The operand has a name (`if operand.name`). -/
def Operand.namedAs (operand : Operand F) : Option String := operand.name.filter fun n => n ≠ ""

/-- `@offset`, absent for no offset and for zero. -/
def offsetSuffix (offset : Option Int) : String :=
  match offset with
  | none => ""
  | some n => if n = 0 then "" else "@" ++ toString n

/-- `operand.source or "close"`. -/
def Operand.sourceOrClose (operand : Operand F) : String :=
  (operand.source.filter fun s => s ≠ "").getD "close"

def featureOperandId (operand : Operand F) : Option String :=
  if operand.kind ≠ .indicator then none
  else
    match operand.namedAs with
    | none => none
    | some name =>
      if Text.startsWith name stageRefPrefix then some name
      else
        some (featureFeatureId name operand.params operand.sourceOrClose ++ offsetSuffix operand.offset)

/-- The keys of a pair that make up its identity. -/
def pairIdKeys : List String := ["instrument", "reference", "field", "lookback", "max_skew_bars"]

def pairOperandId (operand : Operand F) : String :=
  let part (key : String) : Option String :=
    (Parse.present operand.params key).map fun v => key ++ "=" ++ v.toText
  "pair:" ++ Text.join ":" (operand.name.getD "" :: pairIdKeys.filterMap part)

/-- The number stored under a name; anything else counts as absent. -/
def numberAt (values : Values F) (name : String) : Option F :=
  (values.get? name).bind PyVal.toFloat?

def resolvePairOperand (context : Values F) (operand : Operand F) : Option F :=
  match context.get? "pairs" with
  | some (.dict pairs) =>
    match Dict.get? pairs (Key.str (pairOperandId operand)) with
    | some (.dict entry) => (Dict.get? entry (Key.str "value")).bind PyVal.toFloat?
    | some v => v.toFloat?
    | none => none
  | _ => none

/-- The name under which the features carry a field. -/
def fieldFeature (name : String) : String := "field:" ++ name

/-- The field branch of `_resolve_operand`: the observation first, then the
caller's context or features. -/
def resolveField (input : EvalInput F) (name : String) : Option F :=
  match (Named.ofName? name : Option BarField) with
  | some f =>
    match input.obs.field f with
    | some v => some v
    | none => numberAt input.features (fieldFeature name)
  | none =>
    if isFundamentalsName name || Text.startsWith name "external." then
      numberAt input.context name
    else
      let fromContext :=
        if name = "prev_day_high" ∨ name = "prev_day_low" then numberAt input.context name
        else none
      fromContext.or (numberAt input.features (fieldFeature name))

/-- The arithmetic itself; a zero denominator is unknown. -/
def ArithmeticOp.apply (op : ArithmeticOp) (a b : F) : Option F :=
  match op with
  | .add => some (PyFloat.add a b)
  | .subtract => some (PyFloat.sub a b)
  | .multiply => some (PyFloat.mul a b)
  | .divide => if PyFloat.absLtEps b then none else some (PyFloat.div a b)

/-- The first arithmetic entry of an expression, with its two arguments; none
when there is no such entry or the arguments are not a list of two. -/
def arithmeticArgs (params : Dict Key (PyVal F)) : Option (ArithmeticOp × PyVal F × PyVal F) :=
  match params.find? fun e => isArithmeticKey e.1 with
  | some (key, .list [a, b]) => (arithmeticOp? key).map fun op => (op, a, b)
  | _ => none

/-- `_resolve_arithmetic`: unknown arguments make the result unknown. -/
def resolveArithmetic (resolve : Operand F → Except PyErr (Option F)) (operand : Operand F) :
    Except PyErr (Option F) :=
  match arithmeticArgs operand.params with
  | none => .ok none
  | some (op, a, b) => do
    let x ← arg a
    match x with
    | none => .ok none
    | some x => do
      let y ← arg b
      .ok (y.bind (op.apply x))
where
  /-- One argument, coerced and resolved. -/
  arg (v : PyVal F) : Except PyErr (Option F) := do
    match ← Compile.coerceExpressionArg v with
    | none => .ok none
    | some child => resolve child

/-- `_resolve_operand`, with the nesting still allowed. -/
def resolveNested (input : EvalInput F) : Nat → Operand F → Except PyErr (Option F)
  | depth, operand =>
    match operand.kind with
    | .value => .ok operand.value
    | .pair => .ok (resolvePairOperand input.context operand)
    | .field => .ok (resolveField input (operand.name.getD "None"))
    | .indicator =>
      match operand.namedAs with
      | some _ => .ok ((featureOperandId operand).bind (numberAt input.features))
      | none =>
        match depth with
        | 0 => .error .recursion
        | depth + 1 => resolveArithmetic (resolveNested input depth) operand

/-- `_resolve_operand`.  An argument lies deeper in the expression than the
operand itself, so the depth of the expression bounds the recursion. -/
def resolveOperand (input : EvalInput F) (operand : Operand F) : Except PyErr (Option F) :=
  resolveNested input (PyVal.depthDict operand.params + 1) operand

def operandKey (operand : Operand F) : String :=
  match operand.kind with
  | .field => "field:" ++ operand.name.getD "None"
  | .value => "value:" ++ (operand.value.map PyFloat.repr).getD "None"
  | .indicator | .pair =>
    "indicator:" ++ operand.name.getD "None" ++ ":" ++ PyVal.jsonDumps true (.dict operand.params)

/-- `cond_key`: operator, left and right. -/
def condKey (cond : Condition F) : String :=
  cond.op.text ++ ":" ++ operandKey cond.left ++ ":" ++ operandKey cond.right

/-- `_begin_observation`: the condition's own sub-state, without its epoch-scoped
entries when the epoch changed. -/
def beginObservation (state : EvalState F) (key : String) (obs : Observation F) : CondState F :=
  let sub := (state.conds.get? key).getD {}
  match sub.epochId with
  | some epoch => if epoch = obs.epochId then sub else { epochId := some epoch }
  | none => sub

def commitSubstate (state : EvalState F) (key : String) (sub : CondState F) (obs : Observation F) :
    EvalState F :=
  { state with
    conds := state.conds.set key { sub with epochId := some obs.epochId }
    epochId := some obs.epochId }

/-! ## operators -/

/-- What an operator reports: matched, fired, its evidence and the sub-state. -/
structure OpOutcome (F : Type) where
  matched : Bool
  fired : Bool
  evidence : List (String × PyVal F)
  sub : CondState F

def leftKey (operand : Operand F) : String :=
  if operand.kind = .field then operand.namedAs.getD "value" else "value"

/-- `_compare`. -/
def compareLevel (op : Op) (cur level : F) : Bool :=
  match op with
  | .gt => PyFloat.lt level cur
  | .gte => PyFloat.le level cur
  | .lt => PyFloat.lt cur level
  | _ => PyFloat.le cur level

/-- `_apply_hysteresis`: once matched, the condition holds until the value passes
the release level. -/
def applyHysteresis (op : Op) (release cur level : F) (matched : Bool) (sub : CondState F) :
    Bool × CondState F :=
  let isUpper := op = .gt ∨ op = .gte
  let consistent := if isUpper then PyFloat.lt release level else PyFloat.lt level release
  if !consistent then (matched, sub)
  else
    let beyond := if isUpper then PyFloat.lt release cur else PyFloat.lt cur release
    let now := matched || (sub.hystMatched && beyond)
    (now, { sub with hystMatched := now })

def evaluateLevelOp (op : Op) (cond : Condition F) (cur level : F) (sub : CondState F) :
    OpOutcome F :=
  let raw := compareLevel op cur level
  let evidence := [(leftKey cond.left, .float cur), ("level", .float level)]
  match cond.hysteresis with
  | none => ⟨raw, false, evidence, sub⟩
  | some h =>
    let latched := applyHysteresis op h.release cur level raw sub
    ⟨latched.1, false, evidence ++ [("hysteresis_release", .float h.release)], latched.2⟩

/-- `_evaluate_cross_op`: the first observation of an epoch never fires. -/
def evaluateCrossOp (isAbove : Bool) (cond : Condition F) (cur level : F) (sub : CondState F) :
    OpOutcome F :=
  let matched := if isAbove then PyFloat.le level cur else PyFloat.le cur level
  let fired :=
    match sub.prev with
    | none => false
    | some prev => (if isAbove then PyFloat.lt prev level else PyFloat.lt level prev) && matched
  ⟨matched, fired,
    [(leftKey cond.left, .float cur), ("level", .float level), ("prev_ltp", optFloat sub.prev)],
    { sub with prev := some cur }⟩

/-- `lo <= cur` for a raw bound. -/
def boundLe (bound : PyVal F) (cur : F) : Except PyErr Bool :=
  match bound with
  | .float f => .ok (PyFloat.le f cur)
  | .int n => .ok (PyFloat.qLe n cur)
  | .bool b => .ok (PyFloat.qLe (if b then 1 else 0) cur)
  | _ => .error (.type "'<=' not supported")

/-- `cur <= hi` for a raw bound. -/
def leBound (cur : F) (bound : PyVal F) : Except PyErr Bool :=
  match bound with
  | .float f => .ok (PyFloat.le cur f)
  | .int n => .ok (PyFloat.leQ cur n)
  | .bool b => .ok (PyFloat.leQ cur (if b then 1 else 0))
  | _ => .error (.type "'<=' not supported")

/-- `lo <= cur <= hi`; the upper bound is read only above the lower one. -/
def insideBounds (lo hi : PyVal F) (cur : F) : Except PyErr Bool := do
  let above ← boundLe lo cur
  if above then leBound cur hi else .ok false

/-- The lower bound of a range: the literal, else the `lo` parameter. -/
def lowerBound (right : Operand F) : Option (PyVal F) :=
  match right.value with
  | some v => some (.float v)
  | none => Parse.present right.params "lo"

/-- `_evaluate_within`: fires on the way in. -/
def evaluateWithin (cond : Condition F) (cur : F) (sub : CondState F) :
    Except PyErr (Option (OpOutcome F)) :=
  match lowerBound cond.right, Parse.present cond.right.params "hi" with
  | some lo, some hi => do
    let matched ← insideBounds lo hi cur
    .ok (some
      ⟨matched, sub.within == some false && matched,
        [(leftKey cond.left, .float cur), ("lo", lo), ("hi", hi)], { sub with within := some matched }⟩)
  | _, _ => .ok none

/-- The baseline of a percentage: the stored one, else the current value unless
it is zero. -/
def baselineFor (obs : Observation F) (cur : F) (sub : CondState F) : Option (F × CondState F) :=
  match sub.baseline with
  | some baseline => some (baseline, sub)
  | none =>
    if PyFloat.eqQ cur 0 then none
    else some (cur, { sub with baseline := some cur, baselineTs := some obs.ts })

/-- The percentage from the baseline against the threshold. -/
def pctOutcome (isRise : Bool) (cond : Condition F) (cur baseline threshold : F)
    (sub : CondState F) : OpOutcome F :=
  let pct := PyFloat.mul (PyFloat.div (PyFloat.sub cur baseline) baseline) PyFloat.hundred
  let matched :=
    if isRise then PyFloat.le threshold pct else PyFloat.le pct (PyFloat.neg threshold)
  ⟨matched, sub.pctMatched == some false && matched,
    [(leftKey cond.left, .float cur), ("baseline", .float baseline),
     ("baseline_ts", optInt sub.baselineTs), ("pct", .float pct), ("threshold", .float threshold)],
    { sub with pctMatched := some matched }⟩

/-- `_evaluate_pct_op`: fires on reaching the threshold. -/
def evaluatePctOp (isRise : Bool) (cond : Condition F) (obs : Observation F) (cur threshold : F)
    (sub : CondState F) : Except PyErr (Option (OpOutcome F)) :=
  match baselineFor obs cur sub with
  | none => .ok none
  | some (baseline, sub) =>
    if PyFloat.eqQ baseline 0 then .error .zeroDivision
    else .ok (some (pctOutcome isRise cond cur baseline threshold sub))

/-- `_evaluate_break_op`: fires once beyond the level, and again only after the
value was back on the other side. -/
def evaluateBreakOp (isHigh : Bool) (cond : Condition F) (cur level : F) (sub : CondState F) :
    OpOutcome F :=
  let seen := if isHigh then sub.prevDayHighSeen else sub.prevDayLowSeen
  let broken := if isHigh then sub.prevDayHighBroken else sub.prevDayLowBroken
  let matched := if isHigh then PyFloat.lt level cur else PyFloat.lt cur level
  let back := if isHigh then PyFloat.lt cur level else PyFloat.lt level cur
  let broken' := if matched then true else if back then false else broken
  ⟨matched, seen && matched && !broken, [(leftKey cond.left, .float cur), ("level", .float level)],
    if isHigh then { sub with prevDayHighSeen := true, prevDayHighBroken := broken' }
    else { sub with prevDayLowSeen := true, prevDayLowBroken := broken' }⟩

/-- An operator that compares with the value of its right operand. -/
def withRight (input : EvalInput F) (cond : Condition F)
    (evaluate : F → Except PyErr (Option (OpOutcome F))) : Except PyErr (Option (OpOutcome F)) := do
  let level ← resolveOperand input cond.right
  match level with
  | none => .ok none
  | some level => evaluate level

/-- `_OP_EVALUATORS`: the evaluator of the operator's family. -/
def evaluateOp (op : Op) (input : EvalInput F) (cond : Condition F) (cur : F) (sub : CondState F) :
    Except PyErr (Option (OpOutcome F)) :=
  match op with
  | .gt | .gte | .lt | .lte =>
    withRight input cond fun level => .ok (some (evaluateLevelOp op cond cur level sub))
  | .crossesAbove =>
    withRight input cond fun level => .ok (some (evaluateCrossOp true cond cur level sub))
  | .crossesBelow =>
    withRight input cond fun level => .ok (some (evaluateCrossOp false cond cur level sub))
  | .within => evaluateWithin cond cur sub
  | .risesPct => withRight input cond fun level => evaluatePctOp true cond input.obs cur level sub
  | .fallsPct => withRight input cond fun level => evaluatePctOp false cond input.obs cur level sub
  | .breaksPrevHigh =>
    withRight input cond fun level => .ok (some (evaluateBreakOp true cond cur level sub))
  | .breaksPrevLow =>
    withRight input cond fun level => .ok (some (evaluateBreakOp false cond cur level sub))

/-- The outcome of a condition on its own sub-state; none is unknown. -/
def conditionOutcome (cond : Condition F) (input : EvalInput F) (sub : CondState F) :
    Except PyErr (Option (OpOutcome F)) := do
  let left ← resolveOperand input cond.left
  match left, cond.op with
  | some cur, .known op => evaluateOp op input cond cur sub
  | _, _ => .ok none

/-- `evaluate_condition`: reads and writes only the condition's own sub-state; an
unknown operand leaves the state unchanged. -/
def evaluateCondition (cond : Condition F) (input : EvalInput F) (state : EvalState F) :
    Except PyErr (PredicateResult F) := do
  let key := condKey cond
  let outcome ← conditionOutcome cond input (beginObservation state key input.obs)
  match outcome with
  | none => .ok ⟨none, false, [], state⟩
  | some o =>
    .ok ⟨some o.matched, o.fired, [(key, .ofPairs o.evidence)], commitSubstate state key o.sub input.obs⟩

/-! ## groups -/

/-- `_combine_all`: false dominates, then unknown. -/
def combineAll (ms : List (Option Bool)) : Option Bool :=
  if some false ∈ ms then some false else if none ∈ ms then none else some true

/-- `_combine_any`: true dominates, then unknown. -/
def combineAny (ms : List (Option Bool)) : Option Bool :=
  if some true ∈ ms then some true else if none ∈ ms then none else some false

/-- `_combine_not`: the negation of a single-condition group. -/
def combineNot : List (Option Bool) → Option Bool
  | [] => some true
  | m :: _ => m.map (!·)

def GroupKind.combine : GroupKind → List (Option Bool) → Option Bool
  | .all => combineAll
  | .any => combineAny
  | .not => combineNot

/-- The conditions of a group one after another, each on the state the previous
one left. -/
def evaluateConditions (input : EvalInput F) :
    List (Condition F) → EvalState F → Except PyErr (List (PredicateResult F) × EvalState F)
  | [], state => .ok ([], state)
  | cond :: conds, state => do
    let result ← evaluateCondition cond input state
    let rest ← evaluateConditions input conds result.state
    .ok (result :: rest.1, rest.2)

/-- What a list of groups reports, with the results of the single conditions. -/
structure GroupsOutcome (F : Type) where
  results : List (PredicateResult F)
  flags : List (Option Bool)
  state : EvalState F

def runGroups (input : EvalInput F) :
    List (ConditionGroup F) → EvalState F → Except PyErr (GroupsOutcome F)
  | [], state => .ok ⟨[], [], state⟩
  | group :: groups, state => do
    let run ← evaluateConditions input group.conditions state
    let rest ← runGroups input groups run.2
    .ok ⟨run.1 ++ rest.results, group.kind.combine (run.1.map PredicateResult.matched) :: rest.flags,
      rest.state⟩

/-- The groups together: all of them have to hold. -/
def GroupsOutcome.matched (run : GroupsOutcome F) : Option Bool := combineAll run.flags

def GroupsOutcome.anyFired (run : GroupsOutcome F) : Bool :=
  run.results.any fun r => r.matched.isSome && r.fired

/-- The evidence of the conditions, by their keys. -/
def GroupsOutcome.evidence (run : GroupsOutcome F) : Values F :=
  run.results.foldl (fun evidence r => evidence.update r.evidence) []

/-- `_group_pairs`: the stage's own groups. -/
def Stage.groupPairs (stage : Stage F) : List (ConditionGroup F) :=
  [⟨.all, stage.conditions⟩] ++
    (if stage.anyConditions.isEmpty then [] else [⟨.any, stage.anyConditions⟩]) ++
    (if stage.notConditions.isEmpty then [] else [⟨.not, stage.notConditions⟩])

/-! ## stage machines -/

/-- `_advanced_state`: the stage's sub-state, fresh in a new epoch. -/
def advancedState (state : EvalState F) (stageId : String) (obs : Observation F) : AdvancedState :=
  let sub := (state.stageAdvanced.get? stageId).getD {}
  match sub.epochId with
  | some epoch => if epoch = obs.epochId then sub else {}
  | none => sub

def commitAdvancedState (state : EvalState F) (stageId : String) (sub : AdvancedState)
    (obs : Observation F) : EvalState F :=
  { state with
    stageAdvanced := state.stageAdvanced.set stageId { sub with epochId := some obs.epochId } }

structure MachineStep where
  matched : Bool
  fired : Bool
  sub : AdvancedState
  deriving DecidableEq, Repr

/-- `_apply_consecutive_bars`: an unknown bar resets the streak, and the machine
fires on the bar that reaches the required number. -/
def applyConsecutiveBars (required : Int) (matched : Option Bool) (sub : AdvancedState) :
    MachineStep :=
  let previous := sub.streak
  let streak := if matched = some true then previous + 1 else 0
  ⟨decide (required ≤ streak), decide (required ≤ streak) && decide (previous < required),
    { sub with streak }⟩

/-- `{armed, armed_ts_epoch, bars_since_arm}` removed. -/
def AdvancedState.disarm (sub : AdvancedState) : AdvancedState :=
  { sub with armed := false, armedTs := none, barsSinceArm := 0 }

/-- A bound of an armed sequence has elapsed at this bar. -/
def SequenceSpec.expired (sequence : SequenceSpec F) (sub : AdvancedState) (obs : Observation F) :
    Bool :=
  (sequence.withinBars.any fun n => decide (n < sub.barsSinceArm + 1)) ||
    match sequence.withinS, sub.armedTs with
    | some s, some armedTs => decide (s * 1000000 < obs.ts - armedTs)
    | _, _ => false

/-- An armed sequence whose bound has elapsed is disarmed first. -/
def SequenceSpec.expire (sequence : SequenceSpec F) (sub : AdvancedState) (obs : Observation F) :
    AdvancedState :=
  if sub.armed && sequence.expired sub obs then sub.disarm else sub

/-- The armed half of `_apply_sequence`: the bar counts, and `then` completes. -/
def completeSequence (sequence : SequenceSpec F) (input : EvalInput F) (sub : AdvancedState)
    (working : EvalState F) : Except PyErr (MachineStep × EvalState F) := do
  let leg ← runGroups input sequence.andThen working
  let sub := { sub with barsSinceArm := sub.barsSinceArm + 1 }
  .ok (if leg.matched = some true then ⟨true, true, sub.disarm⟩ else ⟨false, false, sub⟩, leg.state)

/-- The other half: `first` arms. -/
def armSequence (sequence : SequenceSpec F) (input : EvalInput F) (sub : AdvancedState)
    (working : EvalState F) : Except PyErr (MachineStep × EvalState F) := do
  let leg ← runGroups input sequence.first working
  let armed : AdvancedState :=
    { sub with
      armed := true, armedTs := some input.obs.ts, armedBarTs := some input.obs.ts, barsSinceArm := 0 }
  .ok (⟨false, false, if leg.matched = some true then armed else sub⟩, leg.state)

/-- `_apply_sequence`: `first` arms, `then` completes on a later bar within the
bounds, and completing disarms. -/
def applySequence (sequence : SequenceSpec F) (input : EvalInput F) (sub : AdvancedState)
    (working : EvalState F) : Except PyErr (MachineStep × EvalState F) :=
  let sub := sequence.expire sub input.obs
  if sub.armed then completeSequence sequence input sub working
  else armSequence sequence input sub working

/-- `evaluate_stage`: the stage's groups, then its streak or its sequence, which
replace the stage's own signal. -/
def evaluateStage (stage : Stage F) (input : EvalInput F) (state : EvalState F) :
    Except PyErr (PredicateResult F) := do
  let own ← runGroups input stage.groupPairs state
  let sub := advancedState own.state stage.id input.obs
  match stage.consecutiveBars, stage.sequence with
  | some required, _ =>
    let step := applyConsecutiveBars required own.matched sub
    .ok ⟨some step.matched, step.fired,
      (own.evidence.set "consecutive_bars" (.int required)).set "consecutive_count"
        (.int step.sub.streak),
      commitAdvancedState own.state stage.id step.sub input.obs⟩
  | none, some sequence => do
    let step ← applySequence sequence input sub own.state
    .ok ⟨some step.1.matched, step.1.fired, own.evidence,
      commitAdvancedState step.2 stage.id step.1.sub input.obs⟩
  | none, none =>
    .ok ⟨own.matched, own.matched == some true && own.anyFired, own.evidence, own.state⟩

end KiteAlgo
