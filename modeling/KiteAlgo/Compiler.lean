import KiteAlgo.Parser

/-!
# KiteAlgo.Compiler

`compile_document` (`workflows/compiler.py`): the total validation of a parsed
document, its canonical JSON and its hash.

A validator appends issues; it can also raise (`float(n)` of a huge integer),
so each one is a `Check`, and a document is accepted when every check of it
passes.
-/

namespace KiteAlgo

open List
/-! ## issues and checks -/

/-- `ValidationIssue.code`. -/
inductive IssueCode where
  | unknownOperator
  | unknownField
  | unknownCapability
  | missingReference
  | cycle
  | duplicateId
  | timeframeMissing
  | timeframeUnsupported
  | badValue
  | sessionMismatch
  | levelOnlyNeverFires
  deriving DecidableEq, Repr

inductive Severity where
  | error
  | warning
  deriving DecidableEq, Repr

structure ValidationIssue where
  where_ : String
  code : IssueCode
  message : String
  severity : Severity := .error
  deriving DecidableEq, Repr

def ValidationIssue.isError (i : ValidationIssue) : Bool := decide (i.severity = .error)

/-- The issues a validator appends, or the exception it raises. -/
abbrev Check := Except PyErr (List ValidationIssue)

namespace Check

/-- Append one issue when the condition holds. -/
def report (c : Bool) (where_ : String) (code : IssueCode) (message : String) : Check :=
  .ok (if c then [{ where_, code, message }] else [])

def issue (where_ : String) (code : IssueCode) (message : String) : Check :=
  report true where_ code message

def clean : Check := .ok []

/-- Validators in their order, up to the first exception. -/
def all : List Check → Check
  | [] => clean
  | c :: cs => do
    let is ← c
    let js ← all cs
    .ok (is ++ js)

/-- A validator for each item, with its index. -/
def each (f : Nat → α → Check) (as : List α) : Check := all (as.mapIdx f)

/-- The check returns without an error issue. -/
def passes : Check → Bool
  | .ok is => !is.any ValidationIssue.isError
  | .error _ => false

@[simp] theorem passes_clean : clean.passes := rfl

@[simp] theorem passes_report (c : Bool) (where_ : String) (code : IssueCode) (message : String) :
    (report c where_ code message).passes = !c := by
  cases c <;> rfl

@[simp] theorem passes_issue (where_ : String) (code : IssueCode) (message : String) :
    (issue where_ code message).passes = false := rfl

@[simp] theorem passes_all_nil : (all []).passes := rfl

@[simp] theorem passes_all_cons (c : Check) (cs : List Check) :
    (all (c :: cs)).passes = (c.passes && (all cs).passes) := by
  cases c with
  | error e => rfl
  | ok is =>
    cases hcs : all cs with
    | error e => simp [all, hcs, passes]
    | ok js => simp [all, hcs, passes, Bool.not_or]

theorem passes_all {cs : List Check} : (all cs).passes ↔ ∀ c ∈ cs, c.passes := by
  induction cs with
  | nil => simp
  | cons c cs ih => simp [ih]

theorem passes_each {f : Nat → α → Check} {as : List α} :
    (each f as).passes ↔ ∀ i (h : i < as.length), (f i (as.get ⟨i, h⟩)).passes := by
  unfold each
  rw [passes_all]
  constructor
  · intro h i hi
    exact h _ (mem_mapIdx.mpr ⟨i, hi, rfl⟩)
  · intro h c hc
    obtain ⟨i, hi, rfl⟩ := mem_mapIdx.mp hc
    exact h i hi

theorem exists_passes_of_each {f : Nat → α → Check} {as : List α}
    (h : (each f as).passes) {a : α} (ha : a ∈ as) : ∃ i, (f i a).passes := by
  obtain ⟨⟨i, hi⟩, rfl⟩ := mem_iff_get.mp ha
  exact ⟨i, passes_each.mp h i hi⟩

end Check

open Check

namespace Compile

variable {F : Type} [PyFloat F]

/-! ## limits -/

def maxStages : Nat := 64

def maxAlerts : Nat := 256

def maxInstruments : Nat := 1000

def maxConditionsPerStage : Nat := 32

/-- `repr` of a list of texts. -/
def reprNames (names : List String) : String :=
  "[" ++ Text.join ", " (names.map PyVal.reprStr) ++ "]"

/-- `sorted(NAMES)` as an issue quotes it. -/
def supported (E : Type) [Named E] : String :=
  reprNames (sortBy Text.le ((Named.all : List E).map Named.name))

/-! ## operands -/

/-- `_coerce_expression_arg`: a raw arithmetic argument as an operand; `float` of
a huge integer raises. -/
def coerceExpressionArg (arg : PyVal F) : Except PyErr (Option (Operand F)) :=
  match arg with
  | .int n =>
    match (PyFloat.ofInt n : Option F) with
    | some f => .ok (some { kind := .value, value := f })
    | none => .error .overflow
  | .float f => .ok (some { kind := .value, value := f })
  | .dict d =>
    if ["kind", "field", "indicator", "value"].any fun k => Dict.contains d (Key.str k) then
      match Parse.operand arg "expr" with
      | .ok o => .ok (some o)
      | .error _ => .ok none
    else if d.any fun e => isArithmeticKey e.1 then
      .ok (some { kind := .indicator, params := d })
    else .ok none
  | _ => .ok none

def validateValueOperand (operand : Operand F) (where_ : String) : Check :=
  match operand.value with
  | none => issue where_ .badValue "value operand has no value"
  | some v =>
    report (!PyFloat.isFinite v) where_ .badValue
      ("value operand must be finite, got " ++ PyFloat.repr v)

def validateFieldOperand (operand : Operand F) (where_ : String) : Check :=
  let name := operand.name.getD ""
  if name = "" then issue where_ .badValue "field operand has no name"
  else if isNamespacedField name then
    let domain := (Text.partition name '.').1
    if domain = "fundamentals" ∧ name ∈ fundamentalsFields then clean
    else if isExternalField name then clean
    else if domain = "external" then
      issue where_ .badValue
        ("'" ++ name ++ "' is not a valid external reference; use external.<producer>.<field> " ++
          "with a registered producer name")
    else
      issue where_ .unknownCapability
        ("field '" ++ name ++ "' belongs to capability domain '" ++ domain ++ "' which is not available")
  else
    report (!isKnownField name) where_ .unknownField
      ("unknown field '" ++ name ++ "' (supported: " ++ supported FieldName ++ ")")

/-- An integer parameter of a pair in bounds. -/
def isIntBetween (low high : Int) : PyVal F → Bool
  | .int n => decide (low ≤ n) && decide (n ≤ high)
  | _ => false

def isInstrumentKey : PyVal F → Bool
  | .str s => Text.hasChar s ':'
  | _ => false

def samePairLegs (params : Dict Key (PyVal F)) : Option String :=
  match params.get? "instrument", params.get? "reference" with
  | some (.str a), some (.str b) => if a = b then some a else none
  | _, _ => none

/-- `_validate_pair_operand` for a known computation. -/
def validatePairParams (kind : PairComputation) (params : Dict Key (PyVal F)) (where_ : String) :
    Check :=
  let name := Named.name kind
  let allowed := kind.requires ++ kind.optional
  let sub := Parse.sub where_
  all
    [each (fun _ key =>
        report (Parse.present params key).isNone (sub key) .badValue
          ("pair computation '" ++ name ++ "' requires '" ++ key ++ "'")) kind.requires,
     each (fun _ (e : Key × PyVal F) =>
        report (!allowed.any fun k => decide (Key.str k = e.1)) (sub (PyVal.keyText e.1)) .badValue
          ("unknown key '" ++ PyVal.keyText e.1 ++ "' for pair computation '" ++ name ++
            "' (supported: " ++ reprNames (sortBy Text.le allowed) ++ ")")) params,
     each (fun _ side =>
        match Parse.present params side with
        | none => clean
        | some v =>
          report (!isInstrumentKey v) (sub side) .badValue
            ("pair '" ++ side ++ "' must be an exchange-qualified instrument key like " ++
              "'NSE:INFY', got " ++ v.repr)) ["instrument", "reference"],
     (match samePairLegs params with
      | none => clean
      | some leg =>
        issue where_ .badValue
          ("a pair operand needs two DIFFERENT instruments (both were '" ++ leg ++ "')")),
     (match Parse.present params "field" with
      | none => clean
      | some v =>
        report (!kind.fields.any fun f => v.scalarEq (.str f)) (sub "field") .badValue
          ("pair computation '" ++ name ++ "' reads " ++ reprNames kind.fields ++ ", got " ++ v.repr)),
     (match kind with
      | .pairRatio => clean
      | .relativeStrength =>
        let lookback := (params.get? "lookback").getD .none
        report (!isIntBetween 1 500 lookback) (sub "lookback") .badValue
          ("lookback must be an integer between 1 and 500, got " ++ lookback.repr)),
     (match params.get? "max_skew_bars" with
      | none => clean
      | some skew =>
        report (!isIntBetween 0 2 skew) (sub "max_skew_bars") .badValue
          ("max_skew_bars must be between 0 and 2, got " ++ skew.repr))]

def validatePairOperand (operand : Operand F) (where_ : String) : Check :=
  let kind := operand.name.getD ""
  match Named.ofName? (E := PairComputation) kind with
  | none =>
    issue where_ .unknownCapability
      ("unknown pair computation '" ++ kind ++ "' (supported: " ++ supported PairComputation ++ ")")
  | some k => validatePairParams k operand.params where_

/-- The value of a parameter lies in its bounds. -/
def paramInBounds (p : ParamSpec) (v : PyVal F) : Bool := v.isNumber && v.between p.low p.high

/-- The parameters of a feature: unknown names, then the defaults overridden by
the given values in their bounds.  `what` is the word the messages use. -/
def validateFeatureParams (f : FeatureFunction) (given : Dict Key (PyVal F)) (what where_ : String) :
    Check :=
  let name := Named.name f
  let at_ (key : Key) : String := where_ ++ ".params." ++ PyVal.keyText key
  let params := (given.filter fun e => (f.param? e.1).isSome).foldl
    (fun acc e => Dict.set acc e.1 e.2) (f.defaults : Dict Key (PyVal F))
  all
    [each (fun _ (e : Key × PyVal F) =>
        report (f.param? e.1).isNone (at_ e.1) .badValue
          ("unknown param '" ++ PyVal.keyText e.1 ++ "' for " ++ what ++ " '" ++ name ++
            "' (supported: " ++ reprNames (sortBy Text.le (f.params.map ParamSpec.name)) ++ ")")) given,
     each (fun _ (e : Key × PyVal F) =>
        match f.param? e.1 with
        | none => clean
        | some p =>
          report (!paramInBounds p e.2) (at_ e.1) .badValue
            ("param '" ++ p.name ++ "' for " ++ what ++ " '" ++ name ++ "' must be a number in " ++
              p.bounds ++ ", got " ++ e.2.repr)) params]

/-- The source override of a named indicator. -/
def validateIndicatorSource (operand : Operand F) (name where_ : String) : Check :=
  match operand.source with
  | none => clean
  | some source =>
    if isKnownField source then
      report ((Named.ofName? (E := FeatureFunction) name).any fun f => decide (1 < f.inputs.length))
        (where_ ++ ".source") .badValue
        ("indicator '" ++ name ++ "' needs multiple inputs; a single source override is not valid")
    else
      issue (where_ ++ ".source") .unknownField
        ("unknown indicator source field '" ++ source ++ "'")

/-- A `stage:<id>` reference. -/
def validateStageReference (operand : Operand F) (name where_ : String)
    (featureIds : Option (List String)) : Check :=
  let refId := Text.dropFront name 6
  all
    [if refId = "" then
       issue where_ .badValue "stage reference must name a feature stage (stage:<id>)"
     else
       report (!(featureIds.getD []).contains refId) where_ .missingReference
         ("stage reference '" ++ name ++ "' does not resolve to a declared feature stage " ++
           "(type: feature with a function)"),
     report operand.source.isSome (where_ ++ ".source") .badValue
       "a stage reference takes no source override",
     report (operand.offset.any (· ≠ 0)) (where_ ++ ".offset") .badValue
       "a stage reference takes no offset"]

def validateNamedIndicator (operand : Operand F) (name where_ : String) : Check :=
  all
    [(match Named.ofName? (E := FeatureFunction) name with
      | none =>
        issue where_ .unknownCapability
          ("unknown indicator function '" ++ name ++ "' (supported: " ++ supported FeatureFunction ++ ")")
      | some f =>
        validateFeatureParams f (operand.params.filter fun e => !isArithmeticKey e.1) "indicator"
          where_),
     validateIndicatorSource operand name where_,
     report (operand.offset.any fun n => decide (n < 0) || decide (100 < n)) (where_ ++ ".offset")
       .badValue
       ("offset must be an integer in [0, 100], got " ++ toString (operand.offset.getD 0)),
     (match Named.ofName? (E := FeatureFunction) name with
      | none => clean
      | some f =>
        each (fun _ (e : Key × PyVal F) =>
          report ((f.param? e.1).isNone && !isArithmeticKey e.1)
            (where_ ++ ".params." ++ PyVal.keyText e.1) .badValue
            ("unknown param '" ++ PyVal.keyText e.1 ++ "' for indicator '" ++ name ++ "'"))
          operand.params)]

/-- The keys of an expression that are no arithmetic operator. -/
def validateExpressionKeys (params : Dict Key (PyVal F)) (where_ : String) : Check :=
  each (fun _ (e : Key × PyVal F) =>
    report (!isArithmeticKey e.1) (where_ ++ ".params." ++ PyVal.keyText e.1) .badValue
      ("unknown expression key '" ++ PyVal.keyText e.1 ++ "'")) params

/-- `_validate_indicator_operand`, where `levels` more arithmetic levels are
allowed (`MAX_ARITHMETIC_DEPTH - _depth`). -/
def validateIndicatorOperand (featureIds : Option (List String)) :
    Nat → Operand F → String → Check
  | levels, operand, where_ =>
    match operand.kind with
    | .value => validateValueOperand operand where_
    | .pair => validatePairOperand operand where_
    | .field => validateFieldOperand operand where_
    | .indicator =>
      match operand.name with
      | some name =>
        if Text.startsWith name "stage:" then
          validateStageReference operand name where_ featureIds
        else validateNamedIndicator operand name where_
      | none =>
        all
          [validateExpressionKeys operand.params where_,
           (match operand.params.filter fun e => isArithmeticKey e.1 with
            | [(op, args)] =>
              match levels with
              | 0 =>
                issue where_ .badValue
                  ("arithmetic nesting exceeds the maximum depth of " ++ toString maxArithmeticDepth)
              | levels + 1 =>
                let here := where_ ++ ".params." ++ PyVal.keyText op
                match args with
                | .list [a, b] =>
                  each (fun i arg => do
                    match ← coerceExpressionArg arg with
                    | none =>
                      issue (Parse.item here i) .badValue
                        ("arithmetic arguments must be numbers or operand mappings, " ++ "got " ++ arg.repr)
                    | some child =>
                      validateIndicatorOperand featureIds levels child
                        (Parse.item here i)) [a, b]
                | _ =>
                  issue here .badValue
                    ("arithmetic '" ++ PyVal.keyText op ++ "' requires exactly 2 operand arguments")
            | _ =>
              issue where_ .badValue
                ("an arithmetic operand requires exactly one of " ++ supported ArithmeticOp))]

def validateOperand (featureIds : Option (List String)) (operand : Operand F) (where_ : String) :
    Check :=
  match operand.kind with
  | .field => validateFieldOperand operand where_
  | .value => validateValueOperand operand where_
  | .pair => validatePairOperand operand where_
  | .indicator => validateIndicatorOperand featureIds maxArithmeticDepth operand where_

/-! ## conditions -/

/-- `not isinstance(v, (int, float)) or not math.isfinite(float(v))`; `float` of a
huge integer raises. -/
def isUnboundedNumber : PyVal F → Except PyErr Bool
  | .int n =>
    match (PyFloat.ofInt n : Option F) with
    | some f => .ok (!PyFloat.isFinite f)
    | none => .error .overflow
  | .float f => .ok (!PyFloat.isFinite f)
  | _ => .ok true

/-- One bound of `within`. -/
def validateBound (v : PyVal F) (where_ text : String) : Check := do
  let bad ← isUnboundedNumber v
  report bad where_ .badValue (text ++ v.repr)

def validateWithinBounds (c : Condition F) (where_ : String) : Check :=
  let hi := (c.right.params.get? "hi").getD .none
  let lo :=
    match c.right.value with
    | some v => .float v
    | none => (c.right.params.get? "lo").getD .none
  all
    [validateBound hi (where_ ++ ".right.params.hi")
       ("operator 'within' requires a finite numeric upper bound in the right operand's 'hi' " ++
         "param, got "),
     validateBound lo
       (if c.right.value.isNone then where_ ++ ".right.params.lo" else where_ ++ ".right.value")
       ("operator 'within' requires a finite numeric lower bound in the right operand's value, " ++ "got ")]

def validateHysteresis (c : Condition F) (h : HysteresisSpec F) (where_ : String) : Check :=
  let path := where_ ++ ".hysteresis"
  let needsConstant :=
    issue path .badValue
      ("hysteresis requires a constant threshold (right: \x7bvalue: <number>\x7d); dynamic release " ++
        "operands are not implemented")
  let compare (ok : Bool) (side : String) (level : F) : Check :=
    report (!ok) (path ++ ".release") .badValue
      ("release (" ++ PyFloat.repr h.release ++ ") must be " ++ side ++ " the threshold (" ++
        PyFloat.repr level ++ ") for '" ++ c.op.text ++ "'")
  match c.op with
  | .known .gt | .known .gte =>
    match c.right.kind, c.right.value with
    | .value, some level => compare (PyFloat.lt h.release level) "below" level
    | _, _ => needsConstant
  | .known .lt | .known .lte =>
    match c.right.kind, c.right.value with
    | .value, some level => compare (PyFloat.lt level h.release) "above" level
    | _, _ => needsConstant
  | _ =>
    issue path .badValue
      ("hysteresis is valid on ['gt', 'gte', 'lt', 'lte'], got '" ++ c.op.text ++ "'")

/-- A context-resolved field outside `breaks_prev_high` and `breaks_prev_low`. -/
def validateContextField (operand : Operand F) (where_ : String) : Check :=
  report (decide (operand.kind = .field) && isContextField (operand.name.getD "")) where_ .badValue
    ("field '" ++ operand.name.getD "" ++ "' is context-resolved and only valid as the right " ++
      "operand of breaks_prev_high/breaks_prev_low")

/-- The operator reads the previous day's levels. -/
def isBreakOp (op : OpenName Op) : Bool :=
  decide (op = .known .breaksPrevHigh) || decide (op = .known .breaksPrevLow)

def validateCondition (featureIds : Option (List String)) (c : Condition F) (where_ : String) :
    Check :=
  all
    [report (!c.op.isKnown) where_ .unknownOperator ("unknown operator '" ++ c.op.text ++ "'"),
     (if c.op = .known .within then validateWithinBounds c where_ else clean),
     validateOperand featureIds c.left (where_ ++ ".left"),
     validateOperand featureIds c.right (where_ ++ ".right"), (if isBreakOp c.op then clean
      else
        all [validateContextField c.left (where_ ++ ".left"),
          validateContextField c.right (where_ ++ ".right")]),
     (match c.hysteresis with
      | none => clean
      | some h => validateHysteresis c h where_)]

/-- The conditions of one group, with their indices. -/
def validateConditions (featureIds : Option (List String)) (cs : List (Condition F))
    (where_ : String) : Check :=
  each (fun i c => validateCondition featureIds c (Parse.item where_ i)) cs

def validateConditionGroup (g : ConditionGroup F) (where_ : String) : Check :=
  all
    [report (decide (g.kind = .not) && decide (g.conditions.length ≠ 1)) where_ .badValue
       "a 'not' group takes exactly one condition",
     report (decide (maxConditionsPerGroup < g.conditions.length)) where_ .badValue
       ("at most " ++ toString maxConditionsPerGroup ++ " conditions per group"),
     report g.conditions.isEmpty where_ .badValue "group must contain conditions",
     validateConditions none g.conditions where_]

/-- The groups of a sequence leg or a breadth condition. -/
def validateGroups (gs : List (ConditionGroup F)) (path : String) : Check :=
  each (fun i g => validateConditionGroup g (Parse.item path i ++ "." ++ Named.name g.kind)) gs

/-! ## stages -/

def validateSequence (s : SequenceSpec F) (where_ : String) : Check :=
  let path := where_ ++ ".sequence"
  all
    [report s.first.isEmpty (path ++ ".first") .badValue "'first' must not be empty",
     report s.andThen.isEmpty (path ++ ".then") .badValue "'then' must not be empty",
     report (s.withinBars.isNone && s.withinS.isNone) path .badValue
       "a sequence requires at least one bound: 'within_bars' or 'within'",
     (match s.withinBars with
      | none => clean
      | some n =>
        report (!(decide (1 ≤ n) && decide (n ≤ 500))) (path ++ ".within_bars") .badValue
          ("must be between 1 and 500, got " ++ toString n)),
     (match s.withinS with
      | none => clean
      | some n =>
        report (!(decide (60 ≤ n) && decide (n ≤ 30 * 24 * 3600))) (path ++ ".within") .badValue
          ("must be between 60s and 2592000s, got " ++ toString n ++ "s")),
     validateGroups s.first (path ++ ".first"), validateGroups s.andThen (path ++ ".then")]

def validateBreadth (b : BreadthSpec F) (where_ : String) : Check :=
  let path := where_ ++ ".breadth"
  all
    [(match b.mode with
      | .other _ _ =>
        issue (path ++ ".mode") .unknownCapability
          ("breadth mode '" ++ b.mode.text ++ "' is not available (supported: " ++
            supported BreadthMode ++ ")")
      | .known m =>
        report (!m.isImplemented) (path ++ ".mode") .unknownCapability
          ("breadth mode '" ++ b.mode.text ++ "' is not implemented (windowed distinct-symbol " ++
            "participation is the only supported form; simultaneous breadth is deferred until " ++
            "separately specified)")),
     report (!(decide (2 ≤ b.distinctInstruments) && decide (b.distinctInstruments ≤ 1000)))
       (path ++ ".distinct_instruments") .badValue
       ("must be between 2 and 1000, got " ++ toString b.distinctInstruments),
     report (!(decide (60 ≤ b.windowS) && decide (b.windowS ≤ 24 * 3600))) (path ++ ".window")
       .badValue ("must be between 60s and 86400s, got " ++ toString b.windowS ++ "s"),
     report b.condition.isEmpty (path ++ ".condition") .badValue "must contain conditions",
     validateGroups b.condition (path ++ ".condition")]

def hasConditions (s : Stage F) : Bool :=
  !s.conditions.isEmpty || !s.anyConditions.isEmpty || !s.notConditions.isEmpty

/-- The `consecutive_bars` part of `_validate_advanced_stage`. -/
def validateConsecutiveBars (s : Stage F) (n : Int) (where_ : String) : Check :=
  let path := where_ ++ ".consecutive_bars"
  all
    [report (decide (s.type ≠ .known .signal)) path .badValue
       "'consecutive_bars' is only valid on signal stages",
     report (decide (s.clock ≠ .known .candleClose)) path .badValue
       ("'consecutive_bars' requires clock 'candle_close' (consecutive bars are counted over " ++
         "completed candles)"),
     report (!hasConditions s || s.sequence.isSome || s.breadth.isSome) path .badValue
       ("'consecutive_bars' applies to the stage's own conditions and cannot be combined with " ++
         "'sequence' or 'breadth'"),
     report (!(decide (1 ≤ n) && decide (n ≤ 50))) path .badValue
       ("must be an integer between 1 and 50, got " ++ toString n)]

def validateAdvancedStage (s : Stage F) (where_ : String) : Check :=
  all
    [(match s.consecutiveBars with
      | none => clean
      | some n => validateConsecutiveBars s n where_),
     (match s.sequence with
      | none => clean
      | some q =>
        let path := where_ ++ ".sequence"
        all
          [report (decide (s.type ≠ .known .signal)) path .badValue
             "'sequence' is only valid on signal stages",
           report (decide (s.clock ≠ .known .candleClose)) path .badValue
             ("'sequence' requires clock 'candle_close' (A-then-B progress is counted over " ++
               "completed bars)"),
           report (hasConditions s || s.breadth.isSome || s.consecutiveBars.isSome) path .badValue
             ("'sequence' replaces the stage's own conditions and cannot be combined with " ++
               "'conditions', 'consecutive_bars' or 'breadth'"),
           validateSequence q where_]),
     (match s.breadth with
      | some b =>
        let path := where_ ++ ".breadth"
        all
          [report (decide (s.type ≠ .known .breadth)) path .badValue
             "a 'breadth' block requires stage type 'breadth'",
           report (decide (s.clock ≠ .known .candleClose)) path .badValue
             "'breadth' requires clock 'candle_close'",
           report (hasConditions s || s.sequence.isSome || s.consecutiveBars.isSome) path .badValue
             ("'breadth' cannot be combined with 'conditions', 'sequence' or " ++ "'consecutive_bars'"),
           validateBreadth b where_]
      | none =>
        report (decide (s.type = .known .breadth)) where_ .badValue
          "stage type 'breadth' requires a 'breadth' block")]

def validateFeatureStage (s : Stage F) (where_ : String) : Check :=
  match s.function.bind (Named.ofName? (E := FeatureFunction)) with
  | none =>
    issue (where_ ++ ".function") .unknownCapability
      ("unknown feature function '" ++ s.function.getD "None" ++ "' (supported: " ++
        supported FeatureFunction ++ ")")
  | some f =>
    all
      [validateFeatureParams f s.stageParams "feature" where_, (match s.sourceField with
        | none => clean
        | some source =>
          if isKnownField source then
            report (decide (1 < f.inputs.length)) (where_ ++ ".source") .badValue
              ("feature '" ++ Named.name f ++ "' needs fields " ++ reprNames (f.inputs.map Named.name) ++
                "; a single source override is not valid")
          else
            issue (where_ ++ ".source") .unknownField
              ("unknown feature source field '" ++ source ++ "'"))]

/-- An operand of `_stage_is_fundamentals_only`. -/
def isFundamentalsOnlyOperand (o : Operand F) : Bool :=
  match o.kind with
  | .field => o.name.any isFundamentalsName
  | .value => true
  | _ => false

def stageIsFundamentalsOnly (s : Stage F) : Bool :=
  hasConditions s && (s.conditions ++ s.anyConditions ++ s.notConditions).all fun c =>
      isFundamentalsOnlyOperand c.left && isFundamentalsOnlyOperand c.right

def validateClock (s : Stage F) (where_ : String) : Check :=
  match s.clock with
  | .other _ _ =>
    issue where_ .unknownCapability
      ("clock '" ++ s.clock.text ++ "' is not available in Phase 1 (supported: " ++ supported Clock ++ ")")
  | .known .ltp => clean
  | .known .candleClose =>
    let path := where_ ++ ".timeframe"
    match s.timeframe with
    | none =>
      issue path .timeframeMissing
        (if stageIsFundamentalsOnly s then
          "fundamentals conditions evaluate on the declared candle clock (no dedicated " ++
            "fundamentals stream exists): specify a timeframe (e.g. timeframe: 1d) so the " ++
            "stage is dispatched"
         else "clock 'candle_close' requires a timeframe")
    | some tf =>
      report (!isSupportedTimeframe tf) path .timeframeUnsupported
        ("timeframe '" ++ tf ++ "' is not supported (supported: " ++ supported Timeframe ++ ")")

def validateInput (hasUniverse : Bool) (stageIds : List String) (s : Stage F) (where_ : String) :
    Check :=
  let path := where_ ++ ".input"
  match s.input with
  | none => clean
  | some input =>
    if stageIds.contains input then
      report (decide (s.type = .known .feature)) path .badValue
        ("feature stages do not take an upstream input; they compute over completed candles of " ++
          "their timeframe")
    else if input = "universe" then
      report (!hasUniverse) path .missingReference
        "stage input references 'universe' but the document declares no universe expression"
    else
      issue path .missingReference ("stage input references unknown stage '" ++ input ++ "'")

/-- The limits on the size of the condition groups. -/
def validateGroupSizes (s : Stage F) (where_ : String) : Check :=
  let tooMany (n limit : Nat) (key text : String) : Check :=
    report (decide (limit < n)) (where_ ++ key) .badValue
      (text ++ " (" ++ toString n ++ " > " ++ toString limit ++ ")")
  all
    [tooMany s.conditions.length maxConditionsPerStage ".conditions" "too many conditions",
     tooMany s.anyConditions.length maxConditionsPerGroup ".any"
       "too many conditions in 'any' group",
     tooMany s.notConditions.length maxConditionsPerGroup ".not"
       "too many conditions in 'not' group"]

def validateStage (hasUniverse : Bool) (featureIds stageIds : List String) (s : Stage F) : Check :=
  if s.id = "" then clean else
    let where_ := "stages." ++ s.id
    all
      [report (!s.type.isKnown) where_ .unknownCapability
         ("stage type '" ++ s.type.text ++ "' is not available (supported: " ++ supported StageType ++ ")"),
       (if s.type = .known .feature then validateFeatureStage s where_
        else
          report s.function.isSome (where_ ++ ".function") .badValue
            "'function' is only valid on feature stages"),
       validateAdvancedStage s where_, validateClock s where_, validateInput hasUniverse stageIds s where_,
       validateGroupSizes s where_,
       validateConditions (some featureIds) s.conditions (where_ ++ ".conditions"),
       validateConditions (some featureIds) s.anyConditions (where_ ++ ".any"),
       validateConditions (some featureIds) s.notConditions (where_ ++ ".not")]

/-! ## the stage graph -/

inductive Colour where
  | white
  | gray
  | black
  deriving DecidableEq, Repr

/-- The state of `_detect_cycles`. -/
structure CycleSearch where
  colour : Dict String Colour
  reported : List String := []
  issues : List ValidationIssue := []

/-- Report the members of a cycle that were not reported before. -/
def reportCycle (cycle : List String) (st : CycleSearch) : List String → CycleSearch
  | [] => st
  | member :: members =>
    if st.reported.contains member then reportCycle cycle st members
    else
      reportCycle cycle
        { st with
          reported := st.reported ++ [member], issues := st.issues ++
            [{ where_ := "stages." ++ member, code := .cycle,
               message := "stage input cycle detected: " ++ Text.join " -> " cycle }] }
        members

/-- `visit` of `_detect_cycles`.  Each nested call turns a white node gray, so
the number of nodes bounds the depth. -/
def visitStage (edges : Dict String String) :
    Nat → CycleSearch → String → List String → CycleSearch
  | 0, st, _, _ => st
  | fuel + 1, st, node, trail =>
    let st := { st with colour := st.colour.set node .gray }
    let trail := trail ++ [node]
    let st :=
      match edges.get? node with
      | none => st
      | some next =>
        match st.colour.get? next with
        | some .gray =>
          let members := trail.drop (trail.idxOf next)
          reportCycle (members ++ [next]) st members
        | some .white => visitStage edges fuel st next trail
        | _ => st
    { st with colour := st.colour.set node .black }

def detectCycles (stages : List (Stage F)) : List ValidationIssue :=
  if 1000 < stages.length then [] else
    let named := stages.filter fun s => s.id ≠ ""
    let edges := named.foldl (fun acc s =>
      match s.input with
      | some input => if input = "" then acc else Dict.set acc s.id input
      | none => acc) ([] : Dict String String)
    let colour := named.foldl (fun acc s => Dict.set acc s.id Colour.white) ([] : Dict String Colour)
    let visitIfWhite (st : CycleSearch) (id : String) : CycleSearch :=
      if st.colour.get? id = some .white then visitStage edges colour.length st id [] else st
    (colour.keys.foldl visitIfWhite { colour }).issues

/-- The walk of `_validate_chain_depth` from one stage: `true` when the chain is
too deep or comes back to a stage it has seen. -/
def chainTooDeep (byId : Dict String (Stage F)) : Nat → List String → Stage F → Bool
  | fuel, seen, cursor =>
    match cursor.input with
    | none => false
    | some input =>
      seen.contains cursor.id || match fuel with
        | 0 => true
        | fuel + 1 =>
          match byId.get? input with
          | none => false
          | some next => chainTooDeep byId fuel (cursor.id :: seen) next

def validateChainDepth (stages : List (Stage F)) : Check :=
  let byId := (stages.filter fun s => s.id ≠ "").foldl (fun acc s => Dict.set acc s.id s)
    ([] : Dict String (Stage F))
  each (fun _ s =>
    report (chainTooDeep byId (maxInputChainDepth + 1) [] s) ("stages." ++ s.id ++ ".input")
      .badValue ("input chain exceeds the maximum depth of " ++ toString maxInputChainDepth))
    byId.values

/-- The ids of the feature stages that name a function. -/
def featureStageIds (stages : List (Stage F)) : List String :=
  (stages.filter fun s => decide (s.type = .known .feature) && s.function.any (· ≠ "")).map Stage.id

def validateStages (hasUniverse : Bool) (stages : List (Stage F)) (stageIds : List String) : Check :=
  all
    [each (fun _ s => validateStage hasUniverse (featureStageIds stages) stageIds s) stages,
     .ok (detectCycles stages), validateChainDepth stages]

/-! ## the document -/

/-- `_collect_ids`: the ids seen, and an issue for an empty or repeated one. -/
def collectIds (label one : String) : Nat → List String → List String → List String × Check
  | _, seen, [] => (seen, clean)
  | i, seen, id :: ids =>
    let where_ := Parse.item label i
    if id = "" then
      let rest := collectIds label one (i + 1) seen ids
      (rest.1, all [issue where_ .badValue (one ++ " id must not be empty"), rest.2])
    else if seen.contains id then
      let rest := collectIds label one (i + 1) seen ids
      (rest.1, all [issue where_ .duplicateId ("duplicate " ++ one ++ " id '" ++ id ++ "'"), rest.2])
    else collectIds label one (i + 1) (seen ++ [id]) ids

def validateSessionCap (a : AlertSpec F) (where_ : String) : Check :=
  match a.maxPerSession with
  | none =>
    report a.sessionCapReset.isSome (where_ ++ ".session_cap_reset") .badValue
      "'session_cap_reset' requires 'max_per_session'"
  | some n =>
    all
      [report (!(decide (1 ≤ n) && decide (n ≤ 1000))) (where_ ++ ".max_per_session") .badValue
         ("must be an integer between 1 and 1000, got " ++ toString n),
       report (a.sessionCapReset.any (· ≠ "session")) (where_ ++ ".session_cap_reset") .badValue
         ("unsupported reset '" ++ a.sessionCapReset.getD "" ++ "' (supported: ['session']). " ++
           "Exchange-hours resets are not available: MCX/currency sessions are feed-driven and " ++
           "have no session calendar, so the boundary is the resolved session id (the IST date " ++
           "for those segments)")]

/-- The checks of one alert; `fromIso` is `datetime.fromisoformat`. -/
def validateAlert (fromIso : String → Option Int) (stageIds : List String) (a : AlertSpec F) :
    Check :=
  if a.id = "" then clean else
    let where_ := "alerts." ++ a.id
    all
      [(if a.source = "" then
          issue (where_ ++ ".source") .badValue "alert source must not be empty"
        else
          report (!stageIds.contains a.source) (where_ ++ ".source") .missingReference
            ("alert references unknown stage '" ++ a.source ++ "'")),
       report (!a.trigger.isKnown) (where_ ++ ".trigger") .badValue
         ("unknown trigger '" ++ a.trigger.text ++ "' (supported: " ++ supported Trigger ++ ")"),
       report (a.cooldownS.any fun n => decide (n < 0)) (where_ ++ ".cooldown_s") .badValue
         "cooldown_s must be >= 0",
       report (a.reminderIntervalS.any fun n => decide (n ≤ 0)) (where_ ++ ".reminder_interval_s")
         .badValue "reminder_interval_s must be > 0",
       report (a.rearmLevel.isNone != a.rearmDirection.isNone) (where_ ++ ".rearm") .badValue
         "rearm_level and rearm_direction must be set together",
       validateSessionCap a where_, (match a.expiresAt with
        | none => clean
        | some e =>
          report (fromIso (Text.replaceChar e 'Z' "+00:00")).isNone (where_ ++ ".expires_at")
            .badValue ("expires_at must be an ISO-8601 timestamp, got '" ++ e ++ "'"))]

/-- The references of one list of a universe expression. -/
def validateUniverseRefs (refs : List UniverseRef) (key text : String) : Check :=
  each (fun i (r : UniverseRef) =>
    report (decide (r.name = "")) (Parse.item ("document.universe." ++ key) i ++ ".name") .badValue
      text) refs

def validateUniverse : Option UniverseSpec → Check
  | none => clean
  | some u =>
    all
      [validateUniverseRefs u.refs "union" "universe reference name must not be empty",
       validateUniverseRefs u.exclude "exclude" "universe exclusion name must not be empty",
       validateUniverseRefs u.intersect "intersect" "universe intersection name must not be empty"]

def validateRank (r : RankSpec F) : Check :=
  let where_ := "document.screener.rank.by"
  match r.by_.kind with
  | .field => validateOperand none r.by_ where_
  | .indicator => validateIndicatorOperand none maxArithmeticDepth r.by_ where_
  | _ => issue where_ .badValue "rank.by must be a field or indicator expression"

/-- The stages no other stage takes as input. -/
def terminals (stages : List (Stage F)) : List String :=
  let inputs := stages.filterMap fun s => s.input.filter (· ≠ "")
  (stages.filter fun s => !inputs.contains s.id).map Stage.id

def validateScreener (d : WorkflowDocument F) : Check :=
  match d.screener with
  | none => clean
  | some screener =>
    all
      [report (d.universe_.isNone && d.instruments.isEmpty) "document.screener" .missingReference
         ("a screener document must declare a universe expression or an explicit instruments " ++
           "list to scan"),
       report d.stages.isEmpty "document.stages" .badValue
         "a screener document requires at least one filter/signal stage",
       each (fun _ (s : Stage F) =>
         report (decide (s.clock = .known .ltp)) ("stages." ++ s.id ++ ".clock") .unknownCapability
           ("screener scans run over stored completed candles; a live-tick stage is not valid " ++
             "in a screener document")) d.stages,
       report (decide (1 < (terminals d.stages).length)) "document.stages" .badValue
         ("a screener document must have exactly one terminal stage (the ranked pipeline " ++
           "output); found " ++ reprNames (sortBy Text.le (terminals d.stages))),
       report (!d.alerts.isEmpty) "document.alerts" .badValue
         "a screener document notifies through screener attachments, not per-rule alerts",
       (match screener.rank with
        | none => clean
        | some r => validateRank r),
       each (fun i (a : AttachmentSpec) =>
         report a.channels.isEmpty
           (Parse.item "document.screener.attachments" i ++ ".channels") .badValue
           "attachment requires at least one channel") screener.attachments]

/-- A stored-scan field in an alert document. -/
def validateScreenerOnlyOperand (s : Stage F) (o : Operand F) : Check :=
  report (decide (o.kind = .field) && isScreenerOnlyField (o.name.getD ""))
    ("stages." ++ s.id ++ ".conditions") .unknownCapability
    ("field '" ++ o.name.getD "" ++ "' is only available in screener documents (stored-data scans)")

def validateScreenerOnlyFields (d : WorkflowDocument F) : Check :=
  if d.screener.isSome then clean else
    each (fun _ (s : Stage F) =>
      each (fun _ (c : Condition F) =>
        all [validateScreenerOnlyOperand s c.left, validateScreenerOnlyOperand s c.right])
        (s.conditions ++ s.anyConditions ++ s.notConditions)) d.stages

def validateBreadthReferenced (d : WorkflowDocument F) : Check :=
  each (fun _ (s : Stage F) =>
    report (s.breadth.isSome && !(d.alerts.map AlertSpec.source).contains s.id)
      ("stages." ++ s.id) .missingReference
      ("breadth stage '" ++ s.id ++ "' is not referenced by any alert, so nothing would ever be " ++
        "dispatched or notified; add an alert with 'source: " ++ s.id ++ "'")) d.stages

/-- The warning of `_warn_level_only_rules` for one stage. -/
def levelOnlyWarning (alerts : List (AlertSpec F)) (s : Stage F) : List ValidationIssue :=
  let alerts := alerts.filter fun a => a.source = s.id
  let conditions := s.conditions ++ s.anyConditions ++ s.notConditions
  let isLevel (c : Condition F) : Bool :=
    match c.op with
    | .known op => op.isLevel
    | .other _ _ => false
  let keepsFiring (a : AlertSpec F) : Bool :=
    decide (a.trigger = .known .reminder) || a.notifyIfAlreadyTrue
  match alerts with
  | [] => []
  | first :: _ =>
    if s.sequence.isSome || s.consecutiveBars.isSome || s.breadth.isSome || conditions.isEmpty ||
        !conditions.all isLevel || alerts.any keepsFiring then []
    else
      [{ where_ := "stages." ++ s.id, code := .levelOnlyNeverFires, message :=
           "stage '" ++ s.id ++ "' uses only level operators (gt/gte/lt/lte) and feeds alert(s) " ++
             Text.join ", " (alerts.map AlertSpec.id) ++ " with trigger '" ++ first.trigger.text ++
             "': a level condition reports a match but never a transition, so this rule can " ++
             "only notify through the activation opt-in and will not fire when the level is " ++
             "crossed later. Use a crossing operator (crosses_above/crosses_below), or set the " ++
             "alert trigger to 'reminder' to notify while the level holds, or set " ++
             "notify_if_already_true to opt in at activation",
         severity := .warning }]

def validateReserved : Option (PyVal F) → Check
  | none | some .none => clean
  | some v =>
    report (!v.scalarEq (.str "Asia/Kolkata")) "document.timezone" .badValue
      ("timezone must be 'Asia/Kolkata' in Phase 1, got " ++ v.repr)

/-- The session of a document and the exchanges of its instruments. -/
def validateSession (d : WorkflowDocument F) : Check :=
  if isSupportedSession d.session then
    each (fun i (inst : InstrumentRef) =>
      report (!sessionAcceptsExchange d.session inst.exchange)
        (Parse.item "document.instruments" i ++ ".exchange") .sessionMismatch
        ("session '" ++ d.session ++ "' does not support exchange '" ++ inst.exchange ++ "'"))
      d.instruments
  else
    issue "document.session" .unknownCapability
      ("session '" ++ d.session ++ "' is not supported in Phase 1 (supported: " ++ supported Session ++ ")")

def validateDataPolicy (p : DataPolicy) : Check :=
  all
    [report (decide (p.missing ≠ "exclude_and_report")) "document.data_policy.missing" .badValue
       ("data_policy.missing must be 'exclude_and_report' in Phase 1, got " ++ PyVal.reprStr p.missing),
     report (decide (p.insufficientHistory ≠ "wait")) "document.data_policy.insufficient_history"
       .badValue
       ("data_policy.insufficient_history must be 'wait' in Phase 1, got " ++
         PyVal.reprStr p.insufficientHistory)]

def validateSizes (d : WorkflowDocument F) : Check :=
  let tooMany (n limit : Nat) (where_ what : String) : Check :=
    report (decide (limit < n)) where_ .badValue
      ("too many " ++ what ++ " (" ++ toString n ++ " > " ++ toString limit ++ ")")
  let features := d.stages.countP fun s => decide (s.type = .known .feature)
  all
    [tooMany d.instruments.length maxInstruments "document.instruments" "instruments",
     tooMany d.stages.length maxStages "document.stages" "stages",
     tooMany features maxFeatureStages "document.stages" "feature stages",
     tooMany d.alerts.length maxAlerts "document.alerts" "alerts"]

def validate (fromIso : String → Option Int) (p : Parse.Parsed F) : Check :=
  let d := p.document
  let stageIds := collectIds "stages" "stage" 0 [] (d.stages.map Stage.id)
  let alertIds := collectIds "alerts" "alert" 0 [] (d.alerts.map AlertSpec.id)
  all
    [report (decide (d.version ≠ 1)) "document.version" .badValue
       ("unsupported schema version " ++ toString d.version),
     report (decide (d.name = "")) "document.name" .badValue "workflow name must not be empty",
     validateSession d, validateReserved p.timezone, validateDataPolicy d.dataPolicy, validateSizes d,
     validateUniverse d.universe_, stageIds.2, validateStages d.universe_.isSome d.stages stageIds.1,
     alertIds.2, each (fun _ a => validateAlert fromIso stageIds.1 a) d.alerts, validateScreener d,
     validateScreenerOnlyFields d, validateBreadthReferenced d,
     .ok (d.stages.flatMap (levelOnlyWarning d.alerts))]

/-! ## compilation -/

structure CompiledWorkflow (F : Type) where
  document : WorkflowDocument F
  canonicalHash : String

/-- How `compile_document` fails: `WorkflowValidationError`, or another
exception. -/
inductive CompileError where
  | validation (issues : List ValidationIssue)
  | raised (e : PyErr)

def canonicalJson (d : WorkflowDocument F) : Except PyErr String :=
  let v := toDocumentDict d
  if v.jsonSafe then .ok (v.jsonDumps false)
  else .error (.value "Out of range float values are not JSON compliant")

/-- `compile_document`; `sha256` is the hex digest of the UTF-8 text. -/
def compileDocument (fromIso : String → Option Int) (sha256 : String → String)
    (p : Parse.Parsed F) : Except CompileError (CompiledWorkflow F) :=
  match validate fromIso p with
  | .error e => .error (.raised e)
  | .ok issues =>
    let blocking := issues.filter ValidationIssue.isError
    if blocking.isEmpty then
      match canonicalJson p.document with
      | .ok canonical => .ok { document := p.document, canonicalHash := sha256 canonical }
      | .error e => .error (.raised e)
    else .error (.validation blocking)

def accepts (fromIso : String → Option Int) (p : Parse.Parsed F) : Bool :=
  (validate fromIso p).passes && (toDocumentDict p.document).jsonSafe

theorem isEmpty_blocking (issues : List ValidationIssue) :
    (issues.filter ValidationIssue.isError).isEmpty = Check.passes (.ok issues) := by
  rw [Bool.eq_iff_iff]
  simp [Check.passes, filter_eq_nil_iff]

theorem compileDocument_isOk (fromIso : String → Option Int) (sha256 : String → String)
    (p : Parse.Parsed F) :
    (compileDocument fromIso sha256 p).isOk = accepts fromIso p := by
  unfold compileDocument accepts
  cases validate fromIso p with
  | error e => rfl
  | ok issues =>
    simp only [isEmpty_blocking]
    cases Check.passes (.ok issues) with
    | false => rfl
    | true =>
      unfold canonicalJson
      cases hsafe : (toDocumentDict p.document).jsonSafe <;>
        simp [hsafe, Except.isOk, Except.toBool]

theorem accepts_of_compileDocument {fromIso : String → Option Int} {sha256 : String → String}
    {p : Parse.Parsed F} {c : CompiledWorkflow F}
    (h : compileDocument fromIso sha256 p = .ok c) : accepts fromIso p := by
  have hok := compileDocument_isOk fromIso sha256 p
  rw [h] at hok
  exact hok.symm

end Compile

end KiteAlgo
