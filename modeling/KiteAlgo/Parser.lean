import KiteAlgo.Lib.Except
import KiteAlgo.Registry

/-!
# KiteAlgo.Parser

`parse_workflow_dict` (`workflows/parser.py`): a loaded mapping becomes a
`WorkflowDocument`, or the first `WorkflowParseError` with its path and text.

The functions follow the source one by one and in its order, so that of two
errors in a document the same one is reported.
-/

namespace KiteAlgo

namespace Parse

variable {F : Type} [PyFloat F]

def fail (path message : String) : PyErr := .workflowParse (path ++ ": " ++ message)

def unknownField (path : String) (key : Key) : PyErr :=
  .workflowParse
    ("unknown field '" ++ path ++ "." ++ PyVal.keyText key ++ "' is not part of workflow schema v1")

/-- `f"{path}.{key}"`. -/
def sub (path key : String) : String := path ++ ("." ++ key)

/-- `f"{path}[{i}]"`. -/
def item (path : String) (i : Nat) : String := path ++ "[" ++ toString i ++ "]"

/-! ## the parse budget -/

def maxNodes : Nat := 50000

def maxDepth : Nat := 50

def enter (depth counter : Nat) : Except PyErr Nat := do
  ensure (depth ≤ maxDepth)
    (.workflowParse ("document too complex: nesting deeper than " ++ toString maxDepth ++ " levels"))
  ensure (counter + 1 ≤ maxNodes)
    (.workflowParse ("document too complex: alias expansion or size exceeds the parse budget (" ++
      toString maxNodes ++ " nodes)"))
  .ok (counter + 1)

mutual
/-- `visit` of `_check_budget`: the counter after the walk. -/
def visit (depth counter : Nat) : PyVal F → Except PyErr Nat
  | .list xs => do
    let counter ← enter depth counter
    visitList (depth + 1) counter xs
  | .dict d => do
    let counter ← enter depth counter
    visitDict (depth + 1) counter d
  | _ => enter depth counter

/-- `visit` of every item. -/
def visitList (depth counter : Nat) : List (PyVal F) → Except PyErr Nat
  | [] => .ok counter
  | x :: xs => do
    let counter ← visit depth counter x
    visitList depth counter xs

/-- `visit` of every value. -/
def visitDict (depth counter : Nat) : List (Key × PyVal F) → Except PyErr Nat
  | [] => .ok counter
  | (_, v) :: d => do
    let counter ← visit depth counter v
    visitDict depth counter d
end

def checkBudget (root : PyVal F) : Except PyErr Unit := do
  let _ ← visit 0 0 root
  .ok ⟨⟩

/-! ## small helpers -/

def checkKeys (known : List String) (path : String) : Dict Key (PyVal F) → Except PyErr Unit
  | [] => .ok ⟨⟩
  | (.other r, _) :: _ => .error (fail path ("mapping keys must be strings, got " ++ r))
  | (.str s, _) :: raw =>
    if known.contains s then checkKeys known path raw else .error (unknownField path s)

/-- A value that must be a non-empty string. -/
def nonEmptyStr (v : PyVal F) (path : String) : Except PyErr String :=
  match v with
  | .str s =>
    if s = "" then .error (fail path ("must be a non-empty string, got " ++ v.repr)) else .ok s
  | _ => .error (fail path ("must be a non-empty string, got " ++ v.repr))

def requireStr (raw : Dict Key (PyVal F)) (key path : String) : Except PyErr String :=
  match raw.get? key with
  | none =>
    .error (fail (sub path key) ("requires '" ++ key ++ "' (missing); must be a non-empty string"))
  | some v => nonEmptyStr v (sub path key)

/-- `raw.get(key)` with `None` and a missing key taken alike. -/
def present (raw : Dict Key (PyVal F)) (key : String) : Option (PyVal F) :=
  match raw.get? key with
  | some .none | none => none
  | some v => some v

/-- Run `read` on a value that is present and not `None`. -/
def optional (raw : Dict Key (PyVal F)) (key : String) (read : PyVal F → Except PyErr α) :
    Except PyErr (Option α) :=
  match present raw key with
  | none => .ok none
  | some v => do
    let a ← read v
    .ok (some a)

/-- An optional block that is parsed whenever its key is there. -/
def block (raw : Dict Key (PyVal F)) (key : String) (read : PyVal F → Except PyErr α) :
    Except PyErr (Option α) :=
  match raw.get? key with
  | none => .ok none
  | some v => do
    let a ← read v
    .ok (some a)

def optionalStr (raw : Dict Key (PyVal F)) (key path : String) : Except PyErr (Option String) :=
  optional raw key fun v => nonEmptyStr v (sub path key)

def optionalInt (raw : Dict Key (PyVal F)) (key path : String) : Except PyErr (Option Int) :=
  optional raw key fun v =>
    match v with
    | .int n => .ok n
    | _ => .error (fail (sub path key) ("must be an integer, got " ++ v.repr))

def number (v : PyVal F) (path : String) : Except PyErr F :=
  match v with
  | .float f => .ok f
  | .int n =>
    match PyFloat.ofInt n with
    | some f => .ok f
    | none => .error .overflow
  | _ => .error (fail path ("must be a number, got " ++ v.repr))

def positiveInt (v : PyVal F) (path : String) (minimum : Int := 0) : Except PyErr Int :=
  let bad : PyErr :=
    fail path ("must be an integer >= " ++ toString minimum ++ ", got " ++ v.repr)
  match v with
  | .int n => if n < minimum then .error bad else .ok n
  | _ => .error bad

def boolEntry (raw : Dict Key (PyVal F)) (key : String) (default : Bool)
    (bad : PyVal F → PyErr) : Except PyErr Bool :=
  match raw.get? key with
  | none => .ok default
  | some (.bool b) => .ok b
  | some v => .error (bad v)

/-- `_DURATION_UNITS_S`. -/
def durationUnit? (c : Char) : Option Int :=
  if c = 's' then some 1 else if c = 'm' then some 60 else if c = 'h' then some 3600
  else if c = 'd' then some 86400 else none

/-- The character is a decimal digit (`\d`). -/
def isDigit (c : Char) : Bool := (Text.digitValue? c).isSome

/-- `int(digits)`, which raises `ValueError` past the digit limit. -/
def intOfDigits (cs : List Char) : Except PyErr Int :=
  match Text.natOfDigits? cs with
  | some n => .ok n
  | none => .error (.value "Exceeds the limit (4300 digits) for integer string conversion")

/-- `_duration_seconds`: an integer, a run of digits, or digits with a unit. -/
def durationSeconds (v : PyVal F) (path : String) : Except PyErr Int :=
  let bad : PyErr :=
    fail path ("must be a duration like '30m'/'1h' or seconds, got " ++ v.repr)
  match v with
  | .bool _ => .error (fail path ("must be a duration or seconds integer, got " ++ v.repr))
  | .int _ => positiveInt v path
  | .str s =>
    let text := Text.stripChars s.toList
    let digits := text.takeWhile isDigit
    if digits.isEmpty then .error bad else
      match text.drop digits.length with
      | [] => intOfDigits digits
      | rest =>
        match rest.dropWhile Text.isSpace with
        | [u] =>
          match durationUnit? u with
          | some seconds => do
            let n ← intOfDigits digits
            .ok (n * seconds)
          | none => .error bad
        | _ => .error bad
  | _ => .error bad

/-- A member of an enumeration, or the error `bad` for another word. -/
def enumOf (E : Type) [Named E] (s : String) (bad : PyErr) : Except PyErr E :=
  match Named.ofName? s with
  | some e => .ok e
  | none => .error bad

def asDict (v : PyVal F) (bad : PyErr) : Except PyErr (Dict Key (PyVal F)) :=
  match v with
  | .dict d => .ok d
  | _ => .error bad

def asList (v : PyVal F) (bad : PyErr) : Except PyErr (List (PyVal F)) :=
  match v with
  | .list xs => .ok xs
  | _ => .error bad

/-! ## operands and conditions -/

def pairKeys : List String := ["instrument", "reference", "field", "lookback", "max_skew_bars"]

/-- `', '.join(sorted(keys))`; other keys than text do not join. -/
def joinKeys (keys : List Key) : Except PyErr String :=
  if keys.any (fun k => k matches .other _) then .error (.type "sequence item: expected str instance")
  else .ok (Text.join ", " (sortBy Text.le (keys.map PyVal.keyText)))

def pairOperand (raw : Dict Key (PyVal F)) (path : String) : Except PyErr (Option (Operand F)) :=
  match raw.get? "pair_ratio", raw.get? "relative_strength" with
  | none, none => .ok none
  | some _, some _ =>
    .error (fail path "operand mixes pair kinds: pair_ratio, relative_strength")
  | some spec, none => one "pair_ratio" spec
  | none, some spec => one "relative_strength" spec
where
  /-- The single pair key with its specification. -/
  one (kind : String) (spec : PyVal F) : Except PyErr (Option (Operand F)) := do
    if raw.length ≠ 1 then
      let extra ← joinKeys (raw.keys.filter fun k => decide (k ≠ Key.str kind))
      .error (fail (sub path kind) ("pair operand cannot be combined with other keys: " ++ extra))
    let spec ← asDict spec (fail (sub path kind) "pair operand must be a mapping")
    checkKeys pairKeys (sub path kind) spec
    .ok (some { kind := .pair, name := kind, params := spec })

/-- The integer of an offset entry; anything else counts as absent. -/
def offsetOf : Option (PyVal F) → Option Int
  | some (.int n) => some n
  | _ => none

/-- The text of a source entry; anything else counts as absent. -/
def sourceOf : Option (PyVal F) → Option String
  | some (.str s) => some s
  | _ => none

def explicitOperand (raw : Dict Key (PyVal F)) (path : String) : Except PyErr (Operand F) := do
  checkKeys ["kind", "name", "value", "params", "source", "offset"] path raw
  let kindName ← requireStr raw "kind" path
  let kind ← enumOf OperandKind kindName
    (fail (sub path "kind") ("unknown operand kind '" ++ kindName ++ "'"))
  let name ← optionalStr raw "name" path
  let value ← optional raw "value" fun v => number v (sub path "value")
  let params ← asDict ((raw.get? "params").getD (.dict []))
    (fail (sub path "params") "must be a mapping")
  let source ← optionalStr raw "source" path
  .ok { kind, name, value, params, source, offset := offsetOf (raw.get? "offset") }

/-- The keys next to `field`, `indicator` and `value`, with the contents of a
`params` mapping in front of them. -/
def shorthandParams (raw : Dict Key (PyVal F)) (path : String) :
    Except PyErr (Dict Key (PyVal F)) := do
  let extras := raw.filter fun e =>
    decide (e.1 ≠ Key.str "field" ∧ e.1 ≠ Key.str "indicator" ∧ e.1 ≠ Key.str "value")
  match Dict.get? extras "params" with
  | none => .ok extras
  | some v =>
    let given ← asDict v (fail (sub path "params") "must be a mapping")
    .ok (Dict.update given (Dict.erase extras "params"))

def shorthandOperand (raw : Dict Key (PyVal F)) (path : String) : Except PyErr (Operand F) := do
  match ← pairOperand raw path with
  | some pair => .ok pair
  | none =>
    let params ← shorthandParams raw path
    match present raw "field", present raw "indicator", present raw "value" with
    | some field, _, _ =>
      let name ← nonEmptyStr field (sub path "field")
      .ok { kind := .field, name := name, params }
    | none, some indicator, _ =>
      let name ← nonEmptyStr indicator (sub path "indicator")
      .ok
        { kind := .indicator, name := name, params := (params.erase "source").erase "offset",
          source := sourceOf (params.get? "source"), offset := offsetOf (params.get? "offset") }
    | none, none, some value =>
      let value ← number value (sub path "value")
      .ok { kind := .value, value := value, params }
    | none, none, none => .ok { kind := .indicator, params := raw }

def operand (raw : PyVal F) (path : String) : Except PyErr (Operand F) :=
  match raw with
  | .none => .ok { kind := .value }
  | .bool _ => .error (fail path ("boolean is not a valid operand, got " ++ raw.repr))
  | .int _ | .float _ => do
    let value ← number raw path
    .ok { kind := .value, value := value }
  | .dict d => if Dict.contains d "kind" then explicitOperand d path else shorthandOperand d path
  | _ => .error (fail path ("operand must be a number or a mapping, got " ++ raw.repr))

def hysteresis (raw : PyVal F) (path : String) : Except PyErr (HysteresisSpec F) := do
  let d ← asDict raw (fail path "hysteresis must be a mapping with a 'release' level")
  checkKeys ["release"] path d
  match present d "release" with
  | none => .error (fail path "hysteresis requires a 'release' level")
  | some v =>
    let release ← number v (sub path "release")
    .ok { release }

def optHysteresis (d : Dict Key (PyVal F)) (path : String) :
    Except PyErr (Option (HysteresisSpec F)) :=
  match d.get? "hysteresis" with
  | none => .ok none
  | some v => do
    let h ← hysteresis v (sub path "hysteresis")
    .ok (some h)

def condition (raw : PyVal F) (path : String) : Except PyErr (Condition F) := do
  let d ← asDict raw (fail path ("condition must be a mapping, got " ++ raw.repr))
  checkKeys ["left", "op", "right", "field", "value", "hysteresis"] path d
  ensure (d.contains "op") (fail (sub path "op") "condition requires an operator 'op'")
  let op ← requireStr d "op" path
  let hysteresis ← optHysteresis d path
  match d.get? "left", d.get? "right" with
  | some l, some r =>
    let left ← operand l (sub path "left")
    let right ← operand r (sub path "right")
    .ok { left, op := .ofString op, right, hysteresis }
  | none, none =>
    if d.contains "field" then
      let name ← requireStr d "field" path
      let value ← optional d "value" fun v => number v (sub path "value")
      .ok
        { left := { kind := .field, name := name }, op := .ofString op,
          right := { kind := .value, value }, hysteresis }
    else
      .error (fail path "condition must define either left/op/right or field/op/value")
  | _, _ => .error (fail path "full condition form requires both 'left' and 'right'")

def conditionList (raw : PyVal F) (path : String) : Except PyErr (List (Condition F)) := do
  let items ← asList raw (fail path "must be a list of conditions")
  ensure (!(decide (1 < items.length) && Text.endsWith path ".not"))
    (fail path "a 'not' group takes exactly one condition")
  mapIdxM (fun i v => condition v (item path i)) 0 items

/-- A `not` group may be written as the single condition itself. -/
def singleNot (key : GroupKind) (items : PyVal F) : PyVal F :=
  match key, items with
  | .not, .dict d => .list [.dict d]
  | _, _ => items

def groupKind? : Key → Option GroupKind
  | .str s => Named.ofName? s
  | .other _ => none

def namedGroup (kind : GroupKind) (items : PyVal F) (path : String) :
    Except PyErr (ConditionGroup F) := do
  let conditions ← conditionList (singleNot kind items) (sub path (Named.name kind))
  .ok { kind, conditions }

/-- The entry of a mapping that names exactly one group. -/
def groupEntry? : PyVal F → Option (GroupKind × PyVal F)
  | .dict [(k, v)] => (groupKind? k).map fun kind => (kind, v)
  | _ => none

/-- The groups of a canonical group list; `none` when an item is something else
(`_is_group_list`). -/
def groupEntries? : List (PyVal F) → Option (List (GroupKind × PyVal F))
  | [] => some []
  | v :: vs =>
    match groupEntry? v, groupEntries? vs with
    | some e, some es => some (e :: es)
    | _, _ => none

def groupsOfDict (path : String) : Dict Key (PyVal F) → Except PyErr (List (ConditionGroup F))
  | [] => .ok []
  | (k, v) :: d =>
    match groupKind? k with
    | none => .error (unknownField path k)
    | some kind => do
      let g ← namedGroup kind v path
      let gs ← groupsOfDict path d
      .ok (g :: gs)

def conditionGroups (raw : PyVal F) (path : String) : Except PyErr (List (ConditionGroup F)) :=
  match raw with
  | .list (v :: vs) =>
    match groupEntries? (v :: vs) with
    | some es => mapIdxM (fun _ e => namedGroup e.1 e.2 path) 0 es
    | none => do
      let conditions ← conditionList raw path
      .ok [{ kind := .all, conditions }]
  | .list [] => .ok [{ kind := .all, conditions := [] }]
  | .dict [] => .error (fail path "must name at least one of 'all'/'any'/'not'")
  | .dict d => groupsOfDict path d
  | _ => .error (fail path "must be a mapping with 'all'/'any'/'not' or a list of conditions")

/-! ## stages -/

/-- Every key of a `conditions` block names a group. -/
def checkGroupKeys (path : String) : Dict Key (PyVal F) → Except PyErr Unit
  | [] => .ok ⟨⟩
  | (k, _) :: d =>
    if (groupKind? k).isSome then checkGroupKeys path d else .error (unknownField path k)

/-- `_conditions` for the `all` group. -/
def conditions (raw : PyVal F) (path : String) : Except PyErr (List (Condition F)) :=
  match raw with
  | .dict d => do
    checkGroupKeys path d
    ensure (!d.isEmpty) (fail path "must name at least one of 'all'/'any'/'not'")
    match Dict.get? d "all" with
    | some items => conditionList items path
    | none => .ok []
  | .list _ => conditionList raw path
  | _ => .error (fail path "must be a mapping with 'all'/'any'/'not' or a list of conditions")

/-- One group of `_condition_groups_from_block`; `[]` when it is not declared. -/
def inlineGroup (raw : PyVal F) (kind : GroupKind) (path : String) :
    Except PyErr (List (Condition F)) :=
  match raw with
  | .dict d =>
    match Dict.get? d (Named.name kind) with
    | some items => conditionList (singleNot kind items) (sub path (Named.name kind))
    | none => .ok []
  | _ => .ok []

/-- `_sequence`. -/
def sequenceSpec (raw : PyVal F) (path : String) : Except PyErr (SequenceSpec F) := do
  let d ← asDict raw (fail path "sequence must be a mapping")
  checkKeys ["first", "then", "within_bars", "within"] path d
  ensure (d.contains "first") (fail path "sequence requires 'first'")
  ensure (d.contains "then") (fail path "sequence requires 'then'")
  let withinBars ← optionalInt d "within_bars" path
  let withinS ← block d "within" fun v => durationSeconds v (sub path "within")
  ensure (withinBars.isSome || withinS.isSome)
    (fail path
      "sequence requires at least one bound: 'within_bars' (completed bars) or 'within' (elapsed time)")
  let first ← conditionGroups ((d.get? "first").getD .none) (sub path "first")
  let andThen ← conditionGroups ((d.get? "then").getD .none) (sub path "then")
  .ok { first, andThen, withinBars, withinS }

def distinctInstruments (d : Dict Key (PyVal F)) (path : String) : Except PyErr Int :=
  let bad := fail (sub path "distinct_instruments") "must be an integer >= 2"
  match d.get? "distinct_instruments" with
  | some (.int n) => if n < 2 then .error bad else .ok n
  | _ => .error bad

/-- `_breadth`. -/
def breadthSpec (raw : PyVal F) (path : String) : Except PyErr (BreadthSpec F) := do
  let d ← asDict raw (fail path "breadth must be a mapping")
  checkKeys ["condition", "distinct_instruments", "window", "mode"] path d
  ensure (d.contains "condition") (fail path "breadth requires 'condition'")
  ensure (d.contains "distinct_instruments") (fail path "breadth requires 'distinct_instruments'")
  let distinctInstruments ← distinctInstruments d path
  ensure (d.contains "window") (fail path "breadth requires 'window'")
  let windowS ← durationSeconds ((d.get? "window").getD .none) (sub path "window")
  let mode ← optionalStr d "mode" path
  let condition ← conditionGroups ((d.get? "condition").getD .none) (sub path "condition")
  .ok { condition, distinctInstruments, windowS, mode := .ofString (mode.getD "triggers_within") }

def timeframeAliases : Dict String String :=
  [("1m", "minute"), ("1minute", "minute"), ("3m", "3minute"), ("5m", "5minute"),
   ("10m", "10minute"), ("15m", "15minute"), ("30m", "30minute"), ("60m", "60minute"),
   ("1h", "60minute"), ("1d", "day"), ("daily", "day")]

/-- The Kite interval name of a timeframe shorthand. -/
def timeframeOf (timeframe : String) : String :=
  (timeframeAliases.get? (Text.lower (Text.strip timeframe))).getD timeframe

def evaluateOnToClock (evaluateOn : String) : String :=
  if evaluateOn = "fundamentals_refresh" then "candle_close" else evaluateOn

/-- The clock of a stage, from `clock` and its alias `evaluate_on`. -/
def stageClock (raw : Dict Key (PyVal F)) (path : String) : Except PyErr String := do
  let clock ← block raw "clock" fun v => nonEmptyStr v (sub path "clock")
  let evaluateOn ← block raw "evaluate_on" fun v => nonEmptyStr v (sub path "evaluate_on")
  match evaluateOn, clock with
  | some e, _ =>
    ensure (clock.all (· == evaluateOnToClock e))
      (fail (sub path "clock") ("conflicts with evaluate_on='" ++ e ++ "'"))
    .ok (evaluateOnToClock e)
  | none, some c => .ok c
  | none, none => .error (fail path "stage requires 'clock' (or 'evaluate_on')")

/-- Two spellings of one entry must agree when both are there. -/
def agree (raw : Dict Key (PyVal F)) (key alias_ : String) (bad : PyErr) : Except PyErr Unit :=
  match raw.get? key, raw.get? alias_ with
  | some a, some b => ensure (a.eq b) bad
  | _, _ => .ok ⟨⟩

/-- The mapping of feature parameters; `None` is the empty one. -/
def paramsMapping (v : Option (PyVal F)) (path : String) : Except PyErr (Dict Key (PyVal F)) :=
  match v with
  | none | some .none => .ok []
  | some v => asDict v (fail (sub path "params") "must be a mapping")

/-- The feature parameters of a stage, from `params` or `stage_params`. -/
def stageParams (raw : Dict Key (PyVal F)) (path : String) : Except PyErr (Dict Key (PyVal F)) := do
  let params ← paramsMapping ((raw.get? "params").or (raw.get? "stage_params")) path
  agree raw "stage_params" "params" (fail (sub path "stage_params") "conflicts with params")
  .ok params

/-- `_optional_str(source) or _optional_str(source_field)`. -/
def sourceOrField (raw : Dict Key (PyVal F)) (path : String) : Except PyErr (Option String) := do
  match ← optionalStr raw "source" path with
  | some s => .ok (some s)
  | none => optionalStr raw "source_field" path

/-- The input field of a feature stage, from `source` or `source_field`. -/
def stageSourceField (raw : Dict Key (PyVal F)) (path : String) :
    Except PyErr (Option String) := do
  let field ← sourceOrField raw path
  agree raw "source" "source_field" (fail (sub path "source_field") "conflicts with source")
  .ok field

/-- The `any` (or `not`) conditions of a stage: the top-level key, its long
alias, or the group declared inside `conditions`. -/
def stageGroup (raw : Dict Key (PyVal F)) (kind : GroupKind) (alias_ path : String)
    (inline : List (Condition F)) : Except PyErr (List (Condition F)) :=
  match (raw.get? (Named.name kind)).or (raw.get? alias_) with
  | some items => conditionList (singleNot kind items) (sub path (Named.name kind))
  | none => .ok inline

def stageKeys : List String :=
  ["id", "type", "clock", "timeframe", "conditions", "input", "evaluate_on", "any", "not",
   "any_conditions", "not_conditions", "function", "params", "stage_params", "source",
   "source_field", "consecutive_bars", "sequence", "breadth"]

/-- An entry with a default that must be a non-empty string. -/
def strEntry (raw : Dict Key (PyVal F)) (key default : String) (bad : PyVal F → PyErr) :
    Except PyErr String :=
  match raw.get? key with
  | none => .ok default
  | some (.str s) => if s = "" then .error (bad (.str s)) else .ok s
  | some v => .error (bad v)

def stage (raw : PyVal F) (index : Nat) : Except PyErr (Stage F) := do
  let here := item "document.stages" index
  let d ← asDict raw (fail here "stage must be a mapping")
  ensure (d.contains "id") (fail here "stage requires an 'id'")
  let id ← requireStr d "id" here
  let path := sub "document.stages" id
  checkKeys stageKeys path d
  let type ← strEntry d "type" "signal" fun v =>
    fail (sub path "type") ("must be a non-empty string, got " ++ v.repr)
  let clock ← stageClock d path
  let timeframe ← optionalStr d "timeframe" path
  let input ← optionalStr d "input" path
  let function ← optionalStr d "function" path
  let stageParams ← stageParams d path
  let sourceField ← stageSourceField d path
  let consecutiveBars ← optionalInt d "consecutive_bars" path
  let sequence ← block d "sequence" fun v => sequenceSpec v (sub path "sequence")
  let breadth ← block d "breadth" fun v => breadthSpec v (sub path "breadth")
  ensure
    (d.contains "conditions" ||
      ["any", "not", "any_conditions", "not_conditions"].any (fun k => d.contains (Key.str k)) ||
      ["feature", "breadth"].contains type || sequence.isSome)
    (fail path "stage requires 'conditions'")
  let block := (d.get? "conditions").getD (.list [])
  let conditions ← conditions block (sub path "conditions")
  let inlineAny ← inlineGroup block .any (sub path "conditions")
  let inlineNot ← inlineGroup block .not (sub path "conditions")
  let anyConditions ← stageGroup d .any "any_conditions" path inlineAny
  let notConditions ← stageGroup d .not "not_conditions" path inlineNot
  .ok
    { id, type := .ofString type, clock := .ofString clock,
      timeframe := timeframe.map timeframeOf, conditions, input, anyConditions, notConditions,
      function, stageParams, sourceField, consecutiveBars, sequence, breadth }

/-! ## alerts -/

def alertKeys : List String :=
  ["id", "source", "trigger", "repeat", "reminder_interval", "reminder_interval_s", "cooldown",
   "cooldown_s", "rearm_above", "rearm_below", "rearm_level", "rearm_direction",
   "notify_if_already_true", "expires", "expires_at", "channels", "message", "scope",
   "max_per_session", "session_cap_reset"]

/-- The trigger of an alert, from `trigger` and its shorthand `repeat`. -/
def alertTrigger (raw : Dict Key (PyVal F)) (path : String) : Except PyErr String := do
  let trigger ← optional raw "trigger" fun v => do
    let t ← nonEmptyStr v (sub path "trigger")
    .ok (if t = "on_signal" then "on_transition" else t)
  match present raw "repeat" with
  | none => .ok (trigger.getD "on_transition")
  | some (.bool b) => do
    let implied := if b then "on_transition" else "once"
    ensure (trigger.all (· == implied))
      (fail (sub path "repeat")
        ("conflicts with trigger='" ++ trigger.getD "" ++ "' (repeat=" ++
          (PyVal.bool b : PyVal F).repr ++ " implies '" ++ implied ++ "')"))
    .ok implied
  | some v => .error (fail (sub path "repeat") ("must be a boolean, got " ++ v.repr))

/-- Seconds given as an integer under `key ++ "_s"` or as a duration under
`key`. -/
def seconds (raw : Dict Key (PyVal F)) (key path : String) (minimum : Int) :
    Except PyErr (Option Int) := do
  let keyS := key ++ "_s"
  let direct ← optional raw keyS fun v => positiveInt v (sub path keyS) minimum
  match present raw key with
  | none => .ok direct
  | some v => do
    let s ← durationSeconds v (sub path key)
    ensure (direct.all (· == s))
      (fail (sub path key) ("conflicts with " ++ keyS ++ "=" ++ toString (direct.getD 0)))
    .ok (some s)

/-- The rearm level of the shorthands `rearm_above` and `rearm_below`. -/
def rearmShorthand (raw : Dict Key (PyVal F)) (path : String) :
    Except PyErr (Option (F × RearmDirection)) := do
  let above ← optional raw "rearm_above" fun v => number v (sub path "rearm_above")
  match present raw "rearm_below", above with
  | none, none => .ok none
  | none, some level => .ok (some (level, .above))
  | some _, some _ => .error (fail path "cannot specify both rearm_above and rearm_below")
  | some v, none =>
    let level ← number v (sub path "rearm_below")
    .ok (some (level, .below))

/-- The direction of the canonical rearm pair. -/
def rearmDirection (raw : Dict Key (PyVal F)) (path : String) : Except PyErr RearmDirection := do
  let bad := fail (sub path "rearm_direction") "must be 'above' or 'below'"
  match ← optionalStr raw "rearm_direction" path with
  | some word => enumOf RearmDirection word bad
  | none => .error bad

/-- The rearm level and direction of an alert: a shorthand or the canonical
pair. -/
def rearm (raw : Dict Key (PyVal F)) (path : String) :
    Except PyErr (Option (F × RearmDirection)) := do
  let short ← rearmShorthand raw path
  match present raw "rearm_level" with
  | none => .ok short
  | some v =>
    let level ← number v (sub path "rearm_level")
    let direction ← rearmDirection raw path
    ensure (short.all fun s => PyFloat.eq s.1 level && decide (s.2 = direction))
      (fail path "cannot combine rearm_above/rearm_below with rearm_level/rearm_direction")
    .ok (some (level, direction))

/-- The expiry of an alert, from `expires_at` and its alias `expires`. -/
def expiresAt (raw : Dict Key (PyVal F)) (path : String) : Except PyErr (Option String) := do
  let expiresAt ← optionalStr raw "expires_at" path
  match ← optionalStr raw "expires" path with
  | none => .ok expiresAt
  | some e => do
    ensure (expiresAt.all (· == e))
      (fail (sub path "expires") ("conflicts with expires_at='" ++ expiresAt.getD "" ++ "'"))
    .ok (some e)

def alertChannels (raw : Dict Key (PyVal F)) (path : String) : Except PyErr (List String) := do
  let items ← asList ((raw.get? "channels").getD (.list []))
    (fail (sub path "channels") "must be a list of channel names")
  mapIdxM (fun i v => nonEmptyStr v (item (sub path "channels") i)) 0 items

def alert (raw : PyVal F) (index : Nat) : Except PyErr (AlertSpec F) := do
  let here := item "document.alerts" index
  let d ← asDict raw (fail here "alert must be a mapping")
  ensure (d.contains "id") (fail here "alert requires an 'id'")
  let id ← requireStr d "id" here
  let path := sub "document.alerts" id
  checkKeys alertKeys path d
  let source ← requireStr d "source" path
  let trigger ← alertTrigger d path
  let cooldownS ← seconds d "cooldown" path 0
  let reminderIntervalS ← seconds d "reminder_interval" path 1
  let rearm ← rearm d path
  let notifyIfAlreadyTrue ← boolEntry d "notify_if_already_true" false fun v =>
    fail (sub path "notify_if_already_true") ("must be a boolean, got " ++ v.repr)
  let expiresAt ← expiresAt d path
  let channels ← alertChannels d path
  let message ← optionalStr d "message" path
  let maxPerSession ← optionalInt d "max_per_session" path
  let sessionCapReset ← optionalStr d "session_cap_reset" path
  .ok
    { id, source, trigger := .ofString trigger, reminderIntervalS, cooldownS,
      rearmLevel := rearm.map Prod.fst, rearmDirection := rearm.map Prod.snd,
      notifyIfAlreadyTrue, expiresAt, channels, message, maxPerSession, sessionCapReset }

/-! ## universe -/

def universeRef (raw : PyVal F) (path : String) : Except PyErr UniverseRef := do
  let d ← asDict raw (fail path ("universe reference must be a mapping, got " ++ raw.repr))
  checkKeys ["kind", "name", "universe", "index", "watchlist"] path d
  if d.contains "kind" then
    let word ← requireStr d "kind" path
    let kind ← enumOf UniverseKind word
      (fail (sub path "kind") ("unknown universe reference kind '" ++ word ++ "'"))
    let name ← requireStr d "name" path
    .ok { kind, name }
  else
    match (Named.all : List UniverseKind).find? fun k => d.contains (Named.name k) with
    | some kind =>
      let name ← requireStr d (Named.name kind) path
      .ok { kind, name }
    | none =>
      .error (fail path "universe reference requires 'universe', 'index', or 'watchlist'")

def universeRefs (items : List (PyVal F)) (path : String) : Except PyErr (List UniverseRef) :=
  mapIdxM (fun i v => universeRef v (item path i)) 0 items

/-- The `union` (or `refs`) list of a universe expression. -/
def unionRefs (d : Dict Key (PyVal F)) : Except PyErr (List UniverseRef) :=
  match (d.get? "union").or (d.get? "refs") with
  | none | some .none =>
    .error (fail "document.universe.union" "requires a 'union' list of references")
  | some v => do
    let bad := fail "document.universe.union" "must be a non-empty list of references"
    let items ← asList v bad
    ensure (!items.isEmpty) bad
    universeRefs items "document.universe.union"

/-- The `exclude` list of a universe expression. -/
def excludeRefs (d : Dict Key (PyVal F)) : Except PyErr (List UniverseRef) :=
  match present d "exclude" with
  | none => .ok []
  | some v => do
    let items ← asList v (fail "document.universe.exclude" "must be a list of references")
    universeRefs items "document.universe.exclude"

/-- The `intersect` list of a universe expression. -/
def intersectRefs (d : Dict Key (PyVal F)) : Except PyErr (List UniverseRef) :=
  match present d "intersect" with
  | none => .ok []
  | some v => do
    let bad := fail "document.universe.intersect" "must be a non-empty list of references"
    let items ← asList v bad
    ensure (!items.isEmpty) bad
    universeRefs items "document.universe.intersect"

def universeSpec (raw : PyVal F) : Except PyErr UniverseSpec := do
  let d ← asDict raw (fail "document.universe" "must be a mapping")
  checkKeys ["union", "exclude", "intersect", "deduplicate", "refs", "name"] "document.universe" d
  let refs ← unionRefs d
  let exclude ← excludeRefs d
  let intersect ← intersectRefs d
  let deduplicate ← boolEntry d "deduplicate" true fun _ =>
    fail "document.universe.deduplicate" "must be a boolean"
  .ok { refs, exclude, intersect, deduplicate }

/-! ## screener -/

/-- `'HH:MM'` or `'session_close'`. -/
def isScheduleTime (at_ : String) : Bool :=
  at_ == "session_close" || match Text.split at_ ':' with
    | [hours, minutes] =>
      (Text.intOf? hours).any (fun h => decide (0 ≤ h) && decide (h ≤ 23)) &&
        (Text.intOf? minutes).any fun m => decide (0 ≤ m) && decide (m ≤ 59)
    | _ => false

def scheduleSpec (raw : PyVal F) : Except PyErr ScheduleSpec := do
  let d ← asDict raw (fail "document.screener.schedule" "must be a mapping")
  checkKeys ["every", "calendar", "at"] "document.screener.schedule" d
  let everyText ← requireStr d "every" "document.screener.schedule"
  let every ← durationSeconds (.str everyText : PyVal F) "document.screener.schedule.every"
  ensure (decide (300 ≤ every) && decide (every ≤ 31 * 24 * 3600))
    (fail "document.screener.schedule.every" "must be between 5m and 31d")
  let calendar ← strEntry d "calendar" "nse_equity" unsupported
  ensure (calendar == "nse_equity") (unsupported (.str calendar))
  let at_ := (present d "at").map PyVal.toText
  ensure (at_.all isScheduleTime)
    (fail "document.screener.schedule.at" "must be 'HH:MM' (IST) or 'session_close'")
  .ok { every := toString every ++ "s", calendar, at_ }
where
  /-- The error of every calendar but the NSE one. -/
  unsupported (calendar : PyVal F) : PyErr :=
    fail "document.screener.schedule.calendar"
      ("unsupported schedule calendar " ++ calendar.repr ++
        ": only 'nse_equity' is calendar-backed; MCX/currency have no session calendar for " ++
        "scheduled scans")

/-- `_int_field`: an integer in `[1, 1000]`. -/
def intField (raw : Dict Key (PyVal F)) (key path : String) : Except PyErr (Option Int) :=
  optional raw key fun v =>
    match v with
    | .int n =>
      if n < 1 || 1000 < n then .error (fail path "must be an integer in [1, 1000]") else .ok n
    | _ => .error (fail path "must be an integer in [1, 1000]")

/-- `exit_rank (x) must be greater than entry_rank (y)`. -/
def exitRankText (exitRank entryRank : Int) : String :=
  "exit_rank (" ++ toString exitRank ++ ") must be greater than entry_rank (" ++ toString entryRank ++ ")"

/-- Explicit hysteresis ranks leave a band between them. -/
def checkRanks (entryRank exitRank : Option Int) (path : String) : Except PyErr Unit :=
  match entryRank, exitRank with
  | some entry, some exit =>
    ensure (decide (entry < exit))
      (fail (sub path "exit_rank")
        (exitRankText exit entry ++ " so a boundary symbol cannot oscillate between states (E-17)"))
  | _, _ => .ok ⟨⟩

/-- The hysteresis ranks of a `top_n` attachment, with their defaults: enter at
`top_n`, leave at one and a half times the band. -/
def topNRanks (topN : Int) (entryRank exitRank : Option Int) (path : String) :
    Except PyErr (Int × Int) := do
  let entryRank := entryRank.getD topN
  let exitRank := exitRank.getD (topN + max 1 (topN / 2))
  ensure (decide (entryRank < exitRank))
    (fail (sub path "exit_rank") (exitRankText exitRank entryRank))
  .ok (entryRank, exitRank)

def attachmentKeys : List String :=
  ["id", "trigger", "channels", "top_n", "rank_delta", "entry_rank", "exit_rank", "exit_after",
   "initial_match", "message"]

/-- The channels of an attachment: any non-empty list, each item as text. -/
def attachmentChannels (raw : Dict Key (PyVal F)) (path : String) : Except PyErr (List String) :=
  let bad := fail (sub path "channels") "must be a non-empty list of channel names"
  match (raw.get? "channels").getD (.list []) with
  | .list (c :: cs) => .ok ((c :: cs).map PyVal.toText)
  | _ => .error bad

def attachmentSpec (raw : PyVal F) (path : String) : Except PyErr AttachmentSpec := do
  let d ← asDict raw (fail path "attachment must be a mapping")
  checkKeys attachmentKeys path d
  let id ← requireStr d "id" path
  let word ← requireStr d "trigger" path
  let trigger ← enumOf AttachmentTrigger word
    (fail (sub path "trigger")
      ("unknown attachment trigger '" ++ word ++ "' (supported: ['entry', 'exit', 'top_n', 'rank_delta'])"))
  let channels ← attachmentChannels d path
  let topN ← intField d "top_n" (sub path "top_n")
  let rankDelta ← intField d "rank_delta" (sub path "rank_delta")
  let entryRank ← intField d "entry_rank" (sub path "entry_rank")
  let exitRank ← intField d "exit_rank" (sub path "exit_rank")
  let exitAfter ← intField d "exit_after" (sub path "exit_after")
  let initialMatch ← boolEntry d "initial_match" false fun _ =>
    fail (sub path "initial_match") "must be a boolean"
  let message ← optionalStr d "message" path
  ensure (!(decide (trigger = .topN) && topN.isNone))
    (fail (sub path "top_n") "is required for trigger 'top_n'")
  ensure (!(decide (trigger = .rankDelta) && rankDelta.isNone))
    (fail (sub path "rank_delta") "is required for trigger 'rank_delta'")
  ensure (!((entryRank.isSome || exitRank.isSome) && decide (trigger = .rankDelta)))
    (fail (sub path "entry_rank")
      ("hysteresis ranks only apply to top_n/entry/exit triggers, not '" ++ Named.name trigger ++ "'"))
  checkRanks entryRank exitRank path
  match trigger, topN with
  | .topN, some n =>
    let ranks ← topNRanks n entryRank exitRank path
    .ok
      { id, trigger, channels, topN, rankDelta, entryRank := ranks.1, exitRank := ranks.2,
        exitAfter, initialMatch, message }
  | _, _ =>
    .ok
      { id, trigger, channels, topN, rankDelta, entryRank, exitRank, exitAfter, initialMatch, message }

def rankDirection (d : Dict Key (PyVal F)) : Except PyErr RankDirection :=
  let bad (v : PyVal F) : PyErr :=
    fail "document.screener.rank.direction" ("must be 'desc' or 'asc', got " ++ v.repr)
  match d.get? "direction" with
  | none => .ok .desc
  | some (.str s) => enumOf RankDirection s (bad (.str s))
  | some v => .error (bad v)

def rankSpec (raw : PyVal F) : Except PyErr (RankSpec F) := do
  let d ← asDict raw (fail "document.screener.rank" "must be a mapping")
  checkKeys ["by", "direction"] "document.screener.rank" d
  let direction ← rankDirection d
  match d.get? "by" with
  | none => .error (.keyError "by")
  | some v =>
    let by_ ← operand v "document.screener.rank.by"
    .ok { by_, direction }

/-- The freshness limit of a screener as written, in seconds or as a duration. -/
def freshnessSeconds (raw : Dict Key (PyVal F)) : Except PyErr Int :=
  match present raw "freshness_limit_s" with
  | some (.int n) => .ok n
  | some _ =>
    .error (fail "document.screener.freshness_limit_s" "must be an integer number of seconds")
  | none =>
    durationSeconds ((raw.get? "freshness_limit").getD (.str "3d"))
      "document.screener.freshness_limit"

def freshnessLimit (raw : Dict Key (PyVal F)) : Except PyErr Int := do
  let limit ← freshnessSeconds raw
  ensure (decide (300 ≤ limit) && decide (limit ≤ 30 * 24 * 3600))
    (fail "document.screener.freshness_limit" "must be between 5m and 30d")
  .ok limit

def screenerSpec (raw : PyVal F) : Except PyErr (ScreenerSpec F) := do
  let d ← asDict raw (fail "document.screener" "must be a mapping")
  checkKeys ["schedule", "rank", "top_n", "attachments", "freshness_limit", "freshness_limit_s"]
    "document.screener" d
  ensure (d.contains "schedule") (fail "document.screener.schedule" "is required")
  let schedule ← scheduleSpec ((d.get? "schedule").getD .none)
  let rank ← optional d "rank" rankSpec
  let topN ← intField d "top_n" "document.screener.top_n"
  let freshnessLimitS ← freshnessLimit d
  let items ← asList ((d.get? "attachments").getD (.list []))
    (fail "document.screener.attachments" "must be a list")
  let attachments ←
    mapIdxM (fun i v => attachmentSpec v (item "document.screener.attachments" i)) 0 items
  .ok { schedule, rank, topN, attachments, freshnessLimitS }

/-! ## the document -/

def instrument (raw : PyVal F) (path : String) : Except PyErr InstrumentRef :=
  match raw with
  | .str s => do
    let bad := fail path ("instrument shorthand must be 'EXCHANGE:SYMBOL', got " ++ raw.repr)
    ensure (Text.hasChar s ':') bad
    let exchange := Text.strip (Text.partition s ':').1
    let symbol := Text.strip (Text.partition s ':').2
    ensure (decide (exchange ≠ "") && decide (symbol ≠ "")) bad
    .ok { symbol, exchange }
  | .dict d => do
    checkKeys ["symbol", "exchange"] path d
    ensure (Dict.contains d "symbol" && Dict.contains d "exchange")
      (fail path "instrument mapping requires 'symbol' and 'exchange'")
    let symbol ← requireStr d "symbol" path
    let exchange ← requireStr d "exchange" path
    .ok { symbol, exchange }
  | _ =>
    .error (fail path ("instrument must be 'EXCHANGE:SYMBOL' or a mapping, got " ++ raw.repr))

def dataPolicy (raw : PyVal F) : Except PyErr DataPolicy := do
  let d ← asDict raw (fail "document.data_policy" "must be a mapping")
  checkKeys ["missing", "insufficient_history", "require_closed_candles"] "document.data_policy" d
  let missing ← strEntry d "missing" "exclude_and_report" fun _ =>
    fail "document.data_policy.missing" "must be a non-empty string"
  let insufficientHistory ← strEntry d "insufficient_history" "wait" fun _ =>
    fail "document.data_policy.insufficient_history" "must be a non-empty string"
  let requireClosedCandles ← boolEntry d "require_closed_candles" true fun _ =>
    fail "document.data_policy.require_closed_candles" "must be a boolean"
  .ok { missing, insufficientHistory, requireClosedCandles }

/-- A parsed document with the value of the reserved `timezone` key, which is no
part of the document but reaches the compiler. -/
structure Parsed (F : Type) where
  document : WorkflowDocument F
  timezone : Option (PyVal F) := none

def documentKeys : List String :=
  ["version", "name", "instruments", "stages", "alerts", "data_policy", "session", "timezone",
   "universe", "screener"]

/-- `version == 1` of something that is not a boolean. -/
def isVersionOne : PyVal F → Bool
  | .int n => n == 1
  | .float f => PyFloat.eqQ f 1
  | _ => false

/-- The optional universe: `None` and an empty collection count as absent. -/
def optUniverse (raw : Dict Key (PyVal F)) : Except PyErr (Option UniverseSpec) :=
  match raw.get? "universe" with
  | none | some .none | some (.dict []) | some (.list []) => .ok none
  | some v => do
    let u ← universeSpec v
    .ok (some u)

/-- The optional screener: `None` and an empty mapping count as absent. -/
def optScreener (raw : Dict Key (PyVal F)) : Except PyErr (Option (ScreenerSpec F)) :=
  match raw.get? "screener" with
  | none | some .none | some (.dict []) => .ok none
  | some v => do
    let s ← screenerSpec v
    .ok (some s)

def parseDocument (d : Dict Key (PyVal F)) : Except PyErr (Parsed F) := do
  checkKeys documentKeys "document" d
  let version := (d.get? "version").getD .none
  ensure (isVersionOne version)
    (fail "document.version"
      ("unsupported schema version " ++ version.repr ++ "; only version 1 is supported"))
  let name ← nonEmptyStr ((d.get? "name").getD .none) "document.name"
  let session ← strEntry d "session" "nse_equity" fun v =>
    fail "document.session" ("must be a non-empty string, got " ++ v.repr)
  let items ← asList ((d.get? "instruments").getD (.list []))
    (fail "document.instruments" "must be a list")
  let instruments ← mapIdxM (fun i v => instrument v (item "document.instruments" i)) 0 items
  let items ← asList ((d.get? "stages").getD .none) (fail "document.stages" "must be a list")
  let stages ← mapIdxM (fun i v => stage v i) 0 items
  let items ← asList ((d.get? "alerts").getD (.list [])) (fail "document.alerts" "must be a list")
  let alerts ← mapIdxM (fun i v => alert v i) 0 items
  let dataPolicy ← dataPolicy ((d.get? "data_policy").getD (.dict []))
  let universe_ ← optUniverse d
  let screener ← optScreener d
  .ok
    { document :=
        { version := 1, name, instruments, stages, alerts, dataPolicy, session, universe_, screener },
      timezone := d.get? "timezone" }

def parseWorkflowDict (obj : PyVal F) : Except PyErr (Parsed F) := do
  let d ← asDict obj (.workflowParse "document must be a YAML/JSON mapping")
  checkBudget obj
  parseDocument d

end Parse

end KiteAlgo
