import KiteAlgo.Lib.Names
import KiteAlgo.Value

/-!
# KiteAlgo.Models

The workflow document model (`workflows/models.py`): instruments, operands,
conditions, stages, alerts, universe expressions and the screener block.

Words that the parser lets through unchecked and the compiler flags later
(clocks, stage types, operators, triggers, breadth modes) are `OpenName`s over
the enumeration of the known ones; words the parser itself restricts are plain
enumerations.  Everything is generic over the float type `F`.
-/

namespace KiteAlgo

/-! ## Vocabulary -/

/-- `Clock`: the evaluation clocks. -/
inductive Clock where
  | ltp
  | candleClose
  deriving DecidableEq, Repr

instance : Named Clock where
  all := [.ltp, .candleClose]
  name
    | .ltp => "ltp"
    | .candleClose => "candle_close"
  mem_all e := by cases e <;> simp
  name_inj {e e'} h := by cases e <;> cases e' <;> simp_all

/-- `Trigger`: the alert triggers. -/
inductive Trigger where
  | once
  | onTransition
  | oncePerSession
  | reminder
  deriving DecidableEq, Repr

instance : Named Trigger where
  all := [.once, .onTransition, .oncePerSession, .reminder]
  name
    | .once => "once"
    | .onTransition => "on_transition"
    | .oncePerSession => "once_per_session"
    | .reminder => "reminder"
  mem_all e := by cases e <;> simp
  name_inj {e e'} h := by cases e <;> cases e' <;> simp_all

inductive StageType where
  | signal
  | filter
  | feature
  | breadth
  deriving DecidableEq, Repr

instance : Named StageType where
  all := [.signal, .filter, .feature, .breadth]
  name
    | .signal => "signal"
    | .filter => "filter"
    | .feature => "feature"
    | .breadth => "breadth"
  mem_all e := by cases e <;> simp
  name_inj {e e'} h := by cases e <;> cases e' <;> simp_all

/-- The condition operators of the registry. -/
inductive Op where
  | gt
  | gte
  | lt
  | lte
  | crossesAbove
  | crossesBelow
  | within
  | risesPct
  | fallsPct
  | breaksPrevHigh
  | breaksPrevLow
  deriving DecidableEq, Repr

instance : Named Op where
  all := [.gt, .gte, .lt, .lte, .crossesAbove, .crossesBelow, .within, .risesPct, .fallsPct,
    .breaksPrevHigh, .breaksPrevLow]
  name
    | .gt => "gt"
    | .gte => "gte"
    | .lt => "lt"
    | .lte => "lte"
    | .crossesAbove => "crosses_above"
    | .crossesBelow => "crosses_below"
    | .within => "within"
    | .risesPct => "rises_pct"
    | .fallsPct => "falls_pct"
    | .breaksPrevHigh => "breaks_prev_high"
    | .breaksPrevLow => "breaks_prev_low"
  mem_all e := by cases e <;> simp
  name_inj {e e'} h := by cases e <;> cases e' <;> simp_all

/-- The breadth modes of the registry; `simultaneous` is reserved. -/
inductive BreadthMode where
  | triggersWithin
  | simultaneous
  deriving DecidableEq, Repr

instance : Named BreadthMode where
  all := [.triggersWithin, .simultaneous]
  name
    | .triggersWithin => "triggers_within"
    | .simultaneous => "simultaneous"
  mem_all e := by cases e <;> simp
  name_inj {e e'} h := by cases e <;> cases e' <;> simp_all

/-- `Operand.kind`. -/
inductive OperandKind where
  | field
  | value
  | indicator
  | pair
  deriving DecidableEq, Repr

instance : Named OperandKind where
  all := [.field, .value, .indicator, .pair]
  name
    | .field => "field"
    | .value => "value"
    | .indicator => "indicator"
    | .pair => "pair"
  mem_all e := by cases e <;> simp
  name_inj {e e'} h := by cases e <;> cases e' <;> simp_all

/-- `ConditionGroup.kind`. -/
inductive GroupKind where
  | all
  | any
  | not
  deriving DecidableEq, Repr

instance : Named GroupKind where
  all := [.all, .any, .not]
  name
    | .all => "all"
    | .any => "any"
    | .not => "not"
  mem_all e := by cases e <;> simp
  name_inj {e e'} h := by cases e <;> cases e' <;> simp_all

inductive RearmDirection where
  | above
  | below
  deriving DecidableEq, Repr

instance : Named RearmDirection where
  all := [.above, .below]
  name
    | .above => "above"
    | .below => "below"
  mem_all e := by cases e <;> simp
  name_inj {e e'} h := by cases e <;> cases e' <;> simp_all

/-- `UniverseRef.kind`. -/
inductive UniverseKind where
  | universe_
  | index
  | watchlist
  deriving DecidableEq, Repr

instance : Named UniverseKind where
  all := [.universe_, .index, .watchlist]
  name
    | .universe_ => "universe"
    | .index => "index"
    | .watchlist => "watchlist"
  mem_all e := by cases e <;> simp
  name_inj {e e'} h := by cases e <;> cases e' <;> simp_all

/-- `AttachmentSpec.trigger` (`_SCREENER_TRIGGER_TYPES`). -/
inductive AttachmentTrigger where
  | entry
  | exit
  | topN
  | rankDelta
  deriving DecidableEq, Repr

instance : Named AttachmentTrigger where
  all := [.entry, .exit, .topN, .rankDelta]
  name
    | .entry => "entry"
    | .exit => "exit"
    | .topN => "top_n"
    | .rankDelta => "rank_delta"
  mem_all e := by cases e <;> simp
  name_inj {e e'} h := by cases e <;> cases e' <;> simp_all

/-- `RankSpec.direction`. -/
inductive RankDirection where
  | desc
  | asc
  deriving DecidableEq, Repr

instance : Named RankDirection where
  all := [.desc, .asc]
  name
    | .desc => "desc"
    | .asc => "asc"
  mem_all e := by cases e <;> simp
  name_inj {e e'} h := by cases e <;> cases e' <;> simp_all

/-! ## The document -/

structure InstrumentRef where
  symbol : String
  exchange : String
  deriving DecidableEq, Repr

/-- `InstrumentRef.key`: `EXCHANGE:SYMBOL`. -/
def InstrumentRef.key (i : InstrumentRef) : String := i.exchange ++ ":" ++ i.symbol

section Types

variable (F : Type)

/-- `Operand`.  `params` holds indicator parameters, an expression tree or the
legs of a pair, still as the raw mapping the author wrote. -/
structure Operand where
  kind : OperandKind
  name : Option String := none
  value : Option F := none
  params : Dict Key (PyVal F) := []
  source : Option String := none
  offset : Option Int := none

/-- `HysteresisSpec`: the exit level of a latched condition. -/
structure HysteresisSpec where
  release : F

structure Condition where
  left : Operand F
  op : OpenName Op
  right : Operand F
  hysteresis : Option (HysteresisSpec F) := none

structure ConditionGroup where
  kind : GroupKind
  conditions : List (Condition F)

/-- `SequenceSpec`: a bounded A-then-B sequence. -/
structure SequenceSpec where
  first : List (ConditionGroup F)
  andThen : List (ConditionGroup F)
  withinBars : Option Int := none
  withinS : Option Int := none

/-- `BreadthSpec`: at least `distinctInstruments` instruments in the last
`windowS` seconds. -/
structure BreadthSpec where
  condition : List (ConditionGroup F)
  distinctInstruments : Int
  windowS : Int
  mode : OpenName BreadthMode := .known .triggersWithin

structure Stage where
  id : String
  type : OpenName StageType
  clock : OpenName Clock
  timeframe : Option String
  conditions : List (Condition F)
  input : Option String := none
  anyConditions : List (Condition F) := []
  notConditions : List (Condition F) := []
  function : Option String := none
  stageParams : Dict Key (PyVal F) := []
  sourceField : Option String := none
  consecutiveBars : Option Int := none
  sequence : Option (SequenceSpec F) := none
  breadth : Option (BreadthSpec F) := none

structure AlertSpec where
  id : String
  source : String
  trigger : OpenName Trigger := .known .onTransition
  reminderIntervalS : Option Int := none
  cooldownS : Option Int := none
  rearmLevel : Option F := none
  rearmDirection : Option RearmDirection := none
  notifyIfAlreadyTrue : Bool := false
  expiresAt : Option String := none
  channels : List String := []
  message : Option String := none
  maxPerSession : Option Int := none
  sessionCapReset : Option String := none

end Types

structure UniverseRef where
  kind : UniverseKind
  name : String
  deriving DecidableEq, Repr

structure UniverseSpec where
  refs : List UniverseRef
  exclude : List UniverseRef := []
  intersect : List UniverseRef := []
  deduplicate : Bool := true
  deriving DecidableEq, Repr

structure DataPolicy where
  missing : String := "exclude_and_report"
  insufficientHistory : String := "wait"
  requireClosedCandles : Bool := true
  deriving DecidableEq, Repr

structure ScheduleSpec where
  every : String
  calendar : String := "nse_equity"
  at_ : Option String := none
  deriving DecidableEq, Repr

structure RankSpec (F : Type) where
  by_ : Operand F
  direction : RankDirection := .desc

structure AttachmentSpec where
  id : String
  trigger : AttachmentTrigger
  channels : List String := []
  topN : Option Int := none
  rankDelta : Option Int := none
  entryRank : Option Int := none
  exitRank : Option Int := none
  exitAfter : Option Int := none
  initialMatch : Bool := false
  message : Option String := none
  deriving DecidableEq, Repr

structure ScreenerSpec (F : Type) where
  schedule : ScheduleSpec
  rank : Option (RankSpec F) := none
  topN : Option Int := none
  attachments : List AttachmentSpec := []
  freshnessLimitS : Int := 3 * 24 * 3600

structure WorkflowDocument (F : Type) where
  version : Int
  name : String
  instruments : List InstrumentRef
  stages : List (Stage F)
  alerts : List (AlertSpec F)
  dataPolicy : DataPolicy := {}
  session : String := "nse_equity"
  universe_ : Option UniverseSpec := none
  screener : Option (ScreenerSpec F) := none

/-! ## Where operands stand -/

section Positions

variable {F : Type}

def Condition.operands (c : Condition F) : List (Operand F) := [c.left, c.right]

def groupConditions (gs : List (ConditionGroup F)) : List (Condition F) :=
  gs.flatMap ConditionGroup.conditions

/-- The conditions of the stage's own `all`, `any` and `not` groups. -/
def Stage.ownConditions (s : Stage F) : List (Condition F) :=
  s.conditions ++ s.anyConditions ++ s.notConditions

/-- The conditions of the two legs of the stage's sequence. -/
def Stage.sequenceConditions (s : Stage F) : List (Condition F) :=
  match s.sequence with
  | none => []
  | some q => groupConditions q.first ++ groupConditions q.andThen

/-- The conditions of the stage's breadth block. -/
def Stage.breadthConditions (s : Stage F) : List (Condition F) :=
  match s.breadth with
  | none => []
  | some b => groupConditions b.condition

def Stage.allConditions (s : Stage F) : List (Condition F) :=
  s.ownConditions ++ s.sequenceConditions ++ s.breadthConditions

def operandsOf (cs : List (Condition F)) : List (Operand F) := cs.flatMap Condition.operands

def WorkflowDocument.rankOperands (d : WorkflowDocument F) : List (Operand F) :=
  match d.screener with
  | some { rank := some r, .. } => [r.by_]
  | _ => []

def WorkflowDocument.operands (d : WorkflowDocument F) : List (Operand F) :=
  d.stages.flatMap (fun s => operandsOf s.allConditions) ++ d.rankOperands

end Positions

/-! ## Canonical mappings (`to_document_dict`) -/

section Canonical

variable {F : Type}

/-- A value that may be `None`. -/
def optStr : Option String → PyVal F
  | none => .none
  | some s => .str s

/-- An integer that may be `None`. -/
def optInt : Option Int → PyVal F
  | none => .none
  | some n => .int n

/-- A float that may be `None`. -/
def optFloat : Option F → PyVal F
  | none => .none
  | some f => .float f

/-- An entry that is written only when its value is present. -/
def optEntry (key : String) (render : α → PyVal F) : Option α → Dict Key (PyVal F)
  | none => []
  | some a => [(key, render a)]

/-- A mapping: the entries that are always written, then those that are present. -/
def record (always present : Dict Key (PyVal F)) : PyVal F := .dict (always ++ present)

@[simp] theorem entries_dict (d : Dict Key (PyVal F)) : (PyVal.dict d).entries = d := rfl

@[simp] theorem entries_record (always present : Dict Key (PyVal F)) :
    (record always present).entries = always ++ present := rfl

def operandDict (o : Operand F) : PyVal F :=
  .dict
    [("kind", .str (Named.name o.kind)), ("name", optStr o.name), ("value", optFloat o.value),
     ("params", .dict o.params), ("source", optStr o.source), ("offset", optInt o.offset)]

/-- `HysteresisSpec.to_document_dict`. -/
def hysteresisDict (h : HysteresisSpec F) : PyVal F := .dict [("release", .float h.release)]

/-- One item of `_conditions_dict`. -/
def conditionDict (c : Condition F) : PyVal F :=
  record
    [("left", operandDict c.left), ("op", .str c.op.text), ("right", operandDict c.right)]
    (optEntry "hysteresis" hysteresisDict c.hysteresis)

def conditionsDict (cs : List (Condition F)) : PyVal F := .list (cs.map conditionDict)

def groupDict (g : ConditionGroup F) : PyVal F :=
  .dict [(Named.name g.kind, conditionsDict g.conditions)]

/-- `SequenceSpec.to_document_dict`. -/
def sequenceDict (s : SequenceSpec F) : PyVal F :=
  record
    [("first", .list (s.first.map groupDict)), ("then", .list (s.andThen.map groupDict))]
    (optEntry "within_bars" .int s.withinBars ++ optEntry "within" .int s.withinS)

/-- `BreadthSpec.to_document_dict`. -/
def breadthDict (b : BreadthSpec F) : PyVal F :=
  .dict
    [("condition", .list (b.condition.map groupDict)), ("distinct_instruments", .int b.distinctInstruments),
     ("window", .int b.windowS), ("mode", .str b.mode.text)]

def stageDict (s : Stage F) : PyVal F :=
  record
    [("id", .str s.id), ("type", .str s.type.text), ("clock", .str s.clock.text),
     ("timeframe", optStr s.timeframe), ("input", optStr s.input),
     ("conditions", conditionsDict s.conditions), ("any_conditions", conditionsDict s.anyConditions),
     ("not_conditions", conditionsDict s.notConditions), ("function", optStr s.function),
     ("stage_params", .dict s.stageParams), ("source_field", optStr s.sourceField)]
    (optEntry "consecutive_bars" .int s.consecutiveBars ++ optEntry "sequence" sequenceDict s.sequence ++
      optEntry "breadth" breadthDict s.breadth)

def alertDict (a : AlertSpec F) : PyVal F :=
  record
    [("id", .str a.id), ("source", .str a.source), ("trigger", .str a.trigger.text),
     ("reminder_interval_s", optInt a.reminderIntervalS), ("cooldown_s", optInt a.cooldownS),
     ("rearm_level", optFloat a.rearmLevel), ("rearm_direction", optStr (a.rearmDirection.map Named.name)),
     ("notify_if_already_true", .bool a.notifyIfAlreadyTrue), ("expires_at", optStr a.expiresAt),
     ("channels", .list (a.channels.map .str)), ("message", optStr a.message)]
    (optEntry "max_per_session" .int a.maxPerSession ++ optEntry "session_cap_reset" .str a.sessionCapReset)

def instrumentDict (i : InstrumentRef) : PyVal F :=
  .dict [("symbol", .str i.symbol), ("exchange", .str i.exchange)]

/-- `UniverseRef.to_ref_dict`. -/
def universeRefDict (r : UniverseRef) : PyVal F :=
  .dict [("kind", .str (Named.name r.kind)), ("name", .str r.name)]

/-- A list entry that is written only when the list has items. -/
def listEntry (key : String) (render : α → PyVal F) (xs : List α) : Dict Key (PyVal F) :=
  if xs.isEmpty then [] else [(key, .list (xs.map render))]

/-- `UniverseSpec.to_document_dict`. -/
def universeDict (u : UniverseSpec) : PyVal F :=
  record
    [("union", .list (u.refs.map universeRefDict)), ("deduplicate", .bool u.deduplicate)]
    (listEntry "exclude" universeRefDict u.exclude ++ listEntry "intersect" universeRefDict u.intersect)

/-- `ScheduleSpec.to_document_dict`. -/
def scheduleDict (s : ScheduleSpec) : PyVal F :=
  record [("every", .str s.every), ("calendar", .str s.calendar)] (optEntry "at" .str s.at_)

/-- `RankSpec.to_document_dict`. -/
def rankDict (r : RankSpec F) : PyVal F :=
  .dict [("by", operandDict r.by_), ("direction", .str (Named.name r.direction))]

/-- `AttachmentSpec.to_document_dict`. -/
def attachmentDict (a : AttachmentSpec) : PyVal F :=
  record
    [("id", .str a.id), ("trigger", .str (Named.name a.trigger)), ("channels", .list (a.channels.map .str)),
     ("initial_match", .bool a.initialMatch)]
    (optEntry "top_n" .int a.topN ++ optEntry "rank_delta" .int a.rankDelta ++
      optEntry "entry_rank" .int a.entryRank ++ optEntry "exit_rank" .int a.exitRank ++
      optEntry "exit_after" .int a.exitAfter ++ optEntry "message" .str a.message)

/-- `ScreenerSpec.to_document_dict`. -/
def screenerDict (s : ScreenerSpec F) : PyVal F :=
  record
    [("schedule", scheduleDict s.schedule), ("freshness_limit_s", .int s.freshnessLimitS)]
    (optEntry "rank" rankDict s.rank ++ optEntry "top_n" .int s.topN ++
      listEntry "attachments" attachmentDict s.attachments)

/-- The `data_policy` mapping. -/
def dataPolicyDict (p : DataPolicy) : PyVal F :=
  .dict
    [("missing", .str p.missing), ("insufficient_history", .str p.insufficientHistory),
     ("require_closed_candles", .bool p.requireClosedCandles)]

def toDocumentDict (d : WorkflowDocument F) : PyVal F :=
  record
    [("version", .int d.version), ("name", .str d.name), ("session", .str d.session),
     ("instruments", .list (d.instruments.map instrumentDict)), ("stages", .list (d.stages.map stageDict)),
     ("alerts", .list (d.alerts.map alertDict)), ("data_policy", dataPolicyDict d.dataPolicy)]
    (optEntry "universe" universeDict d.universe_ ++ optEntry "screener" screenerDict d.screener)

end Canonical

end KiteAlgo
