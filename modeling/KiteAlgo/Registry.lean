import KiteAlgo.Models

/-!
# KiteAlgo.Registry

The capability registry (`workflows/registry.py`): which operators, fields,
timeframes, sessions, feature functions and pair computations exist, with the
bounds the compiler checks and the canonical identity of a feature.
-/

namespace KiteAlgo

/-! ## operators, fields and timeframes -/

/-- The level operators: matched from current values only. -/
def Op.isLevel : Op → Bool
  | .gt | .gte | .lt | .lte => true
  | _ => false

/-- `HYSTERESIS_OPS`: the operators that may carry a release level. -/
def Op.allowsHysteresis : Op → Bool := Op.isLevel

/-- `FIELDS`. -/
inductive FieldName where
  | ltp
  | openPrice
  | high
  | low
  | close
  | volume
  | prevDayHigh
  | prevDayLow
  | changePct
  | turnover
  deriving DecidableEq, Repr

instance : Named FieldName where
  all := [.ltp, .openPrice, .high, .low, .close, .volume, .prevDayHigh, .prevDayLow, .changePct, .turnover]
  name
    | .ltp => "ltp"
    | .openPrice => "open"
    | .high => "high"
    | .low => "low"
    | .close => "close"
    | .volume => "volume"
    | .prevDayHigh => "prev_day_high"
    | .prevDayLow => "prev_day_low"
    | .changePct => "change_pct"
    | .turnover => "turnover"
  mem_all e := by cases e <;> simp
  name_inj {e e'} h := by cases e <;> cases e' <;> simp_all

/-- `context_resolved`: read from the session context, not from the bar. -/
def FieldName.isContextResolved : FieldName → Bool
  | .prevDayHigh | .prevDayLow => true
  | _ => false

/-- `screener_only`: computed by the stored-data scan alone. -/
def FieldName.isScreenerOnly : FieldName → Bool
  | .changePct | .turnover => true
  | _ => false

def isKnownField (name : String) : Bool := (Named.ofName? (E := FieldName) name).isSome

def isContextField (name : String) : Bool :=
  (Named.ofName? (E := FieldName) name).any FieldName.isContextResolved

def isScreenerOnlyField (name : String) : Bool :=
  (Named.ofName? (E := FieldName) name).any FieldName.isScreenerOnly

/-- `TIMEFRAMES`. -/
inductive Timeframe where
  | minute
  | minute3
  | minute5
  | minute10
  | minute15
  | minute30
  | minute60
  | day
  deriving DecidableEq, Repr

instance : Named Timeframe where
  all := [.minute, .minute3, .minute5, .minute10, .minute15, .minute30, .minute60, .day]
  name
    | .minute => "minute"
    | .minute3 => "3minute"
    | .minute5 => "5minute"
    | .minute10 => "10minute"
    | .minute15 => "15minute"
    | .minute30 => "30minute"
    | .minute60 => "60minute"
    | .day => "day"
  mem_all e := by cases e <;> simp
  name_inj {e e'} h := by cases e <;> cases e' <;> simp_all

/-- `TIMEFRAME_SECONDS`. -/
def Timeframe.seconds : Timeframe → Int
  | .minute => 60
  | .minute3 => 180
  | .minute5 => 300
  | .minute10 => 600
  | .minute15 => 900
  | .minute30 => 1800
  | .minute60 => 3600
  | .day => 86400

/-- `timeframe_seconds`: 0 when the name is unknown. -/
def timeframeSeconds (name : String) : Int :=
  ((Named.ofName? (E := Timeframe) name).map Timeframe.seconds).getD 0

def isSupportedTimeframe (name : String) : Bool := (Named.ofName? (E := Timeframe) name).isSome

/-! ## sessions -/

/-- `SESSIONS`. -/
inductive Session where
  | nseEquity
  | mcxCommodity
  | currency
  deriving DecidableEq, Repr

instance : Named Session where
  all := [.nseEquity, .mcxCommodity, .currency]
  name
    | .nseEquity => "nse_equity"
    | .mcxCommodity => "mcx_commodity"
    | .currency => "currency"
  mem_all e := by cases e <;> simp
  name_inj {e e'} h := by cases e <;> cases e' <;> simp_all

/-- `SESSION_EXCHANGES`. -/
def Session.exchanges : Session → List String
  | .nseEquity => ["NSE"]
  | .mcxCommodity => ["MCX"]
  | .currency => ["CDS", "BCD"]

def isSupportedSession (name : String) : Bool := (Named.ofName? (E := Session) name).isSome

def sessionAcceptsExchange (session exchange : String) : Bool :=
  (Named.ofName? (E := Session) session).any fun s => s.exchanges.contains (Text.upper exchange)

/-! ## feature functions and arithmetic -/

/-- `FEATURE_FUNCTIONS`. -/
inductive FeatureFunction where
  | sma
  | ema
  | wma
  | rsi
  | macd
  | atr
  | bollinger
  | supertrend
  | vwapSession
  | volumeSma
  | volumeRatio
  deriving DecidableEq, Repr

instance : Named FeatureFunction where
  all := [.sma, .ema, .wma, .rsi, .macd, .atr, .bollinger, .supertrend, .vwapSession, .volumeSma,
    .volumeRatio]
  name
    | .sma => "sma"
    | .ema => "ema"
    | .wma => "wma"
    | .rsi => "rsi"
    | .macd => "macd"
    | .atr => "atr"
    | .bollinger => "bollinger"
    | .supertrend => "supertrend"
    | .vwapSession => "vwap_session"
    | .volumeSma => "volume_sma"
    | .volumeRatio => "volume_ratio"
  mem_all e := by cases e <;> simp
  name_inj {e e'} h := by cases e <;> cases e' <;> simp_all

/-- A parameter: its name, its bounds as numbers and as the source writes them. -/
structure ParamSpec where
  name : String
  low : ℚ
  high : ℚ
  bounds : String

/-- The `period` parameter most functions share. -/
def periodParam : ParamSpec := ⟨"period", 2, 500, "[2, 500]"⟩

/-- `FEATURE_FUNCTIONS[f]["params"]`. -/
def FeatureFunction.params : FeatureFunction → List ParamSpec
  | .sma | .ema | .wma | .rsi | .atr | .volumeSma => [periodParam]
  | .macd => [⟨"fast", 2, 200, "[2, 200]"⟩, ⟨"slow", 3, 400, "[3, 400]"⟩, ⟨"signal", 2, 200, "[2, 200]"⟩]
  | .bollinger => [periodParam, ⟨"num_std", 1 / 10, 10, "[0.1, 10.0]"⟩]
  | .supertrend => [periodParam, ⟨"multiplier", 1 / 2, 20, "[0.5, 20.0]"⟩]
  | .vwapSession => []
  | .volumeRatio => [periodParam, ⟨"offset", 0, 100, "[0, 100]"⟩]

/-- `FEATURE_FUNCTIONS[f]["inputs"]`. -/
def FeatureFunction.inputs : FeatureFunction → List FieldName
  | .atr | .supertrend => [.high, .low, .close]
  | .vwapSession => [.high, .low, .close, .volume]
  | .volumeSma | .volumeRatio => [.volume]
  | _ => [.close]

/-- `FEATURE_FUNCTIONS[f].get("defaults", {})`. -/
def FeatureFunction.defaults {F : Type} [PyFloat F] : FeatureFunction → Dict Key (PyVal F)
  | .macd => [("fast", .int 12), ("slow", .int 26), ("signal", .int 9)]
  | .bollinger => [("num_std", .float PyFloat.two)]
  | .supertrend => [("multiplier", .float PyFloat.three)]
  | .volumeRatio => [("offset", .int 0)]
  | _ => []

def FeatureFunction.param? (f : FeatureFunction) (name : Key) : Option ParamSpec :=
  f.params.find? fun p => decide (Key.str p.name = name)

def isKnownFeatureFunction (name : String) : Bool :=
  (Named.ofName? (E := FeatureFunction) name).isSome

/-- `ARITHMETIC_OPS`, all of arity two. -/
inductive ArithmeticOp where
  | add
  | subtract
  | multiply
  | divide
  deriving DecidableEq, Repr

instance : Named ArithmeticOp where
  all := [.add, .subtract, .multiply, .divide]
  name
    | .add => "add"
    | .subtract => "subtract"
    | .multiply => "multiply"
    | .divide => "divide"
  mem_all e := by cases e <;> simp
  name_inj {e e'} h := by cases e <;> cases e' <;> simp_all

/-- The arithmetic operator a mapping key names. -/
def arithmeticOp? : Key → Option ArithmeticOp
  | .str s => Named.ofName? s
  | .other _ => none

/-- `key in ARITHMETIC_OPS`. -/
def isArithmeticKey (k : Key) : Bool := (arithmeticOp? k).isSome

def maxArithmeticDepth : Nat := 3

def maxConditionsPerGroup : Nat := 32

def maxFeatureStages : Nat := 8

def maxInputChainDepth : Nat := 8

/-- `feature_feature_id`: function, sorted parameters and source field. -/
def featureFeatureId {F : Type} [PyFloat F] (function : String) (params : Dict Key (PyVal F))
    (sourceField : String) : String :=
  function ++ ":" ++ PyVal.jsonDumps true (.dict params) ++ ":" ++ sourceField

/-! ## pairs, breadth and caps -/

/-- `PAIR_COMPUTATIONS`. -/
inductive PairComputation where
  | pairRatio
  | relativeStrength
  deriving DecidableEq, Repr

instance : Named PairComputation where
  all := [.pairRatio, .relativeStrength]
  name
    | .pairRatio => "pair_ratio"
    | .relativeStrength => "relative_strength"
  mem_all e := by cases e <;> simp
  name_inj {e e'} h := by cases e <;> cases e' <;> simp_all

/-- The bar fields a pair computation reads. -/
def PairComputation.fields : PairComputation → List String
  | .pairRatio | .relativeStrength => ["close"]

def PairComputation.requires : PairComputation → List String
  | .pairRatio => ["instrument", "reference"]
  | .relativeStrength => ["instrument", "reference", "lookback"]

/-- The further keys a pair computation accepts. -/
def PairComputation.optional : PairComputation → List String
  | .pairRatio => ["field"]
  | .relativeStrength => ["max_skew_bars"]

/-- `is_implemented_breadth_mode`. -/
def BreadthMode.isImplemented : BreadthMode → Bool
  | .triggersWithin => true
  | .simultaneous => false

/-! ## namespaced fields -/

def fundamentalsFields : List String :=
  ["fundamentals.quarterly_revenue_yoy_pct", "fundamentals.latest_roce_pct",
   "fundamentals.pe_ratio", "fundamentals.market_cap"]

/-- `[A-Za-z0-9_]`. -/
def isWordChar (c : Char) : Bool := c.isAlphanum || c == '_'

/-- `is_external_field`: `^external\.[A-Za-z0-9_\-]+\.[A-Za-z0-9_]+$`, where `$`
also stands before one final newline. -/
def isExternalField (name : String) : Bool :=
  Text.startsWith name "external." && let rest := name.toList.drop 9
    let producer := rest.takeWhile fun c => isWordChar c || c == '-'
    !producer.isEmpty && match rest.drop producer.length with
      | '.' :: field =>
        let word := field.takeWhile isWordChar
        !word.isEmpty && (field.length == word.length || field.drop word.length == ['\n'])
      | _ => false

def isNamespacedField (name : String) : Bool := Text.hasChar name '.'

/-- The name is a `fundamentals.` reference. -/
def isFundamentalsName (name : String) : Bool := Text.startsWith name "fundamentals."

end KiteAlgo
