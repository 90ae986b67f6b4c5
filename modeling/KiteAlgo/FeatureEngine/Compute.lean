import KiteAlgo.Features

/-!
# KiteAlgo.FeatureEngine.Compute

`FeatureEngine._compute`: one number from a window of bars and a feature, and what an
accepted operand or feature stage says the number should be.
-/

namespace KiteAlgo

namespace FeatureEngine

variable {F : Type} [PyNumeric F]

/-! ## parameters -/

/-- `int(v)`. -/
def intOf : PyVal F → Except PyErr Int
  | .int n => .ok n
  | .bool b => .ok (if b then 1 else 0)
  | .float f =>
    match PyNumeric.toInt f with
    | some n => .ok n
    | none => .error .overflow
  | .str s =>
    match Text.intOf? s with
    | some n => .ok n
    | none => .error (.value "invalid literal for int()")
  | _ => .error (.type "int() argument must be a string or a number")

/-- `float(v)` of a number. -/
def floatOf : PyVal F → Except PyErr F
  | .int n =>
    match PyFloat.ofInt n with
    | some f => .ok f
    | none => .error .overflow
  | .bool b => .ok (PyNumeric.ofNat (if b then 1 else 0))
  | .float f => .ok f
  | .str _ => .error (.value "could not convert string to float")
  | _ => .error (.type "float() argument must be a string or a number")

/-- `int(params.get(name, default))`. -/
def intParam (params : Dict Key (PyVal F)) (name : String) (default : Int) : Except PyErr Int :=
  match params.get? name with
  | none => .ok default
  | some v => intOf v

/-- `float(params.get(name, default))`. -/
def floatParam (params : Dict Key (PyVal F)) (name : String) (default : F) : Except PyErr F :=
  match params.get? name with
  | none => .ok default
  | some v => floatOf v

def isFalsy : PyVal F → Bool
  | .none => true
  | .bool b => !b
  | .int n => decide (n = 0)
  | .float f => PyFloat.eqQ f 0
  | .str s => decide (s = "")
  | .list xs => xs.isEmpty
  | .dict d => d.isEmpty
  | .atom _ _ => false

/-- `payload.get(output or default)`. -/
def selected (payload : Dict String (List (Option F))) (output : Option (PyVal F)) (default : String) :
    Option (List (Option F)) :=
  match output.filter fun v => !isFalsy v with
  | none => payload.get? default
  | some (.str name) => payload.get? name
  | some _ => none

/-- `bar.get("volume") or 0.0`. -/
def volumeOrZero (bar : Bar F) : F :=
  match bar.volume with
  | none => PyNumeric.ofNat 0
  | some v => if PyFloat.eqQ v 0 then PyNumeric.ofNat 0 else v

/-- The series of `_compute`; `none` for an unknown function or output. -/
def series (spec : FeatureSpec F) (bars : List (Bar F)) : Except PyErr (Option (List (Option F))) :=
  let closes := bars.map Bar.close
  let volumes := bars.map fun bar => some (volumeOrZero bar)
  let params := spec.params
  match Named.ofName? (E := FeatureFunction) spec.function with
  | some .sma => do .ok (some (← Features.sma closes (← intParam params "period" 0)))
  | some .ema => do .ok (some (← Features.ema closes (← intParam params "period" 0)))
  | some .wma => do .ok (some (← Features.wma closes (← intParam params "period" 0)))
  | some .rsi => do .ok (some (← Features.rsi closes (← intParam params "period" 14)))
  | some .volumeSma => do .ok (some (← Features.volumeSma volumes (← intParam params "period" 0)))
  | some .volumeRatio => do
    .ok (some (← Features.volumeRatio volumes (← intParam params "period" 0)
      (← intParam params "offset" spec.offset)))
  | some .macd => do
    let payload ← Features.macd closes (← intParam params "fast" 12) (← intParam params "slow" 26)
      (← intParam params "signal" 9)
    .ok (selected payload spec.output "macd")
  | some .bollinger => do
    let payload ← Features.bollinger closes (← intParam params "period" 20)
      (← floatParam params "num_std" PyFloat.two)
    .ok (selected payload spec.output "mid")
  | some .supertrend => do
    let payload ← Features.supertrend bars (← intParam params "period" 10)
      (← floatParam params "multiplier" PyFloat.three)
    .ok (selected payload spec.output "value")
  | some .atr => do .ok (some (← Features.atr bars (← intParam params "period" 14)))
  | some .vwapSession => do
    .ok (some (← Features.vwapSession bars (List.replicate bars.length "s")))
  | none => .ok none

/-- The finite number at a position counted from the end of a series. -/
def valueAt (values : List (Option F)) (offset : Int) : Option F :=
  let index := (values.length : Int) - 1 - max 0 offset
  if index < 0 then none else (values[index.toNat]?.join).filter PyFloat.isFinite

/-- `_compute`.  A `TypeError` or `ValueError` gives no number; an infinite parameter, which is
never accepted, would raise `OverflowError`. -/
def compute (spec : FeatureSpec F) (bars : List (Bar F)) : Option F :=
  match series spec bars with
  | .ok (some values) => valueAt values spec.offset
  | _ => none

/-! ## functions of one series -/

/-- The functions that read one field of the bars and have one result. -/
inductive SingleInput where
  | sma
  | ema
  | wma
  | rsi
  | volumeSma
  | volumeRatio

def SingleInput.function : SingleInput → FeatureFunction
  | .sma => .sma
  | .ema => .ema
  | .wma => .wma
  | .rsi => .rsi
  | .volumeSma => .volumeSma
  | .volumeRatio => .volumeRatio

def SingleInput.input : SingleInput → FieldName
  | .volumeSma | .volumeRatio => .volume
  | _ => .close

/-- `_compute` reads closes, and volumes with zero for a missing one. -/
def SingleInput.read (f : SingleInput) (bar : Bar F) : Option F :=
  if f.input = .volume then some (volumeOrZero bar) else bar.close

/-- The indicator with its parameters over a series; `shift` is the default of the `offset`
parameter of `volume_ratio`. -/
def SingleInput.indicator (f : SingleInput) (params : Dict Key (PyVal F)) (shift : Int)
    (values : List (Option F)) : Except PyErr (List (Option F)) := do
  match f with
  | .sma => Features.sma values (← intParam params "period" 0)
  | .ema => Features.ema values (← intParam params "period" 0)
  | .wma => Features.wma values (← intParam params "period" 0)
  | .rsi => Features.rsi values (← intParam params "period" 14)
  | .volumeSma => Features.volumeSma values (← intParam params "period" 0)
  | .volumeRatio =>
    Features.volumeRatio values (← intParam params "period" 0) (← intParam params "offset" shift)

omit [PyNumeric F] in
theorem map_bind_eq {α β γ : Type} (x : Except PyErr α) (run : α → Except PyErr β) (wrap : β → γ) :
    (x >>= run).map wrap = x >>= fun a => (run a).map wrap := by
  cases x <;> rfl

theorem series_single {f : SingleInput} {spec : FeatureSpec F}
    (hf : Named.ofName? spec.function = some f.function) (bars : List (Bar F)) :
    series spec bars = (f.indicator spec.params spec.offset (bars.map f.read)).map some := by
  have hclose : ∀ g : SingleInput, g.input = .close → bars.map g.read = bars.map Bar.close := by
    intro g hg
    refine List.map_congr_left fun bar _ => ?_
    rw [SingleInput.read, hg]
    rfl
  have hvolume : ∀ g : SingleInput, g.input = .volume →
      bars.map g.read = bars.map fun bar => some (volumeOrZero bar) := by
    intro g hg
    refine List.map_congr_left fun bar _ => ?_
    rw [SingleInput.read, hg, if_pos rfl]
  unfold series
  rw [hf]
  have hwrap : ∀ r : Except PyErr (List (Option F)), (r >>= fun v => .ok (some v)) = r.map some := by
    intro r
    cases r <;> rfl
  cases f with
  | sma | ema | wma | rsi =>
    rw [hclose _ rfl]
    simp only [SingleInput.function, SingleInput.indicator, hwrap, map_bind_eq]
  | volumeSma | volumeRatio =>
    rw [hvolume _ rfl]
    simp only [SingleInput.function, SingleInput.indicator, hwrap, map_bind_eq]

/-- The features that the compiler accepts, with their functions and their source overrides: a
named indicator operand or a feature stage that passes its checks. -/
inductive Admitted : FeatureFunction → Option FieldName → FeatureSpec F → Prop
  | inline {f : FeatureFunction} {operand : Operand F} {name where_ : String}
      (known : Named.ofName? name = some f) (keys : operand.params.keys.Nodup)
      (accepted : (Compile.validateNamedIndicator operand name where_).passes = true) :
      Admitted f (operand.source.bind Named.ofName?) (inlineSpec operand name)
  | stage {f : FeatureFunction} {stage : Stage F} {name where_ : String}
      (function : stage.function = some name) (known : Named.ofName? name = some f)
      (keys : stage.stageParams.keys.Nodup)
      (accepted : (Compile.validateFeatureStage stage where_).passes = true) :
      Admitted f (stage.sourceField.bind Named.ofName?) (stageSpec stage name)

end FeatureEngine

end KiteAlgo
