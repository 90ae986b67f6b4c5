import Mathlib.Data.Rat.Sqrt
import KiteAlgo.FeatureEngine

/-!
# KiteAlgo.Features

The indicator numerics (`alerts/features.py`): every function maps a series to a series of
the same length, unknown during warmup and wherever an input is missing.

A loop over the runs of finite values is `mapSegments`, a loop over trailing windows is
`rolling`, and a running average is `recurrence`.
-/

namespace KiteAlgo

open List
/-! ## numbers -/

/-- What the indicators need of floats besides `PyFloat`. -/
class PyNumeric (F : Type) extends PyFloat F where
  /-- `float(n)` of a small natural number. -/
  ofNat : Nat → F
  /-- `abs(f)`. -/
  abs : F → F
  /-- `math.sqrt(f)` of a number that is not negative. -/
  sqrt : F → F
  /-- `sum(xs)`. -/
  sum : List F → F
  /-- `int(f)`; `none` for infinities and NaN. -/
  toInt : F → Option Int

/-- Exact rationals; roots are exact where they are rational. -/
instance : PyNumeric ℚ where
  ofNat n := n
  abs q := |q|
  sqrt := Rat.sqrt
  sum := List.sum
  toInt q := some (q.num.tdiv q.den)

namespace Features

variable {F : Type} [PyNumeric F]

def isFinite (v : Option F) : Bool := v.any PyFloat.isFinite

/-- `_bar_float`: a finite field of a bar. -/
def barFloat (v : Option F) : Option F := v.filter PyFloat.isFinite

/-- `_validate_period`, of an integer. -/
def validatePeriod (period : Int) (name : String) : Except PyErr Nat :=
  if period < 1 ∨ 500 < period then
    .error (.value (name ++ " must be between 1 and 500, got " ++ toString period))
  else .ok period.toNat

def validatePositive (number : F) (name : String) : Except PyErr F :=
  if !PyFloat.isFinite number || PyFloat.leQ number 0 then
    .error (.value (name ++ " must be a positive finite number, got " ++ PyFloat.repr number))
  else .ok number

/-- The results over each run of consecutive finite values, unknown between them
(`for start, end in _finite_segments(values)`); `run` is the run so far. -/
def mapSegments (f : List F → List (Option F)) (run : List F) : List (Option F) → List (Option F)
  | [] => f run
  | none :: values => f run ++ none :: mapSegments f [] values
  | some x :: values =>
    if PyFloat.isFinite x then mapSegments f (run ++ [x]) values
    else f run ++ none :: mapSegments f [] values

/-- A function of each window of `period` values, unknown where one of them is not finite. -/
def rolling (f : List F → F) (period : Nat) (values : List (Option F)) : List (Option F) :=
  (List.range values.length).map fun idx =>
    let window := (values.drop (idx + 1 - period)).take period
    if period ≤ idx + 1 ∧ window.all isFinite = true then some (f (window.filterMap id)) else none

/-- Each value folded into the result before it. -/
def recurrence (step : F → F → F) (previous : F) : List F → List F
  | [] => []
  | x :: xs => step previous x :: recurrence step (step previous x) xs

/-! ## rolling means -/

def mean (window : List F) : F := PyFloat.div (PyNumeric.sum window) (PyNumeric.ofNat window.length)

def rollingMean (period : Nat) (values : List (Option F)) : List (Option F) :=
  rolling mean period values

def sma (values : List (Option F)) (period : Int) : Except PyErr (List (Option F)) := do
  let period ← validatePeriod period "period"
  .ok (rollingMean period values)

/-- The mean of the first `period` values of a run, then each value folded in. -/
def smoothed (step : F → F → F) (period : Nat) (run : List F) : List F :=
  let seed := mean (run.take period)
  seed :: recurrence step seed (run.drop period)

/-- A smoothed run; one with fewer than `period` values has no output. -/
def smoothedRun (step : F → F → F) (period : Nat) (run : List F) : List (Option F) :=
  if run.length < period then run.map fun _ => none
  else List.replicate (period - 1) none ++ (smoothed step period run).map some

def emaStep (period : Nat) (previous price : F) : F :=
  let alpha := PyFloat.div PyFloat.two (PyFloat.add (PyNumeric.ofNat period) (PyNumeric.ofNat 1))
  PyFloat.add (PyFloat.mul (PyFloat.sub price previous) alpha) previous

def emaKernel (period : Nat) (values : List (Option F)) : List (Option F) :=
  mapSegments (smoothedRun (emaStep period) period) [] values

def ema (values : List (Option F)) (period : Int) : Except PyErr (List (Option F)) := do
  let period ← validatePeriod period "period"
  .ok (emaKernel period values)

/-- The sum of a window with the weights `1..period`. -/
def weighted (window : List F) : F :=
  window.zipIdx.foldl (fun acc e => PyFloat.add acc (PyFloat.mul (PyNumeric.ofNat (e.2 + 1)) e.1))
    (PyNumeric.ofNat 0)

def wma (values : List (Option F)) (period : Int) : Except PyErr (List (Option F)) := do
  let period ← validatePeriod period "period"
  let denominator := PyFloat.div (PyNumeric.ofNat (period * (period + 1))) PyFloat.two
  .ok (rolling (fun window => PyFloat.div (weighted window) denominator) period values)

/-! ## momentum -/

def rsiFromAvgs (gain loss : F) : F :=
  if PyFloat.eqQ loss 0 then
    if PyFloat.lt (PyNumeric.ofNat 0) gain then PyFloat.hundred else PyNumeric.ofNat 50
  else
    let rs := PyFloat.div gain loss
    PyFloat.sub PyFloat.hundred
      (PyFloat.div PyFloat.hundred (PyFloat.add (PyNumeric.ofNat 1) rs))

def wilderStep (period : Nat) (previous current : F) : F :=
  PyFloat.div (PyFloat.add (PyFloat.mul previous (PyNumeric.ofNat (period - 1))) current)
    (PyNumeric.ofNat period)

def deltas (run : List F) : List F :=
  List.zipWith (fun previous current => PyFloat.sub current previous) run run.tail

/-- The `rsi` of a run; one with at most `period` values has no output. -/
def rsiRun (period : Nat) (run : List F) : List (Option F) :=
  if run.length ≤ period then run.map fun _ => none
  else
    let zero := PyNumeric.ofNat 0
    let gains := (deltas run).map fun d => if PyFloat.lt zero d then d else zero
    let losses := (deltas run).map fun d => if PyFloat.lt d zero then PyFloat.neg d else zero
    List.replicate period none ++ List.zipWith (fun gain loss => some (rsiFromAvgs gain loss))
        (smoothed (wilderStep period) period gains) (smoothed (wilderStep period) period losses)

def rsi (values : List (Option F)) (period : Int) : Except PyErr (List (Option F)) := do
  let period ← validatePeriod period "period"
  .ok (mapSegments (rsiRun period) [] values)

/-- The difference of two values when both are known. -/
def minus (a b : Option F) : Option F := a.bind fun x => b.map fun y => PyFloat.sub x y

def macd (values : List (Option F)) (fast slow signal : Int) :
    Except PyErr (Dict String (List (Option F))) := do
  let fast ← validatePeriod fast "fast"
  let slow ← validatePeriod slow "slow"
  let signal ← validatePeriod signal "signal"
  let macdLine := List.zipWith minus (emaKernel fast values) (emaKernel slow values)
  let signalLine := emaKernel signal macdLine
  .ok [("macd", macdLine), ("signal", signalLine), ("hist", List.zipWith minus macdLine signalLine)]

/-! ## volatility -/

/-- `max(a, b)`. -/
def larger (a b : F) : F := if PyFloat.lt a b then b else a

def trueRange (previous bar : Bar F) : Option F := do
  let high ← barFloat bar.high
  let low ← barFloat bar.low
  let previousClose ← barFloat previous.close
  some (larger (larger (PyFloat.sub high low) (PyNumeric.abs (PyFloat.sub high previousClose)))
    (PyNumeric.abs (PyFloat.sub previousClose low)))

/-- `_true_range`: the first bar has no close before it. -/
def trueRanges : List (Bar F) → List (Option F)
  | [] => []
  | first :: rest =>
    minus (barFloat first.high) (barFloat first.low) :: List.zipWith trueRange (first :: rest) rest

def atrKernel (period : Nat) (values : List (Option F)) : List (Option F) :=
  mapSegments (smoothedRun (wilderStep period) period) [] values

def atr (bars : List (Bar F)) (period : Int) : Except PyErr (List (Option F)) := do
  let period ← validatePeriod period "period"
  .ok (atrKernel period (trueRanges bars))

/-- The population standard deviation of a window. -/
def stddev (window : List F) : F :=
  let center := mean window
  let square (v : F) := PyFloat.mul (PyFloat.sub v center) (PyFloat.sub v center)
  PyNumeric.sqrt (PyFloat.div (PyNumeric.sum (window.map square)) (PyNumeric.ofNat window.length))

def bollinger (values : List (Option F)) (period : Int) (numStd : F) :
    Except PyErr (Dict String (List (Option F))) := do
  let period ← validatePeriod period "period"
  let numStd ← validatePositive numStd "num_std"
  let width (window : List F) := PyFloat.mul numStd (stddev window)
  .ok
    [("mid", rollingMean period values),
     ("upper", rolling (fun window => PyFloat.add (mean window) (width window)) period values),
     ("lower", rolling (fun window => PyFloat.sub (mean window) (width window)) period values)]

/-- The average true range of a bar, its bands before they are ratcheted, and its close. -/
structure Bands (F : Type) where
  range : Option F
  upper : Option F
  lower : Option F
  close : Option F

/-- The final bands and the direction of the bar before. -/
structure Trend (F : Type) where
  upper : Option F
  lower : Option F
  direction : Option Int

def Trend.value (t : Trend F) : Option F :=
  if t.direction.any (0 < ·) then t.lower else t.upper

/-- The next final bands and direction after a bar with a finite close. -/
def Trend.next (previousUpper previousLower close : F) (direction : Option Int) (bands : Bands F) :
    Trend F :=
  if PyFloat.lt previousUpper close then ⟨bands.upper, bands.lower, some 1⟩
  else if PyFloat.lt close previousLower then ⟨bands.upper, bands.lower, some (-1)⟩
  else
    { upper :=
        if direction.any (· < 0) then
          bands.upper.map fun u => if PyFloat.lt previousUpper u then previousUpper else u
        else bands.upper
      lower :=
        if direction.any (0 < ·) then
          bands.lower.map fun l => if PyFloat.lt l previousLower then previousLower else l
        else bands.lower
      direction }

/-- The loop of `supertrend` after the first bar with a true range average: values and
directions. -/
def supertrendFrom (t : Trend F) : List (Bands F) → List (Option F × Option Int)
  | [] => []
  | bands :: rest =>
    match t.upper, t.lower with
    | some previousUpper, some previousLower =>
      match barFloat bands.close with
      | none =>
        -- a missing close carries the state on, and an unknown direction has no value
        (if t.direction.isSome then t.value else none, t.direction) :: supertrendFrom t rest
      | some close =>
        let t := Trend.next previousUpper previousLower close t.direction bands
        (t.value, t.direction) :: supertrendFrom t rest
    | _, _ => (none, none) :: supertrendFrom ⟨bands.upper, bands.lower, none⟩ rest

/-- The values and directions of `supertrend`. -/
def supertrendSeries : List (Bands F) → List (Option F × Option Int)
  | [] => []
  | bands :: rest =>
    if bands.range.isSome then
      (bands.lower, some 1) :: supertrendFrom ⟨bands.upper, bands.lower, some 1⟩ rest
    else (none, none) :: supertrendSeries rest

def bandsOf (multiplier : F) (bar : Bar F) (range : Option F) : Bands F :=
  let middle := (barFloat bar.high).bind fun high => (barFloat bar.low).map fun low =>
    PyFloat.div (PyFloat.add high low) PyFloat.two
  let width := range.map fun r => PyFloat.mul multiplier r
  { range
    upper := middle.bind fun m => width.map fun w => PyFloat.add m w
    lower := minus middle width
    close := bar.close }

def directionValue (d : Int) : F :=
  if d = 1 then PyNumeric.ofNat 1 else PyFloat.neg (PyNumeric.ofNat 1)

def supertrend (bars : List (Bar F)) (period : Int) (multiplier : F) :
    Except PyErr (Dict String (List (Option F))) := do
  let period ← validatePeriod period "period"
  let multiplier ← validatePositive multiplier "multiplier"
  let ranges := atrKernel period (trueRanges bars)
  let series := supertrendSeries (List.zipWith (bandsOf multiplier) bars ranges)
  .ok [("value", series.map Prod.fst), ("direction", series.map fun e => e.2.map directionValue)]

/-! ## volume -/

/-- The typical price and the volume of a bar whose fields are all finite. -/
def priced (bar : Bar F) : Option (F × F) := do
  let high ← barFloat bar.high
  let low ← barFloat bar.low
  let close ← barFloat bar.close
  let volume ← barFloat bar.volume
  some (PyFloat.div (PyFloat.add (PyFloat.add high low) close) PyFloat.three, volume)

/-- The sums of typical prices by volume and of volumes. -/
structure Totals (F : Type) where
  numerator : F
  denominator : F

/-- `numerator = denominator = 0.0`. -/
def Totals.zero : Totals F := ⟨PyNumeric.ofNat 0, PyNumeric.ofNat 0⟩

def Totals.add (t : Totals F) (e : F × F) : Totals F :=
  ⟨PyFloat.add t.numerator (PyFloat.mul e.1 e.2), PyFloat.add t.denominator e.2⟩

/-- The average price, unknown without volume. -/
def Totals.price (t : Totals F) : Option F :=
  if PyFloat.eqQ t.denominator 0 then none else some (PyFloat.div t.numerator t.denominator)

/-- The loop of `vwap_session` over bars with their sessions, after a bar of the session
`previous`. -/
def vwapFrom (t : Totals F) (previous : Option String) : List (Bar F × String) → List (Option F)
  | [] => []
  | (bar, session) :: rest =>
    let t := if previous = some session then t else .zero
    match priced bar with
    | none => none :: vwapFrom .zero (some session) rest
    | some e => (t.add e).price :: vwapFrom (t.add e) (some session) rest

def vwapSession (bars : List (Bar F)) (sessionIds : List String) :
    Except PyErr (List (Option F)) :=
  if bars.length = sessionIds.length then .ok (vwapFrom .zero none (bars.zip sessionIds))
  else .error (.value "bars and session_ids must have the same length")

def volumeSma (volumes : List (Option F)) (period : Int) : Except PyErr (List (Option F)) :=
  sma volumes period

def ratio (volume base : Option F) : Option F :=
  base.bind fun d =>
    if PyFloat.leQ d 0 then none else (barFloat volume).map fun v => PyFloat.div v d

def volumeRatio (volumes : List (Option F)) (period offset : Int) :
    Except PyErr (List (Option F)) := do
  let period ← validatePeriod period "period"
  if offset < 0 then .error (.value "offset must be a non-negative integer")
  else
    let shift := offset.toNat
    let base := rollingMean period volumes
    .ok ((List.range volumes.length).map fun idx =>
      if idx < shift then none else ratio (volumes[idx]?.join) (base[idx - shift]?.join))

end Features

end KiteAlgo
