import KiteAlgo.Registry
import KiteAlgo.Time
import Mathlib

/-!
# KiteAlgo.Candles

The live candle aggregator (`broker_api/market/candle_aggregator.py`): ticks of many
instruments go into one forming candle for each (token, interval), a tick of another
bucket finalizes the forming one, and a finalized candle is put into the `latest` slot
of its key and published.

`Series` is what the aggregator keeps for one key, and `series_updateCandle` says that a
tick moves the series of its own key and no other.  The claims about candles are proved
on one series.

Prices are any linear order, timestamps microseconds since the epoch.
-/

namespace KiteAlgo

open List
namespace Candles

/-- `_get_bucket_start`: a day starts at midnight in India, any other interval at a
multiple of its seconds.  `int()` cuts the fraction of a second off toward zero. -/
def getBucketStart (ts : Int) (interval : Timeframe) : Int :=
  match interval with
  | .day => (ts + istOffset) / microsPerDay * microsPerDay - istOffset
  | interval =>
    let epoch := ts.tdiv microsPerSecond
    epoch / interval.seconds * interval.seconds * microsPerSecond

/-! ## ticks and candles -/

/-- `exchange_timestamp` of a payload. -/
inductive RawTimestamp where
  | missing
  /-- A datetime; one without a zone is read as UTC. -/
  | datetime (ts : Int)
  | text (raw : String)
  | other
  deriving DecidableEq, Repr

/-- `_normalize_tick_timestamp` at the time `now`; `fromIso` is `datetime.fromisoformat`
after the replacement of `Z`. -/
def normalizeTickTimestamp (fromIso : String → Option Int) (now : Int) : RawTimestamp → Int
  | .missing => now
  | .datetime ts => ts
  | .text raw => (fromIso raw).getD now
  | .other => now

/-- What `_update_candle` reads of a tick, with the timestamp passed beside it. -/
structure Tick (P : Type) where
  ts : Int
  lastPrice : P
  volumeTraded : Option Int := none
  /-- Outer `none`: no such key. -/
  oi : Option (Option Int) := none
  deriving DecidableEq, Repr

namespace Tick

variable {P : Type}

/-- `tick.get('volume_traded', 0)`. -/
def volume (tick : Tick P) : Int := tick.volumeTraded.getD 0

def bucket (interval : Timeframe) (tick : Tick P) : Int := getBucketStart tick.ts interval

end Tick

structure Payload (P : Type) where
  instrumentToken : Option Int
  lastPrice : Option P
  exchangeTimestamp : RawTimestamp
  volumeTraded : Option Int := none
  oi : Option (Option Int) := none
  deriving DecidableEq, Repr

/-- The token and the tick of a payload, unless one of the token and the price is falsy. -/
def Payload.tick? {P : Type} [Zero P] [DecidableEq P] (fromIso : String → Option Int) (now : Int)
    (payload : Payload P) : Option (Int × Tick P) :=
  match payload.instrumentToken, payload.lastPrice with
  | some token, some lastPrice =>
    if token = 0 ∨ lastPrice = 0 then none
    else some (token,
      { ts := normalizeTickTimestamp fromIso now payload.exchangeTimestamp
        lastPrice := lastPrice
        volumeTraded := payload.volumeTraded
        oi := payload.oi })
  | _, _ => none

/-- `candle_data`: what is written, published and stored of a candle. -/
structure Candle (P : Type) where
  ts : Int
  «open» : P
  high : P
  low : P
  close : P
  volume : Int
  oi : Option Int := none
  deriving DecidableEq, Repr

structure CandleState (P : Type) where
  bucketStartTs : Int
  «open» : P
  high : P
  low : P
  close : P
  volume : Int
  oi : Option Int := none
  baseVolume : Int := 0
  tickCount : Nat := 0
  deriving DecidableEq, Repr

namespace CandleState

variable {P : Type} [LinearOrder P]

omit [LinearOrder P] in
/-- The candle of the first tick of a bucket. -/
def start (bucketStart : Int) (tick : Tick P) : CandleState P :=
  { bucketStartTs := bucketStart
    «open» := tick.lastPrice
    high := tick.lastPrice
    low := tick.lastPrice
    close := tick.lastPrice
    volume := 0
    baseVolume := tick.volume
    oi := tick.oi.join
    tickCount := 1 }

/-- The candle after one more tick of its bucket; a counter below the base is read as the
daily reset. -/
def absorb (state : CandleState P) (tick : Tick P) : CandleState P :=
  let baseVolume := if tick.volume < state.baseVolume then tick.volume else state.baseVolume
  { state with
    high := max state.high tick.lastPrice
    low := min state.low tick.lastPrice
    close := tick.lastPrice
    baseVolume := baseVolume
    volume := max 0 (tick.volume - baseVolume)
    oi := tick.oi.getD state.oi
    tickCount := state.tickCount + 1 }

omit [LinearOrder P] in
/-- `candle_data` of a state. -/
def candle (state : CandleState P) : Candle P :=
  { ts := state.bucketStartTs
    «open» := state.open
    high := state.high
    low := state.low
    close := state.close
    volume := state.volume
    oi := state.oi }

end CandleState

/-! ## the aggregator -/

abbrev Key := Int × Timeframe

/-- The forming candles, the `latest` and `current` keys of Redis and everything
published on the candle channels, oldest first. -/
structure Aggregator (P : Type) where
  candleStates : Dict Key (CandleState P) := []
  latest : Dict Key (Candle P) := []
  current : Dict Key (Candle P) := []
  published : List (Key × Candle P) := []

namespace Aggregator

variable {P : Type} [LinearOrder P]

omit [LinearOrder P] in
def finalizeCandle (agg : Aggregator P) (key : Key) (state : CandleState P) : Aggregator P :=
  { agg with
    latest := agg.latest.set key state.candle
    current := agg.current.erase key
    published := agg.published ++ [(key, state.candle)] }

omit [LinearOrder P] in
/-- `candle_states[key] = state`, then `_write_forming_candle_to_redis`. -/
def writeForming (agg : Aggregator P) (key : Key) (state : CandleState P) : Aggregator P :=
  { agg with
    candleStates := agg.candleStates.set key state
    current := agg.current.set key state.candle }

def updateCandle (agg : Aggregator P) (token : Int) (interval : Timeframe) (tick : Tick P) :
    Aggregator P :=
  let key := (token, interval)
  let bucketStart := tick.bucket interval
  match agg.candleStates.get? key with
  | none => agg.writeForming key (.start bucketStart tick)
  | some state =>
    if state.bucketStartTs ≠ bucketStart then
      (agg.finalizeCandle key state).writeForming key (.start bucketStart tick)
    else
      agg.writeForming key (state.absorb tick)

/-- `_process_ticks`: every tick, each with the clock reading of its turn, goes to every
configured interval. -/
def processTicks [Zero P] (fromIso : String → Option Int) (intervals : List Timeframe)
    (agg : Aggregator P) (payloads : List (Int × Payload P)) : Aggregator P :=
  payloads.foldl (fun agg entry =>
    match entry.2.tick? fromIso entry.1 with
    | none => agg
    | some (token, tick) =>
      intervals.foldl (fun agg interval => agg.updateCandle token interval tick) agg) agg

end Aggregator

/-! ## one series -/

/-- What is kept for one key: its forming candle, its `latest` slot and its published
candles. -/
structure Series (P : Type) where
  forming : Option (CandleState P) := none
  latest : Option (Candle P) := none
  published : List (Candle P) := []

namespace Series

variable {P : Type} [LinearOrder P]

def update (interval : Timeframe) (series : Series P) (tick : Tick P) : Series P :=
  match series.forming with
  | none => { series with forming := some (.start (tick.bucket interval) tick) }
  | some state =>
    if state.bucketStartTs ≠ tick.bucket interval then
      { forming := some (.start (tick.bucket interval) tick)
        latest := some state.candle
        published := series.published ++ [state.candle] }
    else
      { series with forming := some (state.absorb tick) }

/-- The series after a list of ticks, from no state. -/
def feed (interval : Timeframe) (ticks : List (Tick P)) : Series P :=
  ticks.foldl (update interval) {}

theorem feed_concat (interval : Timeframe) (ticks : List (Tick P)) (tick : Tick P) :
    feed interval (ticks ++ [tick]) = (feed interval ticks).update interval tick := by
  rw [feed, foldl_append]
  rfl

variable {interval : Timeframe} {series : Series P} {state : CandleState P} {tick : Tick P}

theorem update_same (hforming : series.forming = some state)
    (hbucket : state.bucketStartTs = tick.bucket interval) :
    series.update interval tick = { series with forming := some (state.absorb tick) } := by
  simp [update, hforming, hbucket]

theorem update_next (hforming : series.forming = some state)
    (hbucket : state.bucketStartTs ≠ tick.bucket interval) :
    series.update interval tick =
      { forming := some (.start (tick.bucket interval) tick)
        latest := some state.candle
        published := series.published ++ [state.candle] } := by
  simp [update, hforming, hbucket]

end Series

namespace Aggregator

variable {P : Type} [LinearOrder P]

omit [LinearOrder P] in
def series (agg : Aggregator P) (key : Key) : Series P :=
  { forming := agg.candleStates.get? key
    latest := agg.latest.get? key
    published := (agg.published.filter fun e => decide (e.1 = key)).map Prod.snd }

theorem series_updateCandle (agg : Aggregator P) (token : Int) (interval : Timeframe)
    (tick : Tick P) (key : Key) :
    (agg.updateCandle token interval tick).series key =
      if (token, interval) = key then (agg.series key).update interval tick
      else agg.series key := by
  by_cases hkey : (token, interval) = key
  · subst hkey
    rw [if_pos rfl, Series.update, series]
    cases hstate : agg.candleStates.get? (token, interval) with
    | none => simp [updateCandle, hstate, writeForming, series]
    | some state =>
      by_cases hbucket : state.bucketStartTs = tick.bucket interval
      · simp [updateCandle, hstate, hbucket, writeForming, series]
      · simp [updateCandle, hstate, hbucket, writeForming, finalizeCandle, series]
  · rw [if_neg hkey]
    cases hstate : agg.candleStates.get? (token, interval) with
    | none => simp [updateCandle, hstate, writeForming, series, Dict.get?_set, hkey]
    | some state =>
      by_cases hbucket : state.bucketStartTs = tick.bucket interval
      · simp [updateCandle, hstate, hbucket, writeForming, series, Dict.get?_set, hkey]
      · simp [updateCandle, hstate, hbucket, writeForming, finalizeCandle, series, Dict.get?_set, hkey]

/-- The aggregator after a list of ticks for one key, from no state. -/
def feed (token : Int) (interval : Timeframe) (ticks : List (Tick P)) : Aggregator P :=
  ticks.foldl (fun agg tick => agg.updateCandle token interval tick) {}

theorem series_feed (token : Int) (interval : Timeframe) (ticks : List (Tick P)) :
    (feed token interval ticks).series (token, interval) = Series.feed interval ticks := by
  induction ticks using reverseRecOn with
  | nil => rfl
  | append_singleton ticks tick ih =>
    rw [Series.feed_concat, feed, foldl_append, foldl_cons, foldl_nil,
      series_updateCandle, if_pos rfl]
    exact congrArg (Series.update interval · tick) ih

end Aggregator

end Candles

end KiteAlgo
