import KiteAlgo.Candles.Persistence

/-!
# KiteAlgo.Candles.Ingestion

Incremental ingestion of broker history (`candle_ingestion.py`).  A call starts one
interval after the newest stored candle, whoever stored it, and fetches up to its end time
in chunks from the newest to the oldest; a chunk whose request fails is skipped.

A run interleaves calls, one after another, with live upserts, which may also fall between
the start of a call and its end.  `complete_of_gapless` gives conditions on the single
steps under which no call that reports success leaves a hole.
-/

namespace KiteAlgo

open List Table
namespace Candles

variable {P : Type}

/-! ## tables -/

def maxDaysPerInterval : Timeframe → Int
  | .minute => 60
  | .minute3 => 100
  | .minute5 => 100
  | .minute10 => 100
  | .minute15 => 200
  | .minute30 => 200
  | .minute60 => 400
  | .day => 2000

/-- `DEFAULT_LOOKBACK`, in days. -/
def defaultLookbackDays : Timeframe → Int
  | .minute => 30
  | .minute3 => 60
  | .minute5 => 120
  | .minute10 => 120
  | .minute15 => 180
  | .minute30 => 200
  | .minute60 => 365
  | .day => 365 * 5

def getIntervalTimedelta (interval : Timeframe) : Int := interval.seconds * microsPerSecond

def chunkSpan (interval : Timeframe) : Int := maxDaysPerInterval interval * microsPerDay

theorem chunkSpan_pos (interval : Timeframe) : 0 < chunkSpan interval := by
  cases interval <;> decide

theorem getIntervalTimedelta_pos (interval : Timeframe) : 0 < getIntervalTimedelta interval := by
  cases interval <;> decide

/-- A timestamp without its fraction of a second: requests carry whole seconds. -/
def atSecond (ts : Int) : Int := ts / microsPerSecond * microsPerSecond

/-- The history of one token and interval, and the answers of `kite.historical_data`: the
candles whose time lies in the requested range. -/
structure Broker (P : Type) where
  history : List (Candle P)
  historicalData : Int → Int → List (Candle P)
  wholeSeconds : ∀ c ∈ history, atSecond c.ts = c.ts
  serves : ∀ fromTs toTs c, c ∈ historicalData fromTs toTs ↔
    c ∈ history ∧ atSecond fromTs ≤ c.ts ∧ c.ts ≤ toTs

/-- The loop of `_fetch_historical_chunked` from its chunk `n` on; `fails n` says that the
request of chunk `n` raises. -/
def fetchChunks (broker : Broker P) (interval : Timeframe) (fails : Nat → Bool) (targetFrom : Int)
    (n : Nat) (currentTo : Int) : List (Candle P) :=
  if currentTo > targetFrom then
    let currentFrom := max (currentTo - chunkSpan interval) targetFrom
    (if fails n then [] else broker.historicalData currentFrom currentTo) ++
      fetchChunks broker interval fails targetFrom (n + 1) (currentFrom - microsPerSecond)
  else []
termination_by (currentTo - targetFrom).toNat
decreasing_by
  have hspan := chunkSpan_pos interval
  have hsecond : microsPerSecond = 1000000 := rfl
  omega

def fetchHistoricalChunked (broker : Broker P) (interval : Timeframe) (fails : Nat → Bool)
    (fromUtc toUtc : Int) : List (Candle P) :=
  sortBy (fun a b => decide (a.ts ≤ b.ts)) (fetchChunks broker interval fails fromUtc 0 toUtc)

/-! ## calls and live upserts -/

inductive IngestStatus where
  | upToDate
  | noData
  | success
  deriving DecidableEq, Repr

structure IngestCall where
  fromUtc : Int
  toUtc : Int
  fails : Nat → Bool

/-- The rows of one token and interval, and the call under way. -/
structure Ingestion (P : Type) where
  rows : Rows P
  call : Option IngestCall := none

inductive IngestEvent (P : Type) where
  /-- `ingest_historical_data(force_refresh=False)` is called with an end time. -/
  | start (toUtc : Int) (fails : Nat → Bool)
  /-- The requests of the call are done. -/
  | finish
  /-- A pass of the aggregator has read a candle. -/
  | live (candle : Candle P)

/-- What a call returns, with the rows it leaves. -/
structure IngestReturn (P : Type) where
  status : IngestStatus
  toUtc : Int
  rows : Rows P

/-- The start of the range: one interval after the newest row, or the default lookback. -/
def startOf (interval : Timeframe) (rows : Rows P) (toUtc : Int) : Int :=
  match rows.getLatestTimestamp with
  | some latest => latest + getIntervalTimedelta interval
  | none => toUtc - defaultLookbackDays interval * microsPerDay

/-- `ingest_historical_data` in two halves, and the live upsert.  A call awaited elsewhere
keeps the next one from starting. -/
def ingestStep (broker : Broker P) (interval : Timeframe) (s : Ingestion P) :
    IngestEvent P → List (IngestReturn P) × Ingestion P
  | .start toUtc fails =>
    match s.call with
    | some _ => ([], s)
    | none =>
      let fromUtc := startOf interval s.rows toUtc
      if fromUtc ≥ toUtc then ([⟨.upToDate, toUtc, s.rows⟩], s)
      else ([], { s with call := some ⟨fromUtc, toUtc, fails⟩ })
  | .finish =>
    match s.call with
    | none => ([], s)
    | some call =>
      let records := fetchHistoricalChunked broker interval call.fails call.fromUtc call.toUtc
      if records.isEmpty then
        ([⟨.noData, call.toUtc, s.rows⟩], { s with call := none })
      else
        let rows := s.rows.upsertCandles records
        ([⟨.success, call.toUtc, rows⟩], { rows := rows, call := none })
  | .live candle => ([], { s with rows := s.rows.persist (some candle) })

/-- Runs of calls and live upserts, with what the calls return. -/
def ingestMachine (broker : Broker P) (interval : Timeframe) :
    Machine (IngestEvent P) (Ingestion P) (IngestReturn P) where
  step event s := (ingestStep broker interval s event).2
  out event s := (ingestStep broker interval s event).1

/-- Every broker candle between the earliest row and `toUtc` that is complete by then has
its row. -/
def Complete (broker : Broker P) (interval : Timeframe) (rows : Rows P) (toUtc : Int) : Prop :=
  ∀ c ∈ broker.history, (∃ k row, rows.get? k = some row ∧ k ≤ c.ts) →
    c.ts + getIntervalTimedelta interval ≤ toUtc → ∃ row, rows.get? c.ts = some row

/-! ## what a fetch returns -/

section Fetch

variable {broker : Broker P} {interval : Timeframe} {fails : Nat → Bool} {fromUtc toUtc : Int}

theorem lt_atSecond_add (ts : Int) : ts < atSecond ts + microsPerSecond := by
  simp only [atSecond, microsPerSecond]
  omega

theorem atSecond_mono {ts ts' : Int} (h : ts ≤ ts') : atSecond ts ≤ atSecond ts' := by
  simp only [atSecond, microsPerSecond]
  omega

theorem le_sub_of_lt_atSecond {second ts : Int} (hsecond : atSecond second = second)
    (h : second < atSecond ts) : second ≤ ts - microsPerSecond := by
  simp only [atSecond, microsPerSecond] at *
  omega

variable {c : Candle P} {currentTo : Int} {n : Nat}

theorem of_mem_fetchChunks (h : c ∈ fetchChunks broker interval fails fromUtc n currentTo) :
    c ∈ broker.history ∧ atSecond fromUtc ≤ c.ts ∧ c.ts ≤ currentTo := by
  induction n, currentTo using fetchChunks.induct interval fromUtc with
  | case1 n currentTo hgt currentFrom ih =>
    rw [fetchChunks, if_pos hgt, mem_append] at h
    have hlow : fromUtc ≤ currentFrom := Int.le_max_right _ _
    have hhigh : currentFrom ≤ currentTo := by
      have hspan := chunkSpan_pos interval
      omega
    cases h with
    | inl hchunk =>
      cases hfails : fails n with
      | true => simp [hfails] at hchunk
      | false =>
        rw [hfails, if_neg (by decide), broker.serves] at hchunk
        exact ⟨hchunk.1, (atSecond_mono hlow).trans hchunk.2.1, hchunk.2.2⟩
    | inr hrest =>
      obtain ⟨hmem, hfrom, hto⟩ := ih hrest
      have hsecond : microsPerSecond = 1000000 := rfl
      exact ⟨hmem, hfrom, by omega⟩
  | case2 n currentTo hgt =>
    rw [fetchChunks, if_neg hgt] at h
    cases h

/-- The end of chunk `n` of a fetch. -/
def chunkTo (interval : Timeframe) (toUtc : Int) (n : Nat) : Int :=
  toUtc - n * (chunkSpan interval + microsPerSecond)

/-- The request of chunk `n` asks for the time of a candle. -/
def InChunk (interval : Timeframe) (fromUtc toUtc : Int) (n : Nat) (c : Candle P) : Prop :=
  atSecond (max (chunkTo interval toUtc n - chunkSpan interval) fromUtc) ≤ c.ts ∧
    c.ts ≤ chunkTo interval toUtc n

/-- A candle of the range is fetched when the requests for its time succeed, unless it is
the first one of the range and the chunks end one second after it. -/
theorem mem_fetchChunks (hc : c ∈ broker.history) (hfrom : fromUtc ≤ c.ts)
    (hok : ∀ n, fails n → ¬ InChunk interval fromUtc toUtc n c)
    (hcurrent : currentTo = chunkTo interval toUtc n) (hto : c.ts ≤ currentTo)
    (hedge : c.ts = fromUtc → ¬ chunkSpan interval + microsPerSecond ∣ currentTo - fromUtc) :
    c ∈ fetchChunks broker interval fails fromUtc n currentTo := by
  induction n, currentTo using fetchChunks.induct interval fromUtc with
  | case1 n currentTo hgt currentFrom ih =>
    have hnext : currentFrom = max (currentTo - chunkSpan interval) fromUtc := rfl
    rw [fetchChunks, if_pos hgt, mem_append]
    by_cases hin : atSecond currentFrom ≤ c.ts
    · left
      have hsucceeds : fails n = false := by
        cases hfails : fails n with
        | false => rfl
        | true => exact absurd ⟨by rw [← hcurrent]; exact hin, by omega⟩ (hok n hfails)
      rw [hsucceeds, if_neg (by decide)]
      exact (broker.serves _ _ c).mpr ⟨hc, hin, hto⟩
    · right
      have hle := le_sub_of_lt_atSecond (broker.wholeSeconds c hc) (not_le.mp hin)
      -- the chunk ended before the start of the range
      have hcut : currentFrom = currentTo - chunkSpan interval := by
        have hpos : (0 : Int) < microsPerSecond := by decide
        omega
      refine ih ?_ hle fun hfirst hdvd => ?_
      · rw [hcut, hcurrent, chunkTo, chunkTo]
        push_cast
        ring
      · refine hedge hfirst ?_
        have hsplit : currentTo - fromUtc = (currentFrom - microsPerSecond - fromUtc) +
            (chunkSpan interval + microsPerSecond) := by
          rw [hcut]
          ring
        rw [hsplit]
        exact Int.dvd_add hdvd (Int.dvd_refl _)
  | case2 n currentTo hgt =>
    have hfirst : c.ts = fromUtc := by omega
    have hzero : currentTo - fromUtc = 0 := by omega
    exact absurd (hzero ▸ Int.dvd_zero _) (hedge hfirst)

end Fetch

/-! ## no hole between the stored and the fetched -/

def Rows.Has (rows : Rows P) (ts : Int) : Prop := ∃ row, rows.get? ts = some row

theorem Rows.has_upsertCandles (rows : Rows P) (candles : List (Candle P)) (ts : Int) :
    (rows.upsertCandles candles).Has ts ↔ (∃ c ∈ candles, c.ts = ts) ∨ rows.Has ts := by
  induction candles generalizing rows with
  | nil => simp [upsertCandles]
  | cons c candles ih =>
    have hcons : rows.upsertCandles (c :: candles) = Rows.upsertCandles (rows.upsert c.ts c) candles := rfl
    have hupsert : Rows.Has (rows.upsert c.ts c) ts ↔ c.ts = ts ∨ rows.Has ts := by
      rw [Has, get?_upsert]
      by_cases h : c.ts = ts
      · simp [h]
      · simp [h, Has]
    rw [hcons, ih, hupsert]
    simp only [mem_cons, exists_eq_or_imp]
    exact or_left_comm.trans or_assoc.symm

theorem Rows.has_persist (rows : Rows P) (candle : Candle P) (ts : Int) :
    (rows.persist (some candle)).Has ts →
      rows.Has ts ∨ (∀ k, rows.Has k → k < candle.ts) ∧ candle.ts = ts := by
  cases rows.persist_some candle with
  | inl hold =>
    rw [hold.2]
    exact .inl
  | inr hnew =>
    have hsame : rows.persist (some candle) = rows.upsertCandles [candle] := hnew.2
    rw [hsame, has_upsertCandles]
    intro h
    cases h with
    | inl hcandle =>
      obtain ⟨c, hc, hts⟩ := hcandle
      rw [mem_singleton] at hc
      rw [hc] at hts
      refine .inr ⟨fun k hk => ?_, hts⟩
      obtain ⟨row, hrow⟩ := hk
      exact hnew.1 k row hrow
    | inr hrow => exact .inl hrow

theorem Rows.has_persist_of_has (rows : Rows P) (candle : Candle P) {ts : Int} (h : rows.Has ts) :
    (rows.persist (some candle)).Has ts := by
  cases rows.persist_some candle with
  | inl hold =>
    rw [hold.2]
    exact h
  | inr hnew =>
    have hsame : rows.persist (some candle) = rows.upsertCandles [candle] := hnew.2
    rw [hsame, has_upsertCandles]
    exact .inr h

namespace Ingestion

/-- Some row or the range of the call under way starts at or before a time. -/
def Above (s : Ingestion P) (ts : Int) : Prop :=
  (∃ k, s.rows.Has k ∧ k ≤ ts) ∨ ∃ call, s.call = some call ∧ call.fromUtc ≤ ts

/-- Some row or the range of the call under way ends at or after a time. -/
def Below (s : Ingestion P) (ts : Int) : Prop :=
  (∃ k, s.rows.Has k ∧ ts ≤ k) ∨ ∃ call, s.call = some call ∧ ts ≤ call.toUtc

/-- A time has its row, or is in the range of the call under way. -/
def Covered (s : Ingestion P) (ts : Int) : Prop :=
  s.rows.Has ts ∨ ∃ call, s.call = some call ∧ call.fromUtc ≤ ts ∧ ts ≤ call.toUtc

end Ingestion

/-- What a step must meet to leave no hole.  A call: no broker candle is in a chunk whose
request fails; no broker candle is at the start of a range that whole chunks and the
seconds between them fill; none lies strictly between the newest row and the start of the
range.  A live candle that is stored: no broker candle that is neither stored nor being
fetched lies between it and what is. -/
def Gapless (broker : Broker P) (interval : Timeframe) (event : IngestEvent P)
    (_rest : List (IngestEvent P)) (s : Ingestion P) : Prop :=
  match event with
  | .start toUtc fails =>
    let fromUtc := startOf interval s.rows toUtc
    s.call = none → fromUtc < toUtc → ∀ c ∈ broker.history,
      (∀ n, fails n = true → ¬ InChunk interval fromUtc toUtc n c) ∧
      (c.ts = fromUtc → ¬ chunkSpan interval + microsPerSecond ∣ toUtc - fromUtc) ∧
      ∀ latest, s.rows.getLatestTimestamp = some latest → c.ts ≤ latest ∨ fromUtc ≤ c.ts
  | .finish => True
  | .live candle => (∀ k, s.rows.Has k → k < candle.ts) → ∀ c ∈ broker.history,
      (c.ts < candle.ts ∧ s.Above c.ts ∨ candle.ts < c.ts ∧ s.Below c.ts) → s.Covered c.ts

/-- Between the rows and the range being fetched no broker candle is missing, and the call
under way fetches all of its range. -/
structure Hull (broker : Broker P) (interval : Timeframe) (s : Ingestion P) : Prop where
  covered : ∀ c ∈ broker.history, s.Above c.ts → s.Below c.ts → s.Covered c.ts
  fetched : ∀ call, s.call = some call → ∀ c ∈ broker.history,
    call.fromUtc ≤ c.ts → c.ts ≤ call.toUtc →
      c ∈ fetchHistoricalChunked broker interval call.fails call.fromUtc call.toUtc

section Steps

variable {broker : Broker P} {interval : Timeframe} {s : Ingestion P}

variable {c : Candle P} {k : Int}

theorem Hull.has (h : Hull broker interval s) (hnone : s.call = none) (hc : c ∈ broker.history)
    {k' : Int} (hk : s.rows.Has k) (hk' : s.rows.Has k') (hlow : k ≤ c.ts) (hhigh : c.ts ≤ k') :
    s.rows.Has c.ts := by
  cases h.covered c hc (.inl ⟨k, hk, hlow⟩) (.inl ⟨k', hk', hhigh⟩) with
  | inl hrow => exact hrow
  | inr hcall =>
    obtain ⟨call, hcall, -⟩ := hcall
    rw [hnone] at hcall
    cases hcall

variable {rest : List (IngestEvent P)}

theorem Hull.start (h : Hull broker interval s) {toUtc : Int} {fails : Nat → Bool}
    (hgap : Gapless broker interval (.start toUtc fails) rest s) (hnone : s.call = none)
    (hlt : startOf interval s.rows toUtc < toUtc) :
    Hull broker interval
      { s with call := some ⟨startOf interval s.rows toUtc, toUtc, fails⟩ } := by
  have hcond := hgap hnone hlt
  constructor
  · intro c hc habove hbelow
    cases hlatest : s.rows.getLatestTimestamp with
    | none =>
      have hempty : ∀ k, ¬ s.rows.Has k := by
        intro k hk
        obtain ⟨row, hrow⟩ := hk
        exact s.rows.ne_none_of_get? hrow hlatest
      have hfrom : startOf interval s.rows toUtc ≤ c.ts := by
        cases habove with
        | inl hrow =>
          obtain ⟨k, hk, -⟩ := hrow
          exact absurd hk (hempty k)
        | inr hcall =>
          obtain ⟨call, hcall, hle⟩ := hcall
          rw [← Option.some.inj hcall] at hle
          exact hle
      cases hbelow with
      | inl hrow =>
        obtain ⟨k, hk, -⟩ := hrow
        exact absurd hk (hempty k)
      | inr hcall =>
        obtain ⟨call, hcall, hle⟩ := hcall
        refine .inr ⟨call, hcall, ?_, hle⟩
        rw [← Option.some.inj hcall]
        exact hfrom
    | some latest =>
      have hfrom : startOf interval s.rows toUtc = latest + getIntervalTimedelta interval := by
        rw [startOf, hlatest]
      have hpos := getIntervalTimedelta_pos interval
      have hmax : ∀ k, s.rows.Has k → k ≤ latest := by
        intro k hk
        obtain ⟨row, hrow⟩ := hk
        exact Rows.le_of_getLatestTimestamp hlatest hrow
      have hlast : s.rows.Has latest := Rows.exists_of_getLatestTimestamp hlatest
      cases (hcond c hc).2.2 latest hlatest with
      | inl hold =>
        -- not newer than the rows: it was covered before the call
        cases habove with
        | inl hrow =>
          obtain ⟨k, hk, hle⟩ := hrow
          exact .inl (h.has hnone hc hk hlast hle hold)
        | inr hcall =>
          obtain ⟨call, hcall, hle⟩ := hcall
          rw [← Option.some.inj hcall] at hle
          have hle' : startOf interval s.rows toUtc ≤ c.ts := hle
          omega
      | inr hnew =>
        cases hbelow with
        | inl hrow =>
          obtain ⟨k, hk, hle⟩ := hrow
          have hkle := hmax k hk
          omega
        | inr hcall =>
          obtain ⟨call, hcall, hle⟩ := hcall
          refine .inr ⟨call, hcall, ?_, hle⟩
          rw [← Option.some.inj hcall]
          exact hnew
  · intro call hcall c hc hfrom hto
    obtain rfl : ⟨startOf interval s.rows toUtc, toUtc, fails⟩ = call := Option.some.inj hcall
    obtain ⟨hok, hedge, -⟩ := hcond c hc
    rw [fetchHistoricalChunked, mem_sortBy]
    refine mem_fetchChunks hc hfrom hok ?_ hto hedge
    simp [chunkTo]

variable {call : IngestCall}

theorem Hull.finish (h : Hull broker interval s) (hcall : s.call = some call)
    (hc : c ∈ broker.history)
    (hk : (s.rows.upsertCandles (fetchHistoricalChunked broker interval call.fails call.fromUtc
      call.toUtc)).Has k) (hlow : k ≤ c.ts) (hbelow : s.Below c.ts) :
    (s.rows.upsertCandles (fetchHistoricalChunked broker interval call.fails call.fromUtc
      call.toUtc)).Has c.ts := by
  rw [Rows.has_upsertCandles] at hk ⊢
  have hcovered : s.Above c.ts → (∃ d ∈ fetchHistoricalChunked broker interval call.fails
      call.fromUtc call.toUtc, d.ts = c.ts) ∨ s.rows.Has c.ts := by
    intro habove
    cases h.covered c hc habove hbelow with
    | inl hrow => exact .inr hrow
    | inr hrange =>
      obtain ⟨call', hcall', hfrom, hto⟩ := hrange
      rw [hcall, Option.some.injEq] at hcall'
      rw [← hcall'] at hfrom hto
      exact .inl ⟨c, h.fetched call hcall c hc hfrom hto, rfl⟩
  cases hk with
  | inr hrow => exact hcovered (.inl ⟨k, hrow, hlow⟩)
  | inl hrecord =>
    obtain ⟨d, hd, hdk⟩ := hrecord
    have hmem := hd
    rw [fetchHistoricalChunked, mem_sortBy] at hmem
    obtain ⟨hhistory, hsecond, -⟩ := of_mem_fetchChunks hmem
    by_cases hsame : c.ts = d.ts
    · exact .inl ⟨d, hd, hsame.symm⟩
    · -- a later whole second is inside the range
      refine hcovered (.inr ⟨call, hcall, ?_⟩)
      have hwhole := broker.wholeSeconds c hc
      have hwhole' := broker.wholeSeconds d hhistory
      have hnext := lt_atSecond_add call.fromUtc
      simp only [atSecond, microsPerSecond] at hwhole hwhole' hnext hsecond
      omega

theorem Hull.finished (h : Hull broker interval s) (hcall : s.call = some call) :
    Hull broker interval { rows := s.rows.upsertCandles (fetchHistoricalChunked broker interval
        call.fails call.fromUtc call.toUtc), call := none } ∧
      Complete broker interval (s.rows.upsertCandles (fetchHistoricalChunked broker interval
        call.fails call.fromUtc call.toUtc)) call.toUtc := by
  refine ⟨⟨fun c hc habove hbelow => ?_, fun call' hcall' => by cases hcall'⟩, ?_⟩
  · cases habove with
    | inr hother =>
      obtain ⟨call', hcall', -⟩ := hother
      cases hcall'
    | inl hrow =>
      obtain ⟨k, hk, hlow⟩ := hrow
      refine .inl (h.finish hcall hc hk hlow ?_)
      cases hbelow with
      | inr hother =>
        obtain ⟨call', hcall', -⟩ := hother
        cases hcall'
      | inl hrow =>
        obtain ⟨k', hk', hhigh⟩ := hrow
        rw [Rows.has_upsertCandles] at hk'
        cases hk' with
        | inr hold => exact .inl ⟨k', hold, hhigh⟩
        | inl hrecord =>
          obtain ⟨d, hd, hdk⟩ := hrecord
          rw [fetchHistoricalChunked, mem_sortBy] at hd
          obtain ⟨-, -, hto⟩ := of_mem_fetchChunks hd
          exact .inr ⟨call, hcall, by omega⟩
  · intro c hc hearliest hdone
    obtain ⟨k, row, hrow, hlow⟩ := hearliest
    have hpos := getIntervalTimedelta_pos interval
    exact h.finish hcall hc ⟨row, hrow⟩ hlow (.inr ⟨call, hcall, by omega⟩)

theorem Hull.live (h : Hull broker interval s) {candle : Candle P}
    (hgap : Gapless broker interval (.live candle) rest s) :
    Hull broker interval { s with rows := s.rows.persist (some candle) } := by
  constructor
  · intro c hc habove hbelow
    have hkeep : s.Covered c.ts → Ingestion.Covered { s with rows := s.rows.persist (some candle) } c.ts :=
      Or.imp_left (s.rows.has_persist_of_has candle)
    -- either the bounds were there before, or the live candle is one of them
    have hlow : s.Above c.ts ∨ (∀ k, s.rows.Has k → k < candle.ts) ∧ candle.ts ≤ c.ts := by
      cases habove with
      | inl hrow =>
        obtain ⟨k, hk, hle⟩ := hrow
        cases s.rows.has_persist candle k hk with
        | inl hold => exact .inl (.inl ⟨k, hold, hle⟩)
        | inr hnew => exact .inr ⟨hnew.1, hnew.2 ▸ hle⟩
      | inr hcall => exact .inl (.inr hcall)
    have hhigh : s.Below c.ts ∨ (∀ k, s.rows.Has k → k < candle.ts) ∧ c.ts ≤ candle.ts := by
      cases hbelow with
      | inl hrow =>
        obtain ⟨k, hk, hle⟩ := hrow
        cases s.rows.has_persist candle k hk with
        | inl hold => exact .inl (.inl ⟨k, hold, hle⟩)
        | inr hnew => exact .inr ⟨hnew.1, hnew.2 ▸ hle⟩
      | inr hcall => exact .inl (.inr hcall)
    have hself : (∀ k, s.rows.Has k → k < candle.ts) → candle.ts = c.ts →
        Ingestion.Covered { s with rows := s.rows.persist (some candle) } c.ts := by
      intro hnewer hts
      left
      cases s.rows.persist_some candle with
      | inl hold =>
        obtain ⟨⟨k, row, hrow, hle⟩, -⟩ := hold
        have hlt := hnewer k ⟨row, hrow⟩
        omega
      | inr hnew =>
        rw [hnew.2, ← hts]
        exact ⟨candle, get?_upsert_self _ _ _⟩
    cases hlow with
    | inl hlow =>
      cases hhigh with
      | inl hhigh => exact hkeep (h.covered c hc hlow hhigh)
      | inr hhigh =>
        cases Int.lt_or_eq_of_le hhigh.2 with
        | inl hlt => exact hkeep (hgap hhigh.1 c hc (.inl ⟨hlt, hlow⟩))
        | inr heq => exact hself hhigh.1 heq.symm
    | inr hlow =>
      cases Int.lt_or_eq_of_le hlow.2 with
      | inl hlt =>
        cases hhigh with
        | inl hhigh => exact hkeep (hgap hlow.1 c hc (.inr ⟨hlt, hhigh⟩))
        | inr hhigh => omega
      | inr heq => exact hself hlow.1 heq
  · exact h.fetched

/-! ## whole runs -/

theorem complete_of_start (h : Hull broker interval s) (hnone : s.call = none) {toUtc : Int}
    (hge : startOf interval s.rows toUtc ≥ toUtc) : Complete broker interval s.rows toUtc := by
  intro c hc hearliest hdone
  obtain ⟨k, row, hrow, hlow⟩ := hearliest
  cases hlatest : s.rows.getLatestTimestamp with
  | none => exact absurd hlatest (s.rows.ne_none_of_get? hrow)
  | some latest =>
    rw [startOf, hlatest] at hge
    have hhigh : c.ts ≤ latest := by
      have hge' : latest + getIntervalTimedelta interval ≥ toUtc := hge
      omega
    exact h.has hnone hc ⟨row, hrow⟩ (Rows.exists_of_getLatestTimestamp hlatest) hlow hhigh

theorem ingestStep_hull {event : IngestEvent P} (h : Hull broker interval s)
    (hgap : Gapless broker interval event rest s) :
    Hull broker interval (ingestStep broker interval s event).2 ∧
      ∀ ret ∈ (ingestStep broker interval s event).1, ret.status ≠ .noData →
        Complete broker interval ret.rows ret.toUtc := by
  cases event with
  | start toUtc fails =>
    cases hcall : s.call with
    | some call =>
      simp only [ingestStep, hcall]
      exact ⟨h, by simp⟩
    | none =>
      by_cases hge : startOf interval s.rows toUtc ≥ toUtc
      · simp only [ingestStep, hcall, hge, if_true]
        refine ⟨h, fun ret hret _ => ?_⟩
        rw [mem_singleton.mp hret]
        exact complete_of_start h hcall hge
      · simp only [ingestStep, hcall, hge, if_false]
        exact ⟨h.start hgap hcall (not_le.mp hge), by simp⟩
  | live candle => exact ⟨h.live hgap, by simp [ingestStep]⟩
  | finish =>
    cases hcall : s.call with
    | none =>
      simp only [ingestStep, hcall]
      exact ⟨h, by simp⟩
    | some call =>
      obtain ⟨hnext, hcomplete⟩ := h.finished hcall
      by_cases hempty : (fetchHistoricalChunked broker interval call.fails call.fromUtc
          call.toUtc).isEmpty
      · simp only [ingestStep, hcall, hempty, if_true]
        have hnone : fetchHistoricalChunked broker interval call.fails call.fromUtc
            call.toUtc = [] := List.isEmpty_iff.mp hempty
        rw [hnone] at hnext
        refine ⟨hnext, fun ret hret hstatus => ?_⟩
        rw [mem_singleton.mp hret] at hstatus
        exact absurd rfl hstatus
      · simp only [ingestStep, hcall, hempty, Bool.false_eq_true, if_false]
        refine ⟨hnext, fun ret hret _ => ?_⟩
        rw [mem_singleton.mp hret]
        exact hcomplete

/-- From rows without a hole, a run whose steps leave none returns success or up to date
only with every broker candle stored that is complete at its end time. -/
theorem complete_of_gapless {events : List (IngestEvent P)} {rows : Rows P}
    (hrows : ∀ c ∈ broker.history, (∃ k, rows.Has k ∧ k ≤ c.ts) → (∃ k, rows.Has k ∧ c.ts ≤ k) →
      rows.Has c.ts)
    (hgap : (ingestMachine broker interval).Along (Gapless broker interval) events
      { rows := rows }) :
    ∀ ret ∈ (ingestMachine broker interval).trace events { rows := rows },
      ret.status = .success ∨ ret.status = .upToDate → Complete broker interval ret.rows ret.toUtc := by
  have hstart : Hull broker interval ({ rows := rows } : Ingestion P) := by
    constructor
    · intro c hc habove hbelow
      left
      refine hrows c hc ?_ ?_
      · cases habove with
        | inl hrow => exact hrow
        | inr hcall =>
          obtain ⟨call, hcall, -⟩ := hcall
          cases hcall
      · cases hbelow with
        | inl hrow => exact hrow
        | inr hcall =>
          obtain ⟨call, hcall, -⟩ := hcall
          cases hcall
    · intro call hcall
      cases hcall
  have hinit : Hull broker interval ({ rows := rows } : Ingestion P) ∧
      ∀ ret ∈ ([] : List (IngestReturn P)), ret.status ≠ .noData →
        Complete broker interval ret.rows ret.toUtc := ⟨hstart, by simp⟩
  have hrun := Machine.history
    (I := fun past _ s => Hull broker interval s ∧ ∀ ret ∈ past, ret.status ≠ .noData →
      Complete broker interval ret.rows ret.toUtc)
    (fun {past event rest s} hinv hP => ?_) hinit hgap
  · intro ret hret hstatus
    refine hrun.2 ret (by simpa using hret) ?_
    cases hstatus with
    | inl hsuccess => simp [hsuccess]
    | inr hdate => simp [hdate]
  · obtain ⟨hnext, hreturns⟩ := ingestStep_hull hinv.1 hP
    refine ⟨hnext, fun ret hret => ?_⟩
    rw [List.mem_append] at hret
    cases hret with
    | inl hpast => exact hinv.2 ret hpast
    | inr hnew => exact hreturns ret hnew

end Steps

/-- The broker that answers from its history. -/
def Broker.ofHistory (history : List (Candle P)) (h : ∀ c ∈ history, atSecond c.ts = c.ts) :
    Broker P where
  history := history
  historicalData fromTs toTs :=
    history.filter fun c => decide (atSecond fromTs ≤ c.ts ∧ c.ts ≤ toTs)
  wholeSeconds := h
  serves fromTs toTs c := by simp

/-- The candle of a minute at a price of 100. -/
def minuteCandle (minute : Int) : Candle ℤ :=
  { ts := minute * 60000000, «open» := 100, high := 100, low := 100, close := 100, volume := 10 }

def threeMinutes : Broker ℤ :=
  .ofHistory [minuteCandle 1, minuteCandle 2, minuteCandle 3] (by decide)

/-- A call up to the fourth minute over no rows. -/
def firstIngestion : List (IngestEvent ℤ) := [.start 240000000 fun _ => false, .finish]

theorem complete_firstIngestion :
    ∃ ret ∈ (ingestMachine threeMinutes .minute).trace firstIngestion { rows := Table.empty },
      ret.status = .success ∧ Complete threeMinutes .minute ret.rows ret.toUtc := by
  have hgap : (ingestMachine threeMinutes .minute).Along (Gapless threeMinutes .minute)
      firstIngestion { rows := Table.empty } := by
    refine ⟨fun _ _ c hc => ⟨by simp, fun hfirst => ?_, fun latest h => ?_⟩, trivial, trivial⟩
    · have hlater : ∀ c ∈ threeMinutes.history, c.ts ≠
          startOf .minute (Table.empty : Rows ℤ) 240000000 := by decide
      exact absurd hfirst (hlater c hc)
    · cases h
  have hall := complete_of_gapless (fun c _ h => by
    obtain ⟨k, ⟨row, hrow⟩, -⟩ := h
    simp at hrow) hgap
  have hrecord : minuteCandle 1 ∈ fetchHistoricalChunked threeMinutes .minute (fun _ => false)
      (startOf .minute (Table.empty : Rows ℤ) 240000000) 240000000 := by
    have hfirst : (240000000 : Int) = chunkTo .minute 240000000 0 := by simp [chunkTo]
    rw [fetchHistoricalChunked, mem_sortBy]
    exact mem_fetchChunks (by decide) (by decide) (by simp) hfirst (by decide) (by decide)
  have hnonempty : fetchHistoricalChunked threeMinutes .minute (fun _ => false)
      (startOf .minute (Table.empty : Rows ℤ) 240000000) 240000000 ≠ [] :=
    List.ne_nil_of_mem hrecord
  have hstart : ¬ startOf .minute (Table.empty : Rows ℤ) 240000000 ≥ 240000000 := by decide
  have hret : (ingestMachine threeMinutes .minute).trace firstIngestion { rows := Table.empty } =
      [⟨.success, 240000000, Rows.upsertCandles Table.empty (fetchHistoricalChunked threeMinutes
        .minute (fun _ => false) (startOf .minute (Table.empty : Rows ℤ) 240000000) 240000000)⟩] := by
    simp [Machine.trace, firstIngestion, ingestMachine, ingestStep, hstart, hnonempty]
  rw [hret] at hall ⊢
  exact ⟨_, List.mem_cons_self, rfl, hall _ List.mem_cons_self (.inl rfl)⟩

/-- Live candles of the first and the third minute, and a call up to the fourth. -/
def liveAfterOutage : List (IngestEvent ℤ) :=
  [.live (minuteCandle 1), .live (minuteCandle 3), .start 240000000 fun _ => false]

/-- The call is up to date, and the candle of the second minute is missing. -/
theorem live_candle_hides_hole :
    ¬ ∀ ret ∈ (ingestMachine threeMinutes .minute).trace liveAfterOutage { rows := Table.empty },
      ret.status = .success ∨ ret.status = .upToDate →
        Complete threeMinutes .minute ret.rows ret.toUtc := by
  intro h
  have hcomplete := h ⟨.upToDate, 240000000, (Table.empty.upsert 60000000 (minuteCandle 1)).upsert
    180000000 (minuteCandle 3)⟩ (List.mem_singleton.mpr rfl) (.inr rfl)
  obtain ⟨row, hrow⟩ := hcomplete (minuteCandle 2) (by decide)
    ⟨60000000, minuteCandle 1, by decide, by decide⟩ (by decide)
  have hmissing : ((Table.empty.upsert 60000000 (minuteCandle 1)).upsert 180000000
      (minuteCandle 3)).get? (minuteCandle 2).ts = none := by decide
  rw [hmissing] at hrow
  cases hrow

end Candles

end KiteAlgo
