import KiteAlgo.Candles
import KiteAlgo.Lib.Segments

/-!
# KiteAlgo.Candles.Order

Which candles a series publishes.  The forming candle is that of the last run of ticks of
one bucket, and the published ones are those of the runs before it (`Series.exists_runs`):
the roll-over compares buckets for inequality only, so a late tick ends a run like any
other.  Hence the exact condition under which every bucket is completed once and in
order (`completed_in_order_iff`).
-/

namespace KiteAlgo

open List
namespace Candles

variable {P : Type} [LinearOrder P]

/-! ## the candle of a run of ticks -/

namespace CandleState

/-- The state after a run of ticks of one bucket. -/
def ofRun (interval : Timeframe) (first : Tick P) (rest : List (Tick P)) : CandleState P :=
  rest.foldl absorb (start (first.bucket interval) first)

theorem ofRun_concat (interval : Timeframe) (first : Tick P) (rest : List (Tick P))
    (tick : Tick P) :
    ofRun interval first (rest ++ [tick]) = (ofRun interval first rest).absorb tick := by
  rw [ofRun, foldl_append]
  rfl

theorem foldl_absorb_bucketStartTs (rest : List (Tick P)) (state : CandleState P) :
    (rest.foldl absorb state).bucketStartTs = state.bucketStartTs := by
  induction rest generalizing state with
  | nil => rfl
  | cons tick rest ih => rw [foldl_cons, ih, absorb]

theorem foldl_absorb_open (rest : List (Tick P)) (state : CandleState P) :
    (rest.foldl absorb state).open = state.open := by
  induction rest generalizing state with
  | nil => rfl
  | cons tick rest ih => rw [foldl_cons, ih, absorb]

theorem foldl_absorb_high (rest : List (Tick P)) (state : CandleState P) :
    (rest.foldl absorb state).high = (rest.map Tick.lastPrice).foldl max state.high := by
  induction rest generalizing state with
  | nil => rfl
  | cons tick rest ih => rw [foldl_cons, ih, map_cons, foldl_cons, absorb]

theorem foldl_absorb_low (rest : List (Tick P)) (state : CandleState P) :
    (rest.foldl absorb state).low = (rest.map Tick.lastPrice).foldl min state.low := by
  induction rest generalizing state with
  | nil => rfl
  | cons tick rest ih => rw [foldl_cons, ih, map_cons, foldl_cons, absorb]

theorem foldl_absorb_close (rest : List (Tick P)) (state : CandleState P) :
    (rest.foldl absorb state).close = ((rest.map Tick.lastPrice).getLast?).getD state.close := by
  induction rest generalizing state with
  | nil => rfl
  | cons tick rest ih =>
    rw [foldl_cons, ih, map_cons, getLast?_cons]
    rfl

end CandleState

/-- Open, high, low and close are the first, largest, smallest and last price. -/
structure Candle.Summarizes (candle : Candle P) (prices : List P) : Prop where
  opened : prices.head? = some candle.open
  high : prices.max? = some candle.high
  low : prices.min? = some candle.low
  close : prices.getLast? = some candle.close

def IsCandleOf (interval : Timeframe) (run : List (Tick P)) (candle : Candle P) : Prop :=
  ∃ first rest, run = first :: rest ∧ candle = (CandleState.ofRun interval first rest).candle

variable {candle : Candle P} {run : List (Tick P)}

theorem IsCandleOf.ts_eq {interval : Timeframe} (h : IsCandleOf interval run candle)
    (hsame : ∀ x ∈ run, ∀ y ∈ run, x.bucket interval = y.bucket interval) :
    ∀ x ∈ run, x.bucket interval = candle.ts := by
  obtain ⟨first, rest, rfl, rfl⟩ := h
  intro x hx
  show _ = (CandleState.ofRun interval first rest).bucketStartTs
  rw [CandleState.ofRun, CandleState.foldl_absorb_bucketStartTs]
  exact hsame x hx first (.head _)

theorem IsCandleOf.summarizes {interval : Timeframe} (h : IsCandleOf interval run candle) :
    candle.Summarizes (run.map Tick.lastPrice) := by
  obtain ⟨first, rest, rfl, rfl⟩ := h
  rw [map_cons]
  constructor
  · show _ = some (CandleState.ofRun interval first rest).open
    rw [CandleState.ofRun, CandleState.foldl_absorb_open]
    rfl
  · show _ = some (CandleState.ofRun interval first rest).high
    rw [CandleState.ofRun, CandleState.foldl_absorb_high]
    rfl
  · show _ = some (CandleState.ofRun interval first rest).low
    rw [CandleState.ofRun, CandleState.foldl_absorb_low]
    rfl
  · show _ = some (CandleState.ofRun interval first rest).close
    rw [CandleState.ofRun, CandleState.foldl_absorb_close, getLast?_cons]
    rfl

namespace Series

variable {interval : Timeframe}

/-- The series of some ticks: published are the runs before the last, forming is the last. -/
structure OfRuns (interval : Timeframe) (ticks : List (Tick P)) (closed : List (List (Tick P)))
    (first : Tick P) (rest : List (Tick P)) : Prop where
  runs : Runs (Tick.bucket interval) ticks (closed ++ [first :: rest])
  published : List.Forall₂ (IsCandleOf interval) closed (feed interval ticks).published
  forming : (feed interval ticks).forming = some (.ofRun interval first rest)

theorem exists_runs (ticks : List (Tick P)) (h : ticks ≠ []) :
    ∃ closed first rest, OfRuns interval ticks closed first rest := by
  induction ticks using reverseRecOn with
  | nil => exact absurd rfl h
  | append_singleton ticks tick ih =>
    cases ticks with
    | nil => exact ⟨[], tick, [], Runs.single tick, List.Forall₂.nil, rfl⟩
    | cons t ticks =>
      obtain ⟨closed, first, rest, hruns, hpublished, hforming⟩ := ih (cons_ne_nil t ticks)
      have hstart : (CandleState.ofRun interval first rest).bucketStartTs = first.bucket interval := by
        rw [CandleState.ofRun, CandleState.foldl_absorb_bucketStartTs]
        rfl
      have hkey : ∀ y ∈ first :: rest, y.bucket interval = first.bucket interval := by
        intro y hy
        exact hruns.same _ (by simp) y hy first mem_cons_self
      by_cases hbucket : first.bucket interval = tick.bucket interval
      · -- the tick goes into the forming candle
        have hupdate := feed_concat interval (t :: ticks) tick
        rw [update_same hforming (hstart.trans hbucket)] at hupdate
        refine ⟨closed, first, rest ++ [tick], ?_, ?_, ?_⟩
        · exact hruns.extend fun y hy => (hkey y hy).trans hbucket
        · rw [hupdate]
          exact hpublished
        · rw [hupdate, CandleState.ofRun_concat]
      · -- the tick ends the run
        have hupdate := feed_concat interval (t :: ticks) tick
        rw [update_next hforming fun h => hbucket (hstart.symm.trans h)] at hupdate
        refine ⟨closed ++ [first :: rest], tick, [], ?_, ?_, ?_⟩
        · exact hruns.next fun y hy => (hkey y hy).symm ▸ hbucket
        · have hlast : IsCandleOf interval (first :: rest)
              (CandleState.ofRun interval first rest).candle := ⟨first, rest, rfl, rfl⟩
          rw [hupdate]
          exact rel_append hpublished (List.Forall₂.cons hlast List.Forall₂.nil)
        · rw [hupdate]
          rfl

theorem OfRuns.pairwise_iff {ticks : List (Tick P)} {closed : List (List (Tick P))}
    {first : Tick P} {rest : List (Tick P)} (h : OfRuns interval ticks closed first rest) :
    (feed interval ticks).published.Pairwise (fun c d => c.ts < d.ts) ↔
      closed.Pairwise (Runs.Below (Tick.bucket interval)) := by
  have hclosed : ∀ run ∈ closed, run ∈ closed ++ [first :: rest] := fun run hrun =>
    mem_append_left _ hrun
  -- a candle carries the bucket of every tick of its run
  have hkeyed : List.Forall₂ (fun run c => (∃ x, x ∈ run) ∧ ∀ x ∈ run, x.bucket interval = c.ts)
      closed (feed interval ticks).published := by
    have hboth := (forall₂_and_left closed _).mpr ⟨hclosed, h.published⟩
    refine hboth.imp fun run c hrun => ⟨?_, hrun.2.ts_eq (h.runs.same run hrun.1)⟩
    exact exists_mem_of_ne_nil run (h.runs.nonempty run hrun.1)
  refine (pairwise_iff_of_forall₂ (fun run run' c c' hrun hrun' => ?_) hkeyed).symm
  obtain ⟨⟨x, hx⟩, hc⟩ := hrun
  obtain ⟨⟨y, hy⟩, hc'⟩ := hrun'
  constructor
  · intro hbelow
    rw [← hc x hx, ← hc' y hy]
    exact hbelow x hx y hy
  · intro hlt a ha b hb
    rw [hc a ha, hc' b hb]
    exact hlt

end Series

/-! ## ticks in order -/

omit [LinearOrder P] in
theorem getBucketStart_mono (interval : Timeframe) {ts ts' : Int} (h : ts ≤ ts') :
    getBucketStart ts interval ≤ getBucketStart ts' interval := by
  have hepoch : ts.tdiv microsPerSecond ≤ ts'.tdiv microsPerSecond :=
    Int.tdiv_le_tdiv (by decide) h
  cases interval <;>
    simp only [getBucketStart, Timeframe.seconds, microsPerDay, microsPerSecond] at hepoch ⊢ <;>
    omega

def InOrder (ticks : List (Tick P)) : Prop := ticks.Pairwise fun a b => a.ts ≤ b.ts

instance (ticks : List (Tick P)) : Decidable (InOrder ticks) :=
  inferInstanceAs (Decidable (ticks.Pairwise _))

namespace Series

variable {interval : Timeframe} {ticks : List (Tick P)} {closed : List (List (Tick P))}
  {first : Tick P} {rest : List (Tick P)}

theorem OfRuns.below (h : OfRuns interval ticks closed first rest) (hinorder : InOrder ticks) :
    (closed ++ [first :: rest]).Pairwise (Runs.Below (Tick.bucket interval)) :=
  h.runs.pairwise_of_monotone (hinorder.imp fun hle => getBucketStart_mono interval hle)

theorem OfRuns.increasing (h : OfRuns interval ticks closed first rest)
    (hinorder : InOrder ticks) : (feed interval ticks).published.Pairwise fun c d => c.ts < d.ts :=
  h.pairwise_iff.mpr (pairwise_append.mp (h.below hinorder)).1

theorem OfRuns.bucket_getLast (h : OfRuns interval ticks closed first rest) {last : Tick P}
    (hlast : ticks.getLast? = some last) : last.bucket interval = first.bucket interval := by
  have hmem : last ∈ first :: rest := by
    rw [← h.runs.flatten, flatten_append, getLast?_append] at hlast
    have hflat : [first :: rest].flatten = first :: rest := by simp
    rw [hflat, getLast?_eq_some_getLast (cons_ne_nil first rest), Option.some_or,
      Option.some.injEq] at hlast
    rw [← hlast]
    exact getLast_mem _
  exact h.runs.same _ (by simp) last hmem first mem_cons_self

theorem OfRuns.published_lt (h : OfRuns interval ticks closed first rest)
    (hinorder : InOrder ticks) {candle : Candle P}
    (hcandle : candle ∈ (feed interval ticks).published) : candle.ts < first.bucket interval := by
  obtain ⟨run, hrun, hof⟩ := exists_of_mem_right_of_forall₂ h.published hcandle
  have hmem := mem_append_left [first :: rest] hrun
  obtain ⟨x, hx⟩ := exists_mem_of_ne_nil run (h.runs.nonempty run hmem)
  rw [← hof.ts_eq (h.runs.same run hmem) x hx]
  exact (pairwise_append.mp (h.below hinorder)).2.2 run hrun (first :: rest)
    (.head _) x hx first (.head _)

theorem OfRuns.exists_published (h : OfRuns interval ticks closed first rest) {x : Tick P}
    (hx : x ∈ ticks) (hbucket : x.bucket interval ≠ first.bucket interval) :
    ∃ candle ∈ (feed interval ticks).published, candle.ts = x.bucket interval := by
  rw [← h.runs.flatten, flatten_append, mem_append] at hx
  cases hx with
  | inl hclosed =>
    obtain ⟨run, hrun, hmem⟩ := mem_flatten.mp hclosed
    obtain ⟨candle, hcandle, hof⟩ :=
      exists_of_mem_right_of_forall₂ (List.Forall₂.flip h.published) hrun
    have hts := IsCandleOf.ts_eq hof (h.runs.same run (mem_append_left _ hrun))
    exact ⟨candle, hcandle, (hts x hmem).symm⟩
  | inr hforming =>
    have hmem : x ∈ first :: rest := by simpa using hforming
    exact absurd (h.runs.same _ (by simp) x hmem first mem_cons_self) hbucket

end Series

/-! ## completed once and in order -/

/-- The published candles have increasing buckets, none twice, and each one summarizes the
ticks of its bucket that came before the first tick of a later bucket. -/
structure CompletedInOrder (interval : Timeframe) (ticks : List (Tick P))
    (published : List (Candle P)) : Prop where
  increasing : published.Pairwise fun c d => c.ts < d.ts
  once : (published.map Candle.ts).Nodup
  prices : ∀ c ∈ published, c.Summarizes
    (((ticks.takeWhile fun t => decide (t.bucket interval ≤ c.ts)).filter
      fun t => decide (t.bucket interval = c.ts)).map Tick.lastPrice)

/-- A tick of an earlier bucket than one before it is followed by ticks of its own bucket
only. -/
def LateTicksLast (interval : Timeframe) (ticks : List (Tick P)) : Prop :=
  ∀ x y z, [x, y, z].Sublist ticks → y.bucket interval < x.bucket interval →
    z.bucket interval = y.bucket interval

theorem completed_in_order_iff (token : Int) (interval : Timeframe) (ticks : List (Tick P)) :
    CompletedInOrder interval ticks
        ((Aggregator.feed token interval ticks).series (token, interval)).published ↔
      LateTicksLast interval ticks := by
  rw [Aggregator.series_feed]
  cases ticks with
  | nil =>
    constructor
    · intro _ x y z hsub
      simp at hsub
    · intro _
      exact ⟨List.Pairwise.nil, List.nodup_nil, by simp [Series.feed]⟩
  | cons t ticks =>
    obtain ⟨closed, first, rest, h⟩ :=
      @Series.exists_runs P _ interval (t :: ticks) (List.cons_ne_nil t ticks)
    have hiff := h.pairwise_iff.trans h.runs.pairwise_iff
    constructor
    · intro hdone
      exact hiff.mp hdone.increasing
    · intro hlate
      have hinc := hiff.mpr hlate
      refine ⟨hinc, ?_, fun c hc => ?_⟩
      · rw [List.Nodup, List.pairwise_map]
        exact hinc.imp fun hlt => hlt.ne
      · obtain ⟨run, hrun, hcandle⟩ := exists_of_mem_right_of_forall₂ h.published hc
        have hts := hcandle.ts_eq (h.runs.same run (List.mem_append_left _ hrun))
        rw [h.runs.filter_takeWhile (h.pairwise_iff.mp hinc) hrun hts]
        exact hcandle.summarizes

/-- A tick of the first minute arrives after one of the second, and one of the third
follows. -/
def lateTicks : List (Tick ℤ) :=
  [{ ts := 60000000, lastPrice := 100 }, { ts := 120000000, lastPrice := 101 },
   { ts := 90000000, lastPrice := 99 }, { ts := 180000000, lastPrice := 102 }]

/-- The first minute is published twice. -/
theorem late_tick_published_twice :
    ¬ CompletedInOrder .minute lateTicks
      ((Aggregator.feed 256265 .minute lateTicks).series (256265, .minute)).published := by
  intro h
  have honce := h.once
  revert honce
  decide

end Candles

end KiteAlgo
