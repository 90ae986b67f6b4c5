import KiteAlgo.Candles.Order

/-!
# KiteAlgo.Candles.Volume

Traded volume in live candles.  A candle takes its base from the first tick of its own
bucket, so what is traded between the last tick of one bucket and the first tick of the
next is in no candle.  `Series.countedVolume_eq` says what is counted: the increments
between neighbouring ticks of one bucket.  The volume is conserved exactly when the other
increments are zero, over the whole series and inside a coarser bucket
(`volume_conserved_iff`).
-/

namespace KiteAlgo

open List
namespace Candles

variable {P : Type} [LinearOrder P]

/-- The counter of traded volume does not fall. -/
def VolumeRises (ticks : List (Tick P)) : Prop := ticks.Pairwise fun a b => a.volume ≤ b.volume

instance (ticks : List (Tick P)) : Decidable (VolumeRises ticks) :=
  inferInstanceAs (Decidable (ticks.Pairwise _))

def traded (pair : Tick P × Tick P) : Int := pair.2.volume - pair.1.volume

omit [LinearOrder P] in
theorem traded_nonneg {ticks : List (Tick P)} (h : VolumeRises ticks) {pair : Tick P × Tick P}
    (hpair : pair ∈ neighbours ticks) : 0 ≤ traded pair := by
  have hle := rel_of_mem_neighbours h hpair
  rw [traded]
  omega

/-- What is traded between neighbouring ticks of one of the buckets `p`. -/
def tradedWithin (interval : Timeframe) (p : Int → Prop) [DecidablePred p]
    (ticks : List (Tick P)) : Int :=
  (((neighbours ticks).filter fun pair => decide (pair.1.bucket interval = pair.2.bucket interval ∧
    p (pair.1.bucket interval))).map traded).sum

omit [LinearOrder P] in
theorem tradedWithin_concat (interval : Timeframe) (p : Int → Prop) [DecidablePred p]
    (ticks : List (Tick P)) (last tick : Tick P) :
    tradedWithin interval p (ticks ++ [last] ++ [tick]) = tradedWithin interval p (ticks ++ [last]) +
        if last.bucket interval = tick.bucket interval ∧ p (last.bucket interval) then
          tick.volume - last.volume else 0 := by
  rw [tradedWithin, neighbours_concat, filter_append, map_append, sum_append, tradedWithin]
  by_cases h : last.bucket interval = tick.bucket interval ∧ p (last.bucket interval)
  · rw [if_pos h, filter_cons_of_pos (by simpa using h)]
    simp [traded]
  · rw [if_neg h, filter_cons_of_neg (by simpa using h)]
    simp

/-! ## what a series counts -/

namespace Series

/-- The volume of the forming candle, when its bucket is one of `p`. -/
def formingVolume (series : Series P) (p : Int → Prop) [DecidablePred p] : Int :=
  match series.forming with
  | none => 0
  | some state => if p state.bucketStartTs then state.volume else 0

/-- The volume of the published candles of the buckets `p`. -/
def publishedVolume (series : Series P) (p : Int → Prop) [DecidablePred p] : Int :=
  ((series.published.filter fun c => decide (p c.ts)).map Candle.volume).sum

variable {interval : Timeframe} {p : Int → Prop} [DecidablePred p]

/-- The forming candle after the ticks up to `last`: its volume is what the counter rose
since its base. -/
structure Counts (interval : Timeframe) (p : Int → Prop) [DecidablePred p] (ticks : List (Tick P))
    (last : Tick P) (state : CandleState P) : Prop where
  forming : (feed interval ticks).forming = some state
  bucket : state.bucketStartTs = last.bucket interval
  volume : state.volume = last.volume - state.baseVolume
  base : state.baseVolume ≤ last.volume
  total : (feed interval ticks).publishedVolume p + (feed interval ticks).formingVolume p =
    tradedWithin interval p ticks

theorem counts_concat {ticks : List (Tick P)} {last tick : Tick P} {state : CandleState P}
    (h : Counts interval p (ticks ++ [last]) last state) (hrise : last.volume ≤ tick.volume) :
    ∃ state', Counts interval p (ticks ++ [last] ++ [tick]) tick state' := by
  obtain ⟨hforming, hbucket, hvolume, hbase, htotal⟩ := h
  have hupdate := feed_concat interval (ticks ++ [last]) tick
  rw [publishedVolume, formingVolume, hforming] at htotal
  by_cases hsame : state.bucketStartTs = tick.bucket interval
  · rw [update_same hforming hsame] at hupdate
    have hreset : ¬ tick.volume < state.baseVolume := by omega
    have habsorb : (state.absorb tick).volume = tick.volume - state.baseVolume := by
      simp only [CandleState.absorb, hreset, if_false]
      omega
    refine ⟨state.absorb tick, by rw [hupdate], hsame, ?_, ?_, ?_⟩
    · rw [habsorb]
      simp [CandleState.absorb, hreset]
    · simp only [CandleState.absorb, hreset, if_false]
      omega
    · have hpair : last.bucket interval = tick.bucket interval := hbucket.symm.trans hsame
      have hkeep : (state.absorb tick).bucketStartTs = tick.bucket interval := hsame
      rw [hupdate, publishedVolume, formingVolume, tradedWithin_concat, ← htotal]
      simp only [hkeep, habsorb, hsame, hpair, true_and]
      by_cases hp : p (tick.bucket interval)
      · simp only [hp, if_true]
        omega
      · simp [hp]
  · rw [update_next hforming hsame] at hupdate
    refine ⟨.start (tick.bucket interval) tick, by rw [hupdate], rfl, ?_, le_refl _, ?_⟩
    · simp [CandleState.start]
    · have hpair : ¬ last.bucket interval = tick.bucket interval := fun h => hsame (hbucket.trans h)
      have hstart : (CandleState.start (tick.bucket interval) tick).volume = 0 := rfl
      rw [hupdate, publishedVolume, formingVolume, tradedWithin_concat, ← htotal,
        filter_append, map_append, sum_append]
      by_cases hp : p state.bucketStartTs <;> simp [hp, hpair, hstart, CandleState.candle]

theorem exists_counts {ticks : List (Tick P)} {last : Tick P} (hrise : VolumeRises (ticks ++ [last])) :
    ∃ state, Counts interval p (ticks ++ [last]) last state := by
  induction ticks using reverseRecOn generalizing last with
  | nil =>
    refine ⟨.start (last.bucket interval) last, rfl, rfl, ?_, le_refl _, ?_⟩
    · simp [CandleState.start]
    · simp [feed, update, publishedVolume, formingVolume, tradedWithin, neighbours, CandleState.start]
  | append_singleton ticks before ih =>
    obtain ⟨hold, -, hnew⟩ := pairwise_append.mp hrise
    obtain ⟨state, hstate⟩ := ih hold
    exact counts_concat hstate (hnew before (by simp) last (by simp))

theorem countedVolume_eq {ticks : List (Tick P)} (hrise : VolumeRises ticks) :
    (feed interval ticks).publishedVolume p + (feed interval ticks).formingVolume p =
      tradedWithin interval p ticks := by
  cases ticks using reverseRecOn with
  | nil => simp [feed, publishedVolume, formingVolume, tradedWithin, neighbours]
  | append_singleton ticks last =>
    obtain ⟨state, hstate⟩ := @exists_counts P _ interval p _ ticks last hrise
    exact hstate.total

end Series

/-- All candles together count what the counter rose from the first tick to the last. -/
def VolumeConserved (ticks : List (Tick P)) (series : Series P) : Prop :=
  ∀ first last, ticks.head? = some first → ticks.getLast? = some last →
    (series.published.map Candle.volume).sum + (series.forming.map CandleState.volume).getD 0 =
      last.volume - first.volume

/-- Nothing is traded between neighbouring ticks of different buckets. -/
def SteadyAcross (interval : Timeframe) (ticks : List (Tick P)) : Prop :=
  ∀ pair ∈ neighbours ticks, pair.1.bucket interval = pair.2.bucket interval ∨ pair.1.volume = pair.2.volume

variable {ticks : List (Tick P)}

theorem volumeConserved_iff (interval : Timeframe) (hrise : VolumeRises ticks) :
    VolumeConserved ticks (Series.feed interval ticks) ↔ SteadyAcross interval ticks := by
  cases ticks with
  | nil => simp [VolumeConserved, SteadyAcross, neighbours]
  | cons first rest =>
    have hcounted := @Series.countedVolume_eq P _ interval (fun _ => True) _ _ hrise
    have hpublished : (Series.feed interval (first :: rest)).publishedVolume (fun _ => True) =
        ((Series.feed interval (first :: rest)).published.map Candle.volume).sum := by
      simp [Series.publishedVolume]
    have hforming : (Series.feed interval (first :: rest)).formingVolume (fun _ => True) =
        ((Series.feed interval (first :: rest)).forming.map CandleState.volume).getD 0 := by
      cases h : (Series.feed interval (first :: rest)).forming <;> simp [Series.formingVolume, h]
    have hall : ((first :: rest).getLast (cons_ne_nil first rest)).volume - first.volume =
        (((neighbours (first :: rest)).filter fun _ => decide True).map traded).sum := by
      rw [← sum_neighbours Tick.volume first rest]
      simp only [decide_true, filter_true]
      rfl
    rw [hpublished, hforming] at hcounted
    have hiff := @sum_filter_eq_iff _ (fun pair : Tick P × Tick P =>
      pair.1.bucket interval = pair.2.bucket interval ∧ True) (fun _ => True) _ _ traded
      (neighbours (first :: rest)) (fun pair => traded_nonneg hrise) (fun _ _ _ => trivial)
    rw [← hall] at hiff
    have hsteady : SteadyAcross interval (first :: rest) ↔ ∀ pair ∈ neighbours (first :: rest), True →
          (pair.1.bucket interval = pair.2.bucket interval ∧ True) ∨ traded pair = 0 := by
      refine forall₂_congr fun pair _ => ?_
      rw [traded]
      grind
    have hlast := getLast?_eq_some_getLast (cons_ne_nil first rest)
    rw [hsteady, ← hiff, VolumeConserved, hcounted]
    constructor
    · intro h
      exact h first _ rfl hlast
    · intro h first' last' hfirst' hlast'
      rw [hlast, Option.some.injEq] at hlast'
      rw [head?_cons, Option.some.injEq] at hfirst'
      rw [← hfirst', ← hlast']
      exact h

/-! ## conserved inside a coarser bucket -/

/-- Every timestamp of the finer bucket is one of the coarser bucket. -/
def Inside (fine coarse : Timeframe) (bucket coarseBucket : Int) : Prop :=
  ∀ ts, getBucketStart ts fine = bucket → getBucketStart ts coarse = coarseBucket

open Classical in
/-- The finer candles inside a completed coarser bucket count what its candle counts. -/
def NestedVolumes (fine coarse : Timeframe) (fineSeries coarseSeries : Series P) : Prop :=
  ∀ candle ∈ coarseSeries.published,
    fineSeries.publishedVolume (fun bucket => Inside fine coarse bucket candle.ts) = candle.volume

/-- In a completed coarser bucket, something is traded only between neighbouring ticks of
one finer bucket inside it. -/
def SteadyWithin (fine coarse : Timeframe) (ticks : List (Tick P)) : Prop :=
  ∀ last, ticks.getLast? = some last → ∀ pair ∈ neighbours ticks,
    pair.1.bucket coarse = pair.2.bucket coarse → pair.1.bucket coarse ≠ last.bucket coarse →
    (pair.1.bucket fine = pair.2.bucket fine ∧
      Inside fine coarse (pair.1.bucket fine) (pair.1.bucket coarse)) ∨
    pair.1.volume = pair.2.volume

omit [LinearOrder P] in
theorem filter_ts_eq {candles : List (Candle P)} (h : candles.Pairwise fun c d => c.ts < d.ts)
    {candle : Candle P} (hcandle : candle ∈ candles) :
    (candles.filter fun c => decide (c.ts = candle.ts)) = [candle] := by
  obtain ⟨before, after, rfl⟩ := append_of_mem hcandle
  obtain ⟨-, hafter, hbefore⟩ := pairwise_append.mp h
  rw [pairwise_cons] at hafter
  have hnone : ∀ {cs : List (Candle P)}, (∀ c ∈ cs, c.ts ≠ candle.ts) →
      (cs.filter fun c => decide (c.ts = candle.ts)) = [] := by
    intro cs hcs
    rw [filter_eq_nil_iff]
    intro c hc
    simpa using hcs c hc
  rw [filter_append, filter_cons_of_pos (by simp),
    hnone fun c hc => (hbefore c hc candle (.head _)).ne,
    hnone fun c hc => (hafter.1 c hc).ne', nil_append]

omit [LinearOrder P] in
theorem Series.formingVolume_eq_zero {series : Series P} {p : Int → Prop} [DecidablePred p]
    {state : CandleState P} (hforming : series.forming = some state)
    (hp : ¬ p state.bucketStartTs) : series.formingVolume p = 0 := by
  simp [formingVolume, hforming, hp]

theorem nestedVolumes_iff (fine coarse : Timeframe) (hinorder : InOrder ticks)
    (hrise : VolumeRises ticks) :
    NestedVolumes fine coarse (Series.feed fine ticks) (Series.feed coarse ticks) ↔
      SteadyWithin fine coarse ticks := by
  classical
  cases ticks using reverseRecOn with
  | nil => simp [NestedVolumes, SteadyWithin, Series.feed]
  | append_singleton ticks last =>
    obtain ⟨closed, first, rest, h⟩ :=
      @Series.exists_runs P _ coarse (ticks ++ [last]) (by simp)
    have hlast : (ticks ++ [last]).getLast? = some last := by simp
    have hbucket := h.bucket_getLast hlast
    -- one completed coarser candle
    have hcandle : ∀ candle ∈ (Series.feed coarse (ticks ++ [last])).published,
        (Series.feed fine (ticks ++ [last])).publishedVolume
            (fun bucket => Inside fine coarse bucket candle.ts) = candle.volume ↔
          ∀ pair ∈ neighbours (ticks ++ [last]),
            (pair.1.bucket coarse = pair.2.bucket coarse ∧ pair.1.bucket coarse = candle.ts) →
            (pair.1.bucket fine = pair.2.bucket fine ∧
              Inside fine coarse (pair.1.bucket fine) candle.ts) ∨ traded pair = 0 := by
      intro candle hmem
      have hlt : candle.ts < last.bucket coarse := hbucket ▸ h.published_lt hinorder hmem
      have hcoarse : candle.volume =
          tradedWithin coarse (fun bucket => bucket = candle.ts) (ticks ++ [last]) := by
        have hzero : ¬ (CandleState.ofRun coarse first rest).bucketStartTs = candle.ts := by
          rw [CandleState.ofRun, CandleState.foldl_absorb_bucketStartTs]
          show ¬ first.bucket coarse = candle.ts
          omega
        rw [← Series.countedVolume_eq hrise, Series.formingVolume_eq_zero h.forming hzero,
          Series.publishedVolume, filter_ts_eq (h.increasing hinorder) hmem]
        simp
      have hfine : (Series.feed fine (ticks ++ [last])).publishedVolume
            (fun bucket => Inside fine coarse bucket candle.ts) =
          tradedWithin fine (fun bucket => Inside fine coarse bucket candle.ts)
            (ticks ++ [last]) := by
        obtain ⟨state, hstate⟩ := @Series.exists_counts P _ fine
          (fun bucket => Inside fine coarse bucket candle.ts) _ ticks last hrise
        have hzero : ¬ Inside fine coarse state.bucketStartTs candle.ts := by
          intro hinside
          have hts := hinside last.ts hstate.bucket.symm
          rw [Tick.bucket] at hlt
          omega
        rw [← hstate.total, Series.formingVolume_eq_zero hstate.forming hzero, Int.add_zero]
      rw [hfine, hcoarse]
      apply sum_filter_eq_iff
      · intro pair hpair
        exact traded_nonneg hrise hpair
      · intro pair _ hpair
        have h1 := hpair.2 pair.1.ts rfl
        have h2 := hpair.2 pair.2.ts hpair.1.symm
        exact ⟨h1.trans h2.symm, h1⟩
    constructor
    · intro hnested last' hlast' pair hpair hsame hdone
      rw [hlast, Option.some.injEq] at hlast'
      have hmem : pair.1 ∈ ticks ++ [last] := (of_mem_neighbours hpair).1
      rw [← hlast', hbucket] at hdone
      obtain ⟨candle, hpublished, hts⟩ := h.exists_published hmem hdone
      have hsteady := (hcandle candle hpublished).mp (hnested candle hpublished) pair hpair
        ⟨hsame, hts.symm⟩
      rw [hts, traded] at hsteady
      cases hsteady with
      | inl hinside => exact .inl hinside
      | inr hzero =>
        right
        omega
    · intro hsteady candle hmem
      refine (hcandle candle hmem).mpr fun pair hpair hin => ?_
      have hlt := hbucket ▸ h.published_lt hinorder hmem
      have hdone : pair.1.bucket coarse ≠ last.bucket coarse := by
        rw [hin.2]
        exact hlt.ne
      have hpairs := hsteady last hlast pair hpair hin.1 hdone
      rw [hin.2] at hpairs
      rw [traded]
      cases hpairs with
      | inl hinside => exact .inl hinside
      | inr heq =>
        right
        omega

theorem volume_conserved_iff (token : Int) (interval fine coarse : Timeframe)
    {ticks : List (Tick P)} (hinorder : InOrder ticks) (hrise : VolumeRises ticks) :
    VolumeConserved ticks ((Aggregator.feed token interval ticks).series (token, interval)) ∧
        NestedVolumes fine coarse ((Aggregator.feed token fine ticks).series (token, fine))
          ((Aggregator.feed token coarse ticks).series (token, coarse)) ↔
      SteadyAcross interval ticks ∧ SteadyWithin fine coarse ticks := by
  rw [Aggregator.series_feed, Aggregator.series_feed, Aggregator.series_feed,
    volumeConserved_iff interval hrise, nestedVolumes_iff fine coarse hinorder hrise]

/-! ## intraday buckets nest -/

theorem getBucketStart_of_ne_day {interval : Timeframe} (h : interval ≠ .day) (ts : Int) :
    getBucketStart ts interval =
      ts.tdiv microsPerSecond / interval.seconds * interval.seconds * microsPerSecond := by
  cases interval <;> first | rfl | exact absurd rfl h

theorem seconds_pos (interval : Timeframe) : 0 < interval.seconds := by
  cases interval <;> decide

theorem inside_of_dvd {fine coarse : Timeframe} (hfine : fine ≠ .day) (hcoarse : coarse ≠ .day)
    (hdvd : fine.seconds ∣ coarse.seconds) (ts : Int) :
    Inside fine coarse (getBucketStart ts fine) (getBucketStart ts coarse) := by
  intro ts' h
  obtain ⟨k, hk⟩ := hdvd
  have hpos := seconds_pos fine
  have hmicros : microsPerSecond ≠ 0 := by decide
  rw [getBucketStart_of_ne_day hfine, getBucketStart_of_ne_day hfine] at h
  have hquot : ts'.tdiv microsPerSecond / fine.seconds = ts.tdiv microsPerSecond / fine.seconds :=
    Int.eq_of_mul_eq_mul_right hpos.ne' (Int.eq_of_mul_eq_mul_right hmicros h)
  rw [getBucketStart_of_ne_day hcoarse, getBucketStart_of_ne_day hcoarse, hk,
    ← Int.ediv_ediv_of_nonneg hpos.le, ← Int.ediv_ediv_of_nonneg hpos.le, hquot]

/-- Fifty are traded in the first minute, and none between the others. -/
def steadyTicks : List (Tick ℤ) :=
  [{ ts := 0, lastPrice := 100, volumeTraded := some 100 },
   { ts := 30000000, lastPrice := 101, volumeTraded := some 150 },
   { ts := 60000000, lastPrice := 102, volumeTraded := some 150 },
   { ts := 300000000, lastPrice := 103, volumeTraded := some 150 }]

theorem volume_conserved_steadyTicks :
    InOrder steadyTicks ∧ VolumeRises steadyTicks ∧
      VolumeConserved steadyTicks ((Aggregator.feed 256265 .minute steadyTicks).series
        (256265, .minute)) ∧
      NestedVolumes .minute .minute5
        ((Aggregator.feed 256265 .minute steadyTicks).series (256265, .minute))
        ((Aggregator.feed 256265 .minute5 steadyTicks).series (256265, .minute5)) := by
  have hinorder : InOrder steadyTicks := by decide
  have hrise : VolumeRises steadyTicks := by decide
  refine ⟨hinorder, hrise,
    (volume_conserved_iff 256265 .minute .minute .minute5 hinorder hrise).mpr ⟨?_, ?_⟩⟩
  · unfold SteadyAcross
    decide
  · intro last _ pair hpair hsame _
    have hcases : ∀ pair ∈ neighbours steadyTicks, pair.1.bucket .minute = pair.2.bucket .minute ∨
        pair.1.volume = pair.2.volume := by decide
    refine (hcases pair hpair).imp_left fun hfine => ⟨hfine, ?_⟩
    exact inside_of_dvd (by decide) (by decide) (by decide) pair.1.ts

/-- Fifty are traded between the last tick of the first minute and the first tick of the
second. -/
def boundaryTicks : List (Tick ℤ) :=
  [{ ts := 0, lastPrice := 100, volumeTraded := some 100 },
   { ts := 60000000, lastPrice := 101, volumeTraded := some 150 },
   { ts := 300000000, lastPrice := 102, volumeTraded := some 150 }]

/-- They are in no one-minute candle, and the five-minute candle has them. -/
theorem boundary_volume_lost :
    ¬ VolumeConserved boundaryTicks ((Aggregator.feed 256265 .minute boundaryTicks).series
        (256265, .minute)) ∧
    ¬ NestedVolumes .minute .minute5
        ((Aggregator.feed 256265 .minute boundaryTicks).series (256265, .minute))
        ((Aggregator.feed 256265 .minute5 boundaryTicks).series (256265, .minute5)) := by
  constructor
  · intro h
    have hsum := h { ts := 0, lastPrice := 100, volumeTraded := some 100 }
      { ts := 300000000, lastPrice := 102, volumeTraded := some 150 } rfl rfl
    revert hsum
    decide
  · intro h
    have hcoarse := h { ts := 0, «open» := 100, high := 101, low := 100, close := 101, volume := 50 }
      (by decide)
    have hzero : ∀ c ∈ ((Aggregator.feed 256265 .minute boundaryTicks).series
        (256265, .minute)).published, c.volume = 0 := by decide
    rw [Series.publishedVolume, List.sum_eq_zero] at hcoarse
    · exact absurd hcoarse (by decide)
    · intro v hv
      obtain ⟨c, hc, rfl⟩ := List.mem_map.mp hv
      exact hzero c (List.mem_of_mem_filter hc)

end Candles

end KiteAlgo
