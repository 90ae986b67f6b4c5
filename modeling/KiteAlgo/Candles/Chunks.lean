import KiteAlgo.Candles.Ingestion

/-!
# KiteAlgo.Candles.Chunks

The requests of `_fetch_historical_chunked`.  A chunk ends one second before the next newer one
starts, and the loop asks `current_to > target_from`: when only the first second is left it stops.
-/

namespace KiteAlgo

namespace Candles

variable {interval : Timeframe} {fromUtc toUtc ts : Int}

/-- The ranges that the loop requests, the newest first. -/
def chunks (interval : Timeframe) (targetFrom currentTo : Int) : List (Int × Int) :=
  if currentTo > targetFrom then
    let currentFrom := max (currentTo - chunkSpan interval) targetFrom
    (currentFrom, currentTo) :: chunks interval targetFrom (currentFrom - microsPerSecond)
  else []
termination_by (currentTo - targetFrom).toNat
decreasing_by
  have hspan := chunkSpan_pos interval
  have hsecond : microsPerSecond = 1000000 := rfl
  omega

def inChunk (ts : Int) (r : Int × Int) : Bool := decide (r.1 ≤ ts ∧ ts ≤ r.2)

/-- The requests are within the limit of the interval and disjoint, and each second of the range is in
exactly one of them. -/
def CoveredExactly (interval : Timeframe) (fromUtc toUtc : Int) : Prop :=
  (∀ r ∈ chunks interval fromUtc toUtc, r.2 - r.1 ≤ maxDaysPerInterval interval * microsPerDay) ∧
    (chunks interval fromUtc toUtc).Pairwise (fun r r' => ∀ ts, ¬(inChunk ts r = true ∧ inChunk ts r' = true)) ∧
    ∀ ts, atSecond ts = ts → fromUtc ≤ ts → ts ≤ toUtc →
      (chunks interval fromUtc toUtc).countP (inChunk ts) = 1

theorem of_mem_chunks {r : Int × Int} (h : r ∈ chunks interval fromUtc toUtc) :
    r.2 - r.1 ≤ chunkSpan interval ∧ r.2 ≤ toUtc := by
  have hspan := chunkSpan_pos interval
  have hsecond : microsPerSecond = 1000000 := rfl
  induction toUtc using chunks.induct interval fromUtc with
  | case1 currentTo hgt currentFrom ih =>
    rw [chunks, if_pos hgt, List.mem_cons] at h
    obtain rfl | h := h
    · dsimp only
      omega
    · have := ih h
      omega
  | case2 currentTo hle =>
    rw [chunks, if_neg hle] at h
    cases h

theorem pairwise_chunks : (chunks interval fromUtc toUtc).Pairwise fun r r' => r'.2 < r.1 := by
  induction toUtc using chunks.induct interval fromUtc with
  | case1 currentTo hgt currentFrom ih =>
    rw [chunks, if_pos hgt]
    refine .cons (fun r hr => ?_) ih
    have hsecond : microsPerSecond = 1000000 := rfl
    have := of_mem_chunks hr
    dsimp only
    omega
  | case2 currentTo hle =>
    rw [chunks, if_neg hle]
    exact .nil

theorem countP_chunks (hfrom : atSecond fromUtc = fromUtc) (hto : atSecond toUtc = toUtc)
    (hle : fromUtc ≤ toUtc) (hts : atSecond ts = ts) :
    (chunks interval fromUtc toUtc).countP (inChunk ts) = if fromUtc ≤ ts ∧ ts ≤ toUtc ∧
        (ts = fromUtc → (toUtc - fromUtc) % (chunkSpan interval + microsPerSecond) ≠ 0) then 1 else 0 := by
  have hspan := chunkSpan_pos interval
  have hdays : atSecond (chunkSpan interval) = chunkSpan interval := by cases interval <;> decide
  simp only [atSecond, show microsPerSecond = 1000000 from rfl] at hfrom hto hts hdays
  induction toUtc using chunks.induct interval fromUtc with
  | case1 currentTo hgt currentFrom ih =>
    rw [chunks, if_pos hgt, List.countP_cons]
    have hsecond : microsPerSecond = 1000000 := rfl
    have hmax : currentFrom = max (currentTo - chunkSpan interval) fromUtc := rfl
    rw [← hmax]
    by_cases hlast : currentTo - chunkSpan interval ≤ fromUtc
    · have hmod : (currentTo - fromUtc) % (chunkSpan interval + microsPerSecond) = currentTo - fromUtc :=
        Int.emod_eq_of_lt (by omega) (by omega)
      rw [chunks, if_neg (by omega)]
      simp only [inChunk, List.countP_nil, decide_eq_true_eq, hmod]
      grind
    · have hmod := Int.sub_emod_right (currentTo - fromUtc) (chunkSpan interval + microsPerSecond)
      rw [show currentTo - fromUtc - (chunkSpan interval + microsPerSecond) =
        currentFrom - microsPerSecond - fromUtc by omega] at hmod
      rw [ih (by omega) (by omega)]
      simp only [inChunk, decide_eq_true_eq, hmod]
      grind
  | case2 currentTo hle' =>
    have : currentTo = fromUtc := by omega
    subst this
    rw [chunks, if_neg (by omega)]
    simp
    omega

/-- The requests cover a range exactly unless they leave its first second over. -/
theorem coveredExactly_iff (hfrom : atSecond fromUtc = fromUtc) (hto : atSecond toUtc = toUtc)
    (hlt : fromUtc < toUtc) :
    CoveredExactly interval fromUtc toUtc ↔
      (toUtc - fromUtc) % (chunkSpan interval + microsPerSecond) ≠ 0 := by
  constructor
  · intro h
    have hcount := h.2.2 fromUtc hfrom le_rfl hlt.le
    rw [countP_chunks hfrom hto hlt.le hfrom] at hcount
    grind
  · intro hmod
    refine ⟨fun r hr => (of_mem_chunks hr).1, pairwise_chunks.imp fun h ts hts => ?_, fun ts hts hlow hhigh => ?_⟩
    · simp only [inChunk, decide_eq_true_eq] at hts
      omega
    · rw [countP_chunks hfrom hto hlt.le hts, if_pos ⟨hlow, hhigh, fun _ => hmod⟩]

/-- A day and a half of minutes. -/
theorem coveredExactly_minutes : CoveredExactly .minute 0 (36 * 3600 * microsPerSecond) :=
  (coveredExactly_iff (by decide) (by decide) (by decide)).mpr (by decide)

/-- Of sixty days and a second of minutes the first second is not requested. -/
theorem not_coveredExactly_minutes :
    ¬CoveredExactly .minute 0 ((60 * 86400 + 1) * microsPerSecond) := fun h => by
  have hcount := h.2.2 0 (by decide) (by decide) (by decide)
  rw [countP_chunks (by decide) (by decide) (by decide) (by decide)] at hcount
  exact absurd hcount (by decide)

end Candles

end KiteAlgo
