import KiteAlgo.Lib.Blocks
import KiteAlgo.Lib.Dict
import Mathlib.Algebra.BigOperators.Group.List.Basic
import Mathlib.Algebra.Order.BigOperators.Group.List
import Mathlib.Algebra.Order.Ring.Abs
import Mathlib.Algebra.Order.Field.Rat
import Mathlib.Tactic.FieldSimp
import Mathlib.Tactic.Linarith
import Mathlib.Tactic.Ring

/-!
# KiteAlgo.Journal.Analytics

The figures of closed episodes, computed twice: by `JournalService._analytics_metrics`
(`analyticsMetrics`) and by `AnalyticsService._build_metrics` (`buildMetrics`).

Sums, rates, averages and the profit factor are the same (`sums_agree`).  The others are not:
`expectancy_agree_iff`, `streaks_agree_iff` and `charges_agree_iff` say for which episodes they
are, and `metrics_agree_iff_empty` that no list but the empty one has them all.
-/

namespace KiteAlgo.Journal

open List
/-! ## costs -/

/-- The charges of a `CostBreakdown` one by one. -/
structure Charges where
  brokerage : ℚ := 0
  exchangeTxnCharge : ℚ := 0
  stt : ℚ := 0
  stampDuty : ℚ := 0
  sebiCharge : ℚ := 0
  gst : ℚ := 0
  deriving DecidableEq

namespace Charges

def derivedTaxes (c : Charges) : ℚ := c.stt + c.stampDuty + c.sebiCharge + c.gst

def derivedTotal (c : Charges) : ℚ := c.brokerage + c.exchangeTxnCharge + c.derivedTaxes

/-- The charges of several breakdowns added up. -/
def sum (all : List Charges) : Charges where
  brokerage := (all.map brokerage).sum
  exchangeTxnCharge := (all.map exchangeTxnCharge).sum
  stt := (all.map stt).sum
  stampDuty := (all.map stampDuty).sum
  sebiCharge := (all.map sebiCharge).sum
  gst := (all.map gst).sum

end Charges

/-- A `CostBreakdown` after `derive_totals`: a total that is zero is the derived one. -/
structure CostBreakdown extends Charges where
  totalTaxes : ℚ
  totalCharges : ℚ
  taxes_derived : totalTaxes = 0 → toCharges.derivedTaxes = 0
  charges_derived : totalCharges = 0 → toCharges.derivedTotal = 0
  deriving DecidableEq

/-- `CostBreakdown(...)`. -/
def Charges.breakdown (c : Charges) (totalTaxes totalCharges : ℚ := 0) : CostBreakdown where
  toCharges := c
  totalTaxes := if totalTaxes = 0 then c.derivedTaxes else totalTaxes
  totalCharges := if totalCharges = 0 then c.derivedTotal else totalCharges
  taxes_derived h := by
    split at h
    · exact h
    · contradiction
  charges_derived h := by
    split at h
    · exact h
    · contradiction

theorem CostBreakdown.breakdown_self (b : CostBreakdown) :
    b.toCharges.breakdown b.totalTaxes b.totalCharges = b := by
  obtain ⟨c, totalTaxes, totalCharges, htaxes, hcharges⟩ := b
  simp only [Charges.breakdown, CostBreakdown.mk.injEq, true_and]
  constructor
  · split
    · next h => rw [htaxes h, h]
    · rfl
  · split
    · next h => rw [hcharges h, h]
    · rfl

/-- An `EpisodeOutcome`. -/
structure EpisodeOutcome where
  episodeId : String
  grossPnl : ℚ := 0
  netPnl : ℚ := 0
  totalCharges : ℚ := 0
  realizedPnl : ℚ := 0
  holdSeconds : Int := 0
  costBreakdown : CostBreakdown := Charges.breakdown {}

/-- `AnalyticsMetrics`, without the figures of an equity curve. -/
structure AnalyticsMetrics where
  grossPnl : ℚ
  netPnl : ℚ
  totalCharges : ℚ
  realizedPnl : ℚ
  costBreakdown : CostBreakdown
  costRatio : Option ℚ
  closedEpisodeCount : Nat
  holdSecondsTotal : Int
  holdSecondsAvg : Option Int
  winCount : Nat
  lossCount : Nat
  winRate : Option ℚ
  averageWin : Option ℚ
  averageLoss : Option ℚ
  expectancy : Option ℚ
  profitFactor : Option ℚ
  maxWinStreak : Nat
  maxLossStreak : Nat

/-! ## `journaling/metrics.py` -/

def winsOf (pnls : List ℚ) : List ℚ := pnls.filter fun pnl => 0 < pnl

def lossesOf (pnls : List ℚ) : List ℚ := pnls.filter fun pnl => pnl < 0

def grossProfit (pnls : List ℚ) : ℚ := (winsOf pnls).sum

def grossLoss (pnls : List ℚ) : ℚ := ((lossesOf pnls).map fun pnl => -pnl).sum

def netPnl (pnls : List ℚ) : ℚ := pnls.sum

def winRate (pnls : List ℚ) : Option ℚ :=
  if pnls = [] then none else some ((winsOf pnls).length / pnls.length)

def averageWin (pnls : List ℚ) : Option ℚ :=
  if winsOf pnls = [] then none else some ((winsOf pnls).sum / (winsOf pnls).length)

def averageLoss (pnls : List ℚ) : Option ℚ :=
  let losses := (lossesOf pnls).map fun pnl => -pnl
  if losses = [] then none else some (losses.sum / losses.length)

def profitFactor (pnls : List ℚ) : Option ℚ :=
  if grossLoss pnls = 0 then none else some (grossProfit pnls / grossLoss pnls)

/-- `expectancy` without fees. -/
def expectancy (pnls : List ℚ) : Option ℚ :=
  if pnls = [] then none else some (netPnl pnls / pnls.length)

/-- The counters of `streaks`. -/
structure Streaks where
  maxWin : Nat := 0
  maxLoss : Nat := 0
  currentWin : Nat := 0
  currentLoss : Nat := 0
  deriving DecidableEq

/-- One result of the loop of `streaks`. -/
def Streaks.next (s : Streaks) (pnl : ℚ) : Streaks :=
  let currentWin := if 0 < pnl then s.currentWin + 1 else 0
  let currentLoss := if pnl < 0 then s.currentLoss + 1 else 0
  { maxWin := max s.maxWin currentWin
    maxLoss := max s.maxLoss currentLoss
    currentWin := currentWin
    currentLoss := currentLoss }

def Streaks.of (pnls : List ℚ) : Streaks := pnls.foldl Streaks.next {}

def streaks (pnls : List ℚ) : Dict String Nat :=
  [("max_win_streak", (Streaks.of pnls).maxWin), ("max_loss_streak", (Streaks.of pnls).maxLoss)]

/-! ## the two implementations -/

def safeRatio (numerator denominator : ℚ) : Option ℚ :=
  if denominator = 0 then none else some (numerator / denominator)

/-- `int(total / count)` of seconds. -/
def averageSeconds (total : Int) (count : Nat) : Option Int :=
  if count = 0 then none else some (total.tdiv count)

/-- The `expectancy` of `build_environment_episode_metrics`. -/
def ratedExpectancy (winRate averageWin averageLoss : Option ℚ) : Option ℚ :=
  match winRate, averageWin, averageLoss with
  | some rate, some win, some loss => some (rate * win - (1 - rate) * loss)
  | _, _, _ => none

/-- The `profit_factor` of `build_environment_episode_metrics`. -/
def environmentProfitFactor (pnls : List ℚ) : Option ℚ :=
  if 0 < |(lossesOf pnls).sum| then some ((winsOf pnls).sum / |(lossesOf pnls).sum|) else none

/-- `JournalService._analytics_metrics`, with the figures of
`build_environment_episode_metrics`. -/
def analyticsMetrics (rows : List EpisodeOutcome) : AnalyticsMetrics :=
  let pnls := rows.map EpisodeOutcome.netPnl
  let grossPnl := (rows.map EpisodeOutcome.grossPnl).sum
  let totalCharges := (rows.map EpisodeOutcome.totalCharges).sum
  let totalTaxes := (rows.map fun row => row.costBreakdown.totalTaxes).sum
  let holdSecondsTotal := (rows.map EpisodeOutcome.holdSeconds).sum
  let breakdown := (Charges.sum (rows.map fun row => row.costBreakdown.toCharges)).breakdown
    totalTaxes totalCharges
  let winCount := (winsOf pnls).length
  let lossCount := (lossesOf pnls).length
  let winRate : Option ℚ := if rows.length = 0 then none else some (winCount / rows.length)
  let averageWin : Option ℚ := if winCount = 0 then none else some ((winsOf pnls).sum / winCount)
  let averageLoss : Option ℚ :=
    if lossCount = 0 then none else some (|(lossesOf pnls).sum| / lossCount)
  let streak := if rows = [] then [("wins", 0), ("losses", 0)] else streaks pnls
  { grossPnl := grossPnl
    netPnl := pnls.sum
    totalCharges := totalCharges
    realizedPnl := (rows.map EpisodeOutcome.realizedPnl).sum
    -- `model_validate` of the dumped payload
    costBreakdown := breakdown.toCharges.breakdown breakdown.totalTaxes breakdown.totalCharges
    costRatio := safeRatio totalCharges grossPnl
    closedEpisodeCount := rows.length
    holdSecondsTotal := holdSecondsTotal
    holdSecondsAvg := averageSeconds holdSecondsTotal rows.length
    winCount := winCount
    lossCount := lossCount
    winRate := winRate
    averageWin := averageWin
    averageLoss := averageLoss
    expectancy := ratedExpectancy winRate averageWin averageLoss
    profitFactor := environmentProfitFactor pnls
    maxWinStreak := (Dict.get? streak "wins").getD 0
    maxLossStreak := (Dict.get? streak "losses").getD 0 }

def sumCostBreakdowns (breakdowns : List CostBreakdown) : CostBreakdown :=
  (Charges.sum (breakdowns.map CostBreakdown.toCharges)).breakdown

/-- `AnalyticsService._build_metrics` without equity points. -/
def buildMetrics (rows : List EpisodeOutcome) : AnalyticsMetrics :=
  let pnls := rows.map EpisodeOutcome.netPnl
  let grossPnl := (rows.map EpisodeOutcome.grossPnl).sum
  let totalCharges := (rows.map EpisodeOutcome.totalCharges).sum
  let holdSecondsTotal := (rows.map EpisodeOutcome.holdSeconds).sum
  let streak := if pnls = [] then [("max_win_streak", 0), ("max_loss_streak", 0)] else streaks pnls
  { grossPnl := grossPnl
    netPnl := pnls.sum
    totalCharges := totalCharges
    realizedPnl := (rows.map EpisodeOutcome.realizedPnl).sum
    costBreakdown := sumCostBreakdowns (rows.map EpisodeOutcome.costBreakdown)
    costRatio := if grossPnl ≠ 0 then some (totalCharges / grossPnl) else none
    closedEpisodeCount := rows.length
    holdSecondsTotal := holdSecondsTotal
    holdSecondsAvg := averageSeconds holdSecondsTotal rows.length
    winCount := (winsOf pnls).length
    lossCount := (lossesOf pnls).length
    winRate := winRate pnls
    averageWin := averageWin pnls
    averageLoss := averageLoss pnls
    expectancy := expectancy pnls
    profitFactor := profitFactor pnls
    maxWinStreak := (Dict.get? streak "max_win_streak").getD 0
    maxLossStreak := (Dict.get? streak "max_loss_streak").getD 0 }

section Streaks

variable (pnls : List ℚ)

theorem Streaks.of_spec :
    (IsLongestBlock (0 < ·) pnls (Streaks.of pnls).maxWin ∧
        IsLastBlock (0 < ·) pnls (Streaks.of pnls).currentWin) ∧
      IsLongestBlock (· < 0) pnls (Streaks.of pnls).maxLoss ∧
        IsLastBlock (· < 0) pnls (Streaks.of pnls).currentLoss := by
  induction pnls using reverseRecOn with
  | nil => exact ⟨⟨.nil _, .nil _⟩, .nil _, .nil _⟩
  | append_singleton pnls pnl ih =>
    obtain ⟨⟨hwin, hlastWin⟩, hloss, hlastLoss⟩ := ih
    have hstep : Streaks.of (pnls ++ [pnl]) = (Streaks.of pnls).next pnl := by
      rw [Streaks.of, foldl_concat]
      rfl
    have hnextWin :
        IsLastBlock (0 < ·) (pnls ++ [pnl]) ((Streaks.of pnls).next pnl).currentWin := by
      simp only [Streaks.next]
      split
      · next hpos => exact hlastWin.concat hpos
      · next hpos => exact .concat_of_not hpos
    have hnextLoss :
        IsLastBlock (· < 0) (pnls ++ [pnl]) ((Streaks.of pnls).next pnl).currentLoss := by
      simp only [Streaks.next]
      split
      · next hneg => exact hlastLoss.concat hneg
      · next hneg => exact .concat_of_not hneg
    rw [hstep]
    exact ⟨⟨hwin.concat hnextWin, hnextWin⟩, hloss.concat hnextLoss, hnextLoss⟩

end Streaks

/-! ## what agrees -/

theorem lossesOf_neg (pnls : List ℚ) : ∀ pnl ∈ lossesOf pnls, pnl < 0 := fun _ hpnl =>
  of_decide_eq_true (mem_filter.mp hpnl).2

theorem grossLoss_eq_neg (pnls : List ℚ) : grossLoss pnls = -(lossesOf pnls).sum :=
  (sum_neg (lossesOf pnls)).symm

theorem grossLoss_eq_abs (pnls : List ℚ) : grossLoss pnls = |(lossesOf pnls).sum| := by
  have hsum : 0 ≤ grossLoss pnls := by
    refine sum_nonneg fun loss hloss => ?_
    obtain ⟨pnl, hpnl, rfl⟩ := mem_map.mp hloss
    exact (neg_pos.mpr (lossesOf_neg pnls pnl hpnl)).le
  rw [grossLoss_eq_neg] at hsum ⊢
  rw [abs_of_nonpos (neg_nonneg.mp hsum)]

theorem grossLoss_pos {pnls : List ℚ} (h : lossesOf pnls ≠ []) : 0 < grossLoss pnls := by
  rw [grossLoss]
  refine sum_pos _ (fun loss hloss => ?_) (by simpa using h)
  obtain ⟨pnl, hpnl, rfl⟩ := mem_map.mp hloss
  exact neg_pos.mpr (lossesOf_neg pnls pnl hpnl)

section Agreement

variable (rows : List EpisodeOutcome)

/-- The results that both implementations start from. -/
def netPnls : List ℚ := rows.map EpisodeOutcome.netPnl

theorem sums_agree :
    (analyticsMetrics rows).grossPnl = (buildMetrics rows).grossPnl ∧
      (analyticsMetrics rows).netPnl = (buildMetrics rows).netPnl ∧
      (analyticsMetrics rows).totalCharges = (buildMetrics rows).totalCharges ∧
      (analyticsMetrics rows).winRate = (buildMetrics rows).winRate ∧
      (analyticsMetrics rows).averageWin = (buildMetrics rows).averageWin ∧
      (analyticsMetrics rows).averageLoss = (buildMetrics rows).averageLoss ∧
      (analyticsMetrics rows).profitFactor = (buildMetrics rows).profitFactor := by
  have habs := grossLoss_eq_abs (netPnls rows)
  refine ⟨rfl, rfl, rfl, ?_, ?_, ?_, ?_⟩
  · simp [analyticsMetrics, buildMetrics, winRate]
  · simp [analyticsMetrics, buildMetrics, averageWin]
  · simp only [analyticsMetrics, buildMetrics, averageLoss, map_eq_nil_iff, length_map,
      length_eq_zero_iff]
    rw [← netPnls, ← habs]
    rfl
  · simp only [analyticsMetrics, buildMetrics, environmentProfitFactor, profitFactor]
    rw [← netPnls, ← habs]
    have hnonneg : 0 ≤ grossLoss (netPnls rows) := by
      rw [habs]
      exact abs_nonneg _
    by_cases hzero : grossLoss (netPnls rows) = 0
    · rw [if_neg (by rw [hzero]; exact lt_irrefl 0), if_pos hzero]
    · rw [if_pos (lt_of_le_of_ne hnonneg (Ne.symm hzero)), if_neg hzero]
      rfl

theorem buildMetrics_streaks :
    IsLongestBlock (0 < ·) (netPnls rows) (buildMetrics rows).maxWinStreak ∧
      IsLongestBlock (· < 0) (netPnls rows) (buildMetrics rows).maxLossStreak := by
  obtain ⟨⟨hwin, -⟩, hloss, -⟩ := Streaks.of_spec (netPnls rows)
  simp only [buildMetrics]
  split
  · next h =>
    rw [netPnls, h]
    exact ⟨.nil _, .nil _⟩
  · exact ⟨hwin, hloss⟩

theorem analyticsMetrics_streaks :
    (analyticsMetrics rows).maxWinStreak = 0 ∧ (analyticsMetrics rows).maxLossStreak = 0 := by
  simp only [analyticsMetrics]
  split <;> exact ⟨rfl, rfl⟩

theorem streaks_agree_iff :
    (analyticsMetrics rows).maxWinStreak = (buildMetrics rows).maxWinStreak ∧
        (analyticsMetrics rows).maxLossStreak = (buildMetrics rows).maxLossStreak ↔
      ∀ pnl ∈ netPnls rows, pnl = 0 := by
  obtain ⟨hwin, hloss⟩ := buildMetrics_streaks rows
  rw [(analyticsMetrics_streaks rows).1, (analyticsMetrics_streaks rows).2,
    eq_comm, hwin.eq_zero_iff, eq_comm, hloss.eq_zero_iff]
  constructor
  · rintro ⟨hnowin, hnoloss⟩ pnl hpnl
    exact le_antisymm (not_lt.mp (hnowin pnl hpnl)) (not_lt.mp (hnoloss pnl hpnl))
  · intro hzero
    refine ⟨fun pnl hpnl => ?_, fun pnl hpnl => ?_⟩
    · rw [hzero pnl hpnl]
      exact lt_irrefl 0
    · rw [hzero pnl hpnl]
      exact lt_irrefl 0

theorem sum_winsOf_lossesOf (pnls : List ℚ) :
    (winsOf pnls).sum + (lossesOf pnls).sum = pnls.sum := by
  induction pnls with
  | nil => exact add_zero 0
  | cons pnl pnls ih =>
    have hwins : winsOf (pnl :: pnls) = if 0 < pnl then pnl :: winsOf pnls else winsOf pnls := by
      simp [winsOf, filter_cons]
    have hlosses : lossesOf (pnl :: pnls) = if pnl < 0 then pnl :: lossesOf pnls else lossesOf pnls := by
      simp [lossesOf, filter_cons]
    rw [hwins, hlosses, sum_cons, ← ih]
    rcases lt_trichotomy pnl 0 with h | rfl | h
    · rw [if_neg (not_lt.mpr h.le), if_pos h, sum_cons]
      ring
    · rw [if_neg (lt_irrefl 0), if_neg (lt_irrefl 0), zero_add]
    · rw [if_pos h, if_neg (not_lt.mpr h.le), sum_cons]
      ring

theorem length_winsOf_lossesOf (pnls : List ℚ) :
    (winsOf pnls).length + (lossesOf pnls).length + pnls.count 0 = pnls.length := by
  induction pnls with
  | nil => rfl
  | cons pnl pnls ih =>
    simp only [winsOf, lossesOf, filter_cons, count_cons, decide_eq_true_eq, beq_iff_eq,
      length_cons] at ih ⊢
    rcases lt_trichotomy pnl 0 with h | rfl | h
    · rw [if_neg (not_lt.mpr h.le), if_pos h, if_neg h.ne, length_cons]
      omega
    · rw [if_neg (lt_irrefl 0), if_neg (lt_irrefl 0), if_pos rfl]
      omega
    · rw [if_pos h, if_neg (not_lt.mpr h.le), if_neg h.ne', length_cons]
      omega

theorem expectancy_agree_iff :
    (analyticsMetrics rows).expectancy = (buildMetrics rows).expectancy ↔
      rows = [] ∨ winsOf (netPnls rows) ≠ [] ∧ lossesOf (netPnls rows) ≠ [] ∧ 0 ∉ netPnls rows := by
  obtain ⟨-, -, -, hrate, hwin, hloss, -⟩ := sums_agree rows
  have hrated : (analyticsMetrics rows).expectancy =
      ratedExpectancy (winRate (netPnls rows)) (averageWin (netPnls rows))
        (averageLoss (netPnls rows)) := by
    show ratedExpectancy (analyticsMetrics rows).winRate (analyticsMetrics rows).averageWin
      (analyticsMetrics rows).averageLoss = _
    rw [hrate, hwin, hloss]
    rfl
  have hbuilt : (buildMetrics rows).expectancy = expectancy (netPnls rows) := rfl
  have hempty : rows = [] ↔ netPnls rows = [] := map_eq_nil_iff.symm
  rw [hrated, hbuilt, hempty]
  generalize netPnls rows = pnls
  by_cases hpnls : pnls = []
  · subst hpnls
    simp [ratedExpectancy, winRate, expectancy]
  by_cases hwins : winsOf pnls = []
  · simp [ratedExpectancy, averageWin, expectancy, hpnls, hwins]
  by_cases hlosses : lossesOf pnls = []
  · simp [ratedExpectancy, averageLoss, expectancy, hpnls, hlosses]
  have hcount := length_winsOf_lossesOf pnls
  have hsum := sum_winsOf_lossesOf pnls
  have hlosses_pos := grossLoss_pos hlosses
  have hwinCount : ((winsOf pnls).length : ℚ) ≠ 0 := by simpa using hwins
  have hlossCount : ((lossesOf pnls).length : ℚ) ≠ 0 := by simpa using hlosses
  have hlength :
      ((winsOf pnls).length : ℚ) + (lossesOf pnls).length + pnls.count 0 = pnls.length := by
    exact_mod_cast hcount
  have hlength_ne : (pnls.length : ℚ) ≠ 0 := by simpa using hpnls
  have hnet : netPnl pnls = (winsOf pnls).sum - grossLoss pnls := by
    rw [netPnl, ← hsum, grossLoss_eq_neg]
    ring
  have hvalues : ratedExpectancy (winRate pnls) (averageWin pnls) (averageLoss pnls) =
      some (((winsOf pnls).sum -
        (pnls.length - (winsOf pnls).length) * grossLoss pnls / (lossesOf pnls).length) /
          pnls.length) := by
    simp only [winRate, averageWin, averageLoss, map_eq_nil_iff, length_map, if_neg hpnls,
      if_neg hwins, if_neg hlosses, ratedExpectancy]
    rw [← grossLoss]
    field_simp
  rw [hvalues, expectancy, if_neg hpnls, hnet, Option.some.injEq, div_left_inj' hlength_ne,
    sub_right_inj, div_eq_iff hlossCount, mul_comm, mul_right_inj' hlosses_pos.ne']
  have hnone : (0 : ℚ) ∉ pnls ↔ pnls.count 0 = 0 := count_eq_zero.symm
  rw [hnone]
  simp only [hpnls, hwins, hlosses, false_or, ne_eq, not_false_eq_true, true_and]
  have hcast : (pnls.count 0 : ℚ) = 0 ↔ pnls.count 0 = 0 := Nat.cast_eq_zero
  rw [← hcast]
  constructor
  · intro h
    linarith
  · intro h
    linarith

/-- The charges of a list of breakdowns, one by one. -/
def itemizedCharges : ℚ :=
  (Charges.sum (rows.map fun row => row.costBreakdown.toCharges)).derivedTotal

theorem analyticsMetrics_charges :
    (analyticsMetrics rows).costBreakdown.totalCharges =
      if (analyticsMetrics rows).totalCharges = 0 then itemizedCharges rows
      else (analyticsMetrics rows).totalCharges := by
  simp only [analyticsMetrics, CostBreakdown.breakdown_self]
  rfl

theorem buildMetrics_charges :
    (buildMetrics rows).costBreakdown.totalCharges = itemizedCharges rows := by
  simp only [buildMetrics, sumCostBreakdowns, Charges.breakdown, if_pos, itemizedCharges, map_map]
  rfl

theorem charges_agree_iff :
    (analyticsMetrics rows).costBreakdown.totalCharges = (buildMetrics rows).costBreakdown.totalCharges ↔
      (buildMetrics rows).totalCharges = 0 ∨ (buildMetrics rows).totalCharges = itemizedCharges rows := by
  have htotal : (analyticsMetrics rows).totalCharges = (buildMetrics rows).totalCharges := rfl
  rw [analyticsMetrics_charges, buildMetrics_charges, htotal]
  by_cases h : (buildMetrics rows).totalCharges = 0
  · simp [h]
  · simp [h]

/-- The two implementations agree, and the figures mean what they are called. -/
structure MetricsAgree : Prop where
  grossPnl : (analyticsMetrics rows).grossPnl = (buildMetrics rows).grossPnl
  netPnl : (analyticsMetrics rows).netPnl = (buildMetrics rows).netPnl
  totalCharges : (analyticsMetrics rows).totalCharges = (buildMetrics rows).totalCharges
  winRate : (analyticsMetrics rows).winRate = (buildMetrics rows).winRate
  averageWin : (analyticsMetrics rows).averageWin = (buildMetrics rows).averageWin
  averageLoss : (analyticsMetrics rows).averageLoss = (buildMetrics rows).averageLoss
  profitFactor : (analyticsMetrics rows).profitFactor = (buildMetrics rows).profitFactor
  expectancy : (analyticsMetrics rows).expectancy = (buildMetrics rows).expectancy
  maxWinStreak : (analyticsMetrics rows).maxWinStreak = (buildMetrics rows).maxWinStreak
  maxLossStreak : (analyticsMetrics rows).maxLossStreak = (buildMetrics rows).maxLossStreak
  breakdownTotal : (analyticsMetrics rows).costBreakdown.totalCharges =
    (buildMetrics rows).costBreakdown.totalCharges
  expectancy_net : ∀ value ∈ (analyticsMetrics rows).expectancy,
    value * rows.length = (analyticsMetrics rows).netPnl
  win_block : IsLongestBlock (0 < ·) (netPnls rows) (analyticsMetrics rows).maxWinStreak
  loss_block : IsLongestBlock (· < 0) (netPnls rows) (analyticsMetrics rows).maxLossStreak
  breakdown_total : (analyticsMetrics rows).costBreakdown.totalCharges =
    (analyticsMetrics rows).totalCharges

/-- They do for the empty list alone: one win or loss is already a streak that the first does
not find, and episodes that all break even have an expectancy that it does not compute. -/
theorem metrics_agree_iff_empty : MetricsAgree rows ↔ rows = [] := by
  constructor
  · intro h
    have hzero := (streaks_agree_iff rows).mp ⟨h.maxWinStreak, h.maxLossStreak⟩
    rcases (expectancy_agree_iff rows).mp h.expectancy with hempty | ⟨hwins, -⟩
    · exact hempty
    · refine absurd (List.filter_eq_nil_iff.mpr fun pnl hpnl => ?_) hwins
      simp [hzero pnl hpnl]
  · rintro rfl
    obtain ⟨hgross, hnet, htotal, hrate, hwin, hloss, hfactor⟩ := sums_agree []
    obtain ⟨hwinBlock, hlossBlock⟩ := buildMetrics_streaks []
    exact
      { grossPnl := hgross
        netPnl := hnet
        totalCharges := htotal
        winRate := hrate
        averageWin := hwin
        averageLoss := hloss
        profitFactor := hfactor
        expectancy := (expectancy_agree_iff []).mpr (.inl rfl)
        maxWinStreak := rfl
        maxLossStreak := rfl
        breakdownTotal := (charges_agree_iff []).mpr (.inl rfl)
        expectancy_net := fun value hvalue => by cases hvalue
        win_block := hwinBlock
        loss_block := hlossBlock
        breakdown_total := by decide +kernel }

end Agreement

/-- One win of 100: a streak of 0 next to one of 1, and no expectancy next to one of 100. -/
theorem one_win_disagrees :
    let rows : List EpisodeOutcome := [{ episodeId := "e1", grossPnl := 100, netPnl := 100 }]
    (analyticsMetrics rows).maxWinStreak = 0 ∧ (buildMetrics rows).maxWinStreak = 1 ∧
      (analyticsMetrics rows).expectancy = none ∧ (buildMetrics rows).expectancy = some 100 ∧
      ¬ MetricsAgree rows := by
  refine ⟨by decide +kernel, by decide +kernel, by decide +kernel, by decide +kernel, fun h => ?_⟩
  exact absurd h.maxWinStreak (by decide +kernel)

end KiteAlgo.Journal
