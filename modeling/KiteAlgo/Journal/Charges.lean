import KiteAlgo.Journal.Analytics

/-!
# KiteAlgo.Journal.Charges

The charges of an episode.  A fill has itemized charges, or the older fees, taxes and slippage.
`build_episode_outcome` chooses between the two once for the episode, and
`_cost_breakdown_from_fact` once for each fill.
-/

namespace KiteAlgo.Journal

open List Charges
/-- The amounts of an execution fact; a missing one is zero. -/
structure FactAmounts extends Charges where
  grossCashFlow : ℚ := 0
  feesAmount : ℚ := 0
  taxesAmount : ℚ := 0
  slippageAmount : ℚ := 0
  deriving DecidableEq

namespace FactAmounts

def itemized (fact : FactAmounts) : ℚ :=
  fact.brokerage + fact.exchangeTxnCharge + fact.stt + fact.stampDuty + fact.sebiCharge + fact.gst

def legacy (fact : FactAmounts) : ℚ := fact.feesAmount + fact.taxesAmount + fact.slippageAmount

end FactAmounts

def costBreakdownFromFact (fact : FactAmounts) : CostBreakdown :=
  fact.toCharges.breakdown 0 (if fact.itemized = 0 then fact.legacy else fact.itemized)

structure EpisodeSums where
  grossPnl : ℚ := 0
  itemized : CostBreakdown := Charges.breakdown {}
  legacyTotalCharges : ℚ := 0

def EpisodeSums.add (s : EpisodeSums) (fact : FactAmounts) : EpisodeSums where
  grossPnl := s.grossPnl + fact.grossCashFlow
  itemized := Charges.breakdown
    { brokerage := s.itemized.brokerage + fact.brokerage
      exchangeTxnCharge := s.itemized.exchangeTxnCharge + fact.exchangeTxnCharge
      stt := s.itemized.stt + fact.stt
      stampDuty := s.itemized.stampDuty + fact.stampDuty
      sebiCharge := s.itemized.sebiCharge + fact.sebiCharge
      gst := s.itemized.gst + fact.gst }
  legacyTotalCharges := s.legacyTotalCharges + fact.legacy

/-- The identifier and the times, in microseconds, of the episode. -/
structure EpisodeTimes where
  id : String := ""
  openedAt : Option Int := none
  closedAt : Option Int := none

def EpisodeTimes.holdSeconds (episode : EpisodeTimes) : Int :=
  match episode.openedAt, episode.closedAt with
  | some openedAt, some closedAt => max 0 ((closedAt - openedAt).tdiv 1000000)
  | _, _ => 0

def buildEpisodeOutcome (episode : EpisodeTimes) (facts : List FactAmounts) : EpisodeOutcome :=
  let s := facts.foldl EpisodeSums.add {}
  let totalCharges := if s.itemized.totalCharges ≠ 0 then s.itemized.totalCharges else s.legacyTotalCharges
  { episodeId := episode.id
    grossPnl := s.grossPnl
    netPnl := s.grossPnl - totalCharges
    totalCharges := totalCharges
    realizedPnl := s.grossPnl
    holdSeconds := episode.holdSeconds
    costBreakdown :=
      if s.itemized.totalCharges = 0 ∧ s.legacyTotalCharges ≠ 0 then
        Charges.breakdown {} 0 s.legacyTotalCharges
      else s.itemized }

/-! ## what is left out -/

/-- The older charges of the fills without itemized ones, which an episode with itemized charges
leaves out; without them it counts the older charges of the other fills as well. -/
def leftOut (facts : List FactAmounts) : ℚ :=
  if (facts.map FactAmounts.itemized).sum = 0 then
    -((facts.filter fun fact => fact.itemized ≠ 0).map FactAmounts.legacy).sum
  else ((facts.filter fun fact => fact.itemized = 0).map FactAmounts.legacy).sum

variable (facts : List FactAmounts)

theorem totalCharges_costBreakdownFromFact (fact : FactAmounts) :
    (costBreakdownFromFact fact).totalCharges =
      if fact.itemized = 0 then fact.legacy else fact.itemized := by
  have hderived : fact.toCharges.derivedTotal = fact.itemized := by
    simp only [derivedTotal, derivedTaxes, FactAmounts.itemized]
    ring
  simp only [costBreakdownFromFact, breakdown, hderived]
  grind

theorem foldl_add (s : EpisodeSums) :
    (facts.foldl EpisodeSums.add s).grossPnl = s.grossPnl + (facts.map FactAmounts.grossCashFlow).sum ∧
    (facts.foldl EpisodeSums.add s).itemized.toCharges.derivedTotal =
      s.itemized.toCharges.derivedTotal + (facts.map FactAmounts.itemized).sum ∧
    (facts.foldl EpisodeSums.add s).legacyTotalCharges =
      s.legacyTotalCharges + (facts.map FactAmounts.legacy).sum := by
  induction facts generalizing s with
  | nil => simp
  | cons fact facts ih =>
    obtain ⟨hgross, hitemized, hlegacy⟩ := ih (s.add fact)
    rw [foldl_cons, hgross, hitemized, hlegacy]
    simp only [map_cons, sum_cons, EpisodeSums.add, breakdown, derivedTotal,
      derivedTaxes, FactAmounts.itemized]
    exact ⟨by ring, by ring, by ring⟩

theorem totalCharges_breakdown (c : Charges) : c.breakdown.totalCharges = c.derivedTotal := by
  simp [breakdown]

theorem totalCharges_foldl (s : EpisodeSums)
    (h : s.itemized.totalCharges = s.itemized.toCharges.derivedTotal) :
    (facts.foldl EpisodeSums.add s).itemized.totalCharges =
      (facts.foldl EpisodeSums.add s).itemized.toCharges.derivedTotal := by
  induction facts generalizing s with
  | nil => exact h
  | cons fact facts ih => exact ih (s.add fact) (totalCharges_breakdown _)

theorem totalCharges_buildEpisodeOutcome (episode : EpisodeTimes) :
    (buildEpisodeOutcome episode facts).totalCharges =
      if (facts.map FactAmounts.itemized).sum = 0 then (facts.map FactAmounts.legacy).sum
      else (facts.map FactAmounts.itemized).sum := by
  obtain ⟨-, hitemized, hlegacy⟩ := foldl_add facts {}
  have htotal := totalCharges_foldl facts {} (totalCharges_breakdown {})
  have hzero : ({} : EpisodeSums).itemized.toCharges.derivedTotal = 0 := by decide +kernel
  rw [hitemized, hzero, zero_add] at htotal
  simp only [buildEpisodeOutcome, htotal, hlegacy, zero_add, ne_eq, ite_not]

theorem sum_legacy : (facts.map FactAmounts.legacy).sum =
    ((facts.filter fun fact => fact.itemized = 0).map FactAmounts.legacy).sum +
      ((facts.filter fun fact => fact.itemized ≠ 0).map FactAmounts.legacy).sum := by
  induction facts with
  | nil => simp
  | cons fact facts ih =>
    rw [map_cons, sum_cons, ih, filter_cons, filter_cons]
    by_cases h : fact.itemized = 0
    · simp [h, add_assoc]
    · simp [h, add_left_comm]

theorem sum_costBreakdowns (episode : EpisodeTimes) :
    (facts.map fun fact => (costBreakdownFromFact fact).totalCharges).sum =
      (buildEpisodeOutcome episode facts).totalCharges + leftOut facts := by
  have hsplit : (facts.map fun fact => (costBreakdownFromFact fact).totalCharges).sum =
      (facts.map FactAmounts.itemized).sum +
        ((facts.filter fun fact => fact.itemized = 0).map FactAmounts.legacy).sum := by
    induction facts with
    | nil => simp
    | cons fact facts ih =>
      rw [map_cons, sum_cons, ih, totalCharges_costBreakdownFromFact]
      by_cases h : fact.itemized = 0
      · simp [h]
        ring
      · simp [h]
        ring
  rw [hsplit, totalCharges_buildEpisodeOutcome, leftOut]
  split
  · next h =>
    rw [h, sum_legacy facts]
    ring
  · rfl

theorem netPnl_buildEpisodeOutcome (episode : EpisodeTimes) :
    (buildEpisodeOutcome episode facts).netPnl =
      (facts.map FactAmounts.grossCashFlow).sum - (buildEpisodeOutcome episode facts).totalCharges := by
  obtain ⟨hgross, -⟩ := foldl_add facts {}
  rw [← zero_add (facts.map FactAmounts.grossCashFlow).sum, ← hgross]
  rfl

variable {facts}

theorem episode_charges_add_iff {first second : List FactAmounts} (hsplit : facts.Perm (first ++ second))
    (episode : EpisodeTimes) :
    ((buildEpisodeOutcome episode facts).totalCharges =
        (facts.map fun fact => (costBreakdownFromFact fact).totalCharges).sum ∧
      (buildEpisodeOutcome episode first).netPnl + (buildEpisodeOutcome episode second).netPnl =
        (buildEpisodeOutcome episode facts).netPnl) ↔
    leftOut facts = 0 ∧ leftOut first + leftOut second = 0 := by
  have hgross := (hsplit.map FactAmounts.grossCashFlow).sum_eq
  have hcharges := (hsplit.map fun fact => (costBreakdownFromFact fact).totalCharges).sum_eq
  rw [List.map_append, List.sum_append] at hgross hcharges
  simp only [sum_costBreakdowns _ episode] at hcharges ⊢
  simp only [netPnl_buildEpisodeOutcome]
  constructor
  · rintro ⟨hall, hnet⟩
    exact ⟨by linarith, by linarith⟩
  · rintro ⟨hall, hparts⟩
    exact ⟨by linarith, by linarith⟩

/-- A fill with a brokerage of one and a fill with a fee of one. -/
def mixedFills : List FactAmounts := [{ brokerage := 1 }, { feesAmount := 1 }]

theorem episode_charges_add_uniform :
    (buildEpisodeOutcome {} [{ brokerage := 1 }, { gst := 2 }]).totalCharges =
        ([{ brokerage := 1 }, { gst := 2 }].map fun fact => (costBreakdownFromFact fact).totalCharges).sum ∧
      (buildEpisodeOutcome {} [{ gst := 2 }]).netPnl + (buildEpisodeOutcome {} [{ brokerage := 1 }]).netPnl =
        (buildEpisodeOutcome {} [{ brokerage := 1 }, { gst := 2 }]).netPnl :=
  (episode_charges_add_iff (.swap _ _ _) {}).mpr (by decide +kernel)

theorem mixed_episode_drops_fee :
    ¬ ∀ facts : List FactAmounts, (buildEpisodeOutcome {} facts).totalCharges =
      (facts.map fun fact => (costBreakdownFromFact fact).totalCharges).sum := by
  intro h
  have hmixed := h mixedFills
  rw [sum_costBreakdowns mixedFills {}] at hmixed
  have hleft : leftOut mixedFills = 1 := by decide +kernel
  linarith

end KiteAlgo.Journal
