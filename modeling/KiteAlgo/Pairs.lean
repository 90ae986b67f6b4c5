import KiteAlgo.Compiler
import KiteAlgo.Lib.Table
import Mathlib.Algebra.Order.Ring.Abs
import Mathlib.Algebra.Order.Ring.Rat

/-!
# KiteAlgo.Pairs

The value of a pair operand (`workflows/pairs.py`): from the newest bars of two instruments, and
for `relative_strength` from the bars a number of timeframes before.

Times are in microseconds, age limits in seconds.
-/

namespace KiteAlgo

open List Compile
/-- A bar of the history: its time and close, where it has them. -/
structure PairBar where
  ts : Option Int
  close : Option ℚ

structure PairResult where
  value : Option ℚ
  reason : Option String := none
  headTs : Option Int := none
  anchorTs : Option Int := none
  skewBars : Int := 0
  deriving DecidableEq

/-- The bars of a value: the newest of each leg and, for a strength, those at the anchor. -/
structure PairUse where
  left : Int × ℚ
  right : Int × ℚ
  anchors : Option ((Int × ℚ) × (Int × ℚ))
  skewBars : Int
  deriving DecidableEq

namespace PairUse

def bars (use : PairUse) : List (Int × ℚ) :=
  use.left :: use.right :: (use.anchors.map fun anchors => [anchors.1, anchors.2]).getD []

def value (use : PairUse) : ℚ :=
  match use.anchors with
  | none => use.left.2 / use.right.2
  | some (left, right) => (use.left.2 / left.2 - 1) * 100 - (use.right.2 / right.2 - 1) * 100

end PairUse

def barsBetween (a b step : Int) : Option Int :=
  if step ≤ 0 then none
  else if |a - b| % (step * 1000000) ≠ 0 then none
  else some (|a - b| / (step * 1000000))

/-- One bar of `_index_by_ts`: a bar after the cutoff is never taken. -/
def indexBar (cutoff : Int) (out : Dict Int ℚ) (bar : PairBar) : Dict Int ℚ :=
  match bar.ts, bar.close with
  | some ts, some close => if cutoff < ts then out else out.set ts close
  | _, _ => out

def indexByTs (bars : List PairBar) (cutoff : Int) : Dict Int ℚ := bars.foldl (indexBar cutoff) []

structure PairUnknown where
  reason : String
  headTs : Option Int := none
  anchorTs : Option Int := none
  deriving DecidableEq

/-- `resolve_pair` from the indexed bars to the bars of the value. -/
def selectBars (kind : PairComputation) (lookback skewLimit step cutoff : Int) (ageLimit : Option Int)
    (left right : Dict Int ℚ) : Except PairUnknown PairUse :=
  match left.keys.max?, right.keys.max? with
  | some leftTs, some rightTs =>
    match barsBetween leftTs rightTs step with
    | none => .error { reason := "pair_misaligned" }
    | some skew =>
      let head := max leftTs rightTs
      if skewLimit < skew then .error { reason := "pair_misaligned" }
      else if ageLimit.any fun limit => limit * 1000000 < cutoff - head then
        .error { reason := "pair_stale", headTs := some head }
      else
        match kind, left.get? leftTs, right.get? rightTs with
        | .pairRatio, numerator, some denominator =>
          if |denominator| < 1 / 1000000000000 then .error { reason := "pair_zero_denominator", headTs := some head }
          else
            match numerator with
            | some numerator => .ok ⟨(leftTs, numerator), (rightTs, denominator), none, skew⟩
            | none => .error { reason := "pair_missing", headTs := some head }
        | .relativeStrength, leftHead, rightHead =>
          if lookback ≤ 0 ∨ step ≤ 0 then .error { reason := "pair_insufficient_history", headTs := some head }
          else
            let anchor := head - lookback * step * 1000000
            match leftHead, rightHead, left.get? anchor, right.get? anchor with
            | some leftHead, some rightHead, some leftAnchor, some rightAnchor =>
              if |leftAnchor| < 1 / 1000000000000 ∨ |rightAnchor| < 1 / 1000000000000 then
                .error { reason := "pair_zero_denominator", headTs := some head, anchorTs := some anchor }
              else
                .ok ⟨(leftTs, leftHead), (rightTs, rightHead),
                  some ((anchor, leftAnchor), (anchor, rightAnchor)), skew⟩
            | some _, some _, _, _ => .error { reason := "pair_lookback_misaligned", headTs := some head, anchorTs := some anchor }
            | _, _, _, _ => .error { reason := "pair_missing", headTs := some head, anchorTs := some anchor }
        | .pairRatio, _, none => .error { reason := "pair_missing", headTs := some head }
  | _, _ => .error { reason := "pair_missing" }

variable {F : Type} [PyFloat F]

/-- `int(params.get(key) or 0)` of an integer parameter. -/
def intParam (params : Dict Key (PyVal F)) (key : String) : Int :=
  match params.get? (.str key) with
  | some (.int n) => n
  | _ => 0

/-- `params.get(key)` of a text parameter. -/
def textParam (params : Dict Key (PyVal F)) (key : String) : String :=
  match params.get? (.str key) with
  | some (.str text) => text
  | _ => ""

/-- The bars of the pair, with `recentBars` for the history: `none` where it raises. -/
def pairBars (operand : Operand F) (recentBars : String → String → Int → Option (List PairBar))
    (timeframe : String) (cutoff : Int) (ageLimit : Option Int) : Except PairUnknown PairUse :=
  let lookback := intParam operand.params "lookback"
  let skewLimit := intParam operand.params "max_skew_bars"
  let fetch := max 2 (lookback + 1 + skewLimit + 1)
  let instrument := textParam operand.params "instrument"
  let reference := textParam operand.params "reference"
  match Named.ofName? (E := PairComputation) (operand.name.getD ""), recentBars instrument timeframe fetch,
    recentBars reference timeframe fetch with
  | some kind, some left, some right =>
    if instrument = "" ∨ reference = "" then .error { reason := "pair_missing" }
    else selectBars kind lookback skewLimit (timeframeSeconds timeframe) cutoff ageLimit
      (indexByTs left cutoff) (indexByTs right cutoff)
  | _, _, _ => .error { reason := "pair_missing" }

def resolvePair (operand : Operand F) (recentBars : String → String → Int → Option (List PairBar))
    (timeframe : String) (cutoff : Int) (ageLimit : Option Int) : PairResult :=
  match pairBars operand recentBars timeframe cutoff ageLimit with
  | .error unknown =>
    { value := none, reason := some unknown.reason, headTs := unknown.headTs, anchorTs := unknown.anchorTs }
  | .ok use =>
    { value := some use.value
      headTs := some (max use.left.1 use.right.1)
      anchorTs := use.anchors.map fun anchors => anchors.1.1
      skewBars := use.skewBars }

/-! ## like with like -/

/-- No bar is from the future, no leg is old, and both returns are over the same timeframes. -/
structure PairUse.Compares (use : PairUse) (lookback step cutoff : Int) (ageLimit : Option Int) : Prop where
  past : ∀ bar ∈ use.bars, bar.1 ≤ cutoff
  fresh : ∀ limit ∈ ageLimit, cutoff - use.left.1 ≤ limit * 1000000 ∧ cutoff - use.right.1 ≤ limit * 1000000
  period : ∀ anchors ∈ use.anchors, use.left.1 = use.right.1 ∧ anchors.1.1 = anchors.2.1 ∧
    use.left.1 - anchors.1.1 = lookback * step * 1000000

theorem le_cutoff_of_mem_indexBar {cutoff : Int} {out : Dict Int ℚ} (hout : ∀ ts ∈ out.keys, ts ≤ cutoff)
    (bar : PairBar) : ∀ ts ∈ (indexBar cutoff out bar).keys, ts ≤ cutoff := by
  unfold indexBar
  split
  · split
    · exact hout
    · next hle =>
      intro ts hts
      rcases Table.mem_keys_set.mp hts with rfl | hts
      · exact not_lt.mp hle
      · exact hout ts hts
  · exact hout

theorem le_cutoff_of_mem_indexByTs {bars : List PairBar} {cutoff : Int} :
    ∀ ts ∈ (indexByTs bars cutoff).keys, ts ≤ cutoff :=
  foldlRecOn bars (indexBar cutoff) (motive := fun out => ∀ ts ∈ Dict.keys out, ts ≤ cutoff)
    (by simp [Dict.keys]) fun _ hout bar _ => le_cutoff_of_mem_indexBar hout bar

section Select

variable {kind : PairComputation} {lookback skewLimit step cutoff : Int} {ageLimit : Option Int}
  {left right : Dict Int ℚ} {use : PairUse}

/-- What the checks leave of the two newest bars and of the anchors. -/
structure Selected (kind : PairComputation) (lookback skewLimit step cutoff : Int) (ageLimit : Option Int)
    (left right : Dict Int ℚ) (use : PairUse) : Prop where
  left : use.left.1 ∈ left.keys
  right : use.right.1 ∈ right.keys
  between : barsBetween use.left.1 use.right.1 step = some use.skewBars
  skew : use.skewBars ≤ skewLimit
  age : ∀ limit ∈ ageLimit, cutoff - max use.left.1 use.right.1 ≤ limit * 1000000
  anchors : (kind = .pairRatio ∧ use.anchors = none) ∨ (0 < lookback ∧ 0 < step ∧ ∃ leftClose rightClose,
    use.anchors = some ((max use.left.1 use.right.1 - lookback * step * 1000000, leftClose),
      (max use.left.1 use.right.1 - lookback * step * 1000000, rightClose)))

theorem selected_of_selectBars
    (h : selectBars kind lookback skewLimit step cutoff ageLimit left right = .ok use) :
    Selected kind lookback skewLimit step cutoff ageLimit left right use := by
  unfold selectBars at h
  split at h
  case h_2 => cases h
  next leftTs rightTs hleft hright =>
  replace hleft := max?_mem hleft
  replace hright := max?_mem hright
  split at h
  · cases h
  next skew hbetween =>
  dsimp only at h
  split at h
  · cases h
  next hskew =>
  split at h
  · cases h
  next hage =>
  have hage : ∀ limit ∈ ageLimit, cutoff - max leftTs rightTs ≤ limit * 1000000 := by
    rintro limit rfl
    simpa using hage
  split at h
  · split at h
    · cases h
    · split at h
      · cases h
        exact ⟨hleft, hright, hbetween, not_lt.mp hskew, hage, .inl ⟨rfl, rfl⟩⟩
      · cases h
  · split at h
    · cases h
    · next hpositive =>
      split at h
      · split at h
        · cases h
        · cases h
          exact ⟨hleft, hright, hbetween, not_lt.mp hskew, hage, .inr ⟨by omega, by omega, _, _, rfl⟩⟩
      · cases h
      · cases h
  · cases h

theorem eq_of_barsBetween {a b bars : Int} (h : barsBetween a b step = some bars) (hbars : bars ≤ 0) : a = b := by
  unfold barsBetween at h
  split at h
  · cases h
  next hstep =>
  split at h
  · cases h
  next hgrid =>
  cases h
  have hdiv := Int.mul_ediv_add_emod |a - b| (step * 1000000)
  have hzero : |a - b| ≤ 0 := by
    rw [← hdiv, not_not.mp hgrid, add_zero]
    exact mul_nonpos_of_nonneg_of_nonpos (by omega) hbars
  exact sub_eq_zero.mp (abs_nonpos_iff.mp hzero)

theorem compares_iff_of_selected (h : Selected kind lookback skewLimit step cutoff ageLimit left right use)
    (hratio : kind = .pairRatio → skewLimit ≤ 0) (hleft : ∀ ts ∈ left.keys, ts ≤ cutoff)
    (hright : ∀ ts ∈ right.keys, ts ≤ cutoff) :
    use.Compares lookback step cutoff ageLimit ↔ use.left.1 = use.right.1 := by
  have hl := hleft _ h.left
  have hr := hright _ h.right
  rcases h.anchors with ⟨hkind, hnone⟩ | ⟨hlookback, hstep, leftClose, rightClose, hsome⟩
  · have heq := eq_of_barsBetween h.between (h.skew.trans (hratio hkind))
    refine ⟨fun _ => heq, fun _ => ⟨?_, fun limit hlimit => ?_, by simp [hnone]⟩⟩
    · simp [PairUse.bars, hnone, hl, hr]
    · have := h.age limit hlimit
      omega
  · refine ⟨fun hcompares => (hcompares.period _ hsome).1, fun heq => ⟨?_, fun limit hlimit => ?_, ?_⟩⟩
    · have : 0 < lookback * step := mul_pos hlookback hstep
      simp only [PairUse.bars, hsome, Option.map_some, Option.getD_some, mem_cons, not_mem_nil,
        or_false, forall_eq_or_imp, forall_eq, hl, hr, true_and, and_self]
      omega
    · have := h.age limit hlimit
      omega
    · rintro anchors hanchors
      obtain rfl := Option.some.inj (hsome.symm.trans hanchors)
      exact ⟨heq, rfl, by dsimp only; omega⟩

end Select

theorem skewLimit_of_accepted {operand : Operand F} {where_ : String}
    (haccepted : (validatePairOperand operand where_).passes)
    (hname : Named.ofName? (operand.name.getD "") = some PairComputation.pairRatio) :
    intParam operand.params "max_skew_bars" ≤ 0 := by
  unfold validatePairOperand validatePairParams at haccepted
  simp only [hname, Check.passes_all_cons, Bool.and_eq_true] at haccepted
  obtain ⟨_, hkeys, _⟩ := haccepted
  cases hskew : operand.params.get? (.str "max_skew_bars") with
  | none => simp [intParam, hskew]
  | some skew =>
    obtain ⟨_, hkey⟩ := Check.exists_passes_of_each hkeys (Dict.mem_of_get? hskew)
    rw [Check.passes_report] at hkey
    simp [PairComputation.requires, PairComputation.optional] at hkey

/-- The last two bars of an hour, and the first of them again. -/
def demoHistory (instrument _timeframe : String) (_limit : Int) : Option (List PairBar) :=
  let bars := [⟨some 0, some 100⟩, ⟨some 3600000000, some 110⟩, ⟨some 7200000000, some 121⟩]
  some (if instrument = "NSE:A" then bars else bars.take 2)

def demoPair (reference : String) (maxSkewBars : Int) : Operand ℚ :=
  { kind := .pair
    name := some "relative_strength"
    params := [(.str "instrument", .str "NSE:A"), (.str "reference", .str reference),
      (.str "lookback", .int 1), (.str "max_skew_bars", .int maxSkewBars)] }

end KiteAlgo
