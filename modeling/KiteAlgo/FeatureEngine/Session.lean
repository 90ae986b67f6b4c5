import Mathlib.Algebra.BigOperators.Group.List.Basic
import Mathlib.Tactic.Linarith
import Mathlib.Tactic.Ring
import KiteAlgo.Time
import KiteAlgo.FeatureEngine.Compute
import KiteAlgo.Features.Warmup

/-!
# KiteAlgo.FeatureEngine.Session

The session VWAP of a window.  `_compute` gives the kernel one session id for all bars, so its
totals run on over a change of session and end only at a bar that is not finite.
-/

namespace KiteAlgo

open List Option
namespace FeatureEngine

open Features

/-! ## the anchored price -/

section Anchored

variable {F : Type} [PyNumeric F]

omit [PyNumeric F] in
def session (bar : Bar F) : String := istDate bar.ts

omit [PyNumeric F] in
def lastSession (bars : List (Bar F)) : String := (bars.getLast?.map session).getD ""

/-- The typical prices and volumes of the bars after the last one that is not finite. -/
def finiteRun (bars : List (Bar F)) : List (F × F) :=
  (bars.rtakeWhile fun bar => (priced bar).isSome).filterMap priced

def barsOf (s : String) (bars : List (Bar F)) : List (Bar F) := bars.filter fun bar => session bar = s

/-- The bars up to the one that the offset reads. -/
def barsRead (spec : FeatureSpec F) (bars : List (Bar F)) : List (Bar F) :=
  bars.take (bars.length - spec.offset.toNat)

/-- A window with bars of other sessions than `s` left out or changed. -/
inductive Altered (s : String) : List (Bar F) → List (Bar F) → Prop
  | nil : Altered s [] []
  | keep (bar : Bar F) {bars bars' : List (Bar F)} (rest : Altered s bars bars') :
      Altered s (bar :: bars) (bar :: bars')
  | remove {bar : Bar F} {bars bars' : List (Bar F)} (other : session bar ≠ s)
      (rest : Altered s bars bars') : Altered s (bar :: bars) bars'
  | change {bar bar' : Bar F} {bars bars' : List (Bar F)} (other : session bar ≠ s)
      (time : bar'.ts = bar.ts) (rest : Altered s bars bars') :
      Altered s (bar :: bars) (bar' :: bars')

/-- Every bar of another session has a bar of session `s` after it that is not finite. -/
def Cleared (s : String) : List (Bar F) → Prop
  | [] => True
  | bar :: bars =>
    (session bar = s ∨ ∃ missing ∈ bars, session missing = s ∧ priced missing = none) ∧ Cleared s bars

instance instDecidableCleared (s : String) : (bars : List (Bar F)) → Decidable (Cleared s bars)
  | [] => inferInstanceAs (Decidable True)
  | bar :: bars =>
    haveI := instDecidableCleared s bars
    inferInstanceAs (Decidable ((session bar = s ∨
      ∃ missing ∈ bars, session missing = s ∧ priced missing = none) ∧ Cleared s bars))

end Anchored

/-- `sum(typical * volume) / sum(volume)`, unknown without volume. -/
def vwap (run : List (ℚ × ℚ)) : Option ℚ :=
  if (run.map Prod.snd).sum = 0 then none
  else some ((run.map fun e => e.1 * e.2).sum / (run.map Prod.snd).sum)

/-- The VWAP of the last bar's session after its last bar that is not finite. -/
def sessionVwap (bars : List (Bar ℚ)) : Option ℚ := vwap (finiteRun (barsOf (lastSession bars) bars))

/-- The number is the VWAP of the session of the bar that is read, whatever becomes of the bars of
other sessions before it. -/
def SessionAnchored (spec : FeatureSpec ℚ) (bars : List (Bar ℚ)) : Prop :=
  compute spec bars = sessionVwap (barsRead spec bars) ∧
    ∀ earlier, Altered (lastSession (barsRead spec bars)) (barsRead spec bars) earlier →
      compute spec (earlier ++ bars.drop (bars.length - spec.offset.toNat)) = compute spec bars

/-! ## the loop over one session -/

section Loop

variable {F : Type} [PyNumeric F]

theorem finiteRun_concat (bars : List (Bar F)) (bar : Bar F) :
    finiteRun (bars ++ [bar]) = (priced bar).elim [] fun e => finiteRun bars ++ [e] := by
  cases h : priced bar with
  | none => simp [finiteRun, h]
  | some e => simp [finiteRun, h]

theorem finiteRun_append {bars more : List (Bar F)} (h : ∀ bar ∈ more, priced bar ≠ none) :
    finiteRun (bars ++ more) = finiteRun bars ++ more.filterMap priced := by
  induction more using reverseRecOn with
  | nil => simp
  | append_singleton more bar ih =>
    obtain ⟨e, he⟩ := ne_none_iff_exists'.mp (h bar (by simp))
    have hmore : ∀ b ∈ more, priced b ≠ none := fun b hb => h b (by simp [hb])
    rw [← append_assoc, finiteRun_concat, he, ih hmore]
    simp [he]

/-- The totals with a bar of the same session. -/
def addBar (t : Totals F) (bar : Bar F) : Totals F := (priced bar).elim .zero t.add

theorem foldl_addBar (bars : List (Bar F)) :
    bars.foldl addBar .zero = (finiteRun bars).foldl Totals.add .zero := by
  induction bars using reverseRecOn with
  | nil => rfl
  | append_singleton bars bar ih =>
    rw [foldl_concat, finiteRun_concat, ih, addBar]
    cases priced bar with
    | none => rfl
    | some e => rw [elim_some, elim_some, foldl_concat]

theorem vwapFrom_getElem? (t : Totals F) (s : String) (before : List (Bar F)) (bar : Bar F)
    (after : List (Bar F)) :
    (vwapFrom t (some s) ((before ++ bar :: after).map fun bar => (bar, s)))[before.length]? =
      some ((priced bar).bind fun e => ((before.foldl addBar t).add e).price) := by
  induction before generalizing t with
  | nil =>
    rw [nil_append, map_cons, vwapFrom, if_pos rfl]
    cases priced bar <;> rfl
  | cons first before ih =>
    rw [cons_append, map_cons, vwapFrom, if_pos rfl, foldl_cons, length_cons]
    cases h : priced first with
    | none => rw [getElem?_cons_succ, ih, addBar, h]; rfl
    | some e => rw [getElem?_cons_succ, ih, addBar, h]; rfl

end Loop

theorem foldl_add (t : Totals ℚ) (run : List (ℚ × ℚ)) :
    run.foldl Totals.add t =
      ⟨t.numerator + (run.map fun e => e.1 * e.2).sum, t.denominator + (run.map Prod.snd).sum⟩ := by
  induction run generalizing t with
  | nil => simp
  | cons e run ih =>
    rw [foldl_cons, ih]
    simp only [Totals.add, PyFloat.add, PyFloat.mul, map_cons, sum_cons, add_assoc]

theorem price_foldl_add (run : List (ℚ × ℚ)) :
    (run.foldl Totals.add .zero).price = vwap run := by
  rw [foldl_add, Totals.price, vwap]
  simp [Totals.zero, PyNumeric.ofNat, PyFloat.eqQ, PyFloat.div]

/-! ## the number of a window -/

section Window

variable {spec : FeatureSpec ℚ}

theorem series_vwapSession (hf : spec.function = "vwap_session") (bars : List (Bar ℚ)) :
    series spec bars = .ok (some (vwapFrom .zero (some "s") (bars.map fun bar => (bar, "s")))) := by
  have hname : Named.ofName? spec.function = some FeatureFunction.vwapSession := by
    rw [hf]
    decide +kernel
  have hzip : bars.zip (replicate bars.length "s") = bars.map fun bar => (bar, "s") := by
    induction bars with
    | nil => rfl
    | cons bar bars ih => rw [length_cons, replicate_succ, zip_cons_cons, ih, map_cons]
  have hstart : ∀ xs : List (Bar ℚ × String),
      vwapFrom Totals.zero none xs = vwapFrom Totals.zero (some "s") xs := by
    intro xs
    cases xs with
    | nil => rfl
    | cons x xs => simp [vwapFrom]
  unfold series
  rw [hname]
  simp [vwapSession, hzip, hstart]

theorem valueAt_eq (values : List (Option ℚ)) (offset : Int) :
    valueAt values offset = if values.length ≤ offset.toNat then none
      else values[values.length - 1 - offset.toNat]?.join := by
  have hmax : max 0 offset = offset.toNat := by omega
  have hfinite : ∀ v : Option ℚ, v.filter PyFloat.isFinite = v := by
    intro v
    cases v <;> rfl
  unfold valueAt
  simp only [hmax]
  by_cases hle : values.length ≤ offset.toNat
  · rw [if_pos hle, if_pos (by omega)]
  · rw [if_neg hle, if_neg (by omega), hfinite]
    congr 2
    omega

theorem compute_vwapSession (hf : spec.function = "vwap_session") (bars : List (Bar ℚ)) :
    compute spec bars =
      valueAt (vwapFrom .zero (some "s") (bars.map fun bar => (bar, "s"))) spec.offset := by
  rw [compute, series_vwapSession hf]

theorem compute_of_length_le (hf : spec.function = "vwap_session") {bars : List (Bar ℚ)}
    (hlength : bars.length ≤ spec.offset.toNat) : compute spec bars = none := by
  rw [compute_vwapSession hf, valueAt_eq, length_vwapFrom, length_map, if_pos hlength]

theorem compute_append (hf : spec.function = "vwap_session") {bars after : List (Bar ℚ)}
    (hafter : after.length = spec.offset.toNat) :
    compute spec (bars ++ after) = vwap (finiteRun bars) := by
  induction bars using reverseRecOn with
  | nil =>
    rw [nil_append, compute_of_length_le hf (Nat.le_of_eq hafter)]
    rfl
  | append_singleton before bar =>
    rw [compute_vwapSession hf, valueAt_eq, length_vwapFrom, length_map, if_neg (by simp; omega),
      append_assoc, singleton_append]
    have hindex : (before ++ bar :: after).length - 1 - spec.offset.toNat = before.length := by
      rw [length_append, length_cons]
      omega
    rw [hindex, vwapFrom_getElem?, foldl_addBar, finiteRun_concat]
    cases priced bar with
    | none => rfl
    | some e =>
      rw [elim_some, ← price_foldl_add, foldl_concat]
      rfl

end Window

/-! ## windows whose other sessions end before a missing bar -/

section Cleared

variable {F : Type} [PyNumeric F] {s : String}

theorem cleared_concat (bars : List (Bar F)) (bar : Bar F) :
    Cleared s (bars ++ [bar]) ↔ session bar = s ∧ (priced bar = none ∨ Cleared s bars) := by
  induction bars with
  | nil => simp [Cleared]
  | cons first bars ih =>
    simp only [cons_append, Cleared, ih, mem_append, mem_singleton]
    grind

variable {bars : List (Bar F)}

theorem finiteRun_barsOf (h : Cleared s bars) : finiteRun (barsOf s bars) = finiteRun bars := by
  induction bars using reverseRecOn with
  | nil => rfl
  | append_singleton bars bar ih =>
    obtain ⟨hsession, hrest⟩ := (cleared_concat bars bar).mp h
    have hbarsOf : barsOf s (bars ++ [bar]) = barsOf s bars ++ [bar] := by
      simp [barsOf, hsession]
    rw [hbarsOf, finiteRun_concat, finiteRun_concat]
    cases hpriced : priced bar with
    | none => rfl
    | some e =>
      have hcleared : Cleared s bars := hrest.resolve_left (by rw [hpriced]; exact some_ne_none e)
      rw [elim_some, elim_some, ih hcleared]

variable {bars' : List (Bar F)}

omit [PyNumeric F] in
theorem Altered.barsOf_eq (h : Altered s bars bars') : barsOf s bars' = barsOf s bars := by
  induction h with
  | nil => rfl
  | keep bar rest ih => simp only [barsOf, filter_cons] at ih ⊢; rw [ih]
  | remove other rest ih =>
    rw [ih, barsOf, barsOf, filter_cons_of_neg (by simpa using other)]
  | @change bar bar' _ _ other time rest ih =>
    have hother : session bar' ≠ s := by rwa [session, time]
    rw [barsOf, barsOf, filter_cons_of_neg (by simpa using hother),
      filter_cons_of_neg (by simpa using other)]
    exact ih

theorem Altered.cleared (h : Altered s bars bars') (hcleared : Cleared s bars) :
    Cleared s bars' := by
  have hmissing : ∀ {bars bars' : List (Bar F)}, Altered s bars bars' →
      (∃ missing ∈ bars, session missing = s ∧ priced missing = none) →
      ∃ missing ∈ bars', session missing = s ∧ priced missing = none := by
    intro bars bars' h ⟨missing, hmem, hsession, hnone⟩
    have hof : missing ∈ barsOf s bars := mem_filter.mpr ⟨hmem, by simpa using hsession⟩
    rw [← h.barsOf_eq] at hof
    exact ⟨missing, (mem_filter.mp hof).1, hsession, hnone⟩
  induction h with
  | nil => exact trivial
  | keep bar rest ih => exact ⟨hcleared.1.imp_right (hmissing rest), ih hcleared.2⟩
  | remove other rest ih => exact ih hcleared.2
  | change other time rest ih =>
    exact ⟨.inr (hmissing rest (hcleared.1.resolve_left other)), ih hcleared.2⟩

omit [PyNumeric F] in
theorem altered_barsOf (bars : List (Bar F)) : Altered s bars (barsOf s bars) := by
  induction bars with
  | nil => exact .nil
  | cons bar bars ih =>
    by_cases h : session bar = s
    · rw [barsOf, filter_cons_of_pos (by simpa using h)]
      exact .keep bar ih
    · rw [barsOf, filter_cons_of_neg (by simpa using h)]
      exact .remove h ih

omit [PyNumeric F] in
theorem Altered.append {more more' : List (Bar F)} (h : Altered s bars bars')
    (hmore : Altered s more more') : Altered s (bars ++ more) (bars' ++ more') := by
  induction h with
  | nil => exact hmore
  | keep bar rest ih => exact .keep bar ih
  | remove other rest ih => exact .remove other ih
  | change other time rest ih => exact .change other time ih

theorem exists_of_not_cleared (h : ¬ Cleared s bars) :
    ∃ before bar after, bars = before ++ bar :: after ∧ session bar ≠ s ∧
      ∀ b ∈ barsOf s after, priced b ≠ none := by
  induction bars with
  | nil => exact absurd trivial h
  | cons bar bars ih =>
    by_cases hrest : Cleared s bars
    · refine ⟨[], bar, bars, rfl, fun hsession => h ⟨.inl hsession, hrest⟩, fun b hb hnone => ?_⟩
      obtain ⟨hmem, hsession⟩ := mem_filter.mp hb
      exact h ⟨.inr ⟨b, hmem, of_decide_eq_true hsession, hnone⟩, hrest⟩
    · obtain ⟨before, other, after, rfl, hother, hafter⟩ := ih hrest
      exact ⟨bar :: before, other, after, rfl, hother, hafter⟩

end Cleared

def flatBar (ts : Int) (price volume : ℚ) : Bar ℚ :=
  { ts, high := some price, low := some price, close := some price, volume := some volume }

theorem priced_flatBar (ts : Int) (price volume : ℚ) :
    priced (flatBar ts price volume) = some (price, volume) := by
  have hthird : (price + price + price) / 3 = price := by ring
  simp only [priced, flatBar, barFloat, PyFloat.isFinite, filter_some, if_true, bind_eq_bind,
    bind_some, PyFloat.add, PyFloat.div, PyFloat.three]
  rw [hthird]

theorem vwap_ne_of_price (run more : List (ℚ × ℚ)) :
    ∃ volume : ℚ, vwap (run ++ (1, volume) :: more) ≠ vwap (run ++ (2, volume) :: more) := by
  generalize hD : (run.map Prod.snd).sum + (more.map Prod.snd).sum = D
  refine ⟨|D| + 1, ?_⟩
  have hpos : 0 < D + (|D| + 1) := by linarith [neg_abs_le D]
  have hvolume : ∀ price : ℚ,
      ((run ++ (price, |D| + 1) :: more).map Prod.snd).sum = D + (|D| + 1) := by
    intro price
    rw [← hD]
    simp only [map_append, map_cons, sum_append, sum_cons]
    ring
  rw [vwap, vwap, hvolume, hvolume, if_neg hpos.ne', if_neg hpos.ne']
  intro heq
  have hnumerator := (div_left_inj' hpos.ne').mp (some.inj heq)
  simp only [map_append, map_cons, sum_append, sum_cons] at hnumerator
  linarith [abs_nonneg D]

section Sessions

variable {spec : FeatureSpec ℚ}

theorem cleared_of_vwap_eq {s : String} {bars : List (Bar ℚ)}
    (h : ∀ earlier, Altered s bars earlier → vwap (finiteRun earlier) = vwap (finiteRun bars)) :
    Cleared s bars := by
  by_contra hcleared
  obtain ⟨before, bar, after, rfl, hother, hafter⟩ := exists_of_not_cleared hcleared
  obtain ⟨volume, hmoves⟩ :=
    vwap_ne_of_price (finiteRun (barsOf s before)) ((barsOf s after).filterMap priced)
  -- the other sessions are left out except for this bar, at two prices
  have hprice : ∀ price : ℚ,
      vwap (finiteRun (barsOf s before) ++ (price, volume) :: (barsOf s after).filterMap priced) =
        vwap (finiteRun (before ++ bar :: after)) := by
    intro price
    have haltered : Altered s (before ++ bar :: after)
        (barsOf s before ++ flatBar bar.ts price volume :: barsOf s after) :=
      (altered_barsOf before).append (.change hother rfl (altered_barsOf after))
    have hfinite : ∀ b ∈ flatBar bar.ts price volume :: barsOf s after, priced b ≠ none := by
      intro b hb
      rcases mem_cons.mp hb with rfl | hb
      · rw [priced_flatBar]
        exact some_ne_none _
      · exact hafter b hb
    rw [← h _ haltered, finiteRun_append hfinite, filterMap_cons_some (priced_flatBar _ _ _)]
  exact hmoves ((hprice 1).trans (hprice 2).symm)

/-- The number of a `vwap_session` is anchored in the session of the bar that is read exactly when
each bar of another session is followed by a bar of that session that is not finite. -/
theorem sessionAnchored_iff (hf : spec.function = "vwap_session") (bars : List (Bar ℚ)) :
    SessionAnchored spec bars ↔ Cleared (lastSession (barsRead spec bars)) (barsRead spec bars) := by
  by_cases hlength : bars.length ≤ spec.offset.toNat
  · have hread : barsRead spec bars = [] := by
      rw [barsRead, Nat.sub_eq_zero_of_le hlength, List.take_zero]
    rw [SessionAnchored, hread, compute_of_length_le hf hlength]
    refine iff_of_true ⟨rfl, fun earlier hearlier => ?_⟩ trivial
    cases hearlier
    rw [Nat.sub_eq_zero_of_le hlength, List.nil_append, List.drop_zero, compute_of_length_le hf hlength]
  · have hafter : (bars.drop (bars.length - spec.offset.toNat)).length = spec.offset.toNat := by
      rw [List.length_drop]
      omega
    have hcompute : compute spec bars = vwap (finiteRun (barsRead spec bars)) := by
      rw [← compute_append hf hafter, barsRead, List.take_append_drop]
    simp only [SessionAnchored, compute_append hf hafter, hcompute, sessionVwap]
    constructor
    · exact fun h => cleared_of_vwap_eq h.2
    · intro hcleared
      refine ⟨by rw [finiteRun_barsOf hcleared], fun earlier hearlier => ?_⟩
      rw [← finiteRun_barsOf (hearlier.cleared hcleared), hearlier.barsOf_eq, finiteRun_barsOf hcleared]

end Sessions

/-! ## two days -/

/-- A `vwap_session` feature. -/
def vwapSpec : FeatureSpec ℚ := { function := "vwap_session", params := [] }

/-- A trade at 100 on one day and at 200 on the next. -/
def twoDays : List (Bar ℚ) := [flatBar 1704067200000000 100 1, flatBar 1704153600000000 200 1]

/-- A bar without numbers on the second day, then the trade of that day. -/
def clearedDays : List (Bar ℚ) :=
  [flatBar 1704067200000000 100 1, { ts := 1704153600000000 }, flatBar 1704153660000000 200 1]

/-- The totals of the first day end at the bar without numbers. -/
theorem clearedDays_anchored : SessionAnchored vwapSpec clearedDays :=
  (sessionAnchored_iff rfl clearedDays).mpr (by decide +kernel)

/-- The price of the second day takes in the first. -/
theorem twoDays_mixed :
    compute vwapSpec twoDays = some 150 ∧ sessionVwap (barsRead vwapSpec twoDays) = some 200 ∧
      ¬ SessionAnchored vwapSpec twoDays := by
  have hmixed : compute vwapSpec twoDays = some 150 := by decide +kernel
  have hanchored : sessionVwap (barsRead vwapSpec twoDays) = some 200 := by decide +kernel
  refine ⟨hmixed, hanchored, fun h => ?_⟩
  have heq := h.1
  rw [hmixed, hanchored] at heq
  exact absurd heq (by decide +kernel)

end FeatureEngine

end KiteAlgo
