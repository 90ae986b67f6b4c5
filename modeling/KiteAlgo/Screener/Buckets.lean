import KiteAlgo.Parser.RoundTrip
import KiteAlgo.Time
import Mathlib.Tactic.LinearCombination
import Mathlib.Tactic.Linarith
import Mathlib.Tactic.Positivity
import Mathlib.Tactic.Ring

/-!
# KiteAlgo.Screener.Buckets

The schedule grid of scheduled scans (`compute_screener_bucket`).  The bucket of a schedule with a
clock time is anchored anew each day and stepped back by the period, so the grids of two days are one
only if the period divides a day (`gridSpaced_iff`).
-/

namespace KiteAlgo.Buckets

open Parse Option

variable {F : Type} [PyFloat F]

/-! ## the bucket of a time -/

/-- The clock time of `at`, as hours and minutes. -/
def clockOf (at_ : String) : Except String (Int × Int) :=
  match Text.split (if at_ ≠ "session_close" then at_ else "15:30") ':' with
  | [hours, minutes] =>
    match Text.intOf? hours, Text.intOf? minutes with
    | some h, some m => .ok (h, m)
    | _, _ => .error "ValueError"
  | _ => .error "ValueError"

/-- The clock time on a day, which is counted from the epoch. -/
def candidateOn (clock : Int × Int) (day : Int) : Int :=
  day * microsPerDay + (clock.1 * 60 + clock.2) * 60 * microsPerSecond - istOffset

theorem microsPerDay_pos : 0 < microsPerDay := by decide

/-- The latest of these times at or before `now`, from a day on backwards. -/
def latestCandidate (clock : Int × Int) (now day : Int) : Int :=
  if candidateOn clock day ≤ now then candidateOn clock day else latestCandidate clock now (day - 1)
termination_by (candidateOn clock day - now).toNat
decreasing_by
  have := microsPerDay_pos
  simp only [candidateOn, sub_mul] at *
  omega

def firstCandidate (period : Int) (at_ : Option String) (now : Int) : Except String Int :=
  match at_ with
  | none => .ok (now / period * period)
  | some at_ =>
    (clockOf at_).map fun clock => latestCandidate clock now ((now + istOffset) / microsPerDay)

/-- The first time of the walk at which a session is active. -/
def walkBack (active : Int → Bool) (period : Int) : Nat → Int → Option Int
  | 0, _ => none
  | steps + 1, candidate =>
    if active candidate then some candidate else walkBack active period steps (candidate - period)

/-- `compute_screener_bucket`; without a gate every time is in a session. -/
def computeScreenerBucket (every : Int) (at_ : Option String) (now : Int) (gate : Option (Int → Bool)) :
    Except String (Option Int) := do
  let candidate ← firstCandidate (every * microsPerSecond) at_ now
  return walkBack (fun candidate => gate.all (· candidate)) (every * microsPerSecond) 41 candidate

/-- Later times have later buckets, at least a period apart, each in a session and not in the future. -/
def GridSpaced (every : Int) (at_ : Option String) : Prop :=
  ∀ (gate : Option (Int → Bool)) (now1 now2 b1 b2 : Int), now1 ≤ now2 →
    computeScreenerBucket every at_ now1 gate = .ok (some b1) →
    computeScreenerBucket every at_ now2 gate = .ok (some b2) →
    b1 ≤ now1 ∧ gate.all (· b1) = true ∧ b1 ≤ b2 ∧ (b1 = b2 ∨ every * microsPerSecond ≤ b2 - b1)

variable {active : Int → Bool} {b period : Int}

theorem walkBack_eq_some {n : Nat} {c : Int} :
    walkBack active period n c = some b ↔ ∃ j < n, b = c - j * period ∧ active b ∧
      ∀ i < j, active (c - i * period) = false := by
  induction n generalizing c with
  | zero => simp [walkBack]
  | succ n ih =>
    rw [walkBack]
    split
    · next h =>
        simp only [some.injEq]
        refine ⟨fun heq => ⟨0, by simp, by simp [heq], heq ▸ h, by simp⟩, fun ⟨j, _, hb, _, hall⟩ => ?_⟩
        cases j with
        | zero => simpa using hb.symm
        | succ j => simpa [h] using hall 0 (by simp)
    · next h =>
        have hstep : ∀ i : Nat, c - period - i * period = c - (i + 1 : Nat) * period := fun i => by
          push_cast
          ring
        rw [ih]
        constructor
        · rintro ⟨j, hj, hb, hactive, hall⟩
          refine ⟨j + 1, by omega, by rw [hb, hstep], hactive, fun i hi => ?_⟩
          cases i with
          | zero => simpa using h
          | succ i => rw [← hstep]; exact hall i (by omega)
        · rintro ⟨j, hj, hb, hactive, hall⟩
          cases j with
          | zero => simp_all
          | succ j =>
            refine ⟨j, by omega, by rw [hb, hstep], hactive, fun i hi => ?_⟩
            rw [hstep]
            exact hall (i + 1) (by omega)

theorem walkBack_mono {b1 b2 c1 c2 : Int} (hperiod : 0 < period) (hle : c1 ≤ c2)
    (hdvd : period ∣ c2 - c1) (h1 : walkBack active period 41 c1 = some b1)
    (h2 : walkBack active period 41 c2 = some b2) : b1 ≤ b2 ∧ (b1 = b2 ∨ period ≤ b2 - b1) := by
  obtain ⟨j1, -, rfl, hactive, -⟩ := walkBack_eq_some.mp h1
  obtain ⟨j2, -, rfl, -, hall⟩ := walkBack_eq_some.mp h2
  obtain ⟨n, hn⟩ := hdvd
  have hn0 : 0 ≤ n := by nlinarith
  lift n to Nat using hn0
  have hj : j2 ≤ n + j1 := by
    by_contra h
    have := hall (n + j1) (by omega)
    rw [show c2 - ((n + j1 : Nat) : Int) * period = c1 - j1 * period by push_cast; linarith, hactive] at this
    cases this
  obtain ⟨d, hd⟩ := Nat.exists_eq_add_of_le hj
  have hdiff : c2 - j2 * period - (c1 - j1 * period) = d * period := by
    have : (n : Int) + j1 = j2 + d := by exact_mod_cast hd
    linear_combination hn + period * this
  cases d with
  | zero =>
    simp only [Nat.cast_zero, zero_mul] at hdiff
    omega
  | succ d =>
    have := Int.mul_nonneg (Int.natCast_nonneg d) hperiod.le
    push_cast at hdiff
    rw [add_mul] at hdiff
    omega

/-! ## the anchors -/

variable {clock : Int × Int}

theorem latestCandidate_spec {now day : Int} (h : now < candidateOn clock (day + 1)) :
    (∃ k, latestCandidate clock now day = candidateOn clock k) ∧
      latestCandidate clock now day ≤ now ∧ now < latestCandidate clock now day + microsPerDay := by
  induction day using latestCandidate.induct clock now with
  | case1 day hle =>
    rw [latestCandidate, if_pos hle]
    refine ⟨⟨day, rfl⟩, hle, ?_⟩
    simp only [candidateOn, add_mul] at *
    omega
  | case2 day hgt ih =>
    rw [latestCandidate, if_neg hgt]
    exact ih (by rw [sub_add_cancel]; omega)

variable {t : String}

theorem firstCandidate_eq (hclock : clockOf t = .ok clock) (hnonneg : 0 ≤ clock.1 ∧ 0 ≤ clock.2)
    (period now : Int) :
    ∃ k, firstCandidate period (some t) now = .ok (candidateOn clock k) ∧ candidateOn clock k ≤ now ∧ now < candidateOn clock k + microsPerDay := by
  have hnext : now < candidateOn clock ((now + istOffset) / microsPerDay + 1) := by
    have := Int.lt_ediv_add_one_mul_self (now + istOffset) microsPerDay_pos
    have : (0 : Int) ≤ (clock.1 * 60 + clock.2) * 60 * microsPerSecond := by
      have : (0 : Int) < microsPerSecond := by decide
      have := hnonneg.1
      have := hnonneg.2
      positivity
    simp only [candidateOn]
    omega
  obtain ⟨⟨k, hk⟩, hspec⟩ := latestCandidate_spec hnext
  refine ⟨k, ?_, hk ▸ hspec⟩
  rw [firstCandidate, hclock, ← hk]
  rfl

theorem candidateOn_sub (clock : Int × Int) (k k' : Int) :
    candidateOn clock k' - candidateOn clock k = (k' - k) * microsPerDay := by
  simp only [candidateOn]
  ring

theorem firstCandidate_candidateOn (hclock : clockOf t = .ok clock)
    (hnonneg : 0 ≤ clock.1 ∧ 0 ≤ clock.2) (period k : Int) :
    firstCandidate period (some t) (candidateOn clock k) = .ok (candidateOn clock k) := by
  obtain ⟨k', hk', hle, hgt⟩ := firstCandidate_eq hclock hnonneg period (candidateOn clock k)
  have hsub := candidateOn_sub clock k' k
  have := microsPerDay_pos
  have : k = k' := by nlinarith
  rw [hk', this]

theorem computeScreenerBucket_eq_some {every now : Int} {at_ : Option String}
    {gate : Option (Int → Bool)} :
    computeScreenerBucket every at_ now gate = .ok (some b) ↔
      ∃ c, firstCandidate (every * microsPerSecond) at_ now = .ok c ∧
        walkBack (fun candidate => gate.all (· candidate)) (every * microsPerSecond) 41 c = some b := by
  rw [computeScreenerBucket, bind_eq_ok]
  exact exists_congr fun c => and_congr_right fun _ => by simp [pure, Except.pure]

theorem clockOf_of_isScheduleTime (h : isScheduleTime t) :
    ∃ clock, clockOf t = .ok clock ∧ 0 ≤ clock.1 ∧ 0 ≤ clock.2 := by
  by_cases hclose : t = "session_close"
  · subst hclose
    exact ⟨(15, 30), by decide +kernel, by decide, by decide⟩
  · simp only [isScheduleTime, beq_iff_eq, hclose, Bool.or_eq_true, false_or] at h
    rw [clockOf, if_pos hclose]
    split at h
    · next hours minutes heq =>
        simp only [Bool.and_eq_true, any_eq_true, decide_eq_true_eq] at h
        obtain ⟨⟨a, ha, ha0, -⟩, b, hb, hb0, -⟩ := h
        exact ⟨(a, b), by simp [heq, ha, hb], ha0, hb0⟩
    · cases h

/-- The grid of an accepted schedule is spaced exactly if it has no clock time, its period divides a day,
or the walk of a day ends a period after the day before. -/
theorem gridSpaced_iff {raw : PyVal F} {spec : ScheduleSpec} {path : String} {every : Int}
    (hspec : scheduleSpec raw = .ok spec)
    (hevery : durationSeconds (.str spec.every : PyVal F) path = .ok every) :
    GridSpaced every spec.at_ ↔ spec.at_ = none ∨ every * microsPerSecond ∣ microsPerDay ∨
      41 * (every * microsPerSecond) ≤ microsPerDay := by
  have hwf := wf_of_scheduleSpec hspec
  obtain ⟨n, hlow, hhigh, htext⟩ := hwf.every
  rw [htext, durationSeconds_toString (by omega) hhigh] at hevery
  obtain rfl := Except.ok.inj hevery
  have hperiod : 0 < n * microsPerSecond := by
    have : (0 : Int) < microsPerSecond := by decide
    positivity
  have hday := microsPerDay_pos
  simp only [GridSpaced, computeScreenerBucket_eq_some]
  generalize n * microsPerSecond = period at hperiod ⊢
  constructor
  · intro h
    by_contra hnot
    push Not at hnot
    obtain ⟨hat, hdvd, hlt⟩ := hnot
    obtain ⟨t, ht⟩ := Option.ne_none_iff_exists'.mp hat
    obtain ⟨clock, hclock, hnonneg⟩ := clockOf_of_isScheduleTime (hwf.at_ t ht)
    -- The session is active at the anchor of a day and where the walk of the next day passes it by.
    have hr : 0 < microsPerDay % period :=
      lt_of_le_of_ne (Int.emod_nonneg _ hperiod.ne') fun h0 => hdvd (Int.dvd_of_emod_eq_zero h0.symm)
    have hrp := Int.emod_lt_of_pos microsPerDay hperiod
    have hdiv := Int.emod_add_mul_ediv microsPerDay period
    have hq := Int.ediv_nonneg hday.le hperiod.le
    generalize microsPerDay % period = r at hr hrp hdiv
    generalize microsPerDay / period = q at hdiv hq
    lift q to Nat using hq
    have hq40 : q < 41 := by
      by_contra h
      have : (41 : Int) ≤ q := by exact_mod_cast Nat.le_of_not_lt h
      nlinarith
    have hfirst := firstCandidate_candidateOn hclock hnonneg period
    have hnext := candidateOn_sub clock 0 1
    have hpassed : ∀ i : Nat, i < q → candidateOn clock 0 + r < candidateOn clock 1 - i * period := by
      intro i hi
      have : (i : Int) + 1 ≤ q := by exact_mod_cast hi
      nlinarith
    have hspaced := h (some fun x => decide (x = candidateOn clock 0 ∨ x = candidateOn clock 0 + r))
      (candidateOn clock 0) (candidateOn clock 1) (candidateOn clock 0) (candidateOn clock 0 + r) (by omega)
      ⟨_, ht ▸ hfirst 0, walkBack_eq_some.mpr ⟨0, by simp⟩⟩
      ⟨_, ht ▸ hfirst 1, walkBack_eq_some.mpr ⟨q, hq40, by linarith, by simp, fun i hi => by
        have := hpassed i hi
        simp only [Option.all_some, decide_eq_false_iff_not]
        omega⟩⟩
    omega
  · rintro hcond gate now1 now2 b1 b2 hle ⟨c1, hc1, h1⟩ ⟨c2, hc2, h2⟩
    obtain ⟨j1, hj1, hb1, hactive, -⟩ := walkBack_eq_some.mp h1
    obtain ⟨j2, hj2, hb2, -, -⟩ := walkBack_eq_some.mp h2
    have hstep1 : 0 ≤ (j1 : Int) * period := by positivity
    have hstep2 : (j2 : Int) * period ≤ 40 * period :=
      Int.mul_le_mul_of_nonneg_right (by exact_mod_cast Nat.le_of_lt_succ hj2) hperiod.le
    suffices h : c1 ≤ now1 ∧ b1 ≤ b2 ∧ (b1 = b2 ∨ period ≤ b2 - b1) from
      ⟨by omega, hactive, h.2⟩
    cases hat : spec.at_ with
    | none =>
      rw [hat] at hc1 hc2
      cases hc1
      cases hc2
      refine ⟨Int.ediv_mul_le _ hperiod.ne',
        walkBack_mono hperiod ?_ ⟨now2 / period - now1 / period, by ring⟩ h1 h2⟩
      exact Int.mul_le_mul_of_nonneg_right (Int.ediv_le_ediv hperiod hle) hperiod.le
    | some t =>
      obtain ⟨clock, hclock, hnonneg⟩ := clockOf_of_isScheduleTime (hwf.at_ t hat)
      obtain ⟨k1, hk1, hle1, hgt1⟩ := firstCandidate_eq hclock hnonneg period now1
      obtain ⟨k2, hk2, hle2, hgt2⟩ := firstCandidate_eq hclock hnonneg period now2
      rw [hat] at hc1 hc2 hcond
      rw [hk1] at hc1
      rw [hk2] at hc2
      cases hc1
      cases hc2
      have hsub := candidateOn_sub clock k1 k2
      have hk : k1 ≤ k2 := by nlinarith
      refine ⟨hle1, ?_⟩
      obtain hnone | hdvd | hlt := hcond
      · cases hnone
      · exact walkBack_mono hperiod (by nlinarith) (hsub ▸ Dvd.dvd.mul_left hdvd _) h1 h2
      · obtain rfl | hk := eq_or_lt_of_le hk
        · rw [h1] at h2
          cases h2
          exact ⟨le_rfl, .inl rfl⟩
        · have : microsPerDay ≤ (k2 - k1) * microsPerDay := by nlinarith
          omega

/-- A schedule of every thirty minutes from the session close. -/
theorem gridSpaced_close : GridSpaced 1800 (some "session_close") :=
  (@gridSpaced_iff ℚ _ (.dict [(.str "every", .str "30m"), (.str "at", .str "session_close")])
    ⟨"1800s", "nse_equity", some "session_close"⟩ "every" 1800 (by decide +kernel) (by decide +kernel)).mpr
    (.inr (.inl (by decide)))

/-- Every two days at a quarter past nine is due each day. -/
theorem not_gridSpaced_two_days : ¬GridSpaced (2 * 86400) (some "09:15") := fun h => by
  have hdue : ∀ k, computeScreenerBucket (2 * 86400) (some "09:15") (candidateOn (9, 15) k)
      (some fun _ => true) = .ok (some (candidateOn (9, 15) k)) := fun k =>
    computeScreenerBucket_eq_some.mpr
      ⟨_, firstCandidate_candidateOn (by decide +kernel) (by decide) _ k, rfl⟩
  exact absurd (h _ _ _ _ _ (by decide) (hdue 0) (hdue 1)).2.2.2 (by decide)

end KiteAlgo.Buckets
