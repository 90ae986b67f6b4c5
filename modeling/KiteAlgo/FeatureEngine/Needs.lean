import Mathlib.Data.Rat.Floor
import KiteAlgo.FeatureEngine.Compute
import KiteAlgo.Features.Warmup

/-!
# KiteAlgo.FeatureEngine.Needs

How many bars an accepted feature needs before it has a number: `neededBars` reads it off
the parameters, and `isSome_compute` shows that it is exact over complete bars.
-/

namespace KiteAlgo

open List Option Bool
namespace FeatureEngine

open Check Compile Features

/-! ## what acceptance says -/

section Admitted

variable {F : Type} [PyNumeric F] {f : FeatureFunction} {source : Option FieldName}
  {spec : FeatureSpec F}

theorem Admitted.function (h : Admitted f source spec) : Named.ofName? spec.function = some f := by
  cases h with
  | inline known => exact known
  | stage _ known => exact known

theorem passes_of_mem_each {α : Type} {check : α → Check} {as : List α}
    (h : (each (fun _ a => check a) as).passes) {a : α} (ha : a ∈ as) :
    (check a).passes := (exists_passes_of_each h ha).elim fun _ => id

variable {given : Dict Key (PyVal F)} {key : Key} {p : ParamSpec} {v : PyVal F}
  {what where_ : String}

theorem paramInBounds_of_validated (hkeys : given.keys.Nodup)
    (h : (validateFeatureParams f given what where_).passes) (hp : f.param? key = some p)
    (hv : given.get? key = some v) : paramInBounds p v := by
  simp only [validateFeatureParams, passes_all_cons, passes_all_nil, Bool.and_true, and_eq_true] at h
  have hfiltered : (Dict.keys (given.filter fun e => (f.param? e.1).isSome)).Nodup :=
    hkeys.sublist (filter_sublist.map Prod.fst)
  have hget : (Dict.update (f.defaults : Dict Key (PyVal F))
      (given.filter fun e => (f.param? e.1).isSome)).get? key = some v := by
    rw [Dict.get?_update hfiltered, Dict.get?_filterKeys fun k => (f.param? k).isSome, hp]
    simp [hv]
  have hchecked := passes_of_mem_each h.2 (Dict.mem_of_get? hget)
  simpa [hp] using hchecked

theorem param?_isSome_of_validated (h : (validateFeatureParams f given what where_).passes)
    {e : Key × PyVal F} (he : e ∈ given) : (f.param? e.1).isSome := by
  simp only [validateFeatureParams, passes_all_cons, and_eq_true] at h
  have hchecked := passes_of_mem_each h.1 he
  rw [passes_report, not_eq_true', isNone_eq_false_iff] at hchecked
  exact hchecked

theorem not_isArithmeticKey_of_param? (hp : f.param? key = some p) :
    isArithmeticKey key = false := by
  have hall : ∀ g : FeatureFunction, ∀ p ∈ g.params, isArithmeticKey (Key.str p.name) = false := by
    intro g
    cases g <;> decide
  have hname : Key.str p.name = key := by simpa using find?_some hp
  exact hname ▸ hall f p (mem_of_find?_eq_some hp)

theorem Admitted.bounded (h : Admitted f source spec) (hp : f.param? key = some p)
    (hv : spec.params.get? key = some v) : paramInBounds p v := by
  cases h with
  | @inline operand name where_ known keys accepted =>
    simp only [validateNamedIndicator, known, passes_all_cons, and_eq_true] at accepted
    have hkeys : (Dict.keys (operand.params.filter fun e => !isArithmeticKey e.1)).Nodup :=
      keys.sublist (filter_sublist.map Prod.fst)
    refine paramInBounds_of_validated hkeys accepted.1 hp ?_
    rw [Dict.get?_filterKeys fun k => !isArithmeticKey k, not_isArithmeticKey_of_param? hp]
    exact hv
  | @stage stage name where_ function known keys accepted =>
    simp only [validateFeatureStage, function, bind_some, known, passes_all_cons,
      and_eq_true] at accepted
    exact paramInBounds_of_validated keys accepted.1 hp hv

theorem Admitted.output (h : Admitted f source spec) : spec.output = none := by
  have hparam : (f.param? (Key.str "output")).isSome = false := by cases f <;> decide
  have hoperator : isArithmeticKey (Key.str "output") = false := by decide
  cases h with
  | @inline operand name where_ known keys accepted =>
    simp only [validateNamedIndicator, known, passes_all_cons, and_eq_true] at accepted
    refine eq_none_iff_forall_not_mem.mpr fun v hv => ?_
    have hchecked := passes_of_mem_each accepted.2.2.2.1 (Dict.mem_of_get? hv)
    rw [passes_report, hoperator, ← not_isSome, hparam] at hchecked
    simp at hchecked
  | @stage stage name where_ function known keys accepted =>
    simp only [validateFeatureStage, function, bind_some, known, passes_all_cons,
      and_eq_true] at accepted
    refine eq_none_iff_forall_not_mem.mpr fun v hv => ?_
    have hknown := param?_isSome_of_validated accepted.1 (Dict.mem_of_get? hv)
    simp [hparam] at hknown

theorem Admitted.offset_nonneg (h : Admitted f source spec) : 0 ≤ spec.offset := by
  cases h with
  | @inline operand name where_ known keys accepted =>
    simp only [validateNamedIndicator, passes_all_cons, and_eq_true] at accepted
    have hoffset := accepted.2.2.1
    rw [passes_report, not_eq_true'] at hoffset
    show 0 ≤ operand.offset.getD 0
    cases ho : operand.offset with
    | none => exact Int.le_refl 0
    | some n =>
      simp only [ho, any_some, or_eq_false_iff, decide_eq_false_iff_not] at hoffset
      exact Int.not_lt.mp hoffset.1
  | stage => exact Int.le_refl 0

end Admitted

/-! ## integer parameters -/

/-- The integer of a parameter, or the default where it is not given. -/
def intParam? {F : Type} [PyNumeric F] (params : Dict Key (PyVal F)) (name : String)
    (default : Option Int) : Option Int :=
  match params.get? name with
  | none => default
  | some v => (intOf v).toOption

variable {p : ParamSpec}

theorem intOf_of_paramInBounds {v : PyVal ℚ} {low high : Nat} (hlow : p.low = low)
    (hhigh : p.high = high) (h : paramInBounds p v) :
    ∃ n : Int, intOf v = .ok n ∧ low ≤ n ∧ n ≤ high := by
  rw [paramInBounds, hlow, hhigh, and_eq_true] at h
  cases v with
  | int n =>
    simp only [PyVal.between, and_eq_true, decide_eq_true_eq] at h
    exact ⟨n, rfl, by exact_mod_cast h.2.1, by exact_mod_cast h.2.2⟩
  | float q =>
    simp only [PyVal.between, and_eq_true] at h
    have hle : (low : ℚ) ≤ q := of_decide_eq_true h.2.1
    have hge : q ≤ (high : ℚ) := of_decide_eq_true h.2.2
    have hnonneg : 0 ≤ q.num := Rat.num_nonneg.mpr (le_trans (Nat.cast_nonneg low) hle)
    have htrunc : q.num.tdiv q.den = ⌊q⌋ := by
      rw [Int.tdiv_eq_ediv_of_nonneg hnonneg, Rat.floor_def']
    refine ⟨⌊q⌋, ?_, Int.le_floor.mpr (by exact_mod_cast hle), ?_⟩
    · rw [← htrunc]
      rfl
    · exact_mod_cast (Int.floor_le q).trans hge
  | _ => simp [PyVal.isNumber] at h

/-- The bars a feature needs before its newest value is known; `none` where the period it
needs is not given. -/
def neededBars {F : Type} [PyNumeric F] (f : FeatureFunction) (spec : FeatureSpec F) : Option Nat :=
  let period := intParam? spec.params "period"
  match f with
  | .sma | .ema | .wma | .volumeSma => (period none).map Int.toNat
  | .rsi => (period (some 14)).map fun p => p.toNat + 1
  | .volumeRatio =>
    (period none).bind fun p =>
      (intParam? spec.params "offset" (some spec.offset)).map fun shift => p.toNat + shift.toNat
  | .macd =>
    (intParam? spec.params "fast" (some 12)).bind fun fast =>
      (intParam? spec.params "slow" (some 26)).map fun slow => max fast.toNat slow.toNat
  | .atr => (period (some 14)).map Int.toNat
  | .bollinger => (period (some 20)).map Int.toNat
  | .supertrend => (period (some 10)).map Int.toNat
  | .vwapSession => some 1

theorem Admitted.intParam_cases {f : FeatureFunction} {source : Option FieldName}
    {spec : FeatureSpec ℚ} (h : Admitted f source spec) {name : String} (low high : Nat)
    (hp : f.param? (Key.str name) = some p) (hlow : p.low = low) (hhigh : p.high = high) :
    ((∀ d, intParam spec.params name d = .ok d) ∧ ∀ d, intParam? spec.params name d = d) ∨
      ∃ n : Nat, low ≤ n ∧ n ≤ high ∧ (∀ d, intParam spec.params name d = .ok (n : Int)) ∧
        ∀ d, intParam? spec.params name d = some (n : Int) := by
  cases hv : spec.params.get? (Key.str name) with
  | none => exact .inl ⟨fun d => by rw [intParam, hv], fun d => by rw [intParam?, hv]⟩
  | some v =>
    obtain ⟨n, hn, hle, hge⟩ := intOf_of_paramInBounds hlow hhigh (h.bounded hp hv)
    obtain ⟨m, rfl⟩ := Int.eq_ofNat_of_zero_le (le_trans (Int.natCast_nonneg low) hle)
    refine .inr ⟨m, by exact_mod_cast hle, by exact_mod_cast hge, fun d => ?_, fun d => ?_⟩
    · rw [intParam, hv]
      exact hn
    · simp only [intParam?, hv, hn]
      rfl

theorem Admitted.intParam_default {f : FeatureFunction} {source : Option FieldName}
    {spec : FeatureSpec ℚ} (h : Admitted f source spec) (name : String) (low high d : Nat)
    (hp : f.param? (Key.str name) = some p) (hlow : p.low = low) (hhigh : p.high = high)
    (hd : low ≤ d ∧ d ≤ high) :
    ∃ n : Nat, low ≤ n ∧ n ≤ high ∧ intParam spec.params name d = .ok (n : Int) ∧
      intParam? spec.params name (some (d : Int)) = some (n : Int) := by
  rcases h.intParam_cases low high hp hlow hhigh with ⟨hparam, hparam?⟩ | ⟨n, hle, hge, hparam, hparam?⟩
  · exact ⟨d, hd.1, hd.2, hparam d, hparam? _⟩
  · exact ⟨n, hle, hge, hparam d, hparam? _⟩

/-- A computation that fails without the number of bars it needs, or gives a series known from
that bar on. -/
inductive Warms (n : Nat) : Option Nat → Except PyErr (Option (List (Option ℚ))) → Prop
  | never (e : PyErr) : Warms n none (.error e)
  | later {need : Nat} {values : List (Option ℚ)} (pos : 1 ≤ need) (length : values.length = n)
      (known : KnownFrom need values) : Warms n (some need) (.ok (some values))

theorem validatePeriod_natCast {n : Nat} (name : String) (h : 1 ≤ n ∧ n ≤ 500) :
    validatePeriod n name = .ok n := by
  rw [validatePeriod, if_neg (by omega), Int.toNat_natCast]

theorem isSome_valueAt {need : Nat} {values : List (Option ℚ)} {offset : Int} (hpos : 1 ≤ need)
    (hknown : KnownFrom need values) :
    (valueAt values offset).isSome ↔ need + offset.toNat ≤ values.length := by
  have hmax : max 0 offset = offset.toNat := by omega
  unfold valueAt
  simp only [hmax]
  split
  · next hneg =>
      simp only [isSome_none, false_eq_true, false_iff]
      omega
  · next hidx =>
      obtain ⟨i, hi⟩ := Int.eq_ofNat_of_zero_le (not_lt.mp hidx)
      have hlt : i < values.length := by omega
      have hfinite : ∀ v : Option ℚ, (v.filter PyFloat.isFinite).isSome = v.isSome := by
        intro v
        cases v <;> rfl
      rw [hi, Int.toNat_natCast, getElem?_eq_getElem hlt, join_some, hfinite, hknown i hlt]
      omega

theorem isSome_compute_of_warms {need : Option Nat} {spec : FeatureSpec ℚ} {bars : List (Bar ℚ)}
    (h : Warms bars.length need (series spec bars)) :
    (compute spec bars).isSome ↔ ∃ n, need = some n ∧ n + spec.offset.toNat ≤ bars.length := by
  unfold compute
  generalize hr : series spec bars = r at h
  cases h with
  | never e => simp
  | @later n values pos length known =>
    simp only [isSome_valueAt pos known, length, Option.some.injEq, exists_eq_left']

/-! ## functions of one series -/

/-- The bars a function of one series needs. -/
def SingleInput.needed {F : Type} [PyNumeric F] (f : SingleInput) (params : Dict Key (PyVal F))
    (shift : Int) : Option Nat :=
  match f with
  | .sma | .ema | .wma | .volumeSma => (intParam? params "period" none).map Int.toNat
  | .rsi => (intParam? params "period" (some 14)).map fun p => p.toNat + 1
  | .volumeRatio =>
    (intParam? params "period" none).bind fun p =>
      (intParam? params "offset" (some shift)).map fun s => p.toNat + s.toNat

theorem neededBars_single {F : Type} [PyNumeric F] (f : SingleInput) (spec : FeatureSpec F) :
    neededBars f.function spec = f.needed spec.params spec.offset := by
  cases f <;> rfl

theorem param?_period (f : SingleInput) :
    f.function.param? (Key.str "period") = some periodParam := by
  cases f <;> rfl

theorem Admitted.period_cases {f : FeatureFunction} {source : Option FieldName} {spec : FeatureSpec ℚ}
    (h : Admitted f source spec) (hp : f.param? (Key.str "period") = some periodParam) :
    ((∀ d, intParam spec.params "period" d = .ok d) ∧ ∀ d, intParam? spec.params "period" d = d) ∨
      ∃ n : Nat, 2 ≤ n ∧ n ≤ 500 ∧ (∀ d, intParam spec.params "period" d = .ok (n : Int)) ∧
        ∀ d, intParam? spec.params "period" d = some (n : Int) :=
  h.intParam_cases 2 500 hp (by norm_num [periodParam]) (by norm_num [periodParam])

variable {shift : Nat} {xs : List ℚ}

/-- Over a series of numbers, positive ones for `volume_ratio`, the indicator of a period and a
shift is known once it has the values it needs. -/
theorem warms_of_period {f : SingleInput} {params : Dict Key (PyVal ℚ)} {n m : Nat}
    (hn : 1 ≤ n ∧ n ≤ 500) (hperiod : ∀ d, intParam params "period" d = .ok (n : Int))
    (hperiod? : ∀ d, intParam? params "period" d = some (n : Int))
    (hshift : f = .volumeRatio → intParam params "offset" shift = .ok (m : Int) ∧
      intParam? params "offset" (some (shift : Int)) = some (m : Int))
    (hpos : f = .volumeRatio → ∀ x ∈ xs, 0 < x) :
    Warms xs.length (f.needed params shift) ((f.indicator params shift (xs.map some)).map some) := by
  have hvalid := validatePeriod_natCast "period" hn
  cases f with
  | sma | volumeSma =>
    simp only [SingleInput.indicator, SingleInput.needed, hperiod, hperiod?, ok_bind, Features.sma,
      Features.volumeSma, hvalid]
    exact .later hn.1 (by rw [rollingMean, length_rolling, length_map]) (knownFrom_rolling _ _ _)
  | wma =>
    simp only [SingleInput.indicator, SingleInput.needed, hperiod, hperiod?, ok_bind, Features.wma, hvalid]
    exact .later hn.1 (by rw [length_rolling, length_map]) (knownFrom_rolling _ _ _)
  | ema =>
    simp only [SingleInput.indicator, SingleInput.needed, hperiod, hperiod?, ok_bind, Features.ema, hvalid]
    exact .later hn.1 (length_ema hn.1 xs) (knownFrom_ema hn.1 xs)
  | rsi =>
    simp only [SingleInput.indicator, SingleInput.needed, hperiod, hperiod?, ok_bind, Features.rsi, hvalid]
    exact .later (Nat.le_add_left 1 n) (length_rsi n xs) (knownFrom_rsi n xs)
  | volumeRatio =>
    have hnonneg : ¬ (m : Int) < 0 := by omega
    obtain ⟨hshift, hshift?⟩ := hshift rfl
    simp only [SingleInput.indicator, SingleInput.needed, hperiod, hperiod?, hshift, hshift?, ok_bind,
      Features.volumeRatio, hvalid, if_neg hnonneg, Int.toNat_natCast]
    exact .later (hn.1.trans (Nat.le_add_right n m)) (by simp)
      (knownFrom_volumeRatio hn.1 (hpos rfl))

theorem Admitted.exists_shift {f : SingleInput} {source : Option FieldName} {spec : FeatureSpec ℚ}
    (h : Admitted f.function source spec) (shift : Nat) :
    ∃ m : Nat, f = .volumeRatio → intParam spec.params "offset" shift = .ok (m : Int) ∧
      intParam? spec.params "offset" (some (shift : Int)) = some (m : Int) := by
  cases f with
  | volumeRatio =>
    have hoffset : FeatureFunction.param? .volumeRatio (Key.str "offset") =
        some ⟨"offset", 0, 100, "[0, 100]"⟩ := rfl
    rcases h.intParam_cases 0 100 hoffset (by norm_num) (by norm_num) with
      ⟨hparam, hparam?⟩ | ⟨m, -, -, hparam, hparam?⟩
    · exact ⟨shift, fun _ => ⟨hparam _, hparam? _⟩⟩
    · exact ⟨m, fun _ => ⟨hparam _, hparam? _⟩⟩
  | _ => exact ⟨0, nofun⟩

/-- The parameters of an accepted function of one series: without the period it needs it fails,
else it is known once it has the values it needs. -/
theorem warms_indicator {f : SingleInput} {source : Option FieldName} {spec : FeatureSpec ℚ}
    (h : Admitted f.function source spec) (hpos : f = .volumeRatio → ∀ x ∈ xs, 0 < x) :
    Warms xs.length (f.needed spec.params shift)
      ((f.indicator spec.params shift (xs.map some)).map some) := by
  obtain ⟨m, hshift⟩ := h.exists_shift shift
  rcases h.period_cases (param?_period f) with ⟨hparam, hparam?⟩ | ⟨n, hle, hge, hparam, hparam?⟩
  · have hzero : ∃ e, validatePeriod 0 "period" = .error e := ⟨_, rfl⟩
    obtain ⟨e, he⟩ := hzero
    cases f with
    | sma | ema | wma | volumeSma =>
      simp only [SingleInput.indicator, SingleInput.needed, hparam, hparam?, ok_bind, Features.sma,
        Features.ema, Features.wma, Features.volumeSma, he, error_bind]
      exact .never e
    | rsi =>
      have hvalid : validatePeriod 14 "period" = .ok 14 := rfl
      simp only [SingleInput.indicator, SingleInput.needed, hparam, hparam?, ok_bind, Features.rsi, hvalid]
      exact .later (by decide) (length_rsi 14 xs) (knownFrom_rsi 14 xs)
    | volumeRatio =>
      simp only [SingleInput.indicator, SingleInput.needed, hparam, hparam?, (hshift rfl).1, ok_bind,
        Features.volumeRatio, he, error_bind]
      exact .never e
  · exact warms_of_period (by omega) hparam hparam? hshift hpos

/-! ## all functions -/

theorem exists_read (f : SingleInput) {bars : List (Bar ℚ)} (hbars : ∀ bar ∈ bars, Complete bar) :
    ∃ xs : List ℚ, bars.map f.read = xs.map some ∧ xs.length = bars.length ∧
      (f = .volumeRatio → ∀ x ∈ xs, 0 < x) := by
  induction bars with
  | nil => exact ⟨[], rfl, rfl, by simp⟩
  | cons bar bars ih =>
    obtain ⟨xs, hxs, hlength, hpos⟩ := ih fun b hb => hbars b (mem_cons_of_mem _ hb)
    have hbar := hbars bar mem_cons_self
    obtain ⟨v, hv, hvpos⟩ := hbar.volume
    have hvolume : volumeOrZero bar = v := by
      have hne : PyFloat.eqQ v 0 = false := decide_eq_false (ne_of_gt hvpos)
      simp only [volumeOrZero, hv, hne, false_eq_true, if_false]
    have hread : ∃ x : ℚ, f.read bar = some x ∧ (f = .volumeRatio → 0 < x) := by
      by_cases hinput : f.input = .volume
      · exact ⟨v, by rw [SingleInput.read, if_pos hinput, hvolume], fun _ => hvpos⟩
      · obtain ⟨c, hc⟩ := isSome_iff_exists.mp hbar.close
        exact ⟨c, by rw [SingleInput.read, if_neg hinput, hc], fun hf => absurd (by rw [hf]; rfl) hinput⟩
    obtain ⟨x, hx, hxpos⟩ := hread
    refine ⟨x :: xs, by rw [map_cons, map_cons, hx, hxs], by simp [hlength], fun hf => ?_⟩
    rw [forall_mem_cons]
    exact ⟨hxpos hf, hpos hf⟩

theorem warms_single {f : SingleInput} {source : Option FieldName} {spec : FeatureSpec ℚ}
    (h : Admitted f.function source spec) {bars : List (Bar ℚ)} (hbars : ∀ bar ∈ bars, Complete bar) :
    Warms bars.length (neededBars f.function spec) (series spec bars) := by
  obtain ⟨xs, hxs, hlength, hpos⟩ := exists_read f hbars
  obtain ⟨shift, hshift⟩ := Int.eq_ofNat_of_zero_le h.offset_nonneg
  rw [series_single h.function, neededBars_single, hxs, ← hlength, hshift]
  exact warms_indicator h hpos

theorem Admitted.floatParam_pos {f : FeatureFunction} {source : Option FieldName}
    {spec : FeatureSpec ℚ} (h : Admitted f source spec) (name : String) (d : ℚ)
    (hp : f.param? (Key.str name) = some p) (hlow : 0 < p.low) (hd : 0 < d) :
    ∃ q : ℚ, floatParam spec.params name d = .ok q ∧ validatePositive q name = .ok q := by
  have hvalid : ∀ q : ℚ, 0 < q → validatePositive q name = .ok q := by
    intro q hq
    have hle : PyFloat.leQ q 0 = false := decide_eq_false (not_le_of_gt hq)
    have hfinite : PyFloat.isFinite q := rfl
    simp [validatePositive, hle, hfinite]
  unfold floatParam
  cases hv : spec.params.get? (Key.str name) with
  | none => exact ⟨d, rfl, hvalid d hd⟩
  | some v =>
    have hbounds := h.bounded hp hv
    rw [paramInBounds, and_eq_true] at hbounds
    cases v with
    | int n =>
      simp only [PyVal.between, and_eq_true, decide_eq_true_eq] at hbounds
      exact ⟨n, rfl, hvalid n (lt_of_lt_of_le hlow hbounds.2.1)⟩
    | float q =>
      simp only [PyVal.between, and_eq_true] at hbounds
      exact ⟨q, rfl, hvalid q (lt_of_lt_of_le hlow (of_decide_eq_true hbounds.2.1))⟩
    | _ => simp [PyVal.isNumber] at hbounds

theorem exists_closes {bars : List (Bar ℚ)} (hbars : ∀ bar ∈ bars, Complete bar) :
    ∃ xs : List ℚ, bars.map Bar.close = xs.map some ∧ xs.length = bars.length := by
  have hall : ∀ v ∈ bars.map Bar.close, v.isSome = true := by
    rw [List.forall_mem_map]
    exact fun bar hbar => (hbars bar hbar).close
  obtain ⟨xs, hxs, hlength⟩ := exists_map_some hall
  exact ⟨xs, hxs, by rw [hlength, List.length_map]⟩

section Several

variable {source : Option FieldName} {spec : FeatureSpec ℚ} {bars : List (Bar ℚ)}

theorem warms_macd (h : Admitted .macd source spec) (hbars : ∀ bar ∈ bars, Complete bar) :
    Warms bars.length (neededBars .macd spec) (series spec bars) := by
  obtain ⟨xs, hxs, hlength⟩ := exists_closes hbars
  obtain ⟨fast, hfast2, hfast200, hfast, hfast?⟩ := h.intParam_default "fast" 2 200 12 rfl
    (by norm_num) (by norm_num) (by decide)
  obtain ⟨slow, hslow3, hslow400, hslow, hslow?⟩ := h.intParam_default "slow" 3 400 26 rfl
    (by norm_num) (by norm_num) (by decide)
  obtain ⟨signal, hsignal2, hsignal200, hsignal, -⟩ := h.intParam_default "signal" 2 200 9 rfl
    (by norm_num) (by norm_num) (by decide)
  have hf1 : 1 ≤ fast ∧ fast ≤ 500 := by omega
  have hs1 : 1 ≤ slow ∧ slow ≤ 500 := by omega
  have hg1 : 1 ≤ signal ∧ signal ≤ 500 := by omega
  have hseries : series spec bars =
      .ok (some (zipWith minus (emaKernel fast (xs.map some)) (emaKernel slow (xs.map some)))) := by
    rw [series, h.function, hxs]
    simp only [Nat.cast_ofNat] at hfast hslow hsignal
    simp only [hfast, hslow, hsignal, ok_bind, macd, validatePeriod_natCast _ hf1,
      validatePeriod_natCast _ hs1, validatePeriod_natCast _ hg1, h.output]
    rfl
  have hneed : neededBars .macd spec = some (max fast slow) := by
    simp only [Nat.cast_ofNat] at hfast? hslow?
    simp only [neededBars, hfast?, hslow?, bind_some, map_some, Int.toNat_natCast]
  rw [hseries, hneed]
  refine .later (by omega) ?_ (knownFrom_minus (knownFrom_ema hf1.1 xs) (knownFrom_ema hs1.1 xs))
  rw [length_zipWith, length_ema hf1.1, length_ema hs1.1, hlength, Nat.min_self]

theorem warms_atr (h : Admitted .atr source spec) (hbars : ∀ bar ∈ bars, Complete bar) :
    Warms bars.length (neededBars .atr spec) (series spec bars) := by
  obtain ⟨n, hn2, hn500, hn, hn?⟩ := h.intParam_default "period" 2 500 14 rfl
    (by norm_num [periodParam]) (by norm_num [periodParam]) (by decide)
  have hn1 : 1 ≤ n ∧ n ≤ 500 := by omega
  simp only [Nat.cast_ofNat] at hn hn?
  have hseries : series spec bars = .ok (some (atrKernel n (trueRanges bars))) := by
    rw [series, h.function]
    simp only [hn, ok_bind, atr, validatePeriod_natCast _ hn1]
  have hneed : neededBars .atr spec = some n := by
    simp only [neededBars, hn?, map_some, Int.toNat_natCast]
  rw [hseries, hneed]
  exact .later hn1.1 (length_atr hn1.1 hbars) (knownFrom_atr hn1.1 hbars)

theorem warms_bollinger (h : Admitted .bollinger source spec) (hbars : ∀ bar ∈ bars, Complete bar) :
    Warms bars.length (neededBars .bollinger spec) (series spec bars) := by
  obtain ⟨xs, hxs, hlength⟩ := exists_closes hbars
  obtain ⟨n, hn2, hn500, hn, hn?⟩ := h.intParam_default "period" 2 500 20 rfl
    (by norm_num [periodParam]) (by norm_num [periodParam]) (by decide)
  obtain ⟨width, hwidth, hpositive⟩ := h.floatParam_pos "num_std" PyFloat.two rfl
    (by norm_num) (by norm_num [PyFloat.two])
  have hn1 : 1 ≤ n ∧ n ≤ 500 := by omega
  simp only [Nat.cast_ofNat] at hn hn?
  have hseries : series spec bars = .ok (some (rollingMean n (xs.map some))) := by
    rw [series, h.function, hxs]
    simp only [hn, hwidth, ok_bind, bollinger, validatePeriod_natCast _ hn1, hpositive, h.output]
    rfl
  have hneed : neededBars .bollinger spec = some n := by
    simp only [neededBars, hn?, map_some, Int.toNat_natCast]
  rw [hseries, hneed]
  exact .later hn1.1 (by rw [rollingMean, length_rolling, length_map, hlength])
    (knownFrom_rolling _ _ _)

theorem warms_supertrend (h : Admitted .supertrend source spec)
    (hbars : ∀ bar ∈ bars, Complete bar) :
    Warms bars.length (neededBars .supertrend spec) (series spec bars) := by
  obtain ⟨n, hn2, hn500, hn, hn?⟩ := h.intParam_default "period" 2 500 10 rfl
    (by norm_num [periodParam]) (by norm_num [periodParam]) (by decide)
  obtain ⟨factor, hfactor, hpositive⟩ := h.floatParam_pos "multiplier" PyFloat.three rfl
    (by norm_num) (by norm_num [PyFloat.three])
  have hn1 : 1 ≤ n ∧ n ≤ 500 := by omega
  simp only [Nat.cast_ofNat] at hn hn?
  let bands := zipWith (bandsOf factor) bars (atrKernel n (trueRanges bars))
  have hseries : series spec bars = .ok (some ((supertrendSeries bands).map Prod.fst)) := by
    rw [series, h.function]
    simp only [hn, hfactor, ok_bind, supertrend, validatePeriod_natCast _ hn1, hpositive, h.output]
    rfl
  have hneed : neededBars .supertrend spec = some n := by
    simp only [neededBars, hn?, map_some, Int.toNat_natCast]
  have hlength : bands.length = bars.length := by
    rw [length_zipWith, length_atr hn1.1 hbars, Nat.min_self]
  have hready : ∀ b ∈ bands, b.Ready := by
    intro b hb
    obtain ⟨i, hi, rfl⟩ := getElem_of_mem hb
    rw [getElem_zipWith]
    exact ready_bandsOf factor (hbars _ (getElem_mem _)) _
  have hranges : bands.map Bands.range = atrKernel n (trueRanges bars) := by
    refine ext_getElem (by rw [length_map, hlength, length_atr hn1.1 hbars]) ?_
    intro i hi hi'
    rw [getElem_map, getElem_zipWith]
    rfl
  rw [hseries, hneed]
  refine .later hn1.1 (by rw [length_map, length_supertrendSeries, hlength])
    (knownFrom_supertrend hn1.1 hready ?_)
  rw [hranges]
  exact knownFrom_atr hn1.1 hbars

theorem warms_vwapSession (h : Admitted .vwapSession source spec)
    (hbars : ∀ bar ∈ bars, Complete bar) :
    Warms bars.length (neededBars .vwapSession spec) (series spec bars) := by
  have hseries : series spec bars =
      .ok (some (vwapFrom .zero none (bars.zip (replicate bars.length "s")))) := by
    rw [series, h.function]
    simp [vwapSession]
  have hcomplete : ∀ e ∈ bars.zip (replicate bars.length "s"), Complete e.1 := by
    rintro ⟨bar, session⟩ he
    exact hbars bar (of_mem_zip he).1
  have hknown : KnownFrom 1 (vwapFrom Totals.zero none (bars.zip (replicate bars.length "s"))) :=
    knownFrom_of_forall (known_vwapFrom (le_refl (0 : ℚ)) hcomplete)
  rw [hseries]
  exact .later (Nat.le_refl 1) (by simp [length_vwapFrom]) hknown

end Several

/-- Over complete bars an accepted feature has a number exactly when there are the bars it needs
and as many more as its offset. -/
theorem isSome_compute {f : FeatureFunction} {source : Option FieldName} {spec : FeatureSpec ℚ}
    (h : Admitted f source spec) {bars : List (Bar ℚ)} (hbars : ∀ bar ∈ bars, Complete bar) :
    (compute spec bars).isSome ↔
      ∃ need, neededBars f spec = some need ∧ need + spec.offset.toNat ≤ bars.length := by
  refine isSome_compute_of_warms ?_
  cases f with
  | sma => exact warms_single (f := .sma) h hbars
  | ema => exact warms_single (f := .ema) h hbars
  | wma => exact warms_single (f := .wma) h hbars
  | rsi => exact warms_single (f := .rsi) h hbars
  | volumeSma => exact warms_single (f := .volumeSma) h hbars
  | volumeRatio => exact warms_single (f := .volumeRatio) h hbars
  | macd => exact warms_macd h hbars
  | atr => exact warms_atr h hbars
  | bollinger => exact warms_bollinger h hbars
  | supertrend => exact warms_supertrend h hbars
  | vwapSession => exact warms_vwapSession h hbars

end FeatureEngine

end KiteAlgo
