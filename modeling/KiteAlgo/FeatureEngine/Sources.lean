import Mathlib.Data.List.Nodup
import KiteAlgo.FeatureEngine.Needs

/-!
# KiteAlgo.FeatureEngine.Sources

Whether the number of a feature is the one it declares: the indicator over its source field,
read once at its offset.  `_compute` reads the function's own field instead of the source, and
`volume_ratio` takes the offset twice when it has no `offset` parameter.
-/

namespace KiteAlgo

open List Option
namespace FeatureEngine

open Features

/-! ## the declared number -/

section Declared

variable {F : Type} [PyNumeric F]

/-- `bar.get(name)`, where a bar without a volume traded nothing. -/
def barField (field : FieldName) (bar : Bar F) : Option F :=
  match field with
  | .openPrice => bar.open_
  | .high => bar.high
  | .low => bar.low
  | .close => bar.close
  | .volume => some (volumeOrZero bar)
  | _ => none

theorem barField_input (f : SingleInput) : barField f.input = (f.read : Bar F → Option F) := by
  funext bar
  cases f <;> rfl

/-- The value of a computed series at an offset. -/
def reading (r : Except PyErr (List (Option F))) (offset : Int) : Option F :=
  match r with
  | .ok values => valueAt values offset
  | .error _ => none

/-- The number that a feature declares: its indicator over the overriding source, or over the
function's own field, at its offset. -/
def declaredValue (f : SingleInput) (source : Option FieldName) (spec : FeatureSpec F)
    (bars : List (Bar F)) : Option F :=
  reading (f.indicator spec.params 0 (bars.map (barField (source.getD f.input)))) spec.offset

theorem compute_single {f : SingleInput} {spec : FeatureSpec F}
    (hf : Named.ofName? spec.function = some f.function) (bars : List (Bar F)) :
    compute spec bars = reading (f.indicator spec.params spec.offset (bars.map f.read)) spec.offset := by
  rw [compute, series_single hf]
  cases f.indicator spec.params spec.offset (bars.map f.read) <;> rfl

/-- The source is the function's own field, and the offset of a `volume_ratio` does not also
shift its base. -/
def ComputedAsDeclared (f : SingleInput) (source : Option FieldName) (spec : FeatureSpec F) : Prop :=
  (source = none ∨ source = some f.input) ∧
    (f = .volumeRatio → spec.offset = 0 ∨ (spec.params.get? (Key.str "offset")).isSome = true)

theorem indicator_shift {f : SingleInput} {params : Dict Key (PyVal F)} {shift shift' : Int}
    (h : f = .volumeRatio → shift = shift' ∨ (params.get? (Key.str "offset")).isSome)
    (values : List (Option F)) :
    f.indicator params shift values = f.indicator params shift' values := by
  cases f with
  | volumeRatio =>
    rcases h rfl with rfl | hgiven
    · rfl
    · obtain ⟨v, hv⟩ := isSome_iff_exists.mp hgiven
      simp only [SingleInput.indicator, intParam, hv]
  | _ => rfl

theorem compute_eq_declaredValue {f : SingleInput} {source : Option FieldName} {spec : FeatureSpec F}
    (hf : Named.ofName? spec.function = some f.function) (h : ComputedAsDeclared f source spec)
    (bars : List (Bar F)) : compute spec bars = declaredValue f source spec bars := by
  have hsource : source.getD f.input = f.input := by
    rcases h.1 with rfl | rfl <;> rfl
  rw [compute_single hf, declaredValue, hsource, barField_input]
  congr 1
  exact indicator_shift h.2 _

end Declared

/-! ## series without a number -/

def Blank (values : List (Option ℚ)) : Prop := ∀ v ∈ values, v = none

variable {values : List (Option ℚ)}

theorem Blank.join_getElem? (h : Blank values) (i : Nat) : values[i]?.join = none := by
  cases hi : values[i]? with
  | none => rfl
  | some v => rw [h v (mem_of_getElem? hi)]; rfl

theorem blank_mapSegments {f : List ℚ → List (Option ℚ)} (hf : f [] = []) (h : Blank values) :
    Blank (mapSegments f [] values) := by
  induction values with
  | nil => simp [mapSegments, hf, Blank]
  | cons v values ih =>
    obtain rfl := h v (.head _)
    rw [mapSegments, hf, nil_append]
    intro v hv
    rcases mem_cons.mp hv with rfl | hv
    · rfl
    · exact ih (fun w hw => h w (.tail _ hw)) v hv

theorem blank_rolling {f : List ℚ → ℚ} {period : Nat} (hperiod : 1 ≤ period) (h : Blank values) :
    Blank (rolling f period values) := by
  intro v hv
  obtain ⟨i, hi, rfl⟩ := mem_map.mp hv
  rw [mem_range] at hi
  rw [ite_eq_right_iff]
  rintro ⟨hfull, hall⟩
  have hwindow : (values.drop (i + 1 - period)).take period ≠ [] := by
    refine ne_nil_of_length_pos ?_
    rw [length_take, length_drop]
    omega
  obtain ⟨w, hw⟩ := exists_mem_of_ne_nil _ hwindow
  have hfinite := all_eq_true.mp hall w hw
  rw [h w (mem_of_mem_drop (mem_of_mem_take hw))] at hfinite
  exact absurd hfinite Bool.false_ne_true

theorem blank_ratioSeries (h : Blank values) (period shift : Nat) :
    Blank (ratioSeries values period shift) := by
  intro v hv
  obtain ⟨i, -, rfl⟩ := mem_map.mp hv
  rw [h.join_getElem?]
  split
  · rfl
  · simp [ratio, barFloat]

theorem pos_of_validatePeriod {p : Int} {name : String} {n : Nat} (h : validatePeriod p name = .ok n) :
    1 ≤ n := by
  unfold validatePeriod at h
  split at h
  · cases h
  · obtain rfl := Except.ok.inj h
    omega

variable {params : Dict Key (PyVal ℚ)} {shift : Int}

theorem blank_indicator {f : SingleInput} {out : List (Option ℚ)} (h : Blank values)
    (hout : f.indicator params shift values = .ok out) : Blank out := by
  cases f with
  | sma | volumeSma =>
    simp only [SingleInput.indicator, Features.sma, Features.volumeSma, bind_eq_ok] at hout
    obtain ⟨p, -, n, hn, hout⟩ := hout
    obtain rfl := Except.ok.inj hout
    exact blank_rolling (pos_of_validatePeriod hn) h
  | wma =>
    simp only [SingleInput.indicator, Features.wma, bind_eq_ok] at hout
    obtain ⟨p, -, n, hn, hout⟩ := hout
    obtain rfl := Except.ok.inj hout
    exact blank_rolling (pos_of_validatePeriod hn) h
  | ema =>
    simp only [SingleInput.indicator, Features.ema, bind_eq_ok] at hout
    obtain ⟨p, -, n, hn, hout⟩ := hout
    obtain rfl := Except.ok.inj hout
    have hpos := pos_of_validatePeriod hn
    exact blank_mapSegments (by rw [smoothedRun, if_pos (by exact hpos)]; rfl) h
  | rsi =>
    simp only [SingleInput.indicator, Features.rsi, bind_eq_ok] at hout
    obtain ⟨p, -, n, hn, hout⟩ := hout
    obtain rfl := Except.ok.inj hout
    exact blank_mapSegments (by simp [rsiRun]) h
  | volumeRatio =>
    simp only [SingleInput.indicator, Features.volumeRatio, bind_eq_ok] at hout
    obtain ⟨p, -, s, -, n, hn, hout⟩ := hout
    split at hout
    · cases hout
    · obtain rfl := Except.ok.inj hout
      exact blank_ratioSeries h n s.toNat

theorem reading_blank {f : SingleInput} {offset : Int} (h : Blank values) :
    reading (f.indicator params shift values) offset = none := by
  cases hout : f.indicator params shift values with
  | error e => rfl
  | ok out =>
    rw [reading, valueAt]
    simp only [(blank_indicator h hout).join_getElem?]
    split <;> rfl

/-! ## bars that tell the difference -/

/-- A bar whose only number is a one in the field that the function reads. -/
def barOfInput (f : SingleInput) (ts : Int) : Bar ℚ :=
  if f.input = .volume then { ts, volume := some 1 } else { ts, close := some 1 }

def barsOfInput (f : SingleInput) (n : Nat) : List (Bar ℚ) :=
  (List.range n).map fun i : Nat => barOfInput f i

theorem read_barsOfInput (f : SingleInput) (n : Nat) :
    (barsOfInput f n).map f.read = (replicate n (1 : ℚ)).map some := by
  have hread : ∀ i : Nat, f.read (barOfInput f i) = some 1 := by
    intro i
    have hone : PyFloat.eqQ (1 : ℚ) 0 = false := decide_eq_false one_ne_zero
    cases f <;> simp [SingleInput.read, SingleInput.input, barOfInput, volumeOrZero, hone]
  simp [barsOfInput, Function.comp_def, hread]

theorem field_barsOfInput (f : SingleInput) (n : Nat) :
    (barsOfInput f n).map (barField f.input) = (replicate n (1 : ℚ)).map some := by
  rw [barField_input, read_barsOfInput]

theorem blank_barsOfInput {f : SingleInput} {field : FieldName} (h : field ≠ f.input)
    (hvolume : field ≠ .volume) (n : Nat) : Blank ((barsOfInput f n).map (barField field)) := by
  have hfield : ∀ i : Nat, barField field (barOfInput f i) = none := by
    intro i
    cases f <;> cases field <;> first | rfl | exact absurd rfl h | exact absurd rfl hvolume
  intro v hv
  obtain ⟨bar, hbar, rfl⟩ := mem_map.mp hv
  obtain ⟨i, -, rfl⟩ := mem_map.mp hbar
  exact hfield i

theorem blank_read_volumes {f : SingleInput} (h : f.input ≠ .volume) (n : Nat) :
    Blank ((barsOfInput .volumeSma n).map f.read) := by
  intro v hv
  obtain ⟨bar, hbar, rfl⟩ := mem_map.mp hv
  obtain ⟨i, -, rfl⟩ := mem_map.mp hbar
  rw [SingleInput.read, if_neg h]
  rfl

section Difference

variable {f : SingleInput} {source : Option FieldName} {spec : FeatureSpec ℚ}

theorem isSome_reading_ones (h : Admitted f.function source spec) (shift n : Nat) :
    (reading (f.indicator spec.params shift ((replicate n (1 : ℚ)).map some)) spec.offset).isSome =
        true ↔
      ∃ need, f.needed spec.params shift = some need ∧ need + spec.offset.toNat ≤ n := by
  have hones : f = .volumeRatio → ∀ x ∈ replicate n (1 : ℚ), 0 < x := by
    intro _ x hx
    rw [eq_of_mem_replicate hx]
    exact one_pos
  have hwarms : Warms (replicate n (1 : ℚ)).length (f.needed spec.params shift)
      ((f.indicator spec.params shift ((replicate n (1 : ℚ)).map some)).map some) :=
    warms_indicator h hones
  generalize f.indicator spec.params shift ((replicate n (1 : ℚ)).map some) = r at hwarms ⊢
  generalize f.needed spec.params shift = needed at hwarms ⊢
  rw [length_replicate] at hwarms
  cases r with
  | error e =>
    cases hwarms
    simp [reading]
  | ok values =>
    cases hwarms with
    | later pos length known => simp only [reading, isSome_valueAt pos known, length,
        some.injEq, exists_eq_left']

theorem isSome_compute_ones (h : Admitted f.function source spec) (n : Nat) :
    (compute spec (barsOfInput f n)).isSome ↔
      ∃ need, f.needed spec.params spec.offset = some need ∧ need + spec.offset.toNat ≤ n := by
  obtain ⟨k, hk⟩ := Int.eq_ofNat_of_zero_le h.offset_nonneg
  rw [compute_single h.function, read_barsOfInput]
  have hones := isSome_reading_ones h k n
  rwa [← hk] at hones

variable {params : Dict Key (PyVal ℚ)}

theorem get?_eq_none_of_default {name : String} (h : ∀ d, intParam params name d = .ok d) :
    params.get? (Key.str name) = none := by
  cases hv : params.get? (Key.str name) with
  | none => rfl
  | some v =>
    have h0 := h 0
    have h1 := h 1
    simp only [intParam, hv] at h0 h1
    rw [h0] at h1
    cases h1

theorem exists_needed (h : Admitted f.function source spec)
    (hperiod : ¬ (f ≠ .rsi ∧ spec.params.get? (Key.str "period") = none)) (shift : Nat) :
    ∃ need, f.needed spec.params shift = some need := by
  obtain ⟨m, hshift⟩ := h.exists_shift shift
  rcases h.period_cases (param?_period f) with ⟨hparam, hparam?⟩ | ⟨n, -, -, -, hparam?⟩
  · have hf : f = .rsi := not_not.mp fun hne => hperiod ⟨hne, get?_eq_none_of_default hparam⟩
    exact ⟨15, by rw [hf, SingleInput.needed, hparam?]; rfl⟩
  · cases f with
    | volumeRatio => exact ⟨n + m, by simp [SingleInput.needed, hparam?, (hshift rfl).2]⟩
    | rsi => exact ⟨n + 1, by simp [SingleInput.needed, hparam?]⟩
    | _ => exact ⟨n, by simp [SingleInput.needed, hparam?]⟩

omit spec in
theorem reading_of_no_period (hf : f ≠ .rsi) (hperiod : params.get? (Key.str "period") = none)
    (shift offset : Int) (values : List (Option ℚ)) :
    reading (f.indicator params shift values) offset = none := by
  have hzero : intParam params "period" 0 = .ok 0 := by rw [intParam, hperiod]
  have hinvalid : ∃ e, validatePeriod 0 "period" = .error e := ⟨_, rfl⟩
  obtain ⟨e, he⟩ := hinvalid
  cases f with
  | rsi => exact absurd rfl hf
  | sma | ema | wma | volumeSma =>
    simp only [SingleInput.indicator, hzero, ok_bind, Features.sma, Features.ema, Features.wma,
      Features.volumeSma, he, error_bind, reading]
  | volumeRatio =>
    simp only [SingleInput.indicator, hzero, ok_bind, Features.volumeRatio, he, error_bind]
    cases intParam params "offset" shift <;> rfl

theorem source_of_compute_eq (h : Admitted f.function source spec)
    (hperiod : ¬ (f ≠ .rsi ∧ spec.params.get? (Key.str "period") = none))
    (hall : ∀ bars : List (Bar ℚ), compute spec bars = declaredValue f source spec bars) :
    source = none ∨ source = some f.input := by
  cases source with
  | none => exact .inl rfl
  | some field =>
    refine .inr (congrArg some (not_not.mp fun hne => ?_))
    by_cases hvolume : field = .volume
    · subst hvolume
      obtain ⟨need, hneed⟩ := exists_needed h hperiod 0
      have hdeclared := (isSome_reading_ones h 0 (need + spec.offset.toNat)).mpr
        ⟨need, hneed, Nat.le_refl _⟩
      have hones : (barsOfInput .volumeSma (need + spec.offset.toNat)).map (barField .volume) =
          (replicate (need + spec.offset.toNat) (1 : ℚ)).map some :=
        field_barsOfInput .volumeSma _
      have hcomputed := compute_single h.function (barsOfInput .volumeSma (need + spec.offset.toNat))
      rw [reading_blank (blank_read_volumes (Ne.symm hne) _), hall, declaredValue,
        getD_some] at hcomputed
      rw [← hones, Int.ofNat_zero, hcomputed] at hdeclared
      cases hdeclared
    · obtain ⟨k, hk⟩ := Int.eq_ofNat_of_zero_le h.offset_nonneg
      obtain ⟨need, hneed⟩ := exists_needed h hperiod k
      have hcomputed := (isSome_compute_ones h (need + spec.offset.toNat)).mpr
        ⟨need, hk ▸ hneed, Nat.le_refl _⟩
      rw [hall, declaredValue, getD_some,
        reading_blank (blank_barsOfInput hne hvolume _)] at hcomputed
      cases hcomputed

theorem shift_of_compute_eq (h : Admitted f.function source spec)
    (hsource : source = none ∨ source = some f.input) {need : Nat}
    (hneed : f.needed spec.params 0 = some need)
    (heq : compute spec (barsOfInput f (need + spec.offset.toNat)) =
      declaredValue f source spec (barsOfInput f (need + spec.offset.toNat)))
    (hf : f = .volumeRatio) :
    spec.offset = 0 ∨ (spec.params.get? (Key.str "offset")).isSome := by
  by_cases hgiven : (spec.params.get? (Key.str "offset")).isSome
  · exact .inr hgiven
  · refine .inl ?_
    subst hf
    rw [Bool.not_eq_true, isSome_eq_false_iff, isNone_iff_eq_none] at hgiven
    have hfield : source.getD (SingleInput.input .volumeRatio) = SingleInput.input .volumeRatio := by
      rcases hsource with rfl | rfl <;> rfl
    have hdeclared := (isSome_reading_ones h 0 (need + spec.offset.toNat)).mpr
      ⟨need, hneed, Nat.le_refl _⟩
    rw [declaredValue, hfield, field_barsOfInput] at heq
    rw [Int.ofNat_zero, ← heq, isSome_compute_ones h] at hdeclared
    obtain ⟨shifted, hshifted, hle⟩ := hdeclared
    have hnonneg := h.offset_nonneg
    have hoffset : ∀ shift : Int, intParam? spec.params "offset" (some shift) = some shift := by
      intro shift
      rw [intParam?, hgiven]
    simp only [SingleInput.needed, hoffset, map_some] at hneed hshifted
    cases hp : intParam? spec.params "period" none with
    | none => simp [hp] at hneed
    | some p =>
      simp only [hp, bind_some, some.injEq, Int.toNat_zero] at hneed hshifted
      omega

end Difference

/-! ## a moving average of opens -/

/-- `sma(2)` of a source. -/
def smaOf (source : Option String) : Operand ℚ :=
  { kind := .indicator, name := some "sma", params := [(Key.str "period", .int 2)], source }

theorem admitted_smaOf (source : Option String)
    (h : (Compile.validateNamedIndicator (smaOf source) "sma" "left").passes) :
    Admitted SingleInput.sma.function (source.bind Named.ofName?) (inlineSpec (smaOf source) "sma") := by
  have hkeys : (smaOf source).params.keys.Nodup := nodup_singleton _
  exact .inline rfl hkeys h

def openCloseBars : List (Bar ℚ) :=
  [{ ts := 0, open_ := some 10, close := some 30 }, { ts := 1, open_ := some 20, close := some 40 }]

end FeatureEngine

end KiteAlgo
