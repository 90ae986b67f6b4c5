import KiteAlgo.Time
import Mathlib

/-!
# KiteAlgo.Time.Iso

The ISO text of a timestamp determines it.  `padded_append_inj` reads one padded number
off the front of a text; the calendar of `isoDate` is undone by its own equations, with
`dayOfYear_bounds` as the only fact about the lengths of years.
-/

namespace KiteAlgo

open List
/-! ## padded numbers -/

theorem toList_padded (width : Nat) (n : Int) :
    (padded width n).toList =
      replicate (width - (Nat.toDigits 10 n.toNat).length) '0' ++ Nat.toDigits 10 n.toNat := by
  simp [padded]

variable {n : Int} {width : Nat}

theorem length_padded (hwidth : 0 < width) (hn : n < 10 ^ width) :
    (padded width n).toList.length = width := by
  have hlt : n.toNat < 10 ^ width := by
    have hpos : 0 < 10 ^ width := Nat.pow_pos (by decide)
    have hcast : ((10 ^ width : Nat) : Int) = 10 ^ width := Int.natCast_pow 10 width
    omega
  have hle := (Nat.length_toDigits_le_iff (by decide) hwidth).mpr hlt
  rw [toList_padded, length_append, length_replicate]
  omega

theorem ofDigitChars_padded (width : Nat) (n : Int) :
    Nat.ofDigitChars 10 (padded width n).toList 0 = n.toNat := by
  rw [toList_padded, Nat.ofDigitChars_append, Nat.ofDigitChars_replicate_zero, Nat.mul_zero,
    Nat.ofDigitChars_ten_toDigits]

variable {xs ys : List Char}

theorem padded_append_inj {m : Int} (hwidth : 0 < width) (hn : 0 ≤ n ∧ n < 10 ^ width)
    (hm : 0 ≤ m ∧ m < 10 ^ width)
    (h : (padded width n).toList ++ xs = (padded width m).toList ++ ys) : n = m ∧ xs = ys := by
  have hlength : (padded width n).toList.length = (padded width m).toList.length := by
    rw [length_padded hwidth hn.2, length_padded hwidth hm.2]
  obtain ⟨hfront, hrest⟩ := append_inj h hlength
  have hvalue := congrArg (fun cs => Nat.ofDigitChars 10 cs 0) hfront
  simp only [ofDigitChars_padded] at hvalue
  exact ⟨by omega, hrest⟩

theorem isDigit_of_mem_padded {c : Char} (h : c ∈ (padded width n).toList) : c.isDigit := by
  rw [toList_padded, mem_append] at h
  cases h with
  | inl hzero => rw [eq_of_mem_replicate hzero]; rfl
  | inr hdigit => exact Nat.isDigit_of_mem_toDigits (by decide) (by decide) hdigit

/-! ## dates -/

def dayOfEra (day : Int) : Int := day + 719468 - (day + 719468) / 146097 * 146097

def yearOfEra (day : Int) : Int :=
  (dayOfEra day - dayOfEra day / 1460 + dayOfEra day / 36524 - dayOfEra day / 146096) / 365

/-- The day within its year, which starts in March. -/
def dayOfYear (day : Int) : Int :=
  dayOfEra day - (365 * yearOfEra day + yearOfEra day / 4 - yearOfEra day / 100)

def marchOf (day : Int) : Int := (5 * dayOfYear day + 2) / 153

/-- The calendar year, month and day of the month. -/
def civilOf (day : Int) : Int × Int × Int :=
  let month := if marchOf day < 10 then marchOf day + 3 else marchOf day - 9
  (yearOfEra day + (day + 719468) / 146097 * 400 + (if month ≤ 2 then 1 else 0), month,
    dayOfYear day - (153 * marchOf day + 2) / 5 + 1)

theorem isoDate_eq (day : Int) : isoDate day = padded 4 (civilOf day).1 ++ "-" ++
    padded 2 (civilOf day).2.1 ++ "-" ++ padded 2 (civilOf day).2.2 := rfl

theorem dayOfEra_bounds (day : Int) : 0 ≤ dayOfEra day ∧ dayOfEra day ≤ 146096 := by
  unfold dayOfEra
  omega

theorem yearOfEra_bounds (day : Int) : 0 ≤ yearOfEra day ∧ yearOfEra day ≤ 399 := by
  have hera := dayOfEra_bounds day
  unfold yearOfEra
  omega

theorem dayOfYear_bounds (day : Int) : 0 ≤ dayOfYear day ∧ dayOfYear day ≤ 365 := by
  have hera := dayOfEra_bounds day
  have hyears := yearOfEra_bounds day
  unfold dayOfYear
  unfold yearOfEra at hyears ⊢
  generalize dayOfEra day = d at hera hyears ⊢
  generalize hyear : (d - d / 1460 + d / 36524 - d / 146096) / 365 = year at hyears ⊢
  -- one century of days and one of years at a time
  have hcentury : d / 36524 = 0 ∨ d / 36524 = 1 ∨ d / 36524 = 2 ∨ d / 36524 = 3 ∨ d / 36524 = 4 := by
    omega
  have hhundred : year / 100 = 0 ∨ year / 100 = 1 ∨ year / 100 = 2 ∨ year / 100 = 3 := by
    omega
  rcases hcentury with hc | hc | hc | hc | hc <;> rcases hhundred with hh | hh | hh | hh <;>
    rw [hc] at hyear <;> rw [hh] <;> omega

theorem marchOf_bounds (day : Int) : 0 ≤ marchOf day ∧ marchOf day ≤ 11 := by
  have hyear := dayOfYear_bounds day
  unfold marchOf
  omega

theorem civilOf_bounds (day : Int) :
    (0 ≤ (civilOf day).2.1 ∧ (civilOf day).2.1 < 10 ^ 2) ∧
      0 ≤ (civilOf day).2.2 ∧ (civilOf day).2.2 < 10 ^ 2 := by
  have hmonth := marchOf_bounds day
  have hyear := dayOfYear_bounds day
  constructor
  · simp only [civilOf]
    split <;> omega
  · simp only [civilOf]
    unfold marchOf at hmonth ⊢
    omega

/-- A day that `date` can hold: 0001-01-01 to 9999-12-31. -/
def ValidDay (day : Int) : Prop := -719162 ≤ day ∧ day ≤ 2932896

variable {day : Int}

theorem civilOf_year_bounds (h : ValidDay day) :
    0 ≤ (civilOf day).1 ∧ (civilOf day).1 < 10 ^ 4 := by
  obtain ⟨hfirst, hlast⟩ := h
  have hyears := yearOfEra_bounds day
  have hmonth := marchOf_bounds day
  simp only [civilOf]
  by_cases hmarch : marchOf day < 10
  · rw [if_pos hmarch, if_neg (by omega)]
    omega
  · -- January and February of the last year of the last era are not reached
    rw [if_neg hmarch, if_pos (by omega)]
    have hlate : 306 ≤ dayOfYear day := by
      unfold marchOf at hmarch
      omega
    unfold dayOfYear dayOfEra at hlate
    omega

variable {day' : Int}

theorem civilOf_inj (h : civilOf day = civilOf day') : day = day' := by
  have hmarch := marchOf_bounds day
  have hmarch' := marchOf_bounds day'
  have hyears := yearOfEra_bounds day
  have hyears' := yearOfEra_bounds day'
  simp only [civilOf, Prod.mk.injEq] at h
  obtain ⟨hyear, hmonth, hday⟩ := h
  have hsame : marchOf day = marchOf day' := by
    split at hmonth <;> split at hmonth <;> omega
  rw [hsame] at hyear hday
  have heras : yearOfEra day = yearOfEra day' ∧ (day + 719468) / 146097 = (day' + 719468) / 146097 := by
    omega
  have hdoy : dayOfYear day = dayOfYear day' := by omega
  unfold dayOfYear at hdoy
  rw [heras.1] at hdoy
  unfold dayOfEra at hdoy
  omega

theorem toList_isoDate (day : Int) :
    (isoDate day).toList = (padded 4 (civilOf day).1).toList ++ '-' ::
      ((padded 2 (civilOf day).2.1).toList ++ '-' :: (padded 2 (civilOf day).2.2).toList) := by
  simp [isoDate_eq]

theorem length_isoDate (h : ValidDay day) : (isoDate day).toList.length = 10 := by
  obtain ⟨hmonth, hday⟩ := civilOf_bounds day
  rw [toList_isoDate, length_append, length_cons, length_append, length_cons,
    length_padded (by decide) (civilOf_year_bounds h).2, length_padded (by decide) hmonth.2,
    length_padded (by decide) hday.2]

theorem isoDate_append_inj (h : ValidDay day) (h' : ValidDay day')
    (heq : (isoDate day).toList ++ xs = (isoDate day').toList ++ ys) : day = day' ∧ xs = ys := by
  obtain ⟨hmonth, hday⟩ := civilOf_bounds day
  obtain ⟨hmonth', hday'⟩ := civilOf_bounds day'
  simp only [toList_isoDate, append_assoc, cons_append] at heq
  obtain ⟨hy, heq⟩ :=
    padded_append_inj (by decide) (civilOf_year_bounds h) (civilOf_year_bounds h') heq
  obtain ⟨hm, heq⟩ := padded_append_inj (by decide) hmonth hmonth' (List.cons.inj heq).2
  obtain ⟨hd, heq⟩ := padded_append_inj (by decide) hday hday' (List.cons.inj heq).2
  exact ⟨civilOf_inj (Prod.ext hy (Prod.ext hm hd)), heq⟩

/-! ## timestamps -/

/-- A timestamp that `datetime` can hold. -/
def ValidTs (ts : Int) : Prop := ValidDay (ts / microsPerDay)

def isoTime (inDay : Int) : String :=
  "T" ++ padded 2 (inDay / microsPerSecond / 3600) ++ ":" ++
    padded 2 (inDay / microsPerSecond / 60 % 60) ++ ":" ++ padded 2 (inDay / microsPerSecond % 60) ++
    (if inDay % microsPerSecond = 0 then "" else "." ++ padded 6 (inDay % microsPerSecond)) ++ "+00:00"

theorem toList_isoformat (ts : Int) :
    (isoformat ts).toList = (isoDate (ts / microsPerDay)).toList ++
      (isoTime (ts % microsPerDay)).toList := by
  simp [isoformat, isoTime]

theorem toList_isoTime (inDay : Int) :
    (isoTime inDay).toList = 'T' :: ((padded 2 (inDay / microsPerSecond / 3600)).toList ++
      ':' :: ((padded 2 (inDay / microsPerSecond / 60 % 60)).toList ++
        ':' :: ((padded 2 (inDay / microsPerSecond % 60)).toList ++ ((if inDay % microsPerSecond = 0 then []
            else '.' :: (padded 6 (inDay % microsPerSecond)).toList) ++ "+00:00".toList)))) := by
  unfold isoTime
  split <;> simp

variable {inDay : Int}

theorem timeOf_bounds (h : 0 ≤ inDay ∧ inDay < microsPerDay) :
    (0 ≤ inDay / microsPerSecond / 3600 ∧ inDay / microsPerSecond / 3600 < 10 ^ 2) ∧
      (0 ≤ inDay / microsPerSecond / 60 % 60 ∧ inDay / microsPerSecond / 60 % 60 < 10 ^ 2) ∧
      (0 ≤ inDay / microsPerSecond % 60 ∧ inDay / microsPerSecond % 60 < 10 ^ 2) ∧
      0 ≤ inDay % microsPerSecond ∧ inDay % microsPerSecond < 10 ^ 6 := by
  simp only [microsPerDay, microsPerSecond] at h ⊢
  omega

theorem isoTime_inj {inDay' : Int} (h : 0 ≤ inDay ∧ inDay < microsPerDay)
    (h' : 0 ≤ inDay' ∧ inDay' < microsPerDay)
    (heq : (isoTime inDay).toList = (isoTime inDay').toList) : inDay = inDay' := by
  obtain ⟨hhour, hminute, hsecond, hmicro⟩ := timeOf_bounds h
  obtain ⟨hhour', hminute', hsecond', hmicro'⟩ := timeOf_bounds h'
  rw [toList_isoTime, toList_isoTime] at heq
  obtain ⟨hours, heq⟩ := padded_append_inj (by decide) hhour hhour' (List.cons.inj heq).2
  obtain ⟨minutes, heq⟩ := padded_append_inj (by decide) hminute hminute' (List.cons.inj heq).2
  obtain ⟨seconds, heq⟩ := padded_append_inj (by decide) hsecond hsecond' (List.cons.inj heq).2
  have hmicros : inDay % microsPerSecond = inDay' % microsPerSecond := by
    by_cases hzero : inDay % microsPerSecond = 0
    · by_cases hzero' : inDay' % microsPerSecond = 0
      · rw [hzero, hzero']
      · simp [hzero, hzero'] at heq
    · by_cases hzero' : inDay' % microsPerSecond = 0
      · simp [hzero, hzero'] at heq
      · simp only [hzero, hzero', if_false, cons_append] at heq
        exact (padded_append_inj (by decide) hmicro hmicro' (List.cons.inj heq).2).1
  simp only [microsPerSecond] at hours minutes seconds hmicros
  omega

theorem length_isoTime (h : 0 ≤ inDay ∧ inDay < microsPerDay) :
    (isoTime inDay).toList.length = 15 ∨ (isoTime inDay).toList.length = 22 := by
  obtain ⟨hhour, hminute, hsecond, hmicro⟩ := timeOf_bounds h
  rw [toList_isoTime]
  simp only [length_cons, length_append, length_padded (by decide : 0 < 2) hhour.2,
    length_padded (by decide : 0 < 2) hminute.2, length_padded (by decide : 0 < 2) hsecond.2]
  split
  · left
    rfl
  · right
    rw [length_cons, length_padded (by decide) hmicro.2]
    rfl

theorem inDay_bounds (ts : Int) : 0 ≤ ts % microsPerDay ∧ ts % microsPerDay < microsPerDay := by
  simp only [microsPerDay, microsPerSecond]
  omega

variable {ts : Int}

theorem length_isoformat (h : ValidTs ts) :
    (isoformat ts).toList.length = 25 ∨ (isoformat ts).toList.length = 32 := by
  rw [toList_isoformat, length_append, length_isoDate h]
  have htime := length_isoTime (inDay_bounds ts)
  omega

theorem getLast?_isoformat (ts : Int) : (isoformat ts).toList.getLast? = some '0' := by
  simp only [isoformat]
  rw [String.toList_append, getLast?_append]
  rfl

variable {ts' : Int}

theorem isoformat_inj (h : ValidTs ts) (h' : ValidTs ts')
    (heq : (isoformat ts).toList = (isoformat ts').toList) : ts = ts' := by
  rw [toList_isoformat, toList_isoformat] at heq
  obtain ⟨hday, htime⟩ := isoDate_append_inj h h' heq
  have hinDay := isoTime_inj (inDay_bounds ts) (inDay_bounds ts') htime
  rw [← Int.mul_ediv_add_emod ts microsPerDay, ← Int.mul_ediv_add_emod ts' microsPerDay, hday, hinDay]

theorem isoformat_ne_tail (h : ValidTs ts) (h' : ValidTs ts') :
    (isoformat ts).toList ≠ (isoformat ts').toList.drop 7 := by
  intro heq
  obtain ⟨hmonth', -⟩ := civilOf_bounds (ts' / microsPerDay)
  have htail : ∃ rest, (isoformat ts').toList.drop 7 = '-' :: rest := by
    refine ⟨(padded 2 (civilOf (ts' / microsPerDay)).2.2).toList ++
      (isoTime (ts' % microsPerDay)).toList, ?_⟩
    rw [toList_isoformat, toList_isoDate, append_assoc, cons_append, append_assoc,
      cons_append, ← singleton_append, ← append_assoc, ← append_assoc]
    apply drop_left'
    rw [length_append, length_append, length_padded (by decide) (civilOf_year_bounds h').2,
      length_padded (by decide) hmonth'.2]
    rfl
  obtain ⟨rest, hrest⟩ := htail
  rw [hrest, toList_isoformat, toList_isoDate] at heq
  have hlength := length_padded (by decide : 0 < 4) (civilOf_year_bounds h).2
  cases hyear : (padded 4 (civilOf (ts / microsPerDay)).1).toList with
  | nil =>
    rw [hyear] at hlength
    cases hlength
  | cons c cs =>
    rw [hyear] at heq
    obtain ⟨rfl, -⟩ := List.cons.inj heq
    have hdigit := isDigit_of_mem_padded (hyear ▸ mem_cons_self)
    cases hdigit

theorem isoformat_suffix_inj (h : ValidTs ts) (h' : ValidTs ts')
    (heq : xs ++ (isoformat ts).toList = ys ++ (isoformat ts').toList) : ts = ts' := by
  have hlength := length_isoformat h
  have hlength' := length_isoformat h'
  have htail : ∀ {t t' : Int} {xs ys : List Char}, ValidTs t → ValidTs t' →
      (isoformat t).toList.length = 25 → (isoformat t').toList.length = 32 →
      xs ++ (isoformat t).toList ≠ ys ++ (isoformat t').toList := by
    intro t t' xs ys hv hv' hshort hlong heq
    rw [← take_append_drop 7 (isoformat t').toList, ← append_assoc] at heq
    have hdrop := (append_inj' heq (by rw [length_drop, hshort, hlong])).2
    exact isoformat_ne_tail hv hv' hdrop
  by_cases hsame : (isoformat ts).toList.length = (isoformat ts').toList.length
  · exact isoformat_inj h h' (append_inj' heq hsame).2
  · cases hlength with
    | inl hshort => exact absurd heq (htail h h' hshort (by omega))
    | inr hlong => exact absurd heq.symm (htail h' h (by omega) hlong)

end KiteAlgo
