import Mathlib.Data.List.Induction

/-!
# KiteAlgo.Lib.Run

Runs of a machine that handles one request at a time and may record items while
it does.  `Machine.Along` says what every request of a run meets in the state it
arrives in, and `Machine.history` is the induction rule: an invariant over the
items recorded so far, the requests still to come and the state.
-/

namespace KiteAlgo

open List
universe u v w

/-! ## every element with those before it -/

section AtEach

variable {α : Type u}

/-- Every element of a list, with the elements before it, meets `P`. -/
def AtEach (P : List α → α → Prop) (xs : List α) : Prop :=
  ∀ past x rest, xs = past ++ x :: rest → P past x

variable {P : List α → α → Prop}

theorem atEach_nil : AtEach P [] := by
  intro past x rest h
  simp at h

variable {x : α} {xs : List α}

theorem atEach_cons : AtEach P (x :: xs) ↔ P [] x ∧ AtEach (fun past y => P (x :: past) y) xs := by
  constructor
  · intro h
    refine ⟨h [] x xs rfl, fun past y rest hxs => ?_⟩
    exact h (x :: past) y rest (by rw [hxs, cons_append])
  · intro h past y rest hxs
    cases past with
    | nil =>
      obtain ⟨rfl, -⟩ := List.cons.inj hxs
      exact h.1
    | cons z past =>
      obtain ⟨rfl, hrest⟩ := List.cons.inj hxs
      exact h.2 past y rest hrest

theorem atEach_concat : AtEach P (xs ++ [x]) ↔ AtEach P xs ∧ P xs x := by
  constructor
  · intro h
    refine ⟨fun past y rest hxs => ?_, h xs x [] rfl⟩
    exact h past y (rest ++ [x]) (by rw [hxs, append_assoc, cons_append])
  · intro h past y rest hxs
    cases rest using reverseRecOn with
    | nil =>
      obtain ⟨rfl, hy⟩ := append_inj' hxs rfl
      rw [← (List.cons.inj hy).1]
      exact h.2
    | append_singleton rest z =>
      rw [← cons_append, ← append_assoc] at hxs
      exact h.1 past y rest (append_inj' hxs rfl).1

theorem AtEach.concat_prefix (h : AtEach P xs) : ∀ past x, past ++ [x] <+: xs → P past x := by
  rintro past x ⟨rest, rfl⟩
  exact h past x rest (by simp)

instance decidableAtEach (P : List α → α → Prop) [h : ∀ past x, Decidable (P past x)] :
    ∀ xs, Decidable (AtEach P xs)
  | [] => isTrue atEach_nil
  | x :: xs =>
    have := @decidableAtEach (fun past y => P (x :: past) y) (fun past y => h (x :: past) y) xs
    decidable_of_iff (P [] x ∧ AtEach (fun past y => P (x :: past) y) xs) atEach_cons.symm

theorem atEach_congr {Q R : List α → α → Prop} (hR : AtEach R xs)
    (h : ∀ past x, R past x → (P past x ↔ Q past x)) : AtEach P xs ↔ AtEach Q xs := by
  constructor
  · intro hP past x rest hxs
    exact (h past x (hR past x rest hxs)).mp (hP past x rest hxs)
  · intro hQ past x rest hxs
    exact (h past x (hR past x rest hxs)).mpr (hQ past x rest hxs)

/-- Some element of the list, with the elements after it, meets `R`: since then only what `R` says
has happened. -/
def Since (R : α → List α → Prop) (xs : List α) : Prop :=
  ∃ before x after, xs = before ++ x :: after ∧ R x after

theorem since_concat {R : α → List α → Prop} :
    Since R (xs ++ [x]) ↔ R x [] ∨ Since (fun y after => R y (after ++ [x])) xs := by
  constructor
  · rintro ⟨before, y, after, h, hR⟩
    cases after using reverseRecOn with
    | nil =>
      obtain ⟨-, hy⟩ := append_inj' h rfl
      rw [← (List.cons.inj hy).1] at hR
      exact .inl hR
    | append_singleton after z =>
      rw [← cons_append, ← append_assoc] at h
      obtain ⟨hxs, hz⟩ := append_inj' h rfl
      rw [← (List.cons.inj hz).1] at hR
      exact .inr ⟨before, y, after, hxs, hR⟩
  · rintro (hR | ⟨before, y, after, rfl, hR⟩)
    · exact ⟨xs, x, [], rfl, hR⟩
    · exact ⟨before, y, after ++ [x], by simp, hR⟩

theorem Since.mono {R S : α → List α → Prop} (h : ∀ x after, R x after → S x after)
    (hR : Since R xs) : Since S xs := by
  obtain ⟨before, x, after, hxs, hR⟩ := hR
  exact ⟨before, x, after, hxs, h x after hR⟩

end AtEach

/-! ## machines -/

/-- A machine: the state after a request, and the items the request records. -/
structure Machine (α : Type u) (σ : Type v) (ε : Type w) where
  step : α → σ → σ
  out : α → σ → List ε

namespace Machine

variable {α : Type u} {σ : Type v} {ε : Type w} (m : Machine α σ ε)

def run : List α → σ → σ
  | [], s => s
  | r :: rest, s => run rest (m.step r s)

/-- Everything a list of requests records, in order. -/
def trace : List α → σ → List ε
  | [], _ => []
  | r :: rest, s => m.out r s ++ trace rest (m.step r s)

theorem run_append (reqs reqs' : List α) (s : σ) :
    m.run (reqs ++ reqs') s = m.run reqs' (m.run reqs s) := by
  induction reqs generalizing s with
  | nil => rfl
  | cons r rest ih => exact ih _

theorem trace_append (reqs reqs' : List α) (s : σ) :
    m.trace (reqs ++ reqs') s = m.trace reqs s ++ m.trace reqs' (m.run reqs s) := by
  induction reqs generalizing s with
  | nil => rfl
  | cons r rest ih => rw [cons_append, trace, trace, ih, append_assoc, run]

/-- Every request, with those after it, meets `P` in the state it arrives in. -/
def Along (P : α → List α → σ → Prop) : List α → σ → Prop
  | [], _ => True
  | r :: rest, s => P r rest s ∧ Along P rest (m.step r s)

instance decidableAlong (P : α → List α → σ → Prop) [∀ r rest s, Decidable (P r rest s)] :
    ∀ reqs s, Decidable (m.Along P reqs s)
  | [], _ => isTrue trivial
  | r :: rest, s =>
    have := decidableAlong P rest (m.step r s)
    inferInstanceAs (Decidable (P r rest s ∧ m.Along P rest (m.step r s)))

variable {m}

variable {P Q : α → List α → σ → Prop} {reqs : List α} {s : σ}

theorem Along.mono (hPQ : ∀ r rest s, P r rest s → Q r rest s) (h : m.Along P reqs s) :
    m.Along Q reqs s := by
  induction reqs generalizing s with
  | nil => trivial
  | cons r rest ih => exact ⟨hPQ r rest s h.1, ih h.2⟩

theorem Along.and (hP : m.Along P reqs s) (hQ : m.Along Q reqs s) :
    m.Along (fun r rest s => P r rest s ∧ Q r rest s) reqs s := by
  induction reqs generalizing s with
  | nil => trivial
  | cons r rest ih => exact ⟨⟨hP.1, hQ.1⟩, ih hP.2 hQ.2⟩

theorem along_append {P : α → σ → Prop} {reqs' : List α} :
    m.Along (fun r _ s => P r s) (reqs ++ reqs') s ↔
      m.Along (fun r _ s => P r s) reqs s ∧ m.Along (fun r _ s => P r s) reqs' (m.run reqs s) := by
  induction reqs generalizing s with
  | nil => exact ⟨fun h => ⟨trivial, h⟩, And.right⟩
  | cons r rest ih => exact (and_congr_right fun _ => ih).trans and_assoc.symm

theorem Along.keeps {I : σ → Prop} (hstep : ∀ r rest s, P r rest s → I s → I (m.step r s))
    (hP : m.Along P reqs s) (hinv : I s) : I (m.run reqs s) := by
  induction reqs generalizing s with
  | nil => exact hinv
  | cons r rest ih => exact ih hP.2 (hstep r rest s hP.1 hinv)

/-- Where two conditions agree at every request as long as an invariant holds, which the first
keeps, they agree along every run. -/
theorem along_congr {I : σ → Prop} {P Q : α → List α → σ → Prop}
    (hiff : ∀ r rest s, I s → (P r rest s ↔ Q r rest s))
    (hkeep : ∀ r rest s, I s → P r rest s → I (m.step r s)) {reqs : List α} {s : σ} (hinv : I s) :
    m.Along P reqs s ↔ m.Along Q reqs s := by
  induction reqs generalizing s with
  | nil => exact Iff.rfl
  | cons r rest ih =>
    constructor
    · intro h
      exact ⟨(hiff r rest s hinv).mp h.1, (ih (hkeep r rest s hinv h.1)).mp h.2⟩
    · intro h
      have hP := (hiff r rest s hinv).mpr h.1
      exact ⟨hP, (ih (hkeep r rest s hinv hP)).mpr h.2⟩

theorem Along.of_forall {P : α → Prop} (h : ∀ r ∈ reqs, P r) (s : σ) :
    m.Along (fun r _ _ => P r) reqs s := by
  induction reqs generalizing s with
  | nil => trivial
  | cons r rest ih =>
    exact ⟨h r (.head _), ih (fun q hq => h q (mem_cons_of_mem r hq)) _⟩

theorem Along.of_pairwise {R : α → α → Prop} (h : reqs.Pairwise R) (s : σ) :
    m.Along (fun r rest _ => ∀ q ∈ rest, R r q) reqs s := by
  induction reqs generalizing s with
  | nil => trivial
  | cons r rest ih =>
    rw [pairwise_cons] at h
    exact ⟨h.1, ih h.2 _⟩

theorem history {I : List ε → List α → σ → Prop}
    (hstep : ∀ {past r rest s}, I past (r :: rest) s → P r rest s →
      I (past ++ m.out r s) rest (m.step r s)) {past : List ε} (hinv : I past reqs s)
    (hP : m.Along P reqs s) :
    I (past ++ m.trace reqs s) [] (m.run reqs s) := by
  induction reqs generalizing past s with
  | nil => simpa [trace, run] using hinv
  | cons r rest ih =>
    rw [trace, run, ← append_assoc]
    exact ih (hstep hinv hP.1) hP.2

theorem pairwise_trace {K : ε → σ → Prop} {Q : ε → ε → Prop}
    (hself : ∀ r s, (m.out r s).Pairwise Q)
    (hnew : ∀ r s, ∀ e ∈ m.out r s, K e (m.step r s))
    (hkeep : ∀ r s e, K e s → K e (m.step r s))
    (hlater : ∀ r s e, K e s → ∀ e' ∈ m.out r s, Q e e')
    (reqs : List α) (s : σ) : (m.trace reqs s).Pairwise Q := by
  have hfrom : ∀ reqs s e, K e s → ∀ e' ∈ m.trace reqs s, Q e e' := by
    intro reqs
    induction reqs with
    | nil => simp [trace]
    | cons r rest ih =>
      intro s e hK e' he'
      rw [trace, mem_append] at he'
      cases he' with
      | inl hout => exact hlater r s e hK e' hout
      | inr hrest => exact ih _ e (hkeep r s e hK) e' hrest
  induction reqs generalizing s with
  | nil => simp [trace]
  | cons r rest ih =>
    rw [trace, pairwise_append]
    exact ⟨hself r s, ih _, fun e he e' he' => hfrom rest _ e (hnew r s e he) e' he'⟩

theorem run_map_trace {request : ε → α}
    (hout : ∀ r s, (m.out r s).map request = [r] ∨ m.out r s = [] ∧ m.step r s = s)
    (reqs : List α) (s : σ) : m.run ((m.trace reqs s).map request) s = m.run reqs s := by
  induction reqs generalizing s with
  | nil => rfl
  | cons r rest ih =>
    rw [trace, map_append]
    cases hout r s with
    | inl hone =>
      rw [hone]
      exact ih _
    | inr hnone =>
      rw [hnone.1, hnone.2, map_nil, nil_append, ih, run, hnone.2]

/-- When each request alone decides whether its items are good, a run records only
good items exactly when all its requests are good. -/
theorem forall_trace_iff {I : σ → Prop} {C : α → Prop} {Q : ε → Prop}
    (hstep : ∀ r s, I s → ((∀ e ∈ m.out r s, Q e) ↔ C r) ∧ (C r → I (m.step r s)))
    {reqs : List α} {s : σ} (hinv : I s) :
    (∀ e ∈ m.trace reqs s, Q e) ↔ ∀ r ∈ reqs, C r := by
  induction reqs generalizing s with
  | nil => simp [trace]
  | cons r rest ih =>
    obtain ⟨hout, hkeep⟩ := hstep r s hinv
    simp only [trace, mem_append, or_imp, forall_and, forall_mem_cons]
    rw [hout]
    exact and_congr_right fun hC => ih (hkeep hC)

/-- The machine of calls that record one item each. -/
def ofCall (call : α → σ → ε × σ) : Machine α σ ε where
  step r s := (call r s).2
  out r s := [(call r s).1]

section Calls

variable {call : α → σ → ε × σ}

theorem forall_trace_ofCall {I : σ → Prop} {Q : ε → Prop}
    (hstep : ∀ r s, I s → Q (call r s).1 ∧ I (call r s).2) (reqs : List α) {s : σ} (hinv : I s) :
    ∀ e ∈ (ofCall call).trace reqs s, Q e := by
  induction reqs generalizing s with
  | nil => simp [trace]
  | cons r rest ih =>
    intro e he
    rw [trace, mem_append] at he
    cases he with
    | inl hout => rw [mem_singleton.mp hout]; exact (hstep r s hinv).1
    | inr hrest => exact ih (hstep r s hinv).2 e hrest

theorem run_ofCall_invariant {I : σ → Prop} (hstep : ∀ r s, I s → I (call r s).2) (reqs : List α)
    {s : σ} (hinv : I s) : I ((ofCall call).run reqs s) := by
  induction reqs generalizing s with
  | nil => exact hinv
  | cons r rest ih => exact ih (hstep r s hinv)

theorem exists_of_trace_ofCall {reqs : List α} {s : σ} {before after : List ε} {e : ε}
    (h : (ofCall call).trace reqs s = before ++ e :: after) :
    ∃ first r rest, reqs = first ++ r :: rest ∧ (ofCall call).trace first s = before ∧
      (call r ((ofCall call).run first s)).1 = e ∧
      (ofCall call).trace rest (call r ((ofCall call).run first s)).2 = after := by
  induction reqs generalizing s before with
  | nil => simp [trace] at h
  | cons r rest ih =>
    rw [trace] at h
    cases before with
    | nil =>
      obtain ⟨he, hafter⟩ := List.cons.inj h
      exact ⟨[], r, rest, rfl, rfl, he, hafter⟩
    | cons e' before =>
      obtain ⟨he', htail⟩ := List.cons.inj h
      obtain ⟨first, r', rest', rfl, hbefore, he, hafter⟩ := ih htail
      refine ⟨r :: first, r', rest', rfl, ?_, he, hafter⟩
      rw [trace, hbefore, ← he']
      rfl

end Calls

/-- The machine of calls that may raise: such a call records nothing and changes nothing. -/
def ofReturning {δ : Type*} (call : α → σ → Except δ (ε × σ)) : Machine α σ ε where
  step r s :=
    match call r s with
    | .ok done => done.2
    | .error _ => s
  out r s :=
    match call r s with
    | .ok done => [done.1]
    | .error _ => []

/-- The induction over such a run: `I` relates what is recorded so far to the state, and gives `P`
of each item with those before it. -/
theorem atEach_ofReturning {δ : Type*} {call : α → σ → Except δ (ε × σ)} {I : List ε → σ → Prop}
    {P : List ε → ε → Prop}
    (hstep : ∀ {past r s e s'}, I past s → call r s = .ok (e, s') → P past e ∧ I (past ++ [e]) s')
    {s : σ} (hinit : I [] s) (reqs : List α) : AtEach P ((ofReturning call).trace reqs s) := by
  have hrun : AtEach P ([] ++ (ofReturning call).trace reqs s) ∧
      I ([] ++ (ofReturning call).trace reqs s) ((ofReturning call).run reqs s) := by
    refine history (P := fun _ _ _ => True) (I := fun past _ s => AtEach P past ∧ I past s) ?_
      ⟨atEach_nil, hinit⟩ (Along.of_forall (fun _ _ => trivial) s)
    rintro past r rest s ⟨hpast, hI⟩ -
    simp only [ofReturning]
    cases hcall : call r s with
    | error e =>
      rw [append_nil]
      exact ⟨hpast, hI⟩
    | ok done =>
      obtain ⟨hP, hI'⟩ := hstep hI hcall
      exact ⟨atEach_concat.mpr ⟨hpast, hP⟩, hI'⟩
  exact hrun.1

end Machine

end KiteAlgo
