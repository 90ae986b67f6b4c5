/-!
# KiteAlgo.Lib.Except

Inversion and evaluation rules for fallible programs written in `Except`:
peeling a successful bind apart, guards, and the indexed traversal
`mapIdxM` that models `tuple(f(x, i) for i, x in enumerate(xs))`.
-/

namespace KiteAlgo

open List
universe u v

variable {ε : Type u} {α β γ : Type v}

theorem bind_eq_ok {first : Except ε α} {next : α → Except ε β} {r : β} :
    first >>= next = .ok r ↔ ∃ a, first = .ok a ∧ next a = .ok r := by
  constructor
  · intro h
    match first, h with
    | .ok a, h => exact ⟨a, rfl, h⟩
  · rintro ⟨a, rfl, h⟩
    exact h

@[simp] theorem ok_bind (a : α) (next : α → Except ε β) : (Except.ok a >>= next) = next a := rfl

@[simp] theorem error_bind (e : ε) (next : α → Except ε β) :
    ((Except.error e : Except ε α) >>= next) = .error e := rfl

/-- Raise `e` unless the check `c` holds. -/
def ensure (c : Bool) (e : ε) : Except ε PUnit := if c then .ok ⟨⟩ else .error e

theorem ensure_eq_ok {c : Bool} {e : ε} {u : PUnit} : ensure c e = .ok u ↔ c := by
  cases c <;> simp [ensure]

@[simp] theorem ensure_true (e : ε) : ensure true e = .ok ⟨⟩ := rfl

@[simp] theorem ensure_false (e : ε) : ensure false e = .error e := rfl

/-- `tuple(f(i, a) for i, a in enumerate(as, start=i))`, stopping at the first
error. -/
def mapIdxM (f : Nat → α → Except ε β) : Nat → List α → Except ε (List β)
  | _, [] => .ok []
  | i, a :: as => do
    let b ← f i a
    let bs ← mapIdxM f (i + 1) as
    .ok (b :: bs)

variable {bs : List β} {f : Nat → α → Except ε β}

theorem mapIdxM_map {g : β → α} (h : ∀ b ∈ bs, ∀ i, f i (g b) = .ok b) (i : Nat) :
    mapIdxM f i (bs.map g) = .ok bs := by
  induction bs generalizing i with
  | nil => rfl
  | cons b bs ih =>
    have hb := h b (.head _) i
    have hbs := ih (fun c hc => h c (mem_cons_of_mem b hc)) (i + 1)
    simp [mapIdxM, hb, hbs]

variable {as : List α} {i : Nat}

theorem exists_of_mem_mapIdxM (h : mapIdxM f i as = .ok bs) {b : β} (hb : b ∈ bs) :
    ∃ j, ∃ a ∈ as, f j a = .ok b := by
  induction as generalizing i bs with
  | nil =>
    simp only [mapIdxM, Except.ok.injEq] at h
    subst h
    simp at hb
  | cons a as ih =>
    simp only [mapIdxM, bind_eq_ok, Except.ok.injEq] at h
    obtain ⟨c, hc, cs, hcs, rfl⟩ := h
    rcases mem_cons.mp hb with rfl | hb
    · exact ⟨i, a, (.head _), hc⟩
    · obtain ⟨j, a', ha', hj⟩ := ih hcs hb
      exact ⟨j, a', mem_cons_of_mem a ha', hj⟩

theorem exists_ok_of_mem_mapIdxM (h : mapIdxM f i as = .ok bs) {a : α} (ha : a ∈ as) :
    ∃ j, ∃ b ∈ bs, f j a = .ok b := by
  induction as generalizing i bs with
  | nil => simp at ha
  | cons c as ih =>
    simp only [mapIdxM, bind_eq_ok, Except.ok.injEq] at h
    obtain ⟨b, hb, bs', hbs', rfl⟩ := h
    rcases mem_cons.mp ha with rfl | ha
    · exact ⟨i, b, (.head _), hb⟩
    · obtain ⟨j, b', hb', hj⟩ := ih hbs' ha
      exact ⟨j, b', mem_cons_of_mem b hb', hj⟩

theorem length_of_mapIdxM (h : mapIdxM f i as = .ok bs) : bs.length = as.length := by
  induction as generalizing i bs with
  | nil =>
    simp only [mapIdxM, Except.ok.injEq] at h
    simp [← h]
  | cons a as ih =>
    simp only [mapIdxM, bind_eq_ok, Except.ok.injEq] at h
    obtain ⟨c, _, cs, hcs, rfl⟩ := h
    simp [ih hcs]

end KiteAlgo
