/-!
# KiteAlgo.Lib.Dict

Insertion-ordered dictionaries as association lists: the semantics of a
Python `dict` that the rest of the development needs.  Setting an existing key
keeps its position, setting a new key appends it, and lookups see the first
entry of a key.

Everything here is stated over arbitrary key and value types, and later proofs
only use the lookup laws (`get?_set_self`, `get?_set_of_ne`, …), never the list
underneath.
-/

namespace KiteAlgo

open List
universe u v w

abbrev Dict (α : Type u) (β : Type v) := List (α × β)

namespace Dict

variable {α : Type u} {β : Type v} [DecidableEq α]

/-- `d.get(k)`: the value of the first entry of `k`. -/
def get? : Dict α β → α → Option β
  | [], _ => none
  | (k', v) :: d, k => if k' = k then some v else get? d k

/-- `k in d`. -/
def contains (d : Dict α β) (k : α) : Bool := (get? d k).isSome

/-- `d[k] = v`: an existing key keeps its position, a new one is appended. -/
def set : Dict α β → α → β → Dict α β
  | [], k, v => [(k, v)]
  | (k', v') :: d, k, v => if k' = k then (k', v) :: d else (k', v') :: set d k v

/-- `d.pop(k, None)`. -/
def erase (d : Dict α β) (k : α) : Dict α β := d.filter fun e => decide (e.1 ≠ k)

/-- `for k in ks: d.pop(k, None)`. -/
def eraseAll (d : Dict α β) (ks : List α) : Dict α β := ks.foldl erase d

/-- `d.setdefault(k, v)`. -/
def setDefault (d : Dict α β) (k : α) (v : β) : Dict α β :=
  if d.contains k then d else d.set k v

/-- `d.update(e)`. -/
def update (d e : Dict α β) : Dict α β := e.foldl (fun acc kv => acc.set kv.1 kv.2) d

/-- `for k, v in e.items(): d.setdefault(k, v)`. -/
def mergeDefaults (d e : Dict α β) : Dict α β := e.foldl (fun acc kv => acc.setDefault kv.1 kv.2) d

/-- `d[k] = v` in a dictionary of at most `n` entries: a new key makes the oldest leave. -/
def setBounded (n : Nat) (d : Dict α β) (k : α) (v : β) : Dict α β :=
  if d.contains k then d.set k v
  else
    let grown := d ++ [(k, v)]
    grown.drop (grown.length - n)

/-- `d.keys()`. -/
def keys (d : Dict α β) : List α := d.map Prod.fst

/-- `d.values()`. -/
def values (d : Dict α β) : List β := d.map Prod.snd

/-! ## lookups -/

variable {k k' : α}

@[simp] theorem get?_nil (k : α) : get? ([] : Dict α β) k = none := rfl

@[simp] theorem get?_cons (k' : α) (v : β) (d : Dict α β) (k : α) :
    get? ((k', v) :: d) k = if k' = k then some v else get? d k := rfl

@[simp] theorem get?_set_self (d : Dict α β) (k : α) (v : β) : (d.set k v).get? k = some v := by
  induction d with
  | nil => simp [set]
  | cons e d ih =>
    obtain ⟨k', v'⟩ := e
    by_cases h : k' = k <;> simp [set, h, ih]

theorem get?_set_of_ne (h : k ≠ k') (d : Dict α β) (v : β) : (d.set k v).get? k' = d.get? k' := by
  induction d with
  | nil => simp [set, h]
  | cons e d ih =>
    obtain ⟨k₀, v₀⟩ := e
    by_cases h₀ : k₀ = k
    · subst h₀; simp [set, h]
    · rw [set, if_neg h₀, get?_cons, get?_cons, ih]

theorem set_set (d : Dict α β) (k : α) (v w : β) : (d.set k v).set k w = d.set k w := by
  induction d with
  | nil => simp [set]
  | cons e d ih =>
    obtain ⟨k', v'⟩ := e
    by_cases hk : k' = k
    · simp [set, hk]
    · simp [set, hk, ih]

theorem get?_set (d : Dict α β) (k k' : α) (v : β) :
    (d.set k v).get? k' = if k = k' then some v else d.get? k' := by
  by_cases h : k = k'
  · subst h; simp
  · rw [get?_set_of_ne h, if_neg h]

@[simp] theorem get?_append (d e : Dict α β) (k : α) :
    get? (d ++ e) k = (d.get? k).or (e.get? k) := by
  induction d with
  | nil => simp
  | cons p d ih =>
    obtain ⟨k', v⟩ := p
    by_cases h : k' = k <;> simp [h, ih]

theorem get?_setDefault (d : Dict α β) (k k' : α) (v : β) :
    (d.setDefault k v).get? k' = if k = k' then some ((d.get? k).getD v) else d.get? k' := by
  unfold setDefault contains
  cases hk : d.get? k with
  | none => simp [get?_set]
  | some w =>
    by_cases h : k = k'
    · subst h; simp [hk]
    · simp [h]

theorem get?_mergeDefaults (d e : Dict α β) (k : α) :
    (d.mergeDefaults e).get? k = (d.get? k).or (e.get? k) := by
  induction e generalizing d with
  | nil => simp [mergeDefaults]
  | cons p e ih =>
    obtain ⟨k', v⟩ := p
    have hstep : (d.mergeDefaults ((k', v) :: e)) = (d.setDefault k' v).mergeDefaults e := rfl
    rw [hstep, ih, get?_setDefault, get?_cons]
    by_cases h : k' = k
    · subst h
      cases d.get? k' <;> simp
    · simp [h]

variable {d : Dict α β}

theorem get?_eq_none_iff : d.get? k = none ↔ k ∉ d.keys := by
  induction d with
  | nil => simp [keys]
  | cons e d ih =>
    obtain ⟨k', v⟩ := e
    by_cases h : k' = k
    · simp [keys, h]
    · have h' : ¬ k = k' := fun hk => h hk.symm
      simpa [keys, h, h'] using ih

variable {e : Dict α β}

theorem get?_update (h : e.keys.Nodup) (k : α) :
    (d.update e).get? k = (e.get? k).or (d.get? k) := by
  induction e generalizing d with
  | nil => rfl
  | cons p e ih =>
    obtain ⟨k', v⟩ := p
    have hparts : k' ∉ keys e ∧ (keys e).Nodup := nodup_cons.mp h
    have hstep : d.update ((k', v) :: e) = (d.set k' v).update e := rfl
    rw [hstep, ih hparts.2, get?_set, get?_cons]
    by_cases hk : k' = k
    · subst hk
      simp [get?_eq_none_iff.mpr hparts.1]
    · simp [hk]

variable {γ : Type w}

theorem get?_map_of_mem (key : γ → α) (value : γ → β) {items : List γ} {c : γ}
    (hkey : ∀ c', key c' = key c → c' = c) (hc : c ∈ items) :
    get? (items.map fun c => (key c, value c)) (key c) = some (value c) := by
  induction items with
  | nil => simp at hc
  | cons c' items ih =>
    by_cases h : key c' = key c
    · simp [hkey c' h]
    · have hc : c ∈ items := (mem_cons.mp hc).resolve_left fun he => h (he ▸ rfl)
      simp only [map_cons, get?_cons, if_neg h]
      exact ih hc

variable {v : β}

theorem mem_of_get? (h : d.get? k = some v) : (k, v) ∈ d := by
  induction d with
  | nil => simp at h
  | cons e d ih =>
    obtain ⟨k', v'⟩ := e
    by_cases hk : k' = k
    · simp only [get?_cons, hk, if_true, Option.some.injEq] at h
      simp [hk, h]
    · simp only [get?_cons, hk, if_false] at h
      exact mem_cons_of_mem _ (ih h)

theorem mem_set {e : α × β} (h : e ∈ d.set k v) : e = (k, v) ∨ e ∈ d := by
  induction d with
  | nil => exact .inl (by simpa [set] using h)
  | cons e' d ih =>
    obtain ⟨k', v'⟩ := e'
    by_cases hk : k' = k
    · subst hk
      rw [set, if_pos rfl] at h
      grind
    · rw [set, if_neg hk] at h
      grind

/-! ## lookups when no key occurs twice -/

theorem mem_iff_get? (h : d.keys.Nodup) : (k, v) ∈ d ↔ d.get? k = some v := by
  induction d with
  | nil => simp
  | cons e d ih =>
    obtain ⟨k', v'⟩ := e
    have hparts : k' ∉ keys d ∧ (keys d).Nodup := nodup_cons.mp h
    rw [mem_cons, get?_cons, Prod.mk.injEq, ih hparts.2]
    by_cases hk : k' = k
    · subst hk
      simp [get?_eq_none_iff.mpr hparts.1, eq_comm]
    · have hk' : ¬ k = k' := fun h => hk h.symm
      simp [hk, hk']

theorem get?_perm (hperm : d.Perm e) (h : d.keys.Nodup) (k : α) : d.get? k = e.get? k := by
  have he : e.keys.Nodup := (hperm.map Prod.fst).nodup_iff.mp h
  ext v
  rw [← mem_iff_get? h, ← mem_iff_get? he, hperm.mem_iff]

theorem get?_mapValues (f : α → β → γ) (d : Dict α β) (k : α) :
    get? (d.map fun e => (e.1, f e.1 e.2)) k = (d.get? k).map (f k) := by
  induction d with
  | nil => rfl
  | cons e d ih =>
    obtain ⟨k', v⟩ := e
    by_cases hk : k' = k
    · subst hk; simp
    · simp [hk, ih]

theorem get?_filterKeys (p : α → Bool) (d : Dict α β) (k : α) :
    get? (d.filter fun e => p e.1) k = if p k then d.get? k else none := by
  induction d with
  | nil => simp
  | cons e d ih =>
    obtain ⟨k', v⟩ := e
    by_cases hk : k' = k
    · subst hk
      by_cases hp : p k' <;> simp [hp, ih]
    · by_cases hp : p k' <;> simp [hp, hk, ih]

theorem get?_erase (d : Dict α β) (k k' : α) :
    (d.erase k).get? k' = if k = k' then none else d.get? k' := by
  rw [erase, get?_filterKeys fun key => decide (key ≠ k)]
  by_cases hk : k = k'
  · simp [hk]
  · have hk' : k' ≠ k := fun h => hk h.symm
    simp [hk, hk']

theorem flatMap_eq_of_key (f : β → List γ) (h : d.keys.Nodup) (k : α) :
    (d.flatMap fun e => if e.1 = k then f e.2 else []) = ((d.get? k).map f).getD [] := by
  induction d with
  | nil => rfl
  | cons e d ih =>
    obtain ⟨k', v⟩ := e
    have hparts : k' ∉ keys d ∧ (keys d).Nodup := nodup_cons.mp h
    rw [flatMap_cons, ih hparts.2, get?_cons]
    by_cases hk : k' = k
    · subst hk
      simp [get?_eq_none_iff.mpr hparts.1]
    · simp [hk]

theorem contains_iff_mem_keys : d.contains k ↔ k ∈ d.keys := by
  rw [contains, Option.isSome_iff_ne_none, Ne, get?_eq_none_iff, Decidable.not_not]

/-! ## keys -/

theorem mem_keys_set : k' ∈ (d.set k v).keys ↔ k = k' ∨ k' ∈ d.keys := by
  rw [← contains_iff_mem_keys, ← contains_iff_mem_keys, contains, contains, get?_set]
  by_cases h : k = k' <;> simp [h]

theorem nodup_keys_set (h : d.keys.Nodup) (k : α) (v : β) : (d.set k v).keys.Nodup := by
  induction d with
  | nil => exact pairwise_singleton _ _
  | cons e d ih =>
    obtain ⟨k', v'⟩ := e
    have hparts : k' ∉ keys d ∧ (keys d).Nodup := nodup_cons.mp h
    by_cases hk : k' = k
    · rw [set, if_pos hk]
      exact h
    · rw [set, if_neg hk]
      refine nodup_cons.mpr ⟨fun hmem => ?_, ih hparts.2⟩
      cases mem_keys_set.mp hmem with
      | inl heq => exact hk heq.symm
      | inr hold => exact hparts.1 hold

theorem nodup_keys_update (h : d.keys.Nodup) (e : Dict α β) : (d.update e).keys.Nodup := by
  induction e generalizing d with
  | nil => exact h
  | cons p e ih => exact ih (nodup_keys_set h p.1 p.2)

theorem set_of_notMem (h : k ∉ d.keys) (v : β) : d.set k v = d ++ [(k, v)] := by
  induction d with
  | nil => rfl
  | cons e d ih =>
    obtain ⟨k', v'⟩ := e
    have hparts : k ≠ k' ∧ k ∉ keys d := by simpa [keys] using h
    rw [set, if_neg (Ne.symm hparts.1), ih hparts.2, cons_append]

theorem update_eq_append (h : (keys (d ++ e)).Nodup) : d.update e = d ++ e := by
  induction e generalizing d with
  | nil => exact (append_nil d).symm
  | cons p e ih =>
    have hkeys : keys (d ++ p :: e) = keys d ++ p.1 :: keys e := map_append
    have hnew : p.1 ∉ keys d := fun hmem =>
      (nodup_append.mp (hkeys ▸ h)).2.2 p.1 hmem p.1 (.head _) rfl
    have hstep : d.update (p :: e) = (d.set p.1 p.2).update e := rfl
    rw [hstep, set_of_notMem hnew, ih (by simpa using h), append_assoc, singleton_append]

/-! ## bounded dictionaries -/

theorem keys_set_of_contains (h : d.contains k) (v : β) : (d.set k v).keys = d.keys := by
  induction d with
  | nil => simp [contains] at h
  | cons e d ih =>
    obtain ⟨k', v'⟩ := e
    by_cases hk : k' = k
    · simp [set, hk, keys]
    · have hrest : contains d k := by simpa [contains, hk] using h
      simpa [set, hk, keys] using ih hrest

theorem keys_setBounded {e : Dict α γ} (h : d.keys = e.keys) (n : Nat) (k : α) (v : β) (w : γ) :
    (d.setBounded n k v).keys = (e.setBounded n k w).keys := by
  have hlength : d.length = e.length := by
    have hlength := congrArg length h
    simpa [keys] using hlength
  unfold setBounded
  by_cases hd : d.contains k
  · have he : e.contains k := by
      rw [contains_iff_mem_keys, ← h, ← contains_iff_mem_keys]
      exact hd
    rw [if_pos hd, if_pos he, keys_set_of_contains hd, keys_set_of_contains he, h]
  · have he : ¬ e.contains k := by
      rw [contains_iff_mem_keys, ← h, ← contains_iff_mem_keys]
      exact hd
    rw [if_neg hd, if_neg he]
    have hmap : map Prod.fst d = map Prod.fst e := h
    simp only [keys, map_drop, map_append, length_append, hlength, hmap]
    rfl

theorem nodup_keys_setBounded (h : d.keys.Nodup) (n : Nat) (k : α) (v : β) :
    (d.setBounded n k v).keys.Nodup := by
  unfold setBounded
  by_cases hd : d.contains k
  · rw [if_pos hd, keys_set_of_contains hd]
    exact h
  · rw [if_neg hd]
    have hnot : k ∉ d.keys := fun hmem => hd (contains_iff_mem_keys.mpr hmem)
    have hgrown : (keys (d ++ [(k, v)])).Nodup := by
      simp only [keys, map_append, map_cons, map_nil]
      refine nodup_append.mpr ⟨h, pairwise_singleton _ _, ?_⟩
      intro a ha b hb heq
      rw [mem_singleton] at hb
      exact hnot (hb ▸ heq ▸ ha)
    exact hgrown.sublist ((drop_sublist _ _).map Prod.fst)

theorem mem_keys_setBounded {n : Nat} (h : k' ∈ (d.setBounded n k v).keys) :
    k' = k ∨ k' ∈ d.keys := by
  unfold setBounded at h
  by_cases hd : d.contains k
  · rw [if_pos hd, keys_set_of_contains hd] at h
    exact .inr h
  · rw [if_neg hd] at h
    obtain ⟨e, he, rfl⟩ := mem_map.mp h
    have hmem := mem_of_mem_drop he
    rw [mem_append, mem_singleton] at hmem
    cases hmem with
    | inl hold => exact .inr (mem_map_of_mem hold)
    | inr hnew => exact .inl (by rw [hnew])

theorem get?_setBounded (h : d.keys.Nodup) (n : Nat) (hk' : k' ∈ (d.setBounded n k v).keys) :
    (d.setBounded n k v).get? k' = if k = k' then some v else d.get? k' := by
  have hnodup := nodup_keys_setBounded h n k v
  unfold setBounded at *
  by_cases hd : d.contains k
  · rw [if_pos hd, get?_set]
  · rw [if_neg hd] at hk' hnodup ⊢
    obtain ⟨e, he, rfl⟩ := mem_map.mp hk'
    rw [(mem_iff_get? hnodup).mp he]
    have hmem : e ∈ d ++ [(k, v)] := mem_of_mem_drop he
    rw [mem_append, mem_singleton] at hmem
    cases hmem with
    | inl hold =>
      have hne : ¬ k = e.1 := by
        intro heq
        exact hd (contains_iff_mem_keys.mpr (heq ▸ mem_map_of_mem hold))
      rw [if_neg hne]
      exact ((mem_iff_get? h).mp hold).symm
    | inr hnew => rw [hnew, if_pos rfl]

end Dict

end KiteAlgo
