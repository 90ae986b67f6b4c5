import KiteAlgo.Lib.Dict
import KiteAlgo.Lib.Sorting
import Mathlib.Data.List.Nodup

/-!
# KiteAlgo.Lib.Table

A database table with a primary key: rows in insertion order, and the proof
that no two rows share a key carried by the type.  Later proofs use the lookup
laws and the counting law `length_select`, never the rows themselves.
-/

namespace KiteAlgo

open List Option Dict
universe u v

/-- A table whose rows have pairwise different keys. -/
structure Table (κ : Type u) (ν : Type v) where
  rows : Dict κ ν
  unique : rows.keys.Nodup

namespace Table

variable {κ : Type u} {ν : Type v} [DecidableEq κ]

def empty : Table κ ν := ⟨[], List.nodup_nil⟩

def get? (t : Table κ ν) (k : κ) : Option ν := t.rows.get? k

theorem mem_keys_set {d : Dict κ ν} {k k' : κ} {v : ν} :
    k' ∈ (d.set k v).keys ↔ k' = k ∨ k' ∈ d.keys := by
  have hset := get?_set d k k' v
  by_cases h : k = k'
  · subst h
    have hmem : k ∈ (d.set k v).keys := by
      by_contra hno
      simpa using get?_eq_none_iff.mpr hno
    simp [hmem]
  · rw [if_neg h] at hset
    have hiff : k' ∈ (d.set k v).keys ↔ k' ∈ d.keys := by
      rw [← not_iff_not, ← get?_eq_none_iff, ← get?_eq_none_iff, hset]
    rw [hiff]
    exact ⟨.inr, fun hk => hk.resolve_left fun he => h he.symm⟩

theorem nodup_keys_set {d : Dict κ ν} (h : d.keys.Nodup) (k : κ) (v : ν) :
    (d.set k v).keys.Nodup := by
  induction d with
  | nil => simp [Dict.set, Dict.keys]
  | cons e d ih =>
    obtain ⟨k', v'⟩ := e
    have hparts : k' ∉ Dict.keys d ∧ (Dict.keys d).Nodup := nodup_cons.mp h
    by_cases hk : k' = k
    · rw [Dict.set, if_pos hk]
      exact nodup_cons.mpr hparts
    · rw [Dict.set, if_neg hk]
      refine nodup_cons.mpr ⟨fun hmem => ?_, ih hparts.2⟩
      rcases mem_keys_set.mp hmem with he | hmem
      · exact hk he
      · exact hparts.1 hmem

/-! ## a dictionary filled by a loop -/

section Fill

variable {α : Type} (key : α → κ) (value : α → ν)

theorem mem_keys_foldl_set (items : List α) (d : Dict κ ν) (k : κ) :
    k ∈ (items.foldl (fun d a => d.set (key a) (value a)) d).keys ↔
      k ∈ d.keys ∨ ∃ a ∈ items, key a = k := by
  induction items generalizing d with
  | nil => simp
  | cons a items ih =>
    rw [foldl_cons, ih, mem_keys_set]
    simp only [mem_cons, exists_eq_or_imp]
    grind

theorem nodup_keys_foldl_set (items : List α) {d : Dict κ ν} (h : d.keys.Nodup) :
    (items.foldl (fun d a => d.set (key a) (value a)) d).keys.Nodup := by
  induction items generalizing d with
  | nil => exact h
  | cons a items ih => exact ih (nodup_keys_set h _ _)

theorem exists_of_mem_foldl_set {items : List α} {d : Dict κ ν} {e : κ × ν}
    (h : e ∈ items.foldl (fun d a => d.set (key a) (value a)) d) :
    e ∈ d ∨ ∃ a ∈ items, e = (key a, value a) := by
  induction items generalizing d with
  | nil => exact .inl h
  | cons a items ih =>
    rcases ih h with h | ⟨a', ha', rfl⟩
    · rcases mem_set h with rfl | h
      · exact .inr ⟨a, (.head _), rfl⟩
      · exact .inl h
    · exact .inr ⟨a', mem_cons_of_mem a ha', rfl⟩

end Fill

def upsert (t : Table κ ν) (k : κ) (v : ν) : Table κ ν :=
  ⟨t.rows.set k v, nodup_keys_set t.unique k v⟩

def erase (t : Table κ ν) (k : κ) : Table κ ν :=
  ⟨t.rows.erase k, t.unique.sublist (List.filter_sublist.map Prod.fst)⟩

omit [DecidableEq κ] in
theorem keys_mapRows (f : κ → ν → ν) (d : Dict κ ν) :
    keys (d.map fun e => (e.1, f e.1 e.2)) = d.keys := by
  simp [Dict.keys, Function.comp_def]

def mapRows (t : Table κ ν) (f : κ → ν → ν) : Table κ ν :=
  ⟨t.rows.map fun e => (e.1, f e.1 e.2), by rw [keys_mapRows]; exact t.unique⟩

def filter (t : Table κ ν) (p : κ → ν → Bool) : Table κ ν :=
  ⟨t.rows.filter fun e => p e.1 e.2, t.unique.sublist (List.filter_sublist.map Prod.fst)⟩

def select (t : Table κ ν) (p : κ → ν → Bool) : List (κ × ν) := t.rows.filter fun e => p e.1 e.2

@[simp] theorem get?_empty (k : κ) : (empty : Table κ ν).get? k = none := rfl

theorem get?_upsert (t : Table κ ν) (k k' : κ) (v : ν) :
    (t.upsert k v).get? k' = if k = k' then some v else t.get? k' :=
  get?_set t.rows k k' v

variable {k : κ}

@[simp] theorem get?_upsert_self (t : Table κ ν) (k : κ) (v : ν) :
    (t.upsert k v).get? k = some v := by
  simp [get?_upsert]

theorem get?_upsert_of_ne {k' : κ} (h : k ≠ k') (t : Table κ ν) (v : ν) :
    (t.upsert k v).get? k' = t.get? k' := by
  simp [get?_upsert, h]

theorem get?_mapRows (t : Table κ ν) (f : κ → ν → ν) (k : κ) :
    (t.mapRows f).get? k = (t.get? k).map (f k) :=
  get?_mapValues f t.rows k

variable {t : Table κ ν} {v : ν}

theorem mem_rows_iff : (k, v) ∈ t.rows ↔ t.get? k = some v :=
  mem_iff_get? t.unique

theorem get?_erase (t : Table κ ν) (k k' : κ) :
    (t.erase k).get? k' = if k = k' then none else t.get? k' :=
  Dict.get?_erase t.rows k k'

theorem get?_filter (t : Table κ ν) (p : κ → ν → Bool) (k : κ) :
    (t.filter p).get? k = (t.get? k).filter (p k) := by
  apply ext
  intro v
  rw [← mem_rows_iff, filter, mem_filter, mem_rows_iff, filter_eq_some_iff]

variable {p : κ → ν → Bool}

theorem mem_select : (k, v) ∈ t.select p ↔ t.get? k = some v ∧ p k v := by
  rw [select, mem_filter, mem_rows_iff]

omit [DecidableEq κ] in
theorem nodup_keys_select (t : Table κ ν) (p : κ → ν → Bool) :
    ((t.select p).map Prod.fst).Nodup :=
  t.unique.sublist (filter_sublist.map Prod.fst)

theorem length_select {ks : List κ} (hks : ks.Nodup) (hp : ∀ k v, p k v → k ∈ ks) :
    (t.select p).length = (ks.filter fun k => (t.get? k).any (p k)).length := by
  have hperm : ((t.select p).map Prod.fst).Perm (ks.filter fun k => (t.get? k).any (p k)) := by
    refine (perm_ext_iff_of_nodup (nodup_keys_select t p) (hks.filter _)).mpr fun k => ?_
    rw [List.mem_map, mem_filter]
    constructor
    · rintro ⟨⟨k', v⟩, hmem, rfl⟩
      obtain ⟨hget, hpv⟩ := mem_select.mp hmem
      exact ⟨hp _ _ hpv, by simp [hget, hpv]⟩
    · rintro ⟨_, hany⟩
      obtain ⟨v, hget, hpv⟩ := (any_eq_true _ _).mp hany
      exact ⟨(k, v), mem_select.mpr ⟨hget, hpv⟩, rfl⟩
  rw [← hperm.length_eq, length_map]

end Table

end KiteAlgo
