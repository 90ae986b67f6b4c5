import Mathlib.Algebra.BigOperators.Group.List.Basic
import Mathlib.Data.List.Nodup
import Mathlib.Tactic.Abel

/-!
# KiteAlgo.Lib.Keyed

A database table whose primary key is part of its rows: a list of rows in insertion
order, with the proof that no two share a key carried by the type.  A lookup thus
always returns a row of the key asked for (`key_of_get?`), an upsert changes one lookup
(`get?_upsert`), and a sum over the rows changes by the new row less the one it
replaces (`sum_upsert`).
-/

namespace KiteAlgo

open List Option
theorem sum_single {κ M : Type} [DecidableEq κ] [AddCommMonoid M] {keys : List κ}
    (hnodup : keys.Nodup) (k : κ) (x : M) :
    (keys.map fun k' => if k = k' then x else 0).sum = if k ∈ keys then x else 0 := by
  rw [sum_map_eq_nsmul_single k _ fun k' hne _ => if_neg fun h => hne h.symm, if_pos rfl]
  by_cases hmem : k ∈ keys
  · rw [count_eq_one_of_mem hnodup hmem, one_nsmul, if_pos hmem]
  · rw [count_eq_zero_of_not_mem hmem, zero_nsmul, if_neg hmem]

theorem sum_by_key {ρ κ M : Type} [DecidableEq κ] [AddCommMonoid M] (key : ρ → κ) (f : ρ → M)
    {rows : List ρ} {keys : List κ} (hnodup : keys.Nodup) (hall : ∀ row ∈ rows, key row ∈ keys) :
    (rows.map f).sum = (keys.map fun k => ((rows.filter fun row => key row = k).map f).sum).sum := by
  induction rows with
  | nil => simp
  | cons row rows ih =>
    have hrest := ih fun other hother => hall other (.tail _ hother)
    have hone : (keys.map fun k => if key row = k then f row else 0).sum = f row := by
      rw [sum_single hnodup, if_pos (hall row mem_cons_self)]
    have hsplit : ∀ k ∈ keys,
        (((row :: rows).filter fun other => key other = k).map f).sum = (if key row = k then f row else 0) +
            ((rows.filter fun other => key other = k).map f).sum := by
      intro k _
      rw [filter_cons]
      by_cases h : key row = k <;> simp [h]
    rw [map_cons, sum_cons, hrest, map_congr_left hsplit, sum_map_add, hone]

/-- A table of rows with pairwise different keys. -/
structure Keyed {ρ κ : Type} (key : ρ → κ) where
  rows : List ρ
  unique : (rows.map key).Nodup
  deriving DecidableEq

namespace Keyed

variable {ρ κ : Type} {key : ρ → κ}

def empty : Keyed key := ⟨[], List.nodup_nil⟩

variable [DecidableEq κ]

def get? (t : Keyed key) (k : κ) : Option ρ := t.rows.find? fun r => key r = k

/-- Replace the row with this key, or append. -/
def upsertRows (key : ρ → κ) (row : ρ) : List ρ → List ρ
  | [] => [row]
  | r :: rows => if key r = key row then row :: rows else r :: upsertRows key row rows

variable {k : κ} {row : ρ} {rows : List ρ}

theorem mem_keys_upsertRows :
    k ∈ (upsertRows key row rows).map key ↔ k = key row ∨ k ∈ rows.map key := by
  induction rows with
  | nil => simp [upsertRows]
  | cons r rows ih =>
    unfold upsertRows
    split
    · next h => simp [h]
    · simp only [map_cons, mem_cons, ih]
      grind

theorem nodup_upsertRows (h : (rows.map key).Nodup) (row : ρ) :
    ((upsertRows key row rows).map key).Nodup := by
  induction rows with
  | nil => simp [upsertRows]
  | cons r rows ih =>
    rw [map_cons, nodup_cons] at h
    unfold upsertRows
    split
    · next hkey =>
      rw [map_cons, nodup_cons, ← hkey]
      exact h
    · next hkey =>
      rw [map_cons, nodup_cons, mem_keys_upsertRows]
      exact ⟨fun hmem => hmem.elim hkey h.1, ih h.2⟩

/-- `INSERT … ON CONFLICT DO UPDATE`. -/
def upsert (t : Keyed key) (row : ρ) : Keyed key :=
  ⟨upsertRows key row t.rows, nodup_upsertRows t.unique row⟩

variable {f : ρ → ρ}

theorem keys_modifyRows (hf : ∀ r, key (f r) = key r) (rows : List ρ) :
    (rows.map fun r => if key r = k then f r else r).map key = rows.map key := by
  rw [List.map_map]
  apply List.map_congr_left
  intro r _
  simp only [Function.comp_apply]
  split <;> simp [hf]

/-- `UPDATE … WHERE key = k`. -/
def modify (t : Keyed key) (k : κ) (f : ρ → ρ) (hf : ∀ r, key (f r) = key r) : Keyed key :=
  ⟨t.rows.map fun r => if key r = k then f r else r, by
    rw [keys_modifyRows hf]
    exact t.unique⟩

/-! ## lookups -/

variable {t : Keyed key}

@[simp] theorem get?_empty (k : κ) : (empty : Keyed key).get? k = none := rfl

theorem key_of_get? (h : t.get? k = some row) : key row = k := by
  simpa using find?_some h

theorem find?_upsertRows (row : ρ) (rows : List ρ) (k : κ) :
    (upsertRows key row rows).find? (fun r => key r = k) =
      if key row = k then some row else rows.find? fun r => key r = k := by
  induction rows with
  | nil =>
    simp only [upsertRows, find?_cons, find?_nil]
    split <;> simp_all
  | cons r rows ih =>
    unfold upsertRows
    split
    · next h =>
      simp only [find?_cons, h]
      split <;> simp_all
    · next h =>
      simp only [find?_cons, ih]
      by_cases hr : key r = k
      · have hrow : ¬ key row = k := fun hrow => h (hr.trans hrow.symm)
        simp [hr, hrow]
      · simp [hr]

theorem get?_upsert (t : Keyed key) (row : ρ) (k : κ) :
    (t.upsert row).get? k = if key row = k then some row else t.get? k :=
  find?_upsertRows row t.rows k

@[simp] theorem get?_upsert_self (t : Keyed key) (row : ρ) :
    (t.upsert row).get? (key row) = some row := by
  rw [get?_upsert, if_pos rfl]

theorem get?_upsert_of_ne (h : key row ≠ k) (t : Keyed key) : (t.upsert row).get? k = t.get? k := by
  rw [get?_upsert, if_neg h]

theorem mem_rows_iff : row ∈ t.rows ↔ t.get? (key row) = some row := by
  constructor
  · intro hmem
    cases hget : t.get? (key row) with
    | none =>
      have hne := find?_eq_none.mp hget row hmem
      simp at hne
    | some other =>
      rw [inj_on_of_nodup_map t.unique (mem_of_find?_eq_some hget) hmem
        (key_of_get? hget)]
  · exact fun h => mem_of_find?_eq_some h

theorem mem_rows_of_get? (h : t.get? k = some row) : row ∈ t.rows :=
  mem_of_find?_eq_some h

variable {k' : κ}

theorem find?_modifyRows (hf : ∀ r, key (f r) = key r) (rows : List ρ) :
    (rows.map fun r => if key r = k then f r else r).find? (fun r => key r = k') =
      if k' = k then (rows.find? fun r => key r = k').map f
      else rows.find? fun r => key r = k' := by
  induction rows with
  | nil => simp
  | cons r rows ih =>
    rw [map_cons, find?_cons, find?_cons, ih]
    by_cases hr : key r = k
    · rw [if_pos hr, hf]
      split <;> split <;> simp_all
    · rw [if_neg hr]
      split <;> split <;> simp_all

theorem get?_modify (t : Keyed key) (k k' : κ) (hf : ∀ r, key (f r) = key r) :
    (t.modify k f hf).get? k' = if k' = k then (t.get? k').map f else t.get? k' :=
  find?_modifyRows hf t.rows

theorem get?_modify_of_ne (h : k' ≠ k) (t : Keyed key) (hf : ∀ r, key (f r) = key r) :
    (t.modify k f hf).get? k' = t.get? k' := by
  rw [get?_modify, if_neg h]

theorem get?_modify_self (t : Keyed key) (k : κ) (hf : ∀ r, key (f r) = key r) :
    (t.modify k f hf).get? k = (t.get? k).map f := by
  rw [get?_modify, if_pos rfl]

/-- `DELETE FROM … WHERE NOT p`. -/
def filter (t : Keyed key) (p : ρ → Bool) : Keyed key :=
  ⟨t.rows.filter p, t.unique.sublist (List.filter_sublist.map key)⟩

theorem get?_filter (t : Keyed key) (p : ρ → Bool) (k : κ) :
    (t.filter p).get? k = (t.get? k).filter p := by
  cases hget : t.get? k with
  | none =>
    rw [filter_none]
    refine find?_eq_none.mpr fun row hrow => ?_
    exact find?_eq_none.mp hget row (mem_of_mem_filter hrow)
  | some row =>
    obtain rfl := key_of_get? hget
    cases hp : p row with
    | true =>
      rw [filter_some_pos hp]
      exact mem_rows_iff.mp (mem_filter.mpr ⟨mem_rows_of_get? hget, hp⟩)
    | false =>
      rw [filter_some_neg (by simp [hp])]
      refine find?_eq_none.mpr fun other hother hkey => ?_
      obtain ⟨hmem, hpass⟩ := mem_filter.mp hother
      have hget' := mem_rows_iff.mp hmem
      rw [of_decide_eq_true hkey, hget, some.injEq] at hget'
      rw [← hget', hp] at hpass
      exact absurd hpass (by simp)

/-! ## rows after an upsert -/

theorem upsertRows_of_fresh (h : ∀ r ∈ rows, key r ≠ key row) :
    upsertRows key row rows = rows ++ [row] := by
  induction rows with
  | nil => rfl
  | cons r rows ih =>
    rw [upsertRows, if_neg (h r mem_cons_self), ih fun r hr => h r (.tail _ hr)]
    rfl

theorem rows_upsert_of_fresh (h : t.get? (key row) = none) :
    (t.upsert row).rows = t.rows ++ [row] :=
  upsertRows_of_fresh fun r hr => by simpa using find?_eq_none.mp h r hr

variable {old : ρ} {p : ρ → Bool}

theorem filter_upsertRows {tail : List ρ} (hunique : (rows.map key).Nodup)
    (hkey : key old = key row) (h : rows.filter p = old :: tail) :
    (upsertRows key row rows).filter p = if p row = true then row :: tail else tail := by
  induction rows with
  | nil => simp at h
  | cons r rows ih =>
    rw [map_cons, nodup_cons] at hunique
    have hold : old ∈ r :: rows := mem_of_mem_filter (h ▸ mem_cons_self)
    unfold upsertRows
    split
    · next hr =>
      have heq : r = old := by
        rcases mem_cons.mp hold with rfl | hmem
        · rfl
        · exact absurd (mem_map.mpr ⟨old, hmem, hkey.trans hr.symm⟩) hunique.1
      subst heq
      have hpass : p r := of_mem_filter (h ▸ mem_cons_self)
      rw [filter_cons_of_pos hpass] at h
      rw [filter_cons, (List.cons.inj h).2]
    · next hr =>
      have hskip : p r = false := by
        by_contra hpass
        rw [filter_cons_of_pos (by simpa using hpass)] at h
        exact hr ((List.cons.inj h).1 ▸ hkey)
      rw [filter_cons_of_neg (by simp [hskip])] at h ⊢
      exact ih hunique.2 h

theorem filter_upsertRows_of_skipped (hrow : p row = false)
    (h : ∀ r ∈ rows, key r = key row → p r = false) :
    (upsertRows key row rows).filter p = rows.filter p := by
  induction rows with
  | nil => simp [upsertRows, hrow]
  | cons r rows ih =>
    unfold upsertRows
    split
    · next hr =>
      rw [filter_cons_of_neg (by simp [hrow]),
        filter_cons_of_neg (by simp [h r mem_cons_self hr])]
    · rw [filter_cons, filter_cons, ih fun r hr => h r (.tail _ hr)]

variable {β : Type}

theorem map_upsertRows {f : ρ → β} (hsome : ∃ r ∈ rows, key r = key row)
    (h : ∀ r ∈ rows, key r = key row → f r = f row) :
    (upsertRows key row rows).map f = rows.map f := by
  induction rows with
  | nil => simp at hsome
  | cons r rows ih =>
    unfold upsertRows
    split
    · next hr => rw [map_cons, map_cons, h r mem_cons_self hr]
    · next hr =>
      obtain ⟨other, hother, hkey⟩ := hsome
      have hmem : other ∈ rows := by
        rcases mem_cons.mp hother with rfl | hmem
        · exact absurd hkey hr
        · exact hmem
      rw [map_cons, map_cons, ih ⟨other, hmem, hkey⟩ fun r hr => h r (.tail _ hr)]

theorem map_upsert_of_same {f : ρ → β} (hget : t.get? (key row) = some old) (h : f old = f row) :
    (t.upsert row).rows.map f = t.rows.map f := by
  refine map_upsertRows ⟨old, mem_rows_of_get? hget, key_of_get? hget⟩ fun r hr hkey => ?_
  have hr := mem_rows_iff.mp hr
  rw [hkey, hget, some.injEq] at hr
  rw [← hr, h]

theorem mem_rows_upsert {r : ρ} (h : r ∈ (t.upsert row).rows) :
    r = row ∨ (r ∈ t.rows ∧ key r ≠ key row) := by
  rw [mem_rows_iff, get?_upsert] at h
  split at h
  · exact .inl (by simpa using h.symm)
  · next hkey => exact .inr ⟨mem_rows_iff.mpr h, fun he => hkey he.symm⟩

omit [DecidableEq κ] in
theorem length_filter_le_one
    (h : ∀ a ∈ t.rows, ∀ b ∈ t.rows, p a → p b → key a = key b) :
    (t.rows.filter p).length ≤ 1 := by
  have hnodup : ((t.rows.filter p).map key).Nodup := t.unique.sublist (filter_sublist.map key)
  match hfilter : t.rows.filter p with
  | [] => simp
  | [_] => simp
  | a :: b :: rest =>
    have ha : a ∈ t.rows.filter p := by simp [hfilter]
    have hb : b ∈ t.rows.filter p := by simp [hfilter]
    rw [mem_filter] at ha hb
    have hkey := h a ha.1 b hb.1 ha.2 hb.2
    rw [hfilter] at hnodup
    simp [hkey] at hnodup

/-! ## sums over the rows -/

variable {M : Type} [AddCommGroup M]

theorem sum_upsertRows (f : ρ → M) (h : (rows.map key).Nodup) (row : ρ) :
    ((upsertRows key row rows).map f).sum =
      (rows.map f).sum + (f row - ((rows.find? fun r => key r = key row).map f).getD 0) := by
  induction rows with
  | nil => simp [upsertRows]
  | cons r rows ih =>
    rw [map_cons, nodup_cons] at h
    unfold upsertRows
    split
    · next hkey =>
      simp only [map_cons, sum_cons, find?_cons, hkey, decide_true,
        map_some, getD_some]
      abel
    · next hkey =>
      simp only [map_cons, sum_cons, find?_cons, hkey, decide_false, ih h.2]
      abel

theorem sum_upsert (t : Keyed key) (row : ρ) (f : ρ → M) :
    ((t.upsert row).rows.map f).sum = (t.rows.map f).sum + (f row - ((t.get? (key row)).map f).getD 0) :=
  sum_upsertRows f t.unique row

variable {g : ρ → ρ}

theorem modifyRows_eq (hg : ∀ r, key (g r) = key r) (hnodup : (rows.map key).Nodup)
    (h : rows.find? (fun r => key r = k) = some row) :
    (rows.map fun r => if key r = k then g r else r) = upsertRows key (g row) rows := by
  induction rows with
  | nil => simp at h
  | cons r rows ih =>
    have hrow : key row = k := by simpa using List.find?_some h
    rw [List.map_cons, List.nodup_cons] at hnodup
    rw [List.find?_cons] at h
    by_cases hr : key r = k
    · simp only [hr, decide_true, some.injEq] at h
      subst h
      have hrest : ∀ other ∈ rows, (if key other = k then g other else other) = other := by
        intro other hother
        exact if_neg fun heq => hnodup.1 (by
          rw [hr, ← heq]
          exact List.mem_map_of_mem hother)
      rw [List.map_cons, if_pos hr, upsertRows, if_pos (hg r).symm, List.map_congr_left hrest, List.map_id']
    · simp only [hr, decide_false] at h
      rw [List.map_cons, if_neg hr, upsertRows, hg, hrow, if_neg hr, ih hnodup.2 h]

theorem modify_eq_upsert (hg : ∀ r, key (g r) = key r) (h : t.get? k = some row) :
    t.modify k g hg = t.upsert (g row) := by
  rw [modify, upsert, Keyed.mk.injEq]
  exact modifyRows_eq hg t.unique h

variable {ks : List κ}

theorem sum_lookupRows {f : ρ → M} (hnodup : (rows.map key).Nodup) (hks : ks.Nodup)
    (hout : ∀ row ∈ rows, key row ∉ ks → f row = 0) :
    (ks.map fun k => ((rows.find? fun r => key r = k).map f).getD 0).sum = (rows.map f).sum := by
  induction rows with
  | nil => simp
  | cons row rows ih =>
    rw [map_cons, nodup_cons] at hnodup
    have hsplit : ∀ k ∈ ks, (((row :: rows).find? fun r => key r = k).map f).getD 0 =
        (if key row = k then f row else 0) + ((rows.find? fun r => key r = k).map f).getD 0 := by
      intro k _
      rw [find?_cons]
      by_cases h : key row = k
      · have hnone : rows.find? (fun r => key r = k) = none := by
          refine find?_eq_none.mpr fun other hother heq => hnodup.1 ?_
          rw [h, ← of_decide_eq_true heq]
          exact mem_map_of_mem hother
        simp [h, hnone]
      · simp [h]
    have hhead : (if key row ∈ ks then f row else 0) = f row := by
      split
      · rfl
      · next hmem => exact (hout row (.head _) hmem).symm
    rw [map_congr_left hsplit, sum_map_add, sum_single hks, hhead,
      ih hnodup.2 fun other hother => hout other (.tail _ hother), map_cons,
      sum_cons]

theorem sum_lookups (t : Keyed key) {f : ρ → M} (hks : ks.Nodup)
    (hout : ∀ row ∈ t.rows, key row ∉ ks → f row = 0) :
    (ks.map fun k => ((t.get? k).map f).getD 0).sum = (t.rows.map f).sum :=
  sum_lookupRows t.unique hks hout

theorem sum_modify (t : Keyed key) (k : κ) (hg : ∀ r, key (g r) = key r) {f : ρ → M}
    (hf : ∀ r, f (g r) = f r) : ((t.modify k g hg).rows.map f).sum = (t.rows.map f).sum := by
  have hrows : ∀ r ∈ t.rows, f (if key r = k then g r else r) = f r := by
    intro r _
    split
    · exact hf r
    · rfl
  rw [modify, List.map_map]
  exact congrArg List.sum (List.map_congr_left hrows)

end Keyed

end KiteAlgo
