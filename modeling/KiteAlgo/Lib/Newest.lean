import Mathlib.Data.Finset.Sort
import KiteAlgo.Lib.Dict
import KiteAlgo.Lib.Run
import KiteAlgo.Lib.Sorting

/-!
# KiteAlgo.Lib.Newest

Bounded dictionaries over ordered keys.  `Dict.setBounded` drops the entries that came in
first; those with the greatest keys stay as long as every entry is offered in time, that is
under a key beyond all before it or under one of the greatest keys so far
(`newest_setBounded_iff`, `newest_offerAll`).
-/

namespace KiteAlgo

open List
universe u v

/-! ## the greatest keys -/

section Keys

variable {α : Type u} [LinearOrder α]

/-- The `n` greatest of the keys, in increasing order. -/
def newestKeys (n : Nat) (keys : List α) : List α :=
  let sorted := sortBy (fun a b => decide (a ≤ b)) keys.dedup
  sorted.drop (sorted.length - n)

theorem sortBy_dedup (keys : List α) :
    sortBy (fun a b => decide (a ≤ b)) keys.dedup = keys.toFinset.sort := by
  have htotal : ∀ a b : α, decide (a ≤ b) ∨ decide (b ≤ a) := by
    simpa using le_total
  have htrans : ∀ a b c : α, decide (a ≤ b) → decide (b ≤ c) → decide (a ≤ c) := by
    simpa using fun a b c => le_trans
  have hsorted := pairwise_sortBy htotal htrans keys.dedup
  refine List.Perm.eq_of_pairwise' (hsorted.imp of_decide_eq_true) (Finset.pairwise_sort _ _) ?_
  exact (perm_sortBy _ _).trans ((perm_ext_iff_of_nodup (nodup_dedup _)
    (Finset.sort_nodup _ _)).mpr fun a => by simp)

theorem newestKeys_eq (n : Nat) (keys : List α) :
    newestKeys n keys = keys.toFinset.sort.drop (keys.toFinset.sort.length - n) := by
  rw [newestKeys, sortBy_dedup]

theorem newestKeys_nil (n : Nat) : newestKeys n ([] : List α) = [] := by
  simp [newestKeys_eq]

theorem pairwise_newestKeys (n : Nat) (keys : List α) : (newestKeys n keys).Pairwise (· < ·) := by
  rw [newestKeys_eq]
  exact (Finset.sortedLT_sort keys.toFinset).pairwise.sublist (drop_sublist _ _)

variable {k : α} {keys : List α} {n : Nat}

theorem mem_of_mem_newestKeys (h : k ∈ newestKeys n keys) : k ∈ keys := by
  rw [newestKeys_eq] at h
  simpa using mem_of_mem_drop h

theorem length_newestKeys_le (n : Nat) (keys : List α) : (newestKeys n keys).length ≤ n := by
  simp only [newestKeys, length_drop]
  omega

theorem mem_newestKeys_or_lt (h : k ∈ keys) :
    k ∈ newestKeys n keys ∨ ∀ k' ∈ newestKeys n keys, k < k' := by
  rw [newestKeys_eq]
  let sorted := keys.toFinset.sort
  have hsorted : sorted.Pairwise (· < ·) := (Finset.sortedLT_sort keys.toFinset).pairwise
  have hsplit := take_append_drop (sorted.length - n) sorted
  have hmem : k ∈ sorted := by simpa [sorted] using h
  rw [← hsplit, mem_append] at hmem
  rw [← hsplit, pairwise_append] at hsorted
  exact hmem.elim (fun htake => .inr fun k' hk' => hsorted.2.2 k htake k' hk') .inl

theorem exists_le_mem_newestKeys (hn : 0 < n) (h : k ∈ keys) :
    ∃ k' ∈ newestKeys n keys, k ≤ k' := by
  rcases mem_newestKeys_or_lt (n := n) h with hmem | hlt
  · exact ⟨k, hmem, le_refl k⟩
  · have hne : newestKeys n keys ≠ [] := by
      have hpos : 0 < keys.toFinset.sort.length := by
        rw [Finset.length_sort, Finset.card_pos]
        exact ⟨k, mem_toFinset.mpr h⟩
      simp only [newestKeys_eq, ne_eq, drop_eq_nil_iff, not_le]
      omega
    obtain ⟨k', hk'⟩ := exists_mem_of_ne_nil _ hne
    exact ⟨k', hk', le_of_lt (hlt k' hk')⟩

theorem newestKeys_concat_of_mem (h : k ∈ keys) :
    newestKeys n (keys ++ [k]) = newestKeys n keys := by
  have hset : (keys ++ [k]).toFinset = keys.toFinset := by
    ext k'
    simp only [mem_toFinset, mem_append, mem_singleton]
    exact ⟨fun h' => h'.elim id fun heq => heq ▸ h, .inl⟩
  rw [newestKeys_eq, hset, newestKeys_eq]

theorem newestKeys_concat_of_gt (h : ∀ k' ∈ keys, k' < k) :
    newestKeys n (keys ++ [k]) = (newestKeys n keys ++ [k]).drop ((newestKeys n keys).length + 1 - n) := by
  have hsort : (keys ++ [k]).toFinset.sort = keys.toFinset.sort ++ [k] := by
    refine List.Perm.eq_of_pairwise' (Finset.pairwise_sort _ _) ?_ ?_
    · rw [pairwise_append]
      refine ⟨Finset.pairwise_sort _ _, pairwise_singleton _ _, fun a ha b hb => ?_⟩
      rw [mem_singleton] at hb
      exact hb ▸ le_of_lt (h a (by simpa using ha))
    · refine (perm_ext_iff_of_nodup (Finset.sort_nodup _ _) ?_).mpr fun a => by
        simp [or_comm]
      rw [nodup_append]
      refine ⟨Finset.sort_nodup _ _, nodup_singleton _, fun a ha b hb hab => ?_⟩
      rw [mem_singleton] at hb
      exact absurd (h a (by simpa using ha)) (by rw [hab, hb]; exact lt_irrefl k)
  simp only [newestKeys_eq, hsort, length_append, length_singleton, length_drop]
  have hdrop : ∀ (xs : List α) (a b : Nat), a ≤ xs.length →
      (xs.drop a ++ [k]).drop b = (xs ++ [k]).drop (a + b) := by
    intro xs a b ha
    rw [← drop_append_of_le_length ha, drop_drop]
  rw [hdrop _ _ _ (Nat.sub_le _ _)]
  congr 1
  omega

end Keys

namespace Dict

variable {α : Type u} {β : Type v} [LinearOrder α]

/-! ## dictionaries of the newest entries -/

/-- Offering entries one after another to a dictionary of at most `n`. -/
def offerAll (n : Nat) (offered : List (α × β)) (d : Dict α β) : Dict α β :=
  offered.foldl (fun d e => d.setBounded n e.1 e.2) d

/-- The entry is offered in time: beyond all keys before it, or for one of the greatest. -/
def Timely (n : Nat) (past : List (α × β)) (e : α × β) : Prop :=
  e.1 ∈ newestKeys n (keys past) ∨ ∀ k ∈ keys past, k < e.1

instance (n : Nat) (past : List (α × β)) (e : α × β) : Decidable (Timely n past e) :=
  inferInstanceAs (Decidable (_ ∨ _))

/-- The entries under the `n` greatest keys, in their order, each as it was offered last. -/
def newest (n : Nat) (offered : List (α × β)) : Dict α β :=
  (newestKeys n (keys offered)).filterMap fun k => (get? offered.reverse k).map fun v => (k, v)

omit [LinearOrder α] in
theorem keys_concat (offered : List (α × β)) (e : α × β) :
    keys (offered ++ [e]) = keys offered ++ [e.1] := map_append

theorem get?_reverse_concat (offered : List (α × β)) (e : α × β) (k : α) :
    get? (offered ++ [e]).reverse k = if e.1 = k then some e.2 else get? offered.reverse k := by
  rw [reverse_append]
  rfl

variable {k : α} {offered : List (α × β)}

theorem exists_get?_reverse (h : k ∈ keys offered) : ∃ v, get? offered.reverse k = some v := by
  refine Option.ne_none_iff_exists'.mp fun hnone => ?_
  rw [get?_eq_none_iff] at hnone
  exact hnone (by simpa [keys] using h)

variable {d : Dict α β} {n : Nat}

theorem newest_eq_iff :
    d = newest n offered ↔ d.keys = newestKeys n (keys offered) ∧
      ∀ e ∈ d, get? offered.reverse e.1 = some e.2 := by
  have hentries : ∀ ks : List α, (∀ k ∈ ks, k ∈ keys offered) → ∀ d : Dict α β,
      d = ks.filterMap (fun k => (get? offered.reverse k).map fun v => (k, v)) ↔
        d.keys = ks ∧ ∀ e ∈ d, get? offered.reverse e.1 = some e.2 := by
    intro ks hks
    induction ks with
    | nil =>
      intro d
      cases d <;> simp [keys]
    | cons k ks ih =>
      intro d
      obtain ⟨v, hv⟩ := exists_get?_reverse (hks k (.head _))
      rw [filterMap_cons_some (by rw [hv]; rfl)]
      cases d with
      | nil => simp [keys]
      | cons e d =>
        rw [cons_eq_cons, ih fun k' hk' => hks k' (.tail _ hk')]
        simp only [keys, map_cons, List.cons.injEq, forall_mem_cons]
        constructor
        · rintro ⟨rfl, hkeys, hall⟩
          exact ⟨⟨rfl, hkeys⟩, hv, hall⟩
        · rintro ⟨⟨hk, hkeys⟩, he, hall⟩
          rw [hk, hv] at he
          exact ⟨Prod.ext hk (Option.some.inj he).symm, hkeys, hall⟩
  exact hentries _ (fun k hk => mem_of_mem_newestKeys hk) d

theorem keys_newest (n : Nat) (offered : List (α × β)) :
    (newest n offered).keys = newestKeys n (keys offered) :=
  (newest_eq_iff.mp rfl).1

theorem keys_setBounded_of_mem {n : Nat} {d : Dict α β} {k : α} {v : β} (h : k ∈ d.keys) :
    (d.setBounded n k v).keys = d.keys := by
  have hcontains := contains_iff_mem_keys.mpr h
  rw [setBounded, if_pos hcontains, keys_set_of_contains hcontains]

theorem keys_setBounded_of_not_mem {n : Nat} {d : Dict α β} {k : α} {v : β} (h : k ∉ d.keys) :
    (d.setBounded n k v).keys = (d.keys ++ [k]).drop (d.keys.length + 1 - n) := by
  unfold setBounded
  rw [if_neg fun hc => h (contains_iff_mem_keys.mp hc)]
  simp only [keys, map_drop, map_append, map_cons, map_nil, length_append,
    length_map, length_singleton]

variable {e : α × β} {v : β}

omit [LinearOrder α] in
theorem mem_setBounded [DecidableEq α] (h : e ∈ d.setBounded n k v) : e = (k, v) ∨ e ∈ d := by
  unfold setBounded at h
  split at h
  · exact mem_set h
  · have hmem := mem_of_mem_drop h
    rw [mem_append, mem_singleton] at hmem
    exact hmem.symm

variable {past : List (α × β)}

theorem latest_setBounded (hnodup : d.keys.Nodup) (h : ∀ e ∈ d, get? past.reverse e.1 = some e.2) :
    ∀ e' ∈ d.setBounded n e.1 e.2, get? (past ++ [e]).reverse e'.1 = some e'.2 := by
  intro e' he'
  have hget := (mem_iff_get? (nodup_keys_setBounded hnodup n e.1 e.2)).mp he'
  rw [get?_setBounded hnodup n (mem_map_of_mem he')] at hget
  rw [get?_reverse_concat]
  split at hget
  · next heq => rw [if_pos heq, hget]
  · next hne => rw [if_neg hne, h _ ((mem_iff_get? hnodup).mpr hget)]

theorem not_pairwise_drop_concat (hn : 2 ≤ n) {keys : List α} (hlength : keys.length ≤ n)
    (hkeys : keys.Pairwise (· < ·)) {k' : α} (hmem : k' ∈ keys) (hlt : k < k') :
    ¬ ((keys ++ [k]).drop (keys.length + 1 - n)).Pairwise (· < ·) := by
  intro h
  obtain rfl | ⟨front, last, rfl⟩ := keys.eq_nil_or_concat'
  · cases hmem
  · rw [length_append, length_singleton] at hlength h
    rw [append_assoc, drop_append_of_le_length (by omega), pairwise_append] at h
    have hlast : last < k := (pairwise_cons.mp h.2.1).1 k mem_cons_self
    have hle : k' ≤ last := by
      rw [mem_append, mem_singleton] at hmem
      rw [pairwise_append] at hkeys
      exact hmem.elim (fun hfront => le_of_lt (hkeys.2.2 k' hfront last mem_cons_self)) le_of_eq
    exact absurd (hlt.trans_le hle) (not_lt_of_gt hlast)

theorem newest_setBounded_iff (hn : 2 ≤ n) :
    (newest n past).setBounded n e.1 e.2 = newest n (past ++ [e]) ↔ Timely n past e := by
  have hkeys := keys_newest n past
  have hnodup : (newest n past).keys.Nodup := hkeys ▸ (pairwise_newestKeys n _).nodup
  rw [newest_eq_iff, and_iff_left (latest_setBounded hnodup (newest_eq_iff.mp rfl).2), keys_concat]
  by_cases hmem : e.1 ∈ newestKeys n (keys past)
  · rw [keys_setBounded_of_mem (hkeys ▸ hmem), hkeys, newestKeys_concat_of_mem (mem_of_mem_newestKeys hmem)]
    exact ⟨fun _ => .inl hmem, fun _ => rfl⟩
  · rw [keys_setBounded_of_not_mem (hkeys ▸ hmem), hkeys]
    constructor
    · intro h
      refine .inr fun k hk => lt_of_not_ge fun hge => ?_
      obtain ⟨k', hk', hle⟩ := exists_le_mem_newestKeys (n := n) (by omega) hk
      have hlt : e.1 < k' := lt_of_le_of_ne (hge.trans hle) fun heq => hmem (heq ▸ hk')
      refine not_pairwise_drop_concat hn (length_newestKeys_le n _) (pairwise_newestKeys n _) hk' hlt ?_
      rw [h]
      exact pairwise_newestKeys n _
    · rintro (hin | hgt)
      · exact absurd hin hmem
      · exact (newestKeys_concat_of_gt hgt).symm

theorem offerAll_concat (n : Nat) (offered : List (α × β)) (e : α × β) (d : Dict α β) :
    offerAll n (offered ++ [e]) d = (offerAll n offered d).setBounded n e.1 e.2 := by
  rw [offerAll, foldl_append]
  rfl

theorem offerAll_eq_newest (hn : 2 ≤ n) (h : AtEach (Timely n) offered) :
    offerAll n offered [] = newest n offered := by
  induction offered using reverseRecOn with
  | nil => simp [offerAll, newest, keys, newestKeys_nil]
  | append_singleton past e ih =>
    rw [atEach_concat] at h
    rw [offerAll_concat, ih h.1, (newest_setBounded_iff hn).mpr h.2]

theorem mem_of_mem_offerAll (h : e ∈ offerAll n offered []) : e ∈ offered := by
  induction offered using reverseRecOn with
  | nil => cases h
  | append_singleton past e' ih =>
    rw [offerAll_concat] at h
    rw [mem_append, mem_singleton]
    exact (mem_setBounded h).symm.imp_left ih

theorem length_setBounded_of_mem (h : k ∈ d.keys) : (d.setBounded n k v).length = d.length := by
  have hkeys := congrArg length (keys_setBounded_of_mem (n := n) (v := v) h)
  simpa [keys] using hkeys

theorem length_setBounded_of_not_mem (h : k ∉ d.keys) :
    (d.setBounded n k v).length = min (d.length + 1) n := by
  have hkeys := congrArg length (keys_setBounded_of_not_mem (n := n) (v := v) h)
  simp only [keys, length_map, length_drop, length_append, length_singleton]
    at hkeys
  omega

theorem full_offerAll (n : Nat) (offered : List (α × β)) :
    (offerAll n offered []).length ≤ n ∧
      ((offerAll n offered []).length < n → ∀ k ∈ keys offered, k ∈ (offerAll n offered []).keys) := by
  induction offered using reverseRecOn with
  | nil => exact ⟨Nat.zero_le n, fun _ k hk => absurd hk not_mem_nil⟩
  | append_singleton past e ih =>
    obtain ⟨hle, hroom⟩ := ih
    rw [offerAll_concat, keys_concat]
    by_cases hmem : e.1 ∈ (offerAll n past []).keys
    · rw [length_setBounded_of_mem hmem, keys_setBounded_of_mem hmem]
      refine ⟨hle, fun hlt k hk => ?_⟩
      rw [mem_append, mem_singleton] at hk
      exact hk.elim (hroom hlt k) fun heq => heq ▸ hmem
    · rw [length_setBounded_of_not_mem hmem, keys_setBounded_of_not_mem hmem]
      refine ⟨by omega, fun hlt k hk => ?_⟩
      have hlength : (keys (offerAll n past [])).length = (offerAll n past []).length := by
        simp [keys]
      rw [hlength, Nat.sub_eq_zero_of_le (by omega), drop_zero]
      rw [mem_append] at hk ⊢
      exact hk.imp_left (hroom (by omega) k)

theorem le_length_offerAll {m : Nat} (hm : m ≤ n) (h : m ≤ (keys offered).dedup.length) :
    m ≤ (offerAll n offered []).length := by
  obtain ⟨hle, hroom⟩ := full_offerAll n offered
  by_cases hlt : (offerAll n offered []).length < n
  · have hsub : (keys offered).dedup ⊆ (offerAll n offered []).keys :=
      fun k hk => hroom hlt k (mem_dedup.mp hk)
    have hcount := ((keys offered).nodup_dedup.subperm hsub).length_le
    have hlength : (keys (offerAll n offered [])).length = (offerAll n offered []).length := by
      simp [keys]
    omega
  · omega

end Dict

end KiteAlgo
