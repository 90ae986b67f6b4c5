import KiteAlgo.Lib.Except
import KiteAlgo.Shards.Allocator

/-!
# KiteAlgo.Shards.Partition

`Reconcile` over a sequence of token sets.  The stored assignments load no shard beyond its limit
(`Fits`), which dropping tokens and placing new ones keep, so a set is refused only for its size.
-/

namespace KiteAlgo.Shards

open List Option Table
variable {limits : Limits} {effective : OwnerSubscriptions} {a : Table UInt32 Nat}

def load (a : Table UInt32 Nat) (shardId : Nat) : Nat := a.rows.countP fun e => decide (e.2 = shardId)

/-- Every token is on a shard, and no shard has more than it may. -/
structure Fits (limits : Limits) (a : Table UInt32 Nat) : Prop where
  inRange : InRange limits a
  load_le : ∀ shardId, load a shardId ≤ limits.softLimit

theorem load_filter_le (a : Table UInt32 Nat) (p : UInt32 → Nat → Bool) (shardId : Nat) :
    load (a.filter p) shardId ≤ load a shardId :=
  filter_sublist.countP_le

theorem load_upsert {t : UInt32} (h : a.get? t = none) (id shardId : Nat) :
    load (a.upsert t id) shardId = load a shardId + if id = shardId then 1 else 0 := by
  have hrows : (a.upsert t id).rows = a.rows ++ [(t, id)] :=
    Dict.set_of_notMem (Dict.get?_eq_none_iff.mp h) id
  rw [load, hrows, countP_append, countP_singleton, load]
  simp

theorem counted_load (h : InRange limits a) : Counted limits (load a) a.rows.length := by
  have hrows : ∀ rows : Dict UInt32 Nat, (∀ e ∈ rows, e.2 ∈ limits.shardIds) →
      (limits.shardIds.map fun id => rows.countP fun e => decide (e.2 = id)).sum = rows.length := by
    intro rows
    induction rows with
    | nil => simp
    | cons e rows ih =>
      intro hall
      have hstep : (fun id => (e :: rows).countP fun e => decide (e.2 = id)) =
          increment (fun id => rows.countP fun e => decide (e.2 = id)) e.2 := by
        funext id
        by_cases hid : id = e.2
        · subst hid
          simp [increment]
        · simp [increment, Function.update_of_ne hid, Ne.symm hid]
      rw [hstep, sum_increment (nodup_shardIds limits) (hall e mem_cons_self),
        ih fun e he => hall e (.tail _ he), length_cons]
  exact hrows a.rows fun e he => h e.1 e.2 (mem_rows_iff.mp he)

theorem Fits.length_le (h : Fits limits a) : a.rows.length ≤ limits.softLimit * limits.maxShards := by
  have hsum := sum_le_card_nsmul (limits.shardIds.map (load a)) limits.softLimit (by
    simpa using fun id _ => h.load_le id)
  rw [counted_load h.inRange] at hsum
  simpa [length_shardIds, Nat.mul_comm] using hsum

theorem load_le_keptCounts (h : ∀ t, (a.get? t).isSome → (effective.get? t).isSome)
    (shardId : Nat) : load a shardId ≤ keptCounts a effective shardId := by
  have hfold : ∀ (tokens : List UInt32) (counts : Nat → Nat),
      tokens.foldl (fun counts t => (a.get? t).elim counts (increment counts)) counts shardId =
      counts shardId + tokens.countP fun t => decide (a.get? t = some shardId) := by
    intro tokens
    induction tokens with
    | nil => simp
    | cons t tokens ih =>
      intro counts
      rw [foldl_cons, ih, countP_cons]
      cases hget : a.get? t with
      | none => simp
      | some id =>
        by_cases hid : id = shardId
        · simp [increment, hid]
          omega
        · simp [increment, hid, Function.update_of_ne (Ne.symm hid)]
  have hsub : ((a.rows.filter fun e => decide (e.2 = shardId)).map Prod.fst).Subperm
      (effective.rows.keys.filter fun t => decide (a.get? t = some shardId)) := by
    refine subperm_of_subset (a.unique.sublist (filter_sublist.map Prod.fst)) fun t ht => ?_
    obtain ⟨⟨u, id⟩, hmem, rfl⟩ := mem_map.mp ht
    simp only [mem_filter, decide_eq_true_eq] at hmem
    have hget := mem_rows_iff.mp hmem.1
    simp only [mem_filter, mem_keys, decide_eq_true_eq]
    exact ⟨h u (by simp [hget]), by rw [hget, hmem.2]⟩
  calc load a shardId
    _ = _ := by rw [load, countP_eq_length_filter, ← length_map (f := Prod.fst)]
    _ ≤ _ := hsub.length_le
    _ = _ := by rw [← countP_eq_length_filter]
    _ = 0 + _ := (Nat.zero_add _).symm
    _ = _ := (hfold _ fun _ => 0).symm
    _ = keptCounts a effective shardId := by
      refine congrFun (congrArg (fun step => foldl step (fun _ => 0) effective.rows.keys) ?_) shardId
      funext counts t
      cases a.get? t <;> rfl

theorem placeTokens_fits {tokens : List UInt32} {p p' : Placing} (hnodup : tokens.Nodup)
    (hnew : ∀ t ∈ tokens, p.working.get? t = none) (hcounts : ∀ id, load p.working id ≤ p.counts id)
    (hfits : Fits limits p.working) (h : tokens.foldlM (placeToken limits) p = .ok p') :
    Fits limits p'.working ∧ (∀ t ∈ tokens, (p'.working.get? t).isSome) ∧
      ∀ t id, p.working.get? t = some id → p'.working.get? t = some id := by
  induction tokens generalizing p with
  | nil =>
    cases h
    exact ⟨hfits, by simp, fun _ _ h => h⟩
  | cons t tokens ih =>
    obtain ⟨hnot, hnodup⟩ := nodup_cons.mp hnodup
    have ht := hnew t (.head _)
    rw [foldlM_cons, placeToken] at h
    cases hfind : limits.shardIds.find? fun id => decide (p.counts id < limits.softLimit) with
    | none => simp only [hfind] at h; cases h
    | some id =>
      simp only [hfind] at h
      have hroom : p.counts id < limits.softLimit := by simpa using find?_some hfind
      have hload : ∀ id', load (p.working.upsert t id) id' =
          load p.working id' + if id = id' then 1 else 0 := load_upsert ht id
      obtain ⟨hfits', hall, hkeep⟩ := @ih ⟨p.working.upsert t id, increment p.counts id⟩ hnodup
        (fun u hu => by
          rw [get?_upsert_of_ne (by rintro rfl; exact hnot hu)]
          exact hnew u (.tail _ hu))
        (fun id' => by
          have := hcounts id'
          rw [hload]
          simp only [increment, Function.update_apply]
          grind)
        ⟨fun u id' hget => by
            rw [get?_upsert] at hget
            split at hget
            · rw [← some.inj hget]
              exact mem_of_find?_eq_some hfind
            · exact hfits.inRange u id' hget,
          fun id' => by
            have := hfits.load_le id'
            have := hcounts id'
            rw [hload]
            grind⟩ h
      refine ⟨hfits', ?_, fun u id' hget => hkeep u id' ?_⟩
      · simp only [mem_cons, forall_eq_or_imp]
        exact ⟨by rw [hkeep t id (by simp)]; rfl, hall⟩
      · rwa [get?_upsert_of_ne (by rintro rfl; rw [ht] at hget; cases hget)]

theorem reconcile_ok {shards : Table Nat OwnerSubscriptions} {a' : Table UInt32 Nat} (hfits : Fits limits a)
    (h : reconcile limits effective a = .ok (shards, a')) :
    Fits limits a' ∧ shards = byShard a' effective ∧
      (∀ t, (effective.get? t).isSome → (a'.get? t).isSome) ∧
      ∀ t id, (effective.get? t).isSome → a.get? t = some id → a'.get? t = some id := by
  have hget : ∀ t, (keptAssignments a effective).get? t =
      (a.get? t).filter fun _ => (effective.get? t).isSome := get?_filter a _
  have hkept : Fits limits (keptAssignments a effective) :=
    ⟨fun t id hid => hfits.inRange t id (filter_eq_some_iff.mp (hget t ▸ hid)).1,
      fun id => (load_filter_le a _ id).trans (hfits.load_le id)⟩
  obtain ⟨p, hp, heq⟩ := bind_eq_ok.mp h
  cases heq
  obtain ⟨hfits', hall, hkeep⟩ := placeTokens_fits ((perm_sortBy _ _).nodup_iff.mpr (effective.unique.filter _))
    (fun t ht => by simpa using (mem_filter.mp (mem_sortTokens.mp ht)).2)
    (load_le_keptCounts fun t ht => by
      rw [hget, isSome_filter] at ht
      exact (any_eq_true_iff_get _ _).mp ht |>.2) hkept hp
  have hkeep' : ∀ t id, (effective.get? t).isSome → a.get? t = some id →
      p.working.get? t = some id := fun t id heff hid => hkeep t id (by simp [hget, hid, heff])
  refine ⟨hfits', rfl, fun t heff => ?_, hkeep'⟩
  cases hid : a.get? t with
  | some id => rw [hkeep' t id heff hid]; rfl
  | none => exact hall t (mem_sortTokens.mpr (by simp [mem_keys, heff, hget, hid]))

/-! ## sequences of sets -/

/-- A call: the assignments, and the shards of the last set that was placed. -/
def call (limits : Limits) (st : Table UInt32 Nat × Table Nat OwnerSubscriptions)
    (effective : OwnerSubscriptions) : Table UInt32 Nat × Table Nat OwnerSubscriptions :=
  match reconcile limits effective st.1 with
  | .ok (shards, a) => (a, shards)
  | .error _ => st

def calls (limits : Limits) (past : List OwnerSubscriptions) :
    Table UInt32 Nat × Table Nat OwnerSubscriptions :=
  past.foldl (call limits) (.empty, .empty)

/-- The assignments load no shard beyond its limit, and are those of the last shards. -/
def Partitioned (limits : Limits) (st : Table UInt32 Nat × Table Nat OwnerSubscriptions) : Prop :=
  Fits limits st.1 ∧ ∀ t id, (modeOn st.2 id t).isSome = true → st.1.get? t = some id

theorem Partitioned.call {st : Table UInt32 Nat × Table Nat OwnerSubscriptions}
    (h : Partitioned limits st) (effective : OwnerSubscriptions) :
    Partitioned limits (call limits st effective) := by
  unfold Shards.call
  cases hrec : reconcile limits effective st.1 with
  | error => exact h
  | ok res =>
    obtain ⟨hfits, hshards, hall, -⟩ := reconcile_ok h.1 hrec
    refine ⟨hfits, fun t id hid => ?_⟩
    dsimp only at hid ⊢
    rw [hshards, modeOn_byShard] at hid
    split at hid
    · next heq =>
        obtain ⟨id', hid'⟩ := isSome_iff_exists.mp (hall t hid)
        rw [hid'] at heq ⊢
        exact congrArg some heq
    · cases hid

theorem partitioned_calls (past : List OwnerSubscriptions) : Partitioned limits (calls limits past) := by
  refine foldlRecOn past _ (⟨⟨fun _ _ h => ?_, fun _ => Nat.zero_le _⟩, fun _ _ h => ?_⟩ : Partitioned _ _)
    fun st h effective _ => h.call effective <;> cases h

/-- A set is refused only for its size, and then nothing changes; a set that is placed is split over
the shards within their limit, and each token that was on a shard stays there. -/
theorem reconcile_partition (limits : Limits) (past : List OwnerSubscriptions)
    (effective : OwnerSubscriptions) :
    ((∃ e, reconcile limits effective (calls limits past).1 = .error e) ↔
        limits.softLimit * limits.maxShards < effective.rows.length) ∧
      (∀ e, reconcile limits effective (calls limits past).1 = .error e →
        (calls limits (past ++ [effective])).1 = (calls limits past).1) ∧
      ∀ shards a, reconcile limits effective (calls limits past).1 = .ok (shards, a) →
        Splits limits effective (modeOn shards) ∧ (∀ id subscriptions, shards.get? id = some subscriptions →
          subscriptions.rows.length ≤ limits.softLimit) ∧
        ∀ t id, (modeOn (calls limits past).2 id t).isSome = true → (effective.get? t).isSome = true →
          (modeOn shards id t).isSome = true := by
  obtain ⟨hfits, hlast⟩ := @partitioned_calls limits past
  have hsize : ∀ shards a, reconcile limits effective (calls limits past).1 = .ok (shards, a) →
      effective.rows.length ≤ limits.softLimit * limits.maxShards := fun shards a h => by
    obtain ⟨hfits', -, hall, -⟩ := reconcile_ok hfits h
    refine le_trans ?_ hfits'.length_le
    have hsub : effective.rows.keys.Subperm a.rows.keys :=
      List.subperm_of_subset effective.unique fun t ht => by
        by_contra hnot
        simpa [Table.get?, Dict.get?_eq_none_iff.mpr hnot] using hall t (mem_keys.mp ht)
    simpa [Dict.keys] using hsub.length_le
  refine ⟨⟨?_, fun hlt => ?_⟩, fun e he => ?_, fun shards a h => ?_⟩
  · rintro ⟨e, he⟩
    by_contra hle
    obtain ⟨shards, a, hok, -⟩ := reconcile_spec hfits.inRange (Nat.le_of_not_lt hle)
    rw [hok] at he
    cases he
  · cases h : reconcile limits effective (calls limits past).1 with
    | error e => exact ⟨e, rfl⟩
    | ok res => exact absurd (hsize res.1 res.2 h) (Nat.not_le.mpr hlt)
  · rw [calls, List.foldl_append]
    simp only [List.foldl_cons, List.foldl_nil]
    rw [← calls, call, he]
  · obtain ⟨shards', a', hok, -, hsplits⟩ := reconcile_spec hfits.inRange (hsize shards a h)
    rw [h] at hok
    cases hok
    obtain ⟨hfits', hshards, hall, hkeep⟩ := reconcile_ok hfits h
    refine ⟨hsplits, fun id subscriptions hid => ?_, fun t id hon heff => ?_⟩
    · refine le_trans ?_ (hfits'.load_le id)
      have hsub : subscriptions.rows.keys.Subperm
          ((a.rows.filter fun e => decide (e.2 = id)).map Prod.fst) := by
        refine List.subperm_of_subset subscriptions.unique fun t ht => ?_
        have hon : (modeOn shards id t).isSome = true := by
          rw [modeOn, hid]
          exact mem_keys.mp ht
        rw [hshards, modeOn_byShard] at hon
        split at hon
        · next heq =>
            obtain ⟨id', hid'⟩ := Option.isSome_iff_exists.mp (hall t hon)
            rw [hid'] at heq
            exact List.mem_map.mpr ⟨(t, id), List.mem_filter.mpr
              ⟨Table.mem_rows_iff.mpr (hid'.trans (congrArg some heq)), by simp⟩, rfl⟩
        · cases hon
      simpa [Dict.keys, load, List.countP_eq_length_filter] using hsub.length_le
    · rw [hshards, modeOn_byShard, hkeep t id heff (hlast t id hon)]
      simpa using heff

end KiteAlgo.Shards
