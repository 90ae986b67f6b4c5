import KiteAlgo.Shards.Sync
import Mathlib.Algebra.Order.BigOperators.Group.List
import Mathlib.Algebra.Order.Ring.Nat
import Mathlib.Data.Nat.Cast.Basic
import Mathlib.Logic.Function.Basic

/-!
# KiteAlgo.Shards.Allocator

Which shard carries which token (`allocator.go`).  `Reconcile` keeps the shard of a token
that is still wanted and gives each new token, in order, to the first shard with room.

A placement is counted: the counts of the shards add up to the tokens that have one
(`Counted`), so a shard has room as long as the tokens do not exceed the total capacity
(`exists_room`).  `byShard` then splits the wanted tokens by their shard.
-/

namespace KiteAlgo.Shards

/-! ## the allocator -/

structure Limits where
  softLimit : Nat
  maxShards : Nat

def Limits.shardIds (limits : Limits) : List Nat := List.range' 1 limits.maxShards

/-- `working` and `counts`. -/
structure Placing where
  working : Table UInt32 Nat
  counts : Nat → Nat

/-- `counts[shardID]++`. -/
def increment (counts : Nat → Nat) (shardId : Nat) : Nat → Nat :=
  Function.update counts shardId (counts shardId + 1)

/-- The stored shards of the tokens that are still wanted. -/
def keptAssignments (assignments : Table UInt32 Nat) (effective : OwnerSubscriptions) :
    Table UInt32 Nat :=
  assignments.filter fun t _ => (effective.get? t).isSome

/-- The tokens of each shard, before any is placed. -/
def keptCounts (working : Table UInt32 Nat) (effective : OwnerSubscriptions) : Nat → Nat :=
  effective.rows.keys.foldl (fun counts t =>
    match working.get? t with
    | some shardId => increment counts shardId
    | none => counts) fun _ => 0

/-- One token is given to the first shard with room. -/
def placeToken (limits : Limits) (p : Placing) (t : UInt32) : Except String Placing :=
  match limits.shardIds.find? fun shardId => decide (p.counts shardId < limits.softLimit) with
  | some shardId => .ok { working := p.working.upsert t shardId, counts := increment p.counts shardId }
  | none => .error ("soft shard capacity exhausted for token " ++ toString t.toNat)

def byShard (working : Table UInt32 Nat) (effective : OwnerSubscriptions) :
    Table Nat OwnerSubscriptions :=
  effective.rows.foldl (fun shards e =>
    let shardId := (working.get? e.1).getD 0
    shards.upsert shardId (((shards.get? shardId).getD .empty).upsert e.1 e.2)) .empty

/-- `Reconcile`: the tokens by shard and the assignments it stores. -/
def reconcile (limits : Limits) (effective : OwnerSubscriptions) (assignments : Table UInt32 Nat) :
    Except String (Table Nat OwnerSubscriptions × Table UInt32 Nat) := do
  let working := keptAssignments assignments effective
  let unassigned := sortTokens (effective.rows.keys.filter fun t => (working.get? t).isNone)
  let p ← unassigned.foldlM (placeToken limits) { working, counts := keptCounts working effective }
  return (byShard p.working effective, p.working)

/-! ## room -/

def InRange (limits : Limits) (assignments : Table UInt32 Nat) : Prop :=
  ∀ t shardId, assignments.get? t = some shardId → shardId ∈ limits.shardIds

/-- The counts of the shards add up to `n`. -/
def Counted (limits : Limits) (counts : Nat → Nat) (n : Nat) : Prop :=
  (limits.shardIds.map counts).sum = n

theorem nodup_shardIds (limits : Limits) : limits.shardIds.Nodup := List.nodup_range'

theorem length_shardIds (limits : Limits) : limits.shardIds.length = limits.maxShards :=
  List.length_range'

variable {counts : Nat → Nat} {shardId : Nat}

theorem sum_increment {ids : List Nat} (hids : ids.Nodup) (hmem : shardId ∈ ids) :
    (ids.map (increment counts shardId)).sum = (ids.map counts).sum + 1 := by
  induction ids with
  | nil => exact absurd hmem (by simp)
  | cons id ids ih =>
    obtain ⟨hnot, hids⟩ := List.nodup_cons.mp hids
    rw [List.map_cons, List.map_cons, List.sum_cons, List.sum_cons]
    rcases List.mem_cons.mp hmem with rfl | hrest
    · have hother : ids.map (increment counts shardId) = ids.map counts := by
        apply List.map_congr_left
        intro id hid
        exact Function.update_of_ne (by rintro rfl; exact hnot hid) _ _
      rw [hother, increment, Function.update_self]
      omega
    · have hne : id ≠ shardId := by
        rintro rfl
        exact hnot hrest
      rw [ih hids hrest, increment, Function.update_of_ne hne]
      omega

variable {limits : Limits} {n : Nat}

theorem Counted.increment (h : Counted limits counts n) (hmem : shardId ∈ limits.shardIds) :
    Counted limits (increment counts shardId) (n + 1) := by
  rw [Counted, sum_increment (nodup_shardIds limits) hmem, h]

theorem exists_room (h : Counted limits counts n)
    (hroom : n < limits.softLimit * limits.maxShards) :
    ∃ shardId ∈ limits.shardIds, counts shardId < limits.softLimit := by
  by_contra hfull
  have hall : ∀ c ∈ limits.shardIds.map counts, limits.softLimit ≤ c := by
    intro c hc
    obtain ⟨shardId, hmem, rfl⟩ := List.mem_map.mp hc
    by_contra hlt
    exact hfull ⟨shardId, hmem, Nat.lt_of_not_le hlt⟩
  have hsum := List.card_nsmul_le_sum _ _ hall
  rw [List.length_map, length_shardIds, h, nsmul_eq_mul, Nat.cast_id, Nat.mul_comm] at hsum
  omega

theorem placeToken_spec {p : Placing} (hcounted : Counted limits p.counts n)
    (hroom : n < limits.softLimit * limits.maxShards) (t : UInt32) :
    ∃ shardId ∈ limits.shardIds, placeToken limits p t =
        .ok { working := p.working.upsert t shardId, counts := increment p.counts shardId } ∧
      Counted limits (increment p.counts shardId) (n + 1) := by
  unfold placeToken
  cases hfind : limits.shardIds.find? fun shardId => decide (p.counts shardId < limits.softLimit) with
  | none =>
    obtain ⟨shardId, hmem, hlt⟩ := exists_room hcounted hroom
    have hnot := List.find?_eq_none.mp hfind shardId hmem
    exact absurd (decide_eq_true hlt) hnot
  | some shardId =>
    have hmem := List.mem_of_find?_eq_some hfind
    exact ⟨shardId, hmem, rfl, hcounted.increment hmem⟩

theorem placeTokens_spec {limits : Limits} {tokens : List UInt32} {p : Placing} {n : Nat}
    (hcounted : Counted limits p.counts n) (hrange : InRange limits p.working)
    (hroom : n + tokens.length ≤ limits.softLimit * limits.maxShards) :
    ∃ p', tokens.foldlM (placeToken limits) p = .ok p' ∧ InRange limits p'.working ∧
      ∀ t, t ∈ tokens ∨ (p.working.get? t).isSome = true → (p'.working.get? t).isSome = true := by
  induction tokens generalizing p n with
  | nil => exact ⟨p, rfl, hrange, fun t ht => ht.resolve_left (by simp)⟩
  | cons token tokens ih =>
    rw [List.length_cons] at hroom
    obtain ⟨shardId, hmem, hplace, hcounted'⟩ := placeToken_spec hcounted (by omega) token
    have hrange' : InRange limits (p.working.upsert token shardId) := by
      intro t id hget
      rw [Table.get?_upsert] at hget
      split at hget
      · rwa [← Option.some.inj hget]
      · exact hrange t id hget
    obtain ⟨p', hfold, hrange'', hplaced⟩ := @ih
      { working := p.working.upsert token shardId, counts := increment p.counts shardId } _
      hcounted' hrange' (by omega)
    refine ⟨p', ?_, hrange'', fun t ht => hplaced t ?_⟩
    · rw [List.foldlM_cons, hplace]
      exact hfold
    · rw [List.mem_cons, or_assoc] at ht
      rcases ht with rfl | hlater | hbefore
      · exact .inr (by simp)
      · exact .inl hlater
      · refine .inr ?_
        rw [Table.get?_upsert]
        split
        · rfl
        · exact hbefore

theorem counted_keptCounts {working : Table UInt32 Nat} (hrange : InRange limits working)
    (effective : OwnerSubscriptions) :
    Counted limits (keptCounts working effective)
      (effective.rows.keys.countP fun t => (working.get? t).isSome) := by
  have hfold : ∀ (tokens : List UInt32) (counts : Nat → Nat) (n : Nat), Counted limits counts n →
      Counted limits (tokens.foldl (fun counts t =>
        match working.get? t with
        | some shardId => increment counts shardId
        | none => counts) counts) (n + tokens.countP fun t => (working.get? t).isSome) := by
    intro tokens
    induction tokens with
    | nil => exact fun counts n hcounted => hcounted
    | cons token tokens ih =>
      intro counts n hcounted
      rw [List.foldl_cons, List.countP_cons]
      cases hget : working.get? token with
      | none => simpa using ih counts n hcounted
      | some shardId =>
        simp only [Option.isSome_some, if_true]
        rw [Nat.add_comm _ 1, ← Nat.add_assoc]
        exact ih _ _ (hcounted.increment (hrange token shardId hget))
  have hstart : Counted limits (fun _ => 0) 0 := by simp [Counted]
  have hkept := hfold effective.rows.keys _ 0 hstart
  rwa [Nat.zero_add] at hkept

/-! ## the tokens by shard -/

def modeOn (shards : Table Nat OwnerSubscriptions) (shardId : Nat) (t : UInt32) : Option Mode :=
  (shards.get? shardId).bind fun subscriptions => subscriptions.get? t

theorem modeOn_upsert (shards : Table Nat OwnerSubscriptions) (shardId id : Nat) (t t' : UInt32)
    (mode : Mode) :
    modeOn (shards.upsert shardId (((shards.get? shardId).getD .empty).upsert t mode)) id t' =
      if shardId = id ∧ t = t' then some mode else modeOn shards id t' := by
  unfold modeOn
  rw [Table.get?_upsert]
  by_cases hid : shardId = id
  · subst hid
    simp only [if_true, Option.bind_some, Table.get?_upsert, true_and]
    split
    · rfl
    · cases shards.get? shardId <;> rfl
  · simp [hid]

theorem modeOn_byShard (working : Table UInt32 Nat) (effective : OwnerSubscriptions) (id : Nat)
    (t : UInt32) :
    modeOn (byShard working effective) id t =
      if (working.get? t).getD 0 = id then effective.get? t else none := by
  have hfold : ∀ (rows : Dict UInt32 Mode) (shards : Table Nat OwnerSubscriptions), rows.keys.Nodup →
      modeOn (rows.foldl (fun shards e =>
          let shardId := (working.get? e.1).getD 0
          shards.upsert shardId (((shards.get? shardId).getD .empty).upsert e.1 e.2)) shards) id t =
        if (working.get? t).getD 0 = id then (rows.get? t).or (modeOn shards id t)
        else modeOn shards id t := by
    intro rows
    induction rows with
    | nil => intro shards _; simp
    | cons e rows ih =>
      intro shards hnodup
      obtain ⟨hnot, hnodup⟩ := List.nodup_cons.mp hnodup
      rw [List.foldl_cons, ih _ hnodup, modeOn_upsert, Dict.get?_cons]
      by_cases ht : e.1 = t
      · subst ht
        have hnone : Dict.get? rows e.1 = none := Dict.get?_eq_none_iff.mpr hnot
        by_cases hid : (working.get? e.1).getD 0 = id <;> simp [hid, hnone]
      · simp [ht]
  rw [byShard, hfold effective.rows .empty effective.unique,
    show modeOn .empty id t = none from rfl, Option.or_none]
  rfl

/-- The shards carry these subscriptions: each token on exactly one of them, in its mode. -/
def Splits (limits : Limits) (effective : OwnerSubscriptions) (on : Nat → UInt32 → Option Mode) : Prop :=
  ∀ t, match effective.get? t with
    | some mode => ∃ shardId ∈ limits.shardIds, on shardId t = some mode ∧
        ∀ id, id ≠ shardId → on id t = none
    | none => ∀ id, on id t = none

theorem reconcile_spec {effective : OwnerSubscriptions} {assignments : Table UInt32 Nat}
    (hrange : InRange limits assignments)
    (hcapacity : effective.rows.length ≤ limits.softLimit * limits.maxShards) :
    ∃ shards assignments', reconcile limits effective assignments = .ok (shards, assignments') ∧
      InRange limits assignments' ∧ Splits limits effective (modeOn shards) := by
  have hkept : InRange limits (keptAssignments assignments effective) := by
    intro t shardId hget
    rw [keptAssignments, Table.get?_filter, Option.filter_eq_some_iff] at hget
    exact hrange t shardId hget.1
  have hlength : effective.rows.keys.countP (fun t =>
        ((keptAssignments assignments effective).get? t).isSome) +
      (sortTokens (effective.rows.keys.filter fun t =>
        ((keptAssignments assignments effective).get? t).isNone)).length = effective.rows.length := by
    rw [sortTokens, length_sortBy, ← List.countP_eq_length_filter]
    have hall := List.length_eq_countP_add_countP
      (fun t => ((keptAssignments assignments effective).get? t).isSome) (l := effective.rows.keys)
    rw [show effective.rows.length = effective.rows.keys.length from (List.length_map _).symm, hall]
    congr 2
    funext t
    cases (keptAssignments assignments effective).get? t <;> rfl
  obtain ⟨p, hfold, hrange', hplaced⟩ := @placeTokens_spec limits _
    (Placing.mk (keptAssignments assignments effective) (keptCounts _ effective)) _
    (counted_keptCounts hkept effective) hkept (le_of_eq_of_le hlength hcapacity)
  refine ⟨byShard p.working effective, p.working, ?_, hrange', fun t => ?_⟩
  · simp only [reconcile, hfold]
    rfl
  · cases hget : effective.get? t with
    | none =>
      intro id
      simp [modeOn_byShard, hget]
    | some mode =>
      have hsome : (p.working.get? t).isSome = true := by
        apply hplaced
        rw [mem_sortTokens, List.mem_filter, mem_keys, hget]
        cases (keptAssignments assignments effective).get? t <;> simp
      obtain ⟨shardId, hshard⟩ := Option.isSome_iff_exists.mp hsome
      refine ⟨shardId, hrange' t shardId hshard, ?_, fun id hid => ?_⟩
      · simp [modeOn_byShard, hshard, hget]
      · simp [modeOn_byShard, hshard, Ne.symm hid]

end KiteAlgo.Shards
