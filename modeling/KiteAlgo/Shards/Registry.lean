import KiteAlgo.Shards

/-!
# KiteAlgo.Shards.Registry

Which owner wants which tokens (`registry.go`).  `Effective` merges the wishes of all owners
and keeps the strongest mode of a token; `effective_eq_some_iff` says just that.  The clock is
read by the caller and passed in.
-/

namespace KiteAlgo.Shards

open List Option
/-! ## modes -/

def modeRank : Mode → Nat
  | .ltp => 1
  | .quote => 2
  | .full => 3

def maxMode (a b : Mode) : Mode := if modeRank b > modeRank a then b else a

theorem modeRank_injective {a b : Mode} (h : modeRank a = modeRank b) : a = b := by
  cases a <;> cases b <;> simp [modeRank] at h ⊢

theorem modeRank_maxMode (a b : Mode) : modeRank (maxMode a b) = max (modeRank a) (modeRank b) := by
  unfold maxMode
  split <;> omega

theorem maxMode_eq_or (a b : Mode) : maxMode a b = a ∨ maxMode a b = b := by
  unfold maxMode
  split
  · exact .inr rfl
  · exact .inl rfl

/-! ## owners -/

structure OwnerState where
  subscriptions : OwnerSubscriptions
  updatedAt : Int

structure SubscriptionRegistry where
  owners : Table String OwnerState := .empty

namespace SubscriptionRegistry

def setOwner (owner : String) (subscriptions : OwnerSubscriptions) (now : Int)
    (r : SubscriptionRegistry) : SubscriptionRegistry :=
  if subscriptions.rows.isEmpty then { owners := r.owners.erase owner }
  else { owners := r.owners.upsert owner { subscriptions, updatedAt := now } }

def deleteOwner (owner : String) (r : SubscriptionRegistry) : SubscriptionRegistry :=
  { owners := r.owners.erase owner }

def getOwner (owner : String) (r : SubscriptionRegistry) : OwnerSubscriptions :=
  match r.owners.get? owner with
  | some state => state.subscriptions
  | none => .empty

def mergeMode (effective : OwnerSubscriptions) (entry : UInt32 × Mode) : OwnerSubscriptions :=
  match effective.get? entry.1 with
  | some current => effective.upsert entry.1 (maxMode current entry.2)
  | none => effective.upsert entry.1 entry.2

def effective (r : SubscriptionRegistry) : OwnerSubscriptions :=
  r.owners.rows.foldl (fun effective owner => owner.2.subscriptions.rows.foldl mergeMode effective)
    .empty

/-- The owner has not been heard of since the cutoff. -/
def expired (ttl now : Int) (state : OwnerState) : Bool := decide (state.updatedAt < now - ttl)

def deleteExpired (ttl now : Int) (r : SubscriptionRegistry) : List String × SubscriptionRegistry :=
  if ttl ≤ 0 then ([], r)
  else
    ((r.owners.select fun _ state => expired ttl now state).map Prod.fst,
      { owners := r.owners.filter fun _ state => !expired ttl now state })

/-! ## the strongest mode -/

/-- Some owner asks for the token in this mode. -/
def Requested (r : SubscriptionRegistry) (t : UInt32) (mode : Mode) : Prop :=
  ∃ owner state, r.owners.get? owner = some state ∧ state.subscriptions.get? t = some mode

theorem get?_mergeMode (effective : OwnerSubscriptions) (entry : UInt32 × Mode) (t : UInt32) :
    (mergeMode effective entry).get? t =
      if entry.1 = t then some (((effective.get? t).map fun current => maxMode current entry.2).getD entry.2)
      else effective.get? t := by
  unfold mergeMode
  by_cases h : entry.1 = t
  · subst h
    cases hget : effective.get? entry.1 <;> simp
  · cases effective.get? entry.1 <;> simp [Table.get?_upsert_of_ne h, h]

variable {mode : Mode} {t : UInt32}

theorem mem_of_merge {entries : List (UInt32 × Mode)} {effective : OwnerSubscriptions}
    (h : (entries.foldl mergeMode effective).get? t = some mode) :
    effective.get? t = some mode ∨ (t, mode) ∈ entries := by
  induction entries generalizing effective with
  | nil => exact .inl h
  | cons entry entries ih =>
    rcases ih h with hstep | hmem
    · rw [get?_mergeMode] at hstep
      split at hstep
      · next htoken =>
        subst htoken
        cases hget : effective.get? entry.1 with
        | none =>
          rw [hget] at hstep
          simp only [map_none, getD_none, some.injEq] at hstep
          exact .inr (by rw [← hstep]; exact mem_cons_self)
        | some current =>
          rw [hget] at hstep
          simp only [map_some, getD_some, some.injEq] at hstep
          rcases maxMode_eq_or current entry.2 with hmax | hmax
          · exact .inl (by rw [← hstep, hmax])
          · exact .inr (by rw [← hstep, hmax]; exact mem_cons_self)
      · exact .inl hstep
    · exact .inr (.tail _ hmem)

theorem le_merge {entries : List (UInt32 × Mode)} {effective : OwnerSubscriptions} {t : UInt32}
    {mode : Mode} (h : effective.get? t = some mode ∨ (t, mode) ∈ entries) :
    ∃ strongest, (entries.foldl mergeMode effective).get? t = some strongest ∧
      modeRank mode ≤ modeRank strongest := by
  induction entries generalizing effective mode with
  | nil => exact ⟨mode, h.resolve_right (by simp), Nat.le_refl _⟩
  | cons entry entries ih =>
    have hstep : (effective.get? t = some mode ∨ (t, mode) = entry) →
        ∃ mode', (mergeMode effective entry).get? t = some mode' ∧ modeRank mode ≤ modeRank mode' := by
      intro hhere
      rw [get?_mergeMode]
      split
      · next htoken =>
        refine ⟨_, rfl, ?_⟩
        cases hget : effective.get? t with
        | none =>
          rw [hget] at hhere
          rw [← (Prod.ext_iff.mp (hhere.resolve_left (by simp))).2]
          exact Nat.le_refl _
        | some current =>
          simp only [map_some, getD_some, modeRank_maxMode]
          rcases hhere with hcurrent | hentry
          · rw [hget] at hcurrent
            rw [some.inj hcurrent]
            exact Nat.le_max_left _ _
          · rw [← (Prod.ext_iff.mp hentry).2]
            exact Nat.le_max_right _ _
      · next htoken =>
        rcases hhere with hcurrent | hentry
        · exact ⟨mode, hcurrent, Nat.le_refl _⟩
        · exact absurd (by rw [← hentry]) htoken
    rcases h with hcurrent | hmem
    · obtain ⟨mode', hget, hle⟩ := hstep (.inl hcurrent)
      obtain ⟨strongest, hfold, hle'⟩ := ih (.inl hget)
      exact ⟨strongest, hfold, Nat.le_trans hle hle'⟩
    · rcases mem_cons.mp hmem with heq | hrest
      · obtain ⟨mode', hget, hle⟩ := hstep (.inr heq)
        obtain ⟨strongest, hfold, hle'⟩ := ih (.inl hget)
        exact ⟨strongest, hfold, Nat.le_trans hle hle'⟩
      · exact ih (.inr hrest)

/-- The entries of all owners, in the order in which they are merged. -/
def entries (r : SubscriptionRegistry) : List (UInt32 × Mode) :=
  r.owners.rows.flatMap fun owner => owner.2.subscriptions.rows

theorem effective_eq (r : SubscriptionRegistry) : r.effective = r.entries.foldl mergeMode .empty := by
  rw [effective, entries, foldl_flatMap]

variable {r : SubscriptionRegistry}

theorem mem_entries : (t, mode) ∈ r.entries ↔ r.Requested t mode := by
  simp only [entries, mem_flatMap, Requested, Prod.exists, Table.mem_rows_iff]

theorem effective_eq_some_iff :
    r.effective.get? t = some mode ↔
      r.Requested t mode ∧ ∀ mode', r.Requested t mode' → modeRank mode' ≤ modeRank mode := by
  rw [effective_eq]
  constructor
  · intro hget
    refine ⟨mem_entries.mp ((mem_of_merge hget).resolve_left (by simp)), fun mode' hmode' => ?_⟩
    obtain ⟨strongest, hstrongest, hle⟩ := @le_merge _ .empty _ _ (.inr (mem_entries.mpr hmode'))
    rw [hget] at hstrongest
    rwa [← some.inj hstrongest] at hle
  · rintro ⟨hrequested, hmax⟩
    obtain ⟨strongest, hget, hle⟩ := @le_merge _ .empty _ _ (.inr (mem_entries.mpr hrequested))
    have hstrongest := mem_entries.mp ((mem_of_merge hget).resolve_left (by simp))
    rw [hget, modeRank_injective (Nat.le_antisymm (hmax strongest hstrongest) hle)]

end SubscriptionRegistry

end KiteAlgo.Shards
