import KiteAlgo.Shards.Service
import Mathlib.Data.List.Infix

/-!
# KiteAlgo.Shards.Interleaved

What the shards carry when all calls have returned.  A call reads the effective subscriptions
and applies their allocation in different sections, so it may apply what is no longer wanted.
That does no harm while another call is still to put it right (`Repairs`): one that has not
read yet, or one that has read what is wanted now.  Along a run in which every outdated
allocation is applied before such a call (`Timely`), either the shards carry what is wanted or
a call is about to make them (`Good`), and at the end there is no call left.
-/

namespace KiteAlgo.Shards

open Table
variable {subscribed : Option Mode → Mode}

/-! ## what an apply leaves -/

/-- The mode in which a shard wants a token. -/
def desiredOn (shards : Table Nat KiteShard) (shardId : Nat) (t : UInt32) : Option Mode :=
  (shards.get? shardId).bind fun shard => shard.desired.get? t

theorem desired_applySubscriptions (desired : OwnerSubscriptions) (refusals : Refusals)
    (s : KiteShard) : (s.applySubscriptions subscribed desired refusals).1.desired = desired := by
  simp only [KiteShard.applySubscriptions]
  split
  · rfl
  · simp only [KiteShard.syncLocked]
    cases (KiteShard.perform subscribed refusals (syncCalls s.desired desired) s.connection).2 <;> rfl

theorem error_applySubscriptions {refusals : Refusals} (hquiet : ∀ call, refusals call = none)
    (desired : OwnerSubscriptions) (s : KiteShard) :
    (s.applySubscriptions subscribed desired refusals).2 = none := by
  have haccepted : ∀ call ∈ syncCalls s.desired desired, accepts refusals call = true := by
    intro call _
    simp [accepts, hquiet]
  simp only [KiteShard.applySubscriptions]
  split
  · rfl
  · simp only [KiteShard.syncLocked, perform_of_accepts haccepted]

theorem get?_of_isEmpty {subscriptions : OwnerSubscriptions} (h : subscriptions.rows.isEmpty = true)
    (t : UInt32) : subscriptions.get? t = none := by
  rw [get?, List.isEmpty_iff.mp h]
  rfl

theorem get?_getD_modeOn (byShard : Table Nat OwnerSubscriptions) (shardId : Nat) (t : UInt32) :
    ((byShard.get? shardId).getD .empty).get? t = modeOn byShard shardId t := by
  unfold modeOn
  cases byShard.get? shardId <;> rfl

theorem desiredOn_applyShard (token : String) (byShard : Table Nat OwnerSubscriptions)
    (refusals : Nat → Refusals) (acc : Table Nat KiteShard × Option String) (shardId id : Nat)
    (t : UInt32) :
    desiredOn (applyShard subscribed token byShard refusals acc shardId).1 id t =
      if shardId = id then modeOn byShard shardId t else desiredOn acc.1 id t := by
  simp only [applyShard]
  split
  · split
    · next hempty =>
      rw [Bool.and_eq_true] at hempty
      unfold desiredOn
      rw [get?_erase]
      split
      · rw [← get?_getD_modeOn, get?_of_isEmpty hempty.1]
        rfl
      · rfl
    · unfold desiredOn
      rw [get?_upsert]
      split
      · rw [Option.bind_some, desired_applySubscriptions, get?_getD_modeOn]
      · rfl
  · next hskip =>
    simp only [Bool.or_eq_true, not_or, Bool.not_eq_true, Bool.not_eq_false'] at hskip
    split
    · next hid =>
      subst hid
      rw [← get?_getD_modeOn, get?_of_isEmpty hskip.1.1, desiredOn,
        Option.isSome_eq_false_iff.mp hskip.2 |> Option.isNone_iff_eq_none.mp]
      rfl
    · rfl

variable {refusals : Nat → Refusals}

theorem error_applyShard (hquiet : ∀ id call, refusals id call = none) (token : String)
    (byShard : Table Nat OwnerSubscriptions) (acc : Table Nat KiteShard × Option String)
    (shardId : Nat) : (applyShard subscribed token byShard refusals acc shardId).2 = acc.2 := by
  simp only [applyShard]
  split
  · rw [error_applySubscriptions (hquiet shardId), Option.or_none]
  · rfl

theorem applyShards_spec {refusals : Nat → Refusals} (hquiet : ∀ id call, refusals id call = none)
    (limits : Limits) (token : String) (byShard : Table Nat OwnerSubscriptions)
    (shards : Table Nat KiteShard) :
    (applyShards subscribed limits token byShard refusals shards).2 = none ∧
      ∀ id t, desiredOn (applyShards subscribed limits token byShard refusals shards).1 id t =
        if id ∈ limits.shardIds then modeOn byShard id t else desiredOn shards id t := by
  have hfold : ∀ (ids : List Nat) (acc : Table Nat KiteShard × Option String),
      (ids.foldl (applyShard subscribed token byShard refusals) acc).2 = acc.2 ∧
        ∀ id t, desiredOn (ids.foldl (applyShard subscribed token byShard refusals) acc).1 id t =
          if id ∈ ids then modeOn byShard id t else desiredOn acc.1 id t := by
    intro ids
    induction ids with
    | nil => exact fun acc => ⟨rfl, fun id t => by simp⟩
    | cons shardId ids ih =>
      intro acc
      obtain ⟨herror, hdesired⟩ := ih (applyShard subscribed token byShard refusals acc shardId)
      refine ⟨herror.trans (error_applyShard hquiet token byShard acc shardId), fun id t => ?_⟩
      rw [List.foldl_cons, hdesired, desiredOn_applyShard]
      by_cases hid : shardId = id
      · subst hid
        simp
      · by_cases hmem : id ∈ ids <;> simp [hid, Ne.symm hid, hmem]
  exact hfold limits.shardIds (shards, none)

/-! ## subscriptions that agree -/

/-- Both name the same tokens in the same modes. -/
def Same (a b : OwnerSubscriptions) : Prop := ∀ t, a.get? t = b.get? t

variable {a b : OwnerSubscriptions}

theorem same_iff :
    Same a b ↔ (∀ e ∈ a.rows, b.get? e.1 = some e.2) ∧ ∀ e ∈ b.rows, a.get? e.1 = some e.2 := by
  constructor
  · intro h
    refine ⟨fun e he => ?_, fun e he => ?_⟩
    · rw [← h e.1]
      exact mem_rows_iff.mp he
    · rw [h e.1]
      exact mem_rows_iff.mp he
  · rintro ⟨hab, hba⟩ t
    cases ha : a.get? t with
    | some mode => exact (hab (t, mode) (mem_rows_iff.mpr ha)).symm
    | none =>
      cases hb : b.get? t with
      | none => rfl
      | some mode =>
        rw [hba (t, mode) (mem_rows_iff.mpr hb)] at ha
        exact absurd ha (by simp)

instance (a b : OwnerSubscriptions) : Decidable (Same a b) := decidable_of_iff _ same_iff.symm

variable {limits : Limits} {on : Nat → UInt32 → Option Mode}

theorem Splits.congr (h : Splits limits a on) (hsame : Same a b) : Splits limits b on := by
  intro t
  rw [← hsame t]
  exact h t

variable {effective : OwnerSubscriptions}

theorem Splits.eq_none (h : Splits limits effective on) {id : Nat} (hid : id ∉ limits.shardIds)
    (t : UInt32) : on id t = none := by
  have ht := h t
  split at ht
  · obtain ⟨shardId, hmem, -, hothers⟩ := ht
    exact hothers id (by rintro rfl; exact hid hmem)
  · exact ht id

/-! ## invariants -/

def Limits.capacity (limits : Limits) : Nat := limits.softLimit * limits.maxShards

/-- What holds of a call when the capacity is never exceeded and no ticker refuses a call. -/
def PhaseOk (limits : Limits) : Phase → Prop
  | .allocate _ effective => effective.rows.length ≤ limits.capacity
  | .apply _ effective (.ok byShard) => Splits limits effective (modeOn byShard)
  | .apply _ _ (.error _) => False
  | .restore _ _ => False
  | _ => True

def Quiet : Move → Prop
  | .start _ => True
  | .advance _ _ refusals => ∀ id call, refusals id call = none

def lastWrite (writes : List (String × OwnerSubscriptions)) (owner : String) : OwnerSubscriptions :=
  ((writes.reverse.find? fun w => decide (w.1 = owner)).map Prod.snd).getD .empty

/-- What holds along every run within the capacity. -/
structure Steady (limits : Limits) (s : System) : Prop where
  range : InRange limits s.service.assignments
  outside : ∀ id, id ∉ limits.shardIds → ∀ t, desiredOn s.service.shards id t = none
  phases : ∀ phase ∈ s.calls, PhaseOk limits phase
  owners : ∀ owner, Same (s.service.registry.getOwner owner) (lastWrite s.writes owner)

theorem PhaseOk.begin (limits : Limits) (request : Request) : PhaseOk limits request.begin := by
  cases request with
  | setOwnerSubscriptions owner subscriptions =>
    simp only [Request.begin]
    split <;> trivial
  | deleteOwner owner => trivial
  | ownerJanitor => trivial

theorem advance_ok {config : Config} {now : Int} {refusals : Nat → Refusals} {phase : Phase}
    {s : Service} (hquiet : ∀ id call, refusals id call = none)
    (hphase : PhaseOk config.limits phase) (hrange : InRange config.limits s.assignments)
    (hcapacity : s.registry.effective.rows.length ≤ config.limits.capacity) :
    PhaseOk config.limits (advance subscribed config now refusals phase s).1 ∧
      InRange config.limits (advance subscribed config now refusals phase s).2.assignments := by
  cases phase with
  | lookup write => exact ⟨trivial, hrange⟩
  | write write previous => exact ⟨trivial, hrange⟩
  | sweep =>
    simp only [advance]
    refine ⟨?_, hrange⟩
    split <;> trivial
  | read undo => exact ⟨hcapacity, hrange⟩
  | allocate undo effective =>
    obtain ⟨byShard, assignments, hok, hrange', hsplits⟩ := reconcile_spec hrange hphase
    simp only [advance, hok]
    exact ⟨hsplits, hrange'⟩
  | apply undo effective allocation =>
    cases allocation with
    | error error => exact absurd hphase id
    | ok byShard =>
      obtain ⟨herror, -⟩ := @applyShards_spec subscribed refusals hquiet config.limits
        s.currentToken byShard s.shards
      simp only [advance, herror]
      exact ⟨trivial, hrange⟩
  | restore owner previous => exact absurd hphase id
  | returned => exact ⟨trivial, hrange⟩

/-! ## owners -/

theorem lastWrite_append (writes more : List (String × OwnerSubscriptions)) (owner : String) :
    lastWrite (writes ++ more) owner = match more.reverse.find? fun w => decide (w.1 = owner) with
      | some w => w.2
      | none => lastWrite writes owner := by
  unfold lastWrite
  rw [List.reverse_append, List.find?_append]
  cases more.reverse.find? fun w => decide (w.1 = owner) <;> rfl

theorem getOwner_setOwner (owner owner' : String) (subscriptions : OwnerSubscriptions) (now : Int)
    (r : SubscriptionRegistry) (t : UInt32) :
    ((r.setOwner owner subscriptions now).getOwner owner').get? t =
      if owner = owner' then subscriptions.get? t else (r.getOwner owner').get? t := by
  by_cases hempty : subscriptions.rows.isEmpty = true
  · rw [SubscriptionRegistry.setOwner, if_pos hempty]
    simp only [SubscriptionRegistry.getOwner, get?_erase]
    by_cases howner : owner = owner'
    · simp [howner, get?_of_isEmpty hempty]
    · simp [howner]
  · rw [SubscriptionRegistry.setOwner, if_neg hempty]
    simp only [SubscriptionRegistry.getOwner, get?_upsert]
    by_cases howner : owner = owner' <;> simp [howner]

theorem getOwner_deleteOwner (owner owner' : String) (r : SubscriptionRegistry) (t : UInt32) :
    ((r.deleteOwner owner).getOwner owner').get? t =
      if owner = owner' then none else (r.getOwner owner').get? t := by
  unfold SubscriptionRegistry.deleteOwner SubscriptionRegistry.getOwner
  simp only [get?_erase]
  by_cases howner : owner = owner' <;> simp [howner]

theorem getOwner_exec (write : Write) (now : Int) (r : SubscriptionRegistry) (owner : String)
    (t : UInt32) :
    ((write.exec now r).getOwner owner).get? t =
      if write.owner = owner then write.subscriptions.get? t else (r.getOwner owner).get? t := by
  cases write with
  | set owner' subscriptions => exact getOwner_setOwner owner' owner subscriptions now r t
  | delete owner' => exact getOwner_deleteOwner owner' owner r t

variable {now ttl : Int} {r : SubscriptionRegistry}

theorem mem_deleteExpired {owner : String} :
    owner ∈ (r.deleteExpired ttl now).1 ↔ 0 < ttl ∧ ∃ state, r.owners.get? owner = some state ∧
      SubscriptionRegistry.expired ttl now state = true := by
  unfold SubscriptionRegistry.deleteExpired
  split
  · next hoff =>
    constructor
    · intro hmem
      exact absurd hmem (by simp)
    · rintro ⟨hon, -⟩
      omega
  · next hon =>
    simp only [List.mem_map, Prod.exists, exists_and_right, exists_eq_right, mem_select]
    exact ⟨fun h => ⟨by omega, h⟩, And.right⟩

theorem getOwner_deleteExpired (ttl now : Int) (r : SubscriptionRegistry) (owner : String)
    (t : UInt32) :
    ((r.deleteExpired ttl now).2.getOwner owner).get? t =
      if owner ∈ (r.deleteExpired ttl now).1 then none else (r.getOwner owner).get? t := by
  by_cases hoff : ttl ≤ 0
  · simp [SubscriptionRegistry.deleteExpired, hoff]
  · have hfilter : (r.deleteExpired ttl now).2.owners.get? owner =
        (r.owners.get? owner).filter fun state => !SubscriptionRegistry.expired ttl now state := by
      simp only [SubscriptionRegistry.deleteExpired, if_neg hoff]
      exact get?_filter _ _ _
    simp only [mem_deleteExpired, SubscriptionRegistry.getOwner, hfilter]
    cases hget : r.owners.get? owner with
    | none => simp
    | some state =>
      cases hexpired : SubscriptionRegistry.expired ttl now state with
      | true => simp [hexpired, Int.lt_of_not_ge hoff, Option.filter_some]
      | false => simp [hexpired, Option.filter_some]

theorem deleteExpired_of_isEmpty (h : (r.deleteExpired ttl now).1.isEmpty = true) :
    (r.deleteExpired ttl now).2 = r := by
  unfold SubscriptionRegistry.deleteExpired at h ⊢
  split
  · rfl
  · next hon =>
    rw [if_neg hon] at h
    obtain ⟨⟨rows, hunique⟩⟩ := r
    simp only [List.isEmpty_iff, List.map_eq_nil_iff, select, List.filter_eq_nil_iff] at h
    simp only [filter, SubscriptionRegistry.mk.injEq, Table.mk.injEq]
    exact List.filter_eq_self.mpr fun e he => by simpa using h e he

variable {config : Config} {phase : Phase}

theorem owners_advance {s : Service} {writes : List (String × OwnerSubscriptions)}
    (hphase : PhaseOk config.limits phase)
    (h : ∀ owner, Same (s.registry.getOwner owner) (lastWrite writes owner)) (owner : String) :
    Same ((advance subscribed config now refusals phase s).2.registry.getOwner owner)
      (lastWrite (writes ++ written config now phase s) owner) := by
  intro t
  rw [lastWrite_append]
  cases phase with
  | write write previous =>
    simp only [advance, written, getOwner_exec, List.reverse_singleton, List.find?_singleton]
    by_cases howner : write.owner = owner
    · simp [howner]
    · simp [howner, h owner t]
  | sweep =>
    simp only [advance, written, getOwner_deleteExpired]
    rw [← List.map_reverse, List.find?_map]
    by_cases hmem : owner ∈ (s.registry.deleteExpired config.ownerLeaseTtl now).1
    · obtain ⟨found, hfind⟩ : ∃ found, (s.registry.deleteExpired config.ownerLeaseTtl now).1.reverse.find?
          ((fun w : String × OwnerSubscriptions => decide (w.1 = owner)) ∘
            fun owner => (owner, empty)) = some found := by
        rw [← Option.isSome_iff_exists, List.find?_isSome]
        exact ⟨owner, List.mem_reverse.mpr hmem, by simp⟩
      rw [if_pos hmem, hfind]
      rfl
    · have hfind : (s.registry.deleteExpired config.ownerLeaseTtl now).1.reverse.find?
          ((fun w : String × OwnerSubscriptions => decide (w.1 = owner)) ∘
            fun owner => (owner, empty)) = none := by
        rw [List.find?_eq_none]
        intro other hother
        simp only [Function.comp_apply, decide_eq_true_eq]
        rintro rfl
        exact hmem (List.mem_reverse.mp hother)
      rw [if_neg hmem, hfind]
      exact h owner t
  | allocate undo effective =>
    simp only [advance, written]
    cases reconcile config.limits effective s.assignments <;> exact h owner t
  | apply undo effective allocation =>
    cases allocation <;> exact h owner t
  | restore owner previous => exact absurd hphase id
  | lookup write => exact h owner t
  | read undo => exact h owner t
  | returned => exact h owner t

theorem desiredOn_advance (hquiet : ∀ id call, refusals id call = none) (phase : Phase)
    (s : Service) (id : Nat) (t : UInt32) :
    desiredOn (advance subscribed config now refusals phase s).2.shards id t = match phase with
      | .apply _ _ (.ok byShard) =>
        if id ∈ config.limits.shardIds then modeOn byShard id t else desiredOn s.shards id t
      | _ => desiredOn s.shards id t := by
  cases phase with
  | allocate undo effective =>
    simp only [advance]
    cases reconcile config.limits effective s.assignments <;> rfl
  | apply undo effective allocation =>
    cases allocation with
    | error error => rfl
    | ok byShard => exact (applyShards_spec hquiet _ _ _ _).2 id t
  | _ => rfl

variable {move : Move} {s : System}

theorem Steady.step (h : Steady config.limits s) (hquiet : Quiet move)
    (hcapacity : s.service.registry.effective.rows.length ≤ config.limits.capacity) :
    Steady config.limits (s.step subscribed config move) := by
  cases move with
  | start request =>
    refine ⟨h.range, h.outside, fun phase hmem => ?_, h.owners⟩
    rcases List.mem_append.mp hmem with hold | hnew
    · exact h.phases phase hold
    · rw [List.mem_singleton.mp hnew]
      exact PhaseOk.begin config.limits request
  | advance i now refusals =>
    simp only [System.step]
    cases hget : s.calls[i]? with
    | none => exact h
    | some phase =>
      have hphase := h.phases phase (List.mem_of_getElem? hget)
      obtain ⟨hnext, hrange⟩ := @advance_ok subscribed config now refusals phase s.service hquiet
        hphase h.range hcapacity
      refine ⟨hrange, ?_, fun phase' hmem => ?_, owners_advance hphase h.owners⟩
      · intro id hid t
        have hsame : desiredOn (advance subscribed config now refusals phase s.service).2.shards id t =
            desiredOn s.service.shards id t := by
          rw [desiredOn_advance hquiet]
          split
          · rw [if_neg hid]
          · rfl
        exact hsame.trans (h.outside id hid t)
      · rcases List.mem_or_eq_of_mem_set hmem with hold | rfl
        · exact h.phases phase' hold
        · exact hnext

/-! ## repairs -/

/-- The call is still to bring the shards to `wanted`. -/
def Repairs (wanted : OwnerSubscriptions) : Phase → Prop
  | .lookup _ | .write _ _ | .read _ => True
  | .allocate _ effective => Same effective wanted
  | .apply _ effective _ => Same effective wanted
  | _ => False

instance (wanted : OwnerSubscriptions) (phase : Phase) : Decidable (Repairs wanted phase) := by
  unfold Repairs
  split <;> infer_instance

/-- An allocation of what is no longer wanted is applied only before a call that repairs it. -/
def Timely (move : Move) (s : System) : Prop :=
  match move with
  | .advance i _ _ =>
    match s.calls[i]? with
    | some (.apply _ effective _) => Same effective s.service.registry.effective ∨
        ∃ other ∈ s.calls.eraseIdx i, Repairs s.service.registry.effective other
    | _ => True
  | _ => True

instance (move : Move) (s : System) : Decidable (Timely move s) := by
  unfold Timely
  repeat' split
  all_goals infer_instance

/-- The shards carry what is wanted, each token on exactly one of them. -/
def Carries (limits : Limits) (s : Service) : Prop :=
  Splits limits s.registry.effective (desiredOn s.shards)

/-- The shards carry what is wanted, or a call is still to make them. -/
def Good (limits : Limits) (s : System) : Prop :=
  Carries limits s.service ∨ ∃ phase ∈ s.calls, Repairs s.service.registry.effective phase

variable {i : Nat}

theorem Good.of_same {s' : System} {next : Phase} (h : Good limits s)
    (hget : s.calls[i]? = some phase) (hcalls : s'.calls = s.calls.set i next)
    (hregistry : s'.service.registry = s.service.registry)
    (hshards : s'.service.shards = s.service.shards)
    (hnext : Repairs s.service.registry.effective phase → Repairs s.service.registry.effective next) :
    Good limits s' := by
  unfold Good Carries
  rw [hregistry, hshards, hcalls]
  rcases h with hcarries | ⟨other, hmem, hrepairs⟩
  · exact .inl hcarries
  · obtain ⟨j, hj⟩ := List.mem_iff_getElem?.mp hmem
    refine .inr ?_
    by_cases hij : i = j
    · subst hij
      rw [hget] at hj
      obtain rfl := Option.some.inj hj
      exact ⟨next, List.mem_set (List.getElem?_eq_some_iff.mp hget).1 next, hnext hrepairs⟩
    · exact ⟨other, List.mem_of_getElem? (by rw [List.getElem?_set_ne hij]; exact hj), hrepairs⟩

theorem mem_set_of_mem_eraseIdx {α : Type} {xs : List α} {x y : α} (h : x ∈ xs.eraseIdx i) :
    x ∈ xs.set i y := by
  rw [List.mem_eraseIdx_iff_getElem?] at h
  obtain ⟨j, hij, hj⟩ := h
  exact List.mem_of_getElem? (by rw [List.getElem?_set_ne hij.symm]; exact hj)

theorem carries_of_apply {s : Service} (now : Int) (undo : Option (String × OwnerSubscriptions))
    {byShard : Table Nat OwnerSubscriptions} (hquiet : ∀ id call, refusals id call = none)
    (houtside : ∀ id, id ∉ config.limits.shardIds → ∀ t, desiredOn s.shards id t = none)
    (hsplits : Splits config.limits effective (modeOn byShard))
    (hsame : Same effective s.registry.effective) :
    Carries config.limits
      (advance subscribed config now refusals (.apply undo effective (.ok byShard)) s).2 := by
  have hdesired : desiredOn
      (advance subscribed config now refusals (.apply undo effective (.ok byShard)) s).2.shards =
      modeOn byShard := by
    funext id t
    rw [desiredOn_advance hquiet]
    simp only
    split
    · rfl
    · next hid => rw [houtside id hid, hsplits.eq_none hid]
  rw [Carries, hdesired]
  exact hsplits.congr hsame

theorem Good.step (h : Good config.limits s) (hsteady : Steady config.limits s)
    (hquiet : Quiet move) (htimely : Timely move s) :
    Good config.limits (s.step subscribed config move) := by
  cases move with
  | start request =>
    refine h.imp_right ?_
    rintro ⟨phase, hmem, hrepairs⟩
    exact ⟨phase, List.mem_append_left _ hmem, hrepairs⟩
  | advance i now refusals =>
    simp only [System.step]
    cases hget : s.calls[i]? with
    | none => exact h
    | some phase =>
      have hlt : i < s.calls.length := (List.getElem?_eq_some_iff.mp hget).1
      have hphase := hsteady.phases phase (List.mem_of_getElem? hget)
      cases phase with
      | lookup write => exact h.of_same hget rfl rfl rfl fun _ => trivial
      | write write previous => exact .inr ⟨_, List.mem_set hlt _, trivial⟩
      | sweep =>
        simp only [advance]
        by_cases hnone :
            (s.service.registry.deleteExpired config.ownerLeaseTtl now).1.isEmpty = true
        · exact h.of_same hget rfl (deleteExpired_of_isEmpty hnone) rfl fun hnot => absurd hnot id
        · rw [if_neg hnone]
          exact .inr ⟨_, List.mem_set hlt _, trivial⟩
      | read undo => exact h.of_same hget rfl rfl rfl fun _ _ => rfl
      | allocate undo effective =>
        obtain ⟨byShard, assignments, hok, -⟩ := reconcile_spec hsteady.range hphase
        simp only [advance, hok]
        exact h.of_same hget rfl rfl rfl id
      | apply undo effective allocation =>
        cases allocation with
        | error error => exact absurd hphase id
        | ok byShard =>
          simp only [Timely, hget] at htimely
          rcases htimely with hsame | ⟨other, hmem, hrepairs⟩
          · exact .inl (carries_of_apply now undo hquiet hsteady.outside hphase hsame)
          · exact .inr ⟨other, mem_set_of_mem_eraseIdx hmem, hrepairs⟩
      | restore owner previous => exact absurd hphase id
      | returned => exact h.of_same hget rfl rfl rfl id

/-! ## runs -/

/-- A service to which no call has been made. -/
structure Fresh (s : System) : Prop where
  registry : s.service.registry.owners.rows = []
  assignments : s.service.assignments.rows = []
  shards : ∀ id t, desiredOn s.service.shards id t = none
  calls : s.calls = []
  writes : s.writes = []

theorem effective_of_fresh (h : Fresh s) (t : UInt32) :
    s.service.registry.effective.get? t = none := by
  rw [SubscriptionRegistry.effective, h.registry]
  rfl

theorem Fresh.steady (h : Fresh s) (limits : Limits) : Steady limits s where
  range := by
    intro t shardId hget
    rw [get?, h.assignments] at hget
    exact absurd hget (by simp)
  outside := fun id _ t => h.shards id t
  phases := by
    rw [h.calls]
    simp
  owners := by
    intro owner t
    have hnone : s.service.registry.owners.get? owner = none := by
      rw [get?, h.registry]
      rfl
    rw [h.writes, SubscriptionRegistry.getOwner, hnone]
    rfl

theorem Fresh.good (h : Fresh s) (limits : Limits) : Good limits s := by
  refine .inl fun t => ?_
  rw [effective_of_fresh h]
  exact fun id => h.shards id t

variable {moves : List Move}

theorem steady_run (hfresh : Fresh s) (hquiet : ∀ move ∈ moves, Quiet move)
    (hcapacity : ∀ before, before <+: moves →
      (s.run subscribed config before).service.registry.effective.rows.length ≤ config.limits.capacity) :
    Steady config.limits (s.run subscribed config moves) := by
  induction moves using List.reverseRecOn with
  | nil => exact hfresh.steady config.limits
  | append_singleton moves move ih =>
    have hbefore : moves <+: moves ++ [move] := List.prefix_append moves [move]
    rw [System.run_concat]
    refine (ih (fun m hm => hquiet m (List.mem_append_left _ hm)) fun before hinit =>
      hcapacity before (hinit.trans hbefore)).step ?_ (hcapacity moves hbefore)
    exact hquiet move (by simp)

theorem good_run (hfresh : Fresh s) (hquiet : ∀ move ∈ moves, Quiet move)
    (hcapacity : ∀ before, before <+: moves →
      (s.run subscribed config before).service.registry.effective.rows.length ≤ config.limits.capacity)
    (htimely : ∀ before move, before ++ [move] <+: moves → Timely move (s.run subscribed config before)) :
    Good config.limits (s.run subscribed config moves) := by
  induction moves using List.reverseRecOn with
  | nil => exact hfresh.good config.limits
  | append_singleton moves move ih =>
    have hbefore : moves <+: moves ++ [move] := List.prefix_append moves [move]
    have hquiet' : ∀ m ∈ moves, Quiet m := fun m hm => hquiet m (List.mem_append_left _ hm)
    have hcapacity' := fun before (hinit : before <+: moves) =>
      hcapacity before (hinit.trans hbefore)
    rw [System.run_concat]
    refine (ih hquiet' hcapacity' fun before m hinit =>
      htimely before m (hinit.trans hbefore)).step (steady_run hfresh hquiet' hcapacity') ?_
      (htimely moves move (List.prefix_refl _))
    exact hquiet move (by simp)

def demoConfig : Config := { limits := { softLimit := 2, maxShards := 2 } }

/-- A service to which no call has been made. -/
def demoSystem : System := { service := {} }

def demoAdvance (call n : Nat) : List Move := List.replicate n (.advance call 0 fun _ _ => none)

/-- Owner `a` asks for token 1, owner `b` for token 2. -/
def demoCalls : List Move :=
  [.start (.setOwnerSubscriptions "a" (Table.empty.upsert 1 .ltp)),
    .start (.setOwnerSubscriptions "b" (Table.empty.upsert 2 .full))]

/-- Call `a` reads before `b` writes, and applies before `b` does. -/
def demoInTime : List Move := demoCalls ++ demoAdvance 0 3 ++ demoAdvance 1 4 ++ demoAdvance 0 2 ++
  demoAdvance 1 1

/-- Call `a` reads before `b` writes, and applies after `b` has returned. -/
def demoOutdated : List Move := demoCalls ++ demoAdvance 0 3 ++ demoAdvance 1 5 ++ demoAdvance 0 2

theorem fresh_demoSystem : Fresh demoSystem := ⟨rfl, rfl, fun _ _ => rfl, rfl, rfl⟩

theorem quiet_demoAdvance (call n : Nat) : ∀ move ∈ demoAdvance call n, Quiet move := by
  intro move hmem
  rw [List.eq_of_mem_replicate hmem]
  exact fun _ _ => rfl

theorem quiet_demoInTime : ∀ move ∈ demoInTime, Quiet move := by
  simp only [demoInTime, List.forall_mem_append]
  refine ⟨⟨⟨⟨?_, quiet_demoAdvance 0 3⟩, quiet_demoAdvance 1 4⟩, quiet_demoAdvance 0 2⟩,
    quiet_demoAdvance 1 1⟩
  simp [demoCalls, Quiet]

end KiteAlgo.Shards
