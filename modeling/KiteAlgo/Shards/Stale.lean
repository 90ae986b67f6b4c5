import KiteAlgo.Shards.Sync

/-!
# KiteAlgo.Shards.Stale

Can a ticker that was replaced disturb its successor?  The handlers do not know which
instance calls them: they write the status of the shard, and `handleConnect` syncs whatever
ticker is current.  So a late callback leaves the shard alone only where it reports what the
shard says already (`Repeats`), and a late connect after `Stop` calls a ticker that is not
there.
-/

namespace KiteAlgo.Shards

open List Option KiteShard
variable {subscribed : Option Mode → Mode} {refusals : Refusals}

/-! ## what a late connect does -/

/-- The modes that are set before a call is refused. -/
def settledModes (refusals : Refusals) (desired : OwnerSubscriptions) : List Mode :=
  modes.takeWhile fun mode =>
    (unlessEmpty (tokensIn mode desired) (Call.setMode mode)).all (accepts refusals)

/-- The subscribe call of a sync comes through, or there is none. -/
def subscribes (refusals : Refusals) (desired : OwnerSubscriptions) : Bool :=
  (unlessEmpty (tokenKeys desired) Call.subscribe).all (accepts refusals)

theorem syncCalls_empty (desired : OwnerSubscriptions) :
    syncCalls .empty desired = unlessEmpty (tokenKeys desired) Call.subscribe ++
      modes.flatMap fun mode => unlessEmpty (tokensIn mode desired) (Call.setMode mode) := rfl

theorem unlessEmpty_eq_nil {tokens : List UInt32} {call : List UInt32 → Call} :
    unlessEmpty tokens call = [] ↔ tokens = [] := by
  unfold unlessEmpty
  split
  · next hempty => simp [List.isEmpty_iff.mp hempty]
  · next hempty => simpa using hempty

theorem length_unlessEmpty (tokens : List UInt32) (call : List UInt32 → Call) :
    (unlessEmpty tokens call).length ≤ 1 := by
  unfold unlessEmpty
  split <;> simp

theorem syncCalls_eq_nil {desired : OwnerSubscriptions} :
    syncCalls .empty desired = [] ↔ ∀ t, desired.get? t = none := by
  constructor
  · intro hnil t
    rw [syncCalls_empty, append_eq_nil_iff, unlessEmpty_eq_nil] at hnil
    by_contra hsome
    have hmem : t ∈ tokenKeys desired :=
      mem_tokenKeys.mpr (isSome_iff_ne_none.mpr hsome)
    rw [hnil.1] at hmem
    exact absurd hmem (by simp)
  · intro hnone
    rw [syncCalls_empty, append_eq_nil_iff, flatMap_eq_nil_iff, unlessEmpty_eq_nil]
    refine ⟨eq_nil_iff_forall_not_mem.mpr fun t hmem => ?_, fun mode _ => ?_⟩
    · simp [mem_tokenKeys, hnone t] at hmem
    · rw [unlessEmpty_eq_nil]
      refine eq_nil_iff_forall_not_mem.mpr fun t hmem => ?_
      simp [mem_tokensIn, hnone t] at hmem

theorem takeWhile_flatMap {α β : Type} {f : α → List β} (hf : ∀ a, (f a).length ≤ 1) (p : β → Bool)
    (xs : List α) : (xs.flatMap f).takeWhile p = (xs.takeWhile fun a => (f a).all p).flatMap f := by
  induction xs with
  | nil => rfl
  | cons a xs ih =>
    rw [flatMap_cons, takeWhile_cons]
    match hfa : f a, hf a with
    | [], _ => simp [hfa, ih]
    | [b], _ => cases hb : p b <;> simp [hfa, hb, ih]

theorem effects_accepted (refusals : Refusals) (desired : OwnerSubscriptions)
    (connection : Connection) (t : UInt32) :
    effects subscribed ((syncCalls .empty desired).takeWhile (accepts refusals)) connection t =
      match desired.get? t with
      | some mode =>
        if subscribes refusals desired then
          some (if mode ∈ settledModes refusals desired then mode else subscribed (connection t))
        else connection t
      | none => connection t := by
  rw [syncCalls_empty]
  cases hsub : subscribes refusals desired with
  | true =>
    have haccepted : ∀ call ∈ unlessEmpty (tokenKeys desired) Call.subscribe,
        accepts refusals call := by
      simpa [subscribes] using hsub
    rw [takeWhile_append_of_pos haccepted, takeWhile_flatMap (fun _ => length_unlessEmpty _ _),
      effects_append, effects_unlessEmpty (fun _ => rfl), effects_setModes]
    cases hget : desired.get? t with
    | none => simp [Call.effect, mem_tokenKeys, hget]
    | some mode =>
      simp only [Call.effect, mem_tokenKeys, hget, isSome_some, if_true, map_some,
        settledModes]
      exact (apply_ite some _ _ _).symm
  | false =>
    have hnil : (unlessEmpty (tokenKeys desired) Call.subscribe ++
        modes.flatMap fun mode => unlessEmpty (tokensIn mode desired) (Call.setMode mode)).takeWhile
          (accepts refusals) = [] := by
      unfold subscribes unlessEmpty at hsub
      unfold unlessEmpty
      split at hsub
      · simp at hsub
      · next htokens =>
        rw [if_neg htokens]
        simpa using hsub
    rw [hnil]
    cases desired.get? t <;> rfl

/-! ## callbacks that change nothing -/

/-- The callbacks of a step do what they may: they find a ticker, and one of an instance that
is not current leaves the connected mark, the status and the current connection alone. -/
def Undisturbed (subscribed : Option Mode → Mode) (st : Step) (s : KiteShard) : Prop :=
  match st with
  | .callback k callback => k < s.created → ∃ s', s.deliver subscribed k callback = some s' ∧
      (s.ticker ≠ some k → s'.connected = s.connected ∧ s'.status = s.status ∧ s'.connection = s.connection)
  | _ => True

/-- The callback reports what the shard says already.  A connect that syncs without a refusal
finds it connected, and one that is refused finds it degraded; the tokens the sync touches are
in the mode it leaves them in; and without a ticker there is no token to sync. -/
def Reports (subscribed : Option Mode → Mode) (callback : Callback) (s : KiteShard) : Prop :=
  match callback with
  | .connect refusals =>
    (s.ticker = none → ∀ t, s.desired.get? t = none) ∧
      (if (syncCalls .empty s.desired).all (accepts refusals) then
        s.connected = true ∧ s.status = .connected
      else s.connected = false ∧ s.status = .degraded) ∧
      (subscribes refusals s.desired = true → ∀ connection, s.connection = some connection →
        ∀ t mode, s.desired.get? t = some mode → connection t =
            some (if mode ∈ settledModes refusals s.desired then mode else subscribed (connection t)))
  | .error _ => s.status = .degraded
  | .close code _ => s.connected = false ∧ s.status = .closed code
  | .reconnect attempt => s.connected = false ∧ s.status = .reconnecting attempt
  | .noReconnect attempt => s.connected = false ∧ s.status = .noReconnect attempt

/-- The callbacks of replaced instances only repeat what the shard says. -/
def Repeats (subscribed : Option Mode → Mode) (st : Step) (s : KiteShard) : Prop :=
  match st with
  | .callback k callback => k < s.created → s.ticker ≠ some k → Reports subscribed callback s
  | _ => True

theorem text_ne_reconnecting (status : ShardStatus) : status.text ≠ "reconnecting" := by
  intro htext
  have hlist := congrArg String.toList htext
  cases status <;> simp [ShardStatus.text] at hlist

theorem handleError_eq (error : String) (s : KiteShard) :
    s.handleError error = { s with lastError := error, status := .degraded } := by
  rw [handleError, if_pos (text_ne_reconnecting s.status)]

theorem effects_accepted_eq_iff (refusals : Refusals) (desired : OwnerSubscriptions)
    (connection : Connection) :
    effects subscribed ((syncCalls .empty desired).takeWhile (accepts refusals)) connection = connection ↔
      (subscribes refusals desired → ∀ t mode, desired.get? t = some mode → connection t =
          some (if mode ∈ settledModes refusals desired then mode else subscribed (connection t))) := by
  rw [funext_iff]
  constructor
  · intro hsame hsub t mode hget
    have ht := hsame t
    rw [effects_accepted, hget] at ht
    simp only [hsub, if_true] at ht
    exact ht.symm
  · intro hkept t
    rw [effects_accepted]
    cases hget : desired.get? t with
    | none => rfl
    | some mode =>
      cases hsub : subscribes refusals desired with
      | false => rfl
      | true => exact (hkept hsub t mode hget).symm

theorem handleConnect_eq {s : KiteShard} (hfound : s.ticker = none → ∀ t, s.desired.get? t = none)
    (refusals : Refusals) :
    ∃ s', (s.handleConnect subscribed refusals).map Prod.fst = some s' ∧
      s'.connected = (syncCalls .empty s.desired).all (accepts refusals) ∧
      s'.status = (if (syncCalls .empty s.desired).all (accepts refusals) then .connected
        else .degraded) ∧
      s'.connection = s.connection.map
        (effects subscribed ((syncCalls .empty s.desired).takeWhile (accepts refusals))) := by
  have hguard : (s.ticker.isNone && !(syncCalls .empty s.desired).isEmpty) = false := by
    cases hticker : s.ticker with
    | some k => rfl
    | none => simp [syncCalls_eq_nil.mpr (hfound hticker)]
  simp only [handleConnect, hguard, Bool.false_eq_true, if_false, syncLocked]
  have hconnection : (perform subscribed refusals (syncCalls .empty s.desired)
      s.connection).1 = s.connection.map
        (effects subscribed ((syncCalls .empty s.desired).takeWhile (accepts refusals))) := by
    rw [perform_eq]
  cases herror : (perform subscribed refusals (syncCalls .empty s.desired) s.connection).2 with
  | none =>
    have hall : (syncCalls .empty s.desired).all (accepts refusals) = true :=
      List.all_eq_true.mpr (error_perform_eq_none.mp herror)
    exact ⟨_, rfl, by rw [hall], by rw [if_pos hall], hconnection⟩
  | some error =>
    have hall : ¬ (syncCalls .empty s.desired).all (accepts refusals) = true := by
      rw [List.all_eq_true, ← @error_perform_eq_none subscribed refusals _ s.connection, herror]
      simp
    exact ⟨_, rfl, by rw [Bool.eq_false_iff.mpr hall], by rw [if_neg hall], hconnection⟩

theorem map_eq_self_iff {α : Type} {f : α → α} {x : Option α} :
    x.map f = x ↔ ∀ a, x = some a → f a = a := by
  cases x <;> simp

theorem connect_undisturbed_iff (refusals : Refusals) (s : KiteShard) :
    (∃ s', (s.handleConnect subscribed refusals).map Prod.fst = some s' ∧
        s'.connected = s.connected ∧ s'.status = s.status ∧ s'.connection = s.connection) ↔
      Reports subscribed (.connect refusals) s := by
  by_cases hfound : s.ticker = none → ∀ t, s.desired.get? t = none
  · obtain ⟨s', hsome, hconnected, hstatus, hconnection⟩ := handleConnect_eq hfound refusals
    have hkept : s'.connection = s.connection ↔
        (subscribes refusals s.desired → ∀ connection, s.connection = some connection →
          ∀ t mode, s.desired.get? t = some mode → connection t =
            some (if mode ∈ settledModes refusals s.desired then mode
              else subscribed (connection t))) := by
      rw [hconnection, map_eq_self_iff]
      simp only [effects_accepted_eq_iff]
      exact ⟨fun h hsub connection hup => h connection hup hsub,
        fun h connection hup hsub => h hsub connection hup⟩
    have hmarks : (s'.connected = s.connected ∧ s'.status = s.status) ↔
        (if (syncCalls .empty s.desired).all (accepts refusals) then
          s.connected = true ∧ s.status = .connected
        else s.connected = false ∧ s.status = .degraded) := by
      rw [hconnected, hstatus]
      cases (syncCalls .empty s.desired).all (accepts refusals) with
      | true =>
        simp only [if_true]
        exact and_congr eq_comm eq_comm
      | false =>
        simp only [Bool.false_eq_true, if_false]
        exact and_congr eq_comm eq_comm
    rw [Reports, ← hkept, ← hmarks]
    constructor
    · rintro ⟨s'', hsome', hsame⟩
      rw [hsome] at hsome'
      obtain rfl := some.inj hsome'
      exact ⟨hfound, ⟨hsame.1, hsame.2.1⟩, hsame.2.2⟩
    · rintro ⟨-, ⟨hc, hs⟩, hk⟩
      exact ⟨s', hsome, hc, hs, hk⟩
  · refine ⟨?_, fun hreports => absurd hreports.1 hfound⟩
    -- the first call finds no ticker
    rintro ⟨s', hsome, -⟩
    simp only [Classical.not_imp] at hfound
    have hcalls : syncCalls .empty s.desired ≠ [] := fun hnil => hfound.2 (syncCalls_eq_nil.mp hnil)
    simp [handleConnect, hfound.1, hcalls] at hsome

theorem marks_undisturbed_iff {s s' : KiteShard} (hconnection : s'.connection = s.connection) :
    (∃ s'', some s' = some s'' ∧ s''.connected = s.connected ∧ s''.status = s.status ∧
        s''.connection = s.connection) ↔
      s.connected = s'.connected ∧ s.status = s'.status := by
  constructor
  · rintro ⟨s'', hsome, hconnected, hstatus, -⟩
    obtain rfl := some.inj hsome
    exact ⟨hconnected.symm, hstatus.symm⟩
  · rintro ⟨hconnected, hstatus⟩
    exact ⟨s', rfl, hconnected.symm, hstatus.symm, hconnection⟩

theorem undisturbed_iff_repeats (st : Step) (s : KiteShard) :
    Undisturbed subscribed st s ↔ Repeats subscribed st s := by
  cases st with
  | callback k callback =>
    simp only [Undisturbed, Repeats]
    apply imp_congr_right
    intro _
    by_cases hticker : s.ticker = some k
    · -- a callback of the current instance finds its own ticker
      simp only [hticker, ne_eq, not_true_eq_false, false_imp_iff, and_true, iff_true]
      cases callback with
      | connect refusals =>
        have hopened : (s.withConnection k (some fun _ => none)).ticker = none →
            ∀ t, (s.withConnection k (some fun _ => none)).desired.get? t = none := by
          simp [withConnection, hticker]
        obtain ⟨s', hsome, -⟩ := @handleConnect_eq subscribed _ hopened refusals
        exact ⟨s', hsome⟩
      | _ => exact ⟨_, rfl⟩
    · have hother : ∀ connection, s.withConnection k connection = s := by
        intro connection
        rw [withConnection, if_neg hticker]
      simp only [ne_eq, hticker, not_false_eq_true, true_imp_iff]
      cases callback with
      | connect refusals =>
        simp only [deliver, hother]
        exact connect_undisturbed_iff refusals s
      | error message =>
        simp only [deliver, handleError_eq]
        exact (marks_undisturbed_iff (by rfl)).trans (and_iff_right rfl)
      | close code reason =>
        simp only [deliver, hother]
        exact marks_undisturbed_iff rfl
      | reconnect attempt =>
        simp only [deliver, hother]
        exact marks_undisturbed_iff rfl
      | noReconnect attempt =>
        simp only [deliver, hother]
        exact marks_undisturbed_iff rfl
  | _ => exact Iff.rfl

/-- The token is rotated while the first ticker is connected; its close arrives after the
second has connected, and the shard takes its live connection for closed. -/
def demoRotated : List Step :=
  [.start "a", .apply (demoTokens 1) fun _ => none, .callback 0 (.connect fun _ => none),
    .rotate "b", .callback 1 (.connect fun _ => none)]

/-- The shard is stopped, and the connect of its ticker arrives after that. -/
def demoStopped : List Step := [.start "a", .apply (demoTokens 1) fun _ => none, .stop]

end KiteAlgo.Shards
