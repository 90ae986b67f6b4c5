import KiteAlgo.Shards
import Mathlib.Data.List.Induction
import Mathlib.Data.List.TakeWhile

/-!
# KiteAlgo.Shards.Sync

What a sync leaves at the broker, and when the broker then carries what the shard wants.

`syncLocked` is a list of calls cut off at the first refusal (`perform_eq`), and the calls
that come through have an effect that can be read off token by token (`effects_syncCalls`).
A sync that meets no refusal brings every wanted token into its mode, and takes away the
tokens of the map it is given as `previous`; a token that is in neither map is not touched.
The claim that the broker carries the wanted tokens therefore stands or falls with the
tokens the broker holds beyond the two maps, and with the applies that make no call at all.
-/

namespace KiteAlgo.Shards

open List Option KiteShard
variable {subscribed : Option Mode → Mode} {refusals : Refusals}

/-! ## the effect of calls -/

def effects (subscribed : Option Mode → Mode) (calls : List Call) (connection : Connection) :
    Connection :=
  calls.foldl (fun connection call => call.effect subscribed connection) connection

@[simp] theorem effects_nil (connection : Connection) : effects subscribed [] connection = connection :=
  rfl

theorem effects_append (calls calls' : List Call) (connection : Connection) :
    effects subscribed (calls ++ calls') connection =
      effects subscribed calls' (effects subscribed calls connection) :=
  foldl_append

def accepts (refusals : Refusals) (call : Call) : Bool := (refusals call).isNone

theorem perform_eq (calls : List Call) (connection : Option Connection) :
    perform subscribed refusals calls connection =
      (connection.map (effects subscribed (calls.takeWhile (accepts refusals))),
        (calls.find? fun call => !accepts refusals call).bind fun call =>
          (refusals call).map fun error => call.errorText error) := by
  induction calls generalizing connection with
  | nil =>
    cases connection <;> rfl
  | cons call calls ih =>
    rw [perform]
    cases hcall : refusals call with
    | some error =>
      have hrefused : accepts refusals call = false := by simp [accepts, hcall]
      cases connection <;> simp [hrefused, hcall]
    | none =>
      have haccepted : accepts refusals call := by simp [accepts, hcall]
      simp only [ih]
      cases connection <;> simp [haccepted, effects]

theorem error_perform_eq_none {calls : List Call} {connection : Option Connection} :
    (perform subscribed refusals calls connection).2 = none ↔
      ∀ call ∈ calls, accepts refusals call := by
  rw [perform_eq]
  constructor
  · intro hnone call hmem
    by_contra hrefused
    cases hfind : calls.find? fun call => !accepts refusals call with
    | none =>
      have := find?_eq_none.mp hfind call hmem
      simp [hrefused] at this
    | some found =>
      have hfound := find?_some hfind
      rw [hfind] at hnone
      simp only [bind_some, map_eq_none_iff] at hnone
      simp [accepts, hnone] at hfound
  · intro haccepted
    have hfind : (calls.find? fun call => !accepts refusals call) = none := by
      rw [find?_eq_none]
      intro call hmem
      simp [haccepted call hmem]
    rw [hfind]
    rfl

theorem perform_of_accepts {calls : List Call} (h : ∀ call ∈ calls, accepts refusals call)
    (connection : Option Connection) :
    perform subscribed refusals calls connection =
      (connection.map (effects subscribed calls), none) := by
  refine Prod.ext ?_ (error_perform_eq_none.mpr h)
  rw [perform_eq, takeWhile_eq_self_iff.mpr h]

/-! ## the calls of a sync -/

variable {t : UInt32} {tokens : List UInt32}

theorem mem_sortTokens : t ∈ sortTokens tokens ↔ t ∈ tokens :=
  mem_sortBy

variable {subscriptions : OwnerSubscriptions}

theorem mem_keys : t ∈ subscriptions.rows.keys ↔ (subscriptions.get? t).isSome := by
  rw [isSome_iff_ne_none, Ne, Table.get?, Dict.get?_eq_none_iff, not_not]

theorem mem_tokenKeys : t ∈ tokenKeys subscriptions ↔ (subscriptions.get? t).isSome := by
  rw [tokenKeys, mem_sortTokens, mem_keys]

theorem mem_tokensIn {mode : Mode} :
    t ∈ tokensIn mode subscriptions ↔ subscriptions.get? t = some mode := by
  rw [tokensIn, mem_sortTokens, ← Table.mem_rows_iff]
  simp

theorem effects_unlessEmpty {call : List UInt32 → Call}
    (h : ∀ connection, (call []).effect subscribed connection = connection)
    (connection : Connection) :
    effects subscribed (unlessEmpty tokens call) connection =
      (call tokens).effect subscribed connection := by
  unfold unlessEmpty
  split
  · next hempty =>
    rw [List.isEmpty_iff.mp hempty, h]
    rfl
  · rfl

theorem effects_setModes (desired : OwnerSubscriptions) (ms : List Mode) (connection : Connection)
    (t : UInt32) :
    effects subscribed (ms.flatMap fun mode => unlessEmpty (tokensIn mode desired) (Call.setMode mode))
        connection t =
      match desired.get? t with
      | some mode => if mode ∈ ms then (connection t).map fun _ => mode else connection t
      | none => connection t := by
  induction ms generalizing connection with
  | nil =>
    cases desired.get? t <;> rfl
  | cons mode ms ih =>
    rw [flatMap_cons, effects_append, effects_unlessEmpty (fun _ => rfl), ih]
    simp only [Call.effect, mem_tokensIn]
    cases hget : desired.get? t with
    | none => simp
    | some wanted =>
      by_cases heq : wanted = mode
      · subst heq
        simp [Function.comp_def]
      · simp [heq]

theorem effects_syncCalls (previous desired : OwnerSubscriptions) (connection : Connection)
    (t : UInt32) :
    effects subscribed (syncCalls previous desired) connection t = match desired.get? t with
      | some mode => some mode
      | none => if (previous.get? t).isSome then none else connection t := by
  rw [syncCalls, effects_append, effects_append, effects_unlessEmpty (fun _ => rfl),
    effects_unlessEmpty (fun _ => rfl), effects_setModes]
  simp only [Call.effect, mem_tokenKeys, mem_sortTokens, mem_filter, mem_keys]
  cases hget : desired.get? t with
  | none => simp
  | some mode =>
    have hmode : mode ∈ modes := by cases mode <;> simp [modes]
    simp [hmode]

theorem effects_eq_desired_iff (previous desired : OwnerSubscriptions) (connection : Connection) :
    (∀ t, effects subscribed (syncCalls previous desired) connection t = desired.get? t) ↔
      ∀ t, (connection t).isSome →
        (previous.get? t).isSome ∨ (desired.get? t).isSome := by
  apply forall_congr'
  intro t
  rw [effects_syncCalls]
  cases hdesired : desired.get? t with
  | some mode => simp
  | none =>
    cases hprevious : previous.get? t with
    | some mode => simp
    | none => cases connection t <;> simp

/-! ## applies and callbacks of one instance -/

/-- What one instance and the applies do to a shard. -/
inductive Event where
  | apply (desired : OwnerSubscriptions) (refusals : Refusals)
  | callback (callback : Callback)

/-- A shard, and whether the latest apply or connect sync reported no error. -/
structure Watched where
  shard : KiteShard
  ok : Bool := false

namespace Watched

/-- One event of instance `k`. -/
def step (subscribed : Option Mode → Mode) (k : Nat) (event : Event) (w : Watched) : Watched :=
  match event with
  | .apply desired refusals =>
    let (shard, error) := w.shard.applySubscriptions subscribed desired refusals
    { shard, ok := error.isNone }
  | .callback (.connect refusals) =>
    match (w.shard.withConnection k (some fun _ => none)).handleConnect subscribed refusals with
    | some (shard, error) => { shard, ok := error.isNone }
    | none => w
  | .callback callback =>
    match w.shard.deliver subscribed k callback with
    | some shard => { w with shard }
    | none => w

def run (subscribed : Option Mode → Mode) (k : Nat) (events : List Event) (w : Watched) : Watched :=
  events.foldl (fun w event => w.step subscribed k event) w

/-- Where the connection is up and the latest sync was fine, the broker carries exactly the
wanted tokens, each in its mode. -/
def Converged (w : Watched) : Prop :=
  ∀ connection, w.shard.connection = some connection → w.ok = true →
    ∀ t, connection t = w.shard.desired.get? t

end Watched

/-- What an apply has to find at an open connection: a shard that is marked connected, whose
previous and new maps together name every token the broker holds; or a shard that is marked
disconnected, and a broker that carries the new map already. -/
def Reaches (event : Event) (s : KiteShard) : Prop :=
  match event with
  | .apply desired refusals => ∀ connection, s.connection = some connection → if s.connected then
        (∀ call ∈ syncCalls s.desired desired, accepts refusals call = true) →
          ∀ t, (connection t).isSome = true →
            (s.desired.get? t).isSome = true ∨ (desired.get? t).isSome = true
      else ∀ t, connection t = desired.get? t
  | .callback _ => True

variable {k : Nat} {w : Watched}

theorem converged_apply (hticker : w.shard.ticker = some k) (desired : OwnerSubscriptions)
    (refusals : Refusals) :
    (w.step subscribed k (.apply desired refusals)).Converged ↔
      Reaches (.apply desired refusals) w.shard := by
  unfold Watched.Converged Reaches Watched.step
  simp only [applySubscriptions, hticker, isNone_some, Bool.false_or]
  cases hconnected : w.shard.connected with
  | false => simp
  | true =>
    simp only [Bool.not_true, Bool.false_eq_true, if_false, if_true, syncLocked]
    by_cases hall : ∀ call ∈ syncCalls w.shard.desired desired, accepts refusals call
    · simp only [perform_of_accepts hall, isNone_none, forall_const, map_eq_some_iff]
      constructor
      · intro hconverged connection hup _
        exact (effects_eq_desired_iff _ _ _).mp (hconverged _ ⟨connection, hup, rfl⟩)
      · rintro hreaches _ ⟨connection, hup, rfl⟩
        exact (effects_eq_desired_iff _ _ _).mpr (hreaches connection hup hall)
    · -- a refused call is reported, and nothing is said about the broker
      obtain ⟨error, herror⟩ := ne_none_iff_exists'.mp
        (mt (@error_perform_eq_none subscribed refusals _ w.shard.connection).mp hall)
      rw [show perform subscribed refusals (syncCalls w.shard.desired desired)
        w.shard.connection = (_, some error) from Prod.ext rfl herror]
      simp [hall]

theorem converged_connect (hticker : w.shard.ticker = some k) (refusals : Refusals) :
    (w.step subscribed k (.callback (.connect refusals))).Converged := by
  unfold Watched.Converged Watched.step
  simp only [withConnection, hticker, if_true, handleConnect, isNone_some,
    Bool.false_and, Bool.false_eq_true, if_false, syncLocked]
  by_cases hall : ∀ call ∈ syncCalls .empty w.shard.desired, accepts refusals call
  · simp only [perform_of_accepts hall, map_some]
    rintro connection hup -
    rw [← some.inj hup]
    exact (effects_eq_desired_iff _ _ _).mpr (by simp)
  · obtain ⟨error, herror⟩ := ne_none_iff_exists'.mp
      (mt (@error_perform_eq_none subscribed refusals _ (some fun _ => none)).mp hall)
    rw [show perform subscribed refusals (syncCalls .empty w.shard.desired)
      (some fun _ => none) = (_, some error) from Prod.ext rfl herror]
    simp

theorem converged_callback (hticker : w.shard.ticker = some k) (callback : Callback)
    (h : w.Converged) : (w.step subscribed k (.callback callback)).Converged := by
  cases callback with
  | connect refusals => exact converged_connect hticker refusals
  | error message =>
    simp only [Watched.step, deliver, handleError]
    split <;> exact h
  | close code reason =>
    simp [Watched.step, deliver, withConnection, hticker, handleClose,
      Watched.Converged]
  | reconnect attempt =>
    simp [Watched.step, deliver, withConnection, hticker,
      handleReconnect, Watched.Converged]
  | noReconnect attempt =>
    simp [Watched.step, deliver, withConnection, hticker,
      handleNoReconnect, Watched.Converged]

theorem ticker_step (hticker : w.shard.ticker = some k) (event : Event) :
    (w.step subscribed k event).shard.ticker = some k := by
  cases event with
  | apply desired refusals =>
    simp only [Watched.step, applySubscriptions]
    split
    · exact hticker
    · simp only [syncLocked]
      cases (perform subscribed refusals (syncCalls w.shard.desired desired)
        w.shard.connection).2 <;> exact hticker
  | callback callback =>
    cases callback with
    | connect refusals =>
      simp only [Watched.step, withConnection, hticker, if_true,
        handleConnect, isNone_some, Bool.false_and, Bool.false_eq_true, if_false,
        syncLocked]
      cases (perform subscribed refusals (syncCalls .empty w.shard.desired)
        (some fun _ => none)).2 <;> rfl
    | error message =>
      simp only [Watched.step, deliver, handleError]
      split <;> exact hticker
    | _ => simp [Watched.step, deliver, withConnection, hticker,
        handleClose, handleReconnect, handleNoReconnect]

theorem ticker_run (hticker : w.shard.ticker = some k) (events : List Event) :
    (w.run subscribed k events).shard.ticker = some k := by
  induction events generalizing w with
  | nil => exact hticker
  | cons event events ih => exact ih (ticker_step hticker event)

theorem Watched.run_concat (k : Nat) (events : List Event) (event : Event) (w : Watched) :
    w.run subscribed k (events ++ [event]) = (w.run subscribed k events).step subscribed k event := by
  simp [Watched.run]

def demoSubscribed (_ : Option Mode) : Mode := .quote

/-- A broker that refuses the calls `p` names. -/
def demoRefusals (p : Call → Bool) : Refusals := fun call => if p call then some "refused" else none

def demoTokens (t : UInt32) : OwnerSubscriptions := Table.empty.upsert t .ltp

/-- A shard that has been started and waits for its connection. -/
def demoShard : KiteShard := ({} : KiteShard).start "token"

/-- The broker refuses to drop token 1 and the apply reports it; the next apply is fine, and
token 1 is still subscribed. -/
def demoKept : List Event :=
  [.callback (.connect fun _ => none), .apply (demoTokens 1) fun _ => none,
    .apply (demoTokens 2) (demoRefusals fun call => decide (call = .unsubscribe [1])),
    .apply (demoTokens 3) fun _ => none]

/-- The connect sync is refused; the apply after it makes no call and reports no error. -/
def demoSkipped : List Event :=
  [.apply (demoTokens 1) fun _ => none,
    .callback (.connect (demoRefusals fun call => decide (call = .subscribe [1]))),
    .apply (demoTokens 2) fun _ => none]

end KiteAlgo.Shards
