import KiteAlgo.Lib.Run
import Mathlib.Data.Rat.Floor
import Mathlib.Tactic.Linarith
import Mathlib.Tactic.Positivity

/-!
# KiteAlgo.LiveOrders.Throttler

`KiteWriteThrottler`: every broker write reserves a slot under one redis key.  Whatever has run so
far is at least one interval before the stored slot, and that slot is past when its key expires
(`Slots.Ahead`), so no later write comes too early.
-/

namespace KiteAlgo

open List
/-! ## the throttler -/

/-- What `KiteWriteThrottler` is configured with. -/
structure ThrottlerSettings where
  ratePerSecond : ℚ
  redisTtlMs : Int
  requireRedis : Bool
  maxWaitSeconds : ℚ

structure KiteWriteThrottler where
  minIntervalSeconds : ℚ
  intervalMs : Int
  redisTtlMs : Int
  requireRedis : Bool
  maxWaitSeconds : ℚ

/-- `KiteWriteThrottler.__init__`. -/
def ThrottlerSettings.throttler (settings : ThrottlerSettings) : KiteWriteThrottler :=
  let cappedRate := min 10 (max 1 settings.ratePerSecond)
  { minIntervalSeconds := 1 / cappedRate
    intervalMs := max 1 ⌊1 / cappedRate * 1000⌋
    redisTtlMs := max 5000 settings.redisTtlMs
    requireRedis := settings.requireRedis
    maxWaitSeconds := max 1 settings.maxWaitSeconds }

/-- A value of the redis key, which is gone after its expiry. -/
structure SlotKey where
  nextSlotMs : Int
  expiresAtMs : Int

/-- The redis key, and `_local_next_slot_at` of each process. -/
structure Slots where
  key : Option SlotKey := none
  localNextSlotAt : Nat → ℚ := fun _ => 0

/-- A call of `execute`: its process, redis `TIME`, `monotonic()`, and whether redis answers. -/
structure WriteCall where
  process : Nat
  nowMs : Int
  monotonic : ℚ
  reachable : Bool := true

/-- What keeps a call from a slot: the connection, or an HTTP error of its own. -/
inductive LimiterError where
  | unavailable
  | queueTooLong
  deriving DecidableEq

/-- What became of a call: was its reservation refused by a queue that is too long, and when is its
`func` scheduled to run. -/
structure WriteOutcome where
  refused : Bool
  scheduledMs : Option ℚ

/-- `scheduled_ms` of the script. -/
def WriteCall.scheduledMs (call : WriteCall) (s : Slots) : Int :=
  match s.key with
  | none => max call.nowMs 0
  | some key => if call.nowMs ≤ key.expiresAtMs then max call.nowMs key.nextSlotMs else max call.nowMs 0

namespace KiteWriteThrottler

variable (t : KiteWriteThrottler)

def maxWaitMs : Int := ⌊t.maxWaitSeconds * 1000⌋

def reserveGlobalSlot (call : WriteCall) (s : Slots) : Except LimiterError Int × Slots :=
  if call.reachable = false then (.error .unavailable, s)
  else
    let scheduledMs := call.scheduledMs s
    if t.maxWaitMs < scheduledMs - call.nowMs then (.error .queueTooLong, s)
    else
      (.ok scheduledMs, { s with key := some ⟨scheduledMs + t.intervalMs, call.nowMs + t.redisTtlMs⟩ })

def reserveLocalSlot (call : WriteCall) (s : Slots) : Option ℚ × Slots :=
  let scheduled := max call.monotonic (s.localNextSlotAt call.process)
  let waitSeconds := max 0 (scheduled - call.monotonic)
  if t.maxWaitSeconds < waitSeconds then (none, s)
  else
    (some waitSeconds,
      { s with
        localNextSlotAt :=
          Function.update s.localNextSlotAt call.process (scheduled + t.minIntervalSeconds) })

def execute (call : WriteCall) (s : Slots) : WriteOutcome × Slots :=
  match t.reserveGlobalSlot call s with
  | (.ok scheduledMs, s) => (⟨false, some scheduledMs⟩, s)
  | (.error e, s) =>
      -- both handlers do this, and the second one catches the HTTP error of a long queue
      if t.requireRedis then (⟨decide (e = .queueTooLong), none⟩, s)
      else
        let (wait, s) := t.reserveLocalSlot call s
        (⟨decide (e = .queueTooLong), wait.map fun seconds => call.nowMs + seconds * 1000⟩, s)

/-- The calls of any number of processes, in the order of their reservations. -/
def executing : Machine WriteCall Slots WriteOutcome := .ofCall t.execute

end KiteWriteThrottler

/-! ## spaced writes -/

/-- The scheduled times of the calls that run their `func`. -/
def scheduledTimes (outcomes : List WriteOutcome) : List ℚ := outcomes.filterMap WriteOutcome.scheduledMs

/-- The writes are an interval apart, at most ten in any second, and a refused one does not run. -/
structure KiteWriteThrottler.Spaced (t : KiteWriteThrottler) (outcomes : List WriteOutcome) : Prop where
  apart : (scheduledTimes outcomes).Pairwise fun earlier later : ℚ => earlier + t.intervalMs ≤ later
  tenASecond : ∀ start : ℚ,
    (scheduledTimes outcomes).countP (fun at_ => decide (start ≤ at_ ∧ at_ < start + 1000)) ≤ 10
  refusedIdle : ∀ outcome ∈ outcomes, outcome.refused = true → outcome.scheduledMs = none

def KiteWriteThrottler.HasRoom (t : KiteWriteThrottler) (call : WriteCall) (s : Slots) : Prop :=
  call.scheduledMs s - call.nowMs ≤ t.maxWaitMs

instance (t : KiteWriteThrottler) (call : WriteCall) (s : Slots) : Decidable (t.HasRoom call s) :=
  inferInstanceAs (Decidable (_ ≤ _))

/-- What ran is an interval before the stored slot, which is past when the key expires. -/
def Slots.Ahead (t : KiteWriteThrottler) (past : List WriteOutcome) (s : Slots) : Prop :=
  ∀ at_ ∈ scheduledTimes past, ∃ key, s.key = some key ∧ at_ + t.intervalMs ≤ key.nextSlotMs ∧
    key.nextSlotMs ≤ key.expiresAtMs

namespace KiteWriteThrottler

variable {t : KiteWriteThrottler}

theorem length_le_of_apart {times : List ℚ} {d lo : ℚ} {n : Nat}
    (hapart : times.Pairwise fun earlier later => earlier + d ≤ later)
    (hlo : ∀ at_ ∈ times, lo ≤ at_) (hhi : ∀ at_ ∈ times, at_ < lo + n * d) :
    times.length ≤ n := by
  induction times generalizing lo n with
  | nil => exact Nat.zero_le n
  | cons first rest ih =>
    obtain ⟨hfirst, hrest⟩ := pairwise_cons.mp hapart
    have hfirst_lo := hlo first (.head _)
    have hfirst_hi := hhi first (.head _)
    cases n with
    | zero =>
      rw [Nat.cast_zero, zero_mul, add_zero] at hfirst_hi
      exact absurd hfirst_hi (not_lt.mpr hfirst_lo)
    | succ n =>
      have hlength : rest.length ≤ n := by
        refine @ih (lo + d) n hrest (fun at_ hat => ?_) fun at_ hat => ?_
        · exact (add_le_add_left hfirst_lo d).trans (hfirst at_ hat)
        · have hbelow := hhi at_ (.tail _ hat)
          push_cast at hbelow
          linarith
      rw [length_cons]
      exact Nat.succ_le_succ hlength

theorem apart_of_ahead {past : List WriteOutcome} {s : Slots} (h : s.Ahead t past) (call : WriteCall) :
    ∀ at_ ∈ scheduledTimes past, at_ + t.intervalMs ≤ call.scheduledMs s := by
  intro at_ hat
  obtain ⟨key, hkey, hslot, hexpiry⟩ := h at_ hat
  refine hslot.trans ?_
  rw [Int.cast_le, WriteCall.scheduledMs, hkey]
  dsimp only
  split
  · exact le_max_right _ _
  · omega

theorem scheduledTimes_concat (past : List WriteOutcome) (outcome : WriteOutcome) :
    scheduledTimes (past ++ [outcome]) = scheduledTimes past ++ outcome.scheduledMs.toList := by
  rw [scheduledTimes, filterMap_append]
  cases h : outcome.scheduledMs <;> simp [scheduledTimes, h]

theorem execute_spec {call : WriteCall} {s : Slots} {past : List WriteOutcome}
    (hinterval : 0 ≤ t.intervalMs) (httl : t.maxWaitMs + t.intervalMs < t.redisTtlMs)
    (hreach : call.reachable) (hroom : t.requireRedis ∨ t.HasRoom call s)
    (h : s.Ahead t past) :
    (∀ at_ ∈ scheduledTimes past, ∀ later ∈ (t.execute call s).1.scheduledMs, at_ + t.intervalMs ≤ later) ∧
    ((t.execute call s).1.refused → (t.execute call s).1.scheduledMs = none) ∧
    (t.execute call s).2.Ahead t (past ++ [(t.execute call s).1]) := by
  have hglobal : t.reserveGlobalSlot call s =
      if t.maxWaitMs < call.scheduledMs s - call.nowMs then (.error .queueTooLong, s)
      else (.ok (call.scheduledMs s),
        { s with key := some ⟨call.scheduledMs s + t.intervalMs, call.nowMs + t.redisTtlMs⟩ }) := by
    rw [reserveGlobalSlot, if_neg (by simp [hreach])]
  by_cases hlong : t.maxWaitMs < call.scheduledMs s - call.nowMs
  · have hrequired : t.requireRedis := hroom.resolve_right (not_le.mpr hlong)
    have hexecute : t.execute call s = (⟨true, none⟩, s) := by
      rw [execute, hglobal, if_pos hlong]
      simp [hrequired]
    rw [hexecute]
    refine ⟨fun _ _ _ hlater => (by cases hlater), fun _ => rfl, ?_⟩
    intro at_ hat
    rw [scheduledTimes_concat, Option.toList_none, append_nil] at hat
    exact h at_ hat
  · have hexecute : t.execute call s = (⟨false, some ((call.scheduledMs s : Int) : ℚ)⟩,
        { s with key := some ⟨call.scheduledMs s + t.intervalMs, call.nowMs + t.redisTtlMs⟩ }) := by
      rw [execute, hglobal, if_neg hlong]
    rw [hexecute]
    refine ⟨fun at_ hat later hlater => ?_, (by intro h; cases h), ?_⟩
    · obtain rfl := Option.some.inj hlater
      exact apart_of_ahead h call at_ hat
    · intro at_ hat
      rw [scheduledTimes_concat, mem_append] at hat
      refine ⟨_, rfl, ?_, by dsimp only; omega⟩
      push_cast
      have hnonneg : (0 : ℚ) ≤ t.intervalMs := Int.cast_nonneg hinterval
      rcases hat with hold | hnew
      · have hbefore := apart_of_ahead h call at_ hold
        linarith
      · have hnew : at_ = (call.scheduledMs s : Int) := by simpa using hnew
        rw [hnew]

structure Served (t : KiteWriteThrottler) (past : List WriteOutcome) (s : Slots) : Prop where
  apart : (scheduledTimes past).Pairwise fun earlier later : ℚ => earlier + t.intervalMs ≤ later
  refusedIdle : ∀ outcome ∈ past, outcome.refused = true → outcome.scheduledMs = none
  ahead : s.Ahead t past

theorem Served.execute {call : WriteCall} {s : Slots} {past : List WriteOutcome}
    (h : Served t past s) (hinterval : 0 ≤ t.intervalMs)
    (httl : t.maxWaitMs + t.intervalMs < t.redisTtlMs) (hreach : call.reachable)
    (hroom : t.requireRedis ∨ t.HasRoom call s) :
    Served t (past ++ [(t.execute call s).1]) (t.execute call s).2 := by
  obtain ⟨hlater, hrefused, hnext⟩ := execute_spec hinterval httl hreach hroom h.ahead
  refine ⟨?_, ?_, hnext⟩
  · rw [scheduledTimes_concat, pairwise_append]
    refine ⟨h.apart, ?_, fun at_ hat later hin => hlater at_ hat later (by simpa using hin)⟩
    cases (t.execute call s).1.scheduledMs <;> simp
  · simpa [or_imp, forall_and] using ⟨h.refusedIdle, hrefused⟩

theorem Served.run {calls : List WriteCall} {s : Slots} {past : List WriteOutcome}
    (h : Served t past s) (hinterval : 0 ≤ t.intervalMs)
    (httl : t.maxWaitMs + t.intervalMs < t.redisTtlMs)
    (hreach : ∀ call ∈ calls, call.reachable)
    (hroom : t.executing.Along (fun call _ s => t.requireRedis = true ∨ t.HasRoom call s) calls s) :
    Served t (past ++ t.executing.trace calls s) (t.executing.run calls s) := by
  refine Machine.history (I := fun past _ s => Served t past s) ?_ h
    ((Machine.Along.of_forall hreach s).and hroom)
  exact fun hserved hcall => hserved.execute hinterval httl hcall.1 hcall.2

theorem Served.tenASecond {s : Slots} {past : List WriteOutcome} (h : Served t past s)
    (hinterval : 100 ≤ t.intervalMs) (start : ℚ) :
    (scheduledTimes past).countP (fun at_ => decide (start ≤ at_ ∧ at_ < start + 1000)) ≤ 10 := by
  rw [countP_eq_length_filter]
  have hinterval' : (100 : ℚ) ≤ t.intervalMs := by exact_mod_cast hinterval
  have hin : ∀ at_ ∈ (scheduledTimes past).filter fun at_ =>
      decide (start ≤ at_ ∧ at_ < start + 1000), start ≤ at_ ∧ at_ < start + 1000 :=
    fun at_ hat => of_decide_eq_true (mem_filter.mp hat).2
  have hapart : ((scheduledTimes past).filter fun at_ =>
      decide (start ≤ at_ ∧ at_ < start + 1000)).Pairwise fun earlier later => earlier + 100 ≤ later :=
    (h.apart.sublist filter_sublist).imp fun hle => by linarith
  refine length_le_of_apart hapart (fun at_ hat => (hin at_ hat).1) fun at_ hat => ?_
  have hbelow := (hin at_ hat).2
  norm_num
  exact hbelow

end KiteWriteThrottler

theorem ThrottlerSettings.intervalMs_ge (settings : ThrottlerSettings) :
    100 ≤ settings.throttler.intervalMs := by
  refine le_max_of_le_right (Int.le_floor.mpr ?_)
  have hpos : (0 : ℚ) < min 10 (max 1 settings.ratePerSecond) :=
    lt_min (by norm_num) (lt_max_of_lt_left one_pos)
  have hle : min 10 (max 1 settings.ratePerSecond) ≤ 10 := min_le_left _ _
  rw [div_mul_eq_mul_div, le_div_iff₀ hpos]
  push_cast
  linarith

/-- Where redis is required, or the queue is never too long, the writes are spaced. -/
theorem writes_spaced (settings : ThrottlerSettings)
    (httl : settings.throttler.maxWaitMs + settings.throttler.intervalMs < settings.throttler.redisTtlMs)
    (calls : List WriteCall) (hreach : ∀ call ∈ calls, call.reachable = true)
    (hroom : settings.throttler.executing.Along (fun call _ s =>
      settings.throttler.requireRedis = true ∨ settings.throttler.HasRoom call s) calls {}) :
    settings.throttler.Spaced (settings.throttler.executing.trace calls {}) := by
  have hinterval := settings.intervalMs_ge
  have hnone : KiteWriteThrottler.Served settings.throttler [] {} :=
    ⟨List.Pairwise.nil, (by simp), (by simp [Slots.Ahead, scheduledTimes])⟩
  have hserved := hnone.run (by omega) httl hreach hroom
  exact ⟨hserved.apart, hserved.tenASecond hinterval, hserved.refusedIdle⟩

/-- One write a second, and a queue of one second. -/
def onePerSecond (requireRedis : Bool) : ThrottlerSettings :=
  { ratePerSecond := 1, redisTtlMs := 60000, requireRedis, maxWaitSeconds := 1 }

def threeWrites : List WriteCall := List.replicate 3 { process := 0, nowMs := 0, monotonic := 0 }

theorem writes_spaced_three :
    (onePerSecond true).throttler.Spaced ((onePerSecond true).throttler.executing.trace threeWrites {}) :=
  writes_spaced (onePerSecond true) (by decide +kernel) threeWrites (by decide) (by decide +kernel)

/-- Without the requirement the write that redis refuses runs at once. -/
theorem refused_write_runs :
    ¬ ∀ settings : ThrottlerSettings,
      settings.throttler.maxWaitMs + settings.throttler.intervalMs < settings.throttler.redisTtlMs →
      ∀ calls : List WriteCall, (∀ call ∈ calls, call.reachable = true) →
        calls.Pairwise (fun earlier later => earlier.nowMs ≤ later.nowMs) →
        settings.throttler.Spaced (settings.throttler.executing.trace calls {}) := by
  intro h
  have hspaced := h (onePerSecond false) (by decide +kernel) threeWrites (by decide) (by decide)
  have hrun : ∃ outcome ∈ (onePerSecond false).throttler.executing.trace threeWrites {},
      outcome.refused = true ∧ outcome.scheduledMs ≠ none := by decide +kernel
  obtain ⟨outcome, hmem, hrefused, hruns⟩ := hrun
  exact hruns (hspaced.refusedIdle outcome hmem hrefused)

/-! ## without redis -/

namespace KiteWriteThrottler

/-- The slots of the calls that fall back, by process and on the clock of the process. -/
def fallbackSlots (t : KiteWriteThrottler) : Machine WriteCall Slots (Nat × ℚ) where
  step call s := (t.execute call s).2
  out call s :=
    if (t.reserveGlobalSlot call s).1.isOk then []
    else (t.execute call s).1.scheduledMs.toList.map fun at_ =>
      (call.process, call.monotonic + (at_ - call.nowMs) / 1000)

/-- A call leaves the local slots alone, or takes one that is not before the next slot of its process. -/
theorem fallback_cases (t : KiteWriteThrottler) (call : WriteCall) (s : Slots) :
    (t.fallbackSlots.out call s = [] ∧ (t.execute call s).2.localNextSlotAt = s.localNextSlotAt) ∨
    ∃ slot, s.localNextSlotAt call.process ≤ slot ∧ t.fallbackSlots.out call s = [(call.process, slot)] ∧
      (t.execute call s).2.localNextSlotAt =
        Function.update s.localNextSlotAt call.process (slot + t.minIntervalSeconds) := by
  obtain ⟨n, key, hglobal⟩ | ⟨e, hglobal⟩ : (∃ n key, t.reserveGlobalSlot call s = (.ok n, { s with key })) ∨
      ∃ e, t.reserveGlobalSlot call s = (.error e, s) := by
    unfold reserveGlobalSlot
    dsimp only
    split_ifs <;> simp
  · exact .inl ⟨by simp [fallbackSlots, hglobal, Except.isOk, Except.toBool], by rw [execute, hglobal]⟩
  have hwait : max 0 (max call.monotonic (s.localNextSlotAt call.process) - call.monotonic) =
      max call.monotonic (s.localNextSlotAt call.process) - call.monotonic :=
    max_eq_right (sub_nonneg.mpr (le_max_left _ _))
  simp only [fallbackSlots, execute, hglobal, reserveLocalSlot, hwait, Except.isOk, Except.toBool]
  by_cases hredis : t.requireRedis = true
  · exact .inl (by simp [hredis])
  by_cases hlong : t.maxWaitSeconds < max call.monotonic (s.localNextSlotAt call.process) - call.monotonic
  · exact .inl (by simp [hredis, hlong])
  · exact .inr ⟨max call.monotonic (s.localNextSlotAt call.process), le_max_right _ _,
      by simp [hredis, hlong], by simp [hredis, hlong]⟩

/-- Whatever calls find redis away, each process spaces the writes that it runs without it. -/
theorem fallback_slots_spaced (settings : ThrottlerSettings) (calls : List WriteCall) (s : Slots) :
    (settings.throttler.fallbackSlots.trace calls s).Pairwise fun earlier later =>
      earlier.1 = later.1 → earlier.2 + settings.throttler.minIntervalSeconds ≤ later.2 := by
  have hpos : 0 ≤ settings.throttler.minIntervalSeconds := by
    have hrate : (0 : ℚ) ≤ min 10 (max 1 settings.ratePerSecond) :=
      le_min (by norm_num) (le_max_of_le_left zero_le_one)
    exact one_div_nonneg.mpr hrate
  generalize settings.throttler = t at hpos
  -- A slot that was given stays an interval before the next one of its process.
  refine Machine.pairwise_trace (K := fun slot s => slot.2 + t.minIntervalSeconds ≤ s.localNextSlotAt slot.1)
    (fun call s => ?_) (fun call s slot hslot => ?_) (fun call s slot hslot => ?_)
    (fun call s slot hslot later hlater => ?_) calls s
  all_goals rcases fallback_cases t call s with ⟨hout, hnext⟩ | ⟨at_, hle, hout, hnext⟩
  · simp [hout]
  · simp [hout]
  · simp [hout] at hslot
  · obtain rfl : slot = (call.process, at_) := by simpa [hout] using hslot
    simp [fallbackSlots, hnext]
  · simpa [fallbackSlots, hnext] using hslot
  · simp only [fallbackSlots, hnext, Function.update_apply]
    split_ifs with hprocess
    · rw [hprocess] at hslot
      linarith
    · exact hslot
  · simp [hout] at hlater
  · obtain rfl : later = (call.process, at_) := by simpa [hout] using hlater
    intro hprocess
    rw [hprocess] at hslot
    exact hslot.trans hle

end KiteWriteThrottler

end KiteAlgo
