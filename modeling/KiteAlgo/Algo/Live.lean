import KiteAlgo.Lib.Dict
import KiteAlgo.Lib.Run
import Mathlib.Data.List.Perm.Subperm

/-!
# KiteAlgo.Algo.Live

The live trigger worker (`AlgoRuntimeLiveWorker`): its order message handler, the bounded queue
of triggers and the dispatch loop.

A full queue drops a trigger, and the progress of an order is forgotten when 5000 others have
made progress.  Where neither happens, every message that exceeds the filled quantities before
it reaches the kernel once (`fill_triggers_once`).
-/

namespace KiteAlgo

open List Option Machine
/-- An order message: `account_id`, or the one made of `user_id`; texts are trimmed. -/
structure OrderMessage where
  accountId : Option String := none
  orderId : String := ""
  id : String := ""
  eventTimestamp : String := ""
  exchangeUpdateTimestamp : String := ""
  filledQuantity : Int := 0
  deriving DecidableEq

def OrderMessage.fillKey (m : OrderMessage) : String × String :=
  (m.accountId.getD "unknown",
    ([m.orderId, m.id, m.eventTimestamp, m.exchangeUpdateTimestamp].find? (· ≠ "")).getD "")

/-- `TriggerEvent`, with the message that it was made of. -/
inductive LiveTrigger where
  | orderUpdate (m : OrderMessage)
  | fillUpdate (m : OrderMessage)
  | other
  deriving DecidableEq

structure LiveWorker where
  queueMaxsize : ℕ
  accountScopes : List String := []
  allowUnscopedOrderEvents : Bool := false
  orderUpdateEnabled : Bool := false
  fillUpdateEnabled : Bool := false
  maxsize_ge : 100 ≤ queueMaxsize

/-- The worker at run time.  `dispatched` is what `dispatch_trigger` was called with. -/
structure LiveState where
  queue : List LiveTrigger := []
  fillProgress : Dict (String × String) Int := []
  dropped : ℕ := 0
  dispatched : List LiveTrigger := []

/-- A message, a trigger of another handler, or a round of the dispatch loop. -/
inductive LiveStep where
  | message (m : OrderMessage)
  | trigger
  | dispatch

def LiveStep.message? : LiveStep → Option OrderMessage
  | message m => some m
  | trigger | dispatch => none

def fillProgressLimit : ℕ := 5000

namespace LiveWorker

variable (worker : LiveWorker)

def enqueue (t : LiveTrigger) (s : LiveState) : LiveState :=
  if s.queue.length < worker.queueMaxsize then { s with queue := s.queue ++ [t] }
  else { s with dropped := s.dropped + 1 }

def routes (m : OrderMessage) : Bool :=
  worker.allowUnscopedOrderEvents || m.accountId.any fun account => account ∈ worker.accountScopes

def handleOrderMessage (m : OrderMessage) (s : LiveState) : LiveState :=
  if !worker.routes m then s
  else
    let s := if worker.orderUpdateEnabled then worker.enqueue (.orderUpdate m) s else s
    if worker.fillUpdateEnabled ∧ (s.fillProgress.get? m.fillKey).getD 0 < m.filledQuantity then
      worker.enqueue (.fillUpdate m) { s with
        fillProgress := s.fillProgress.setBounded fillProgressLimit m.fillKey m.filledQuantity }
    else s

def step : LiveStep → LiveState → LiveState
  | .message m, s => worker.handleOrderMessage m s
  | .trigger, s => worker.enqueue .other s
  | .dispatch, s => { s with queue := s.queue.tail, dispatched := s.dispatched ++ s.queue.head?.toList }

def live : Machine LiveStep LiveState Empty where
  step := worker.step
  out _ _ := []

/-- The state after steps, and after the dispatch of what they left in the queue. -/
def drained (steps : List LiveStep) : LiveState :=
  let s := worker.live.run steps {}
  worker.live.run (List.replicate s.queue.length .dispatch) s

end LiveWorker

def liveMessages (steps : List LiveStep) : List OrderMessage := steps.filterMap LiveStep.message?

/-- The messages of `fill_update` triggers of a key. -/
def fillsOf (key : String × String) (triggers : List LiveTrigger) : List OrderMessage :=
  triggers.filterMap fun
    | .fillUpdate m => if m.fillKey = key then some m else none
    | _ => none

/-- The messages that exceed the filled quantities of all messages before them. -/
def progresses (earlier : List OrderMessage) : List OrderMessage → List OrderMessage
  | [] => []
  | m :: rest =>
    (if 0 < m.filledQuantity ∧ ∀ e ∈ earlier, e.filledQuantity < m.filledQuantity then [m] else []) ++
      progresses (earlier ++ [m]) rest

/-- One trigger for each message of the key that exceeds those before it. -/
def LiveWorker.TriggersOnce (worker : LiveWorker) (steps : List LiveStep) (key : String × String) :
    Prop :=
  fillsOf key (worker.drained steps).dispatched =
    progresses [] ((liveMessages steps).filter fun m => m.fillKey = key)

/-- The queue has room for a trigger of the key. -/
def LiveWorker.HasRoom (worker : LiveWorker) (key : String × String) : LiveStep → LiveState → Prop
  | .message m, s => m.fillKey = key → (s.fillProgress.get? key).getD 0 < m.filledQuantity →
    s.queue.length + (if worker.orderUpdateEnabled then 1 else 0) < worker.queueMaxsize
  | _, _ => True

/-! ## the queue -/

section Queue

variable {worker : LiveWorker} {key : String × String} {s : LiveState} {t : LiveTrigger}

theorem progresses_concat (earlier ms : List OrderMessage) (m : OrderMessage) :
    progresses earlier (ms ++ [m]) = progresses earlier ms ++
      if 0 < m.filledQuantity ∧ ∀ e ∈ earlier ++ ms, e.filledQuantity < m.filledQuantity then [m]
      else [] := by
  induction ms generalizing earlier with
  | nil => simp [progresses]
  | cons x ms ih =>
    rw [cons_append, progresses, progresses, ih, append_assoc earlier [x] ms,
      append_assoc, singleton_append]

theorem fillsOf_append (key : String × String) (ts ts' : List LiveTrigger) :
    fillsOf key (ts ++ ts') = fillsOf key ts ++ fillsOf key ts' := filterMap_append

/-- The triggers that have reached the kernel or are on their way. -/
def LiveState.accepted (s : LiveState) : List LiveTrigger := s.dispatched ++ s.queue

@[simp] theorem fillProgress_enqueue (worker : LiveWorker) (t : LiveTrigger) (s : LiveState) :
    (worker.enqueue t s).fillProgress = s.fillProgress := by
  unfold LiveWorker.enqueue
  split <;> rfl

theorem accepted_enqueue (hroom : s.queue.length < worker.queueMaxsize) :
    (worker.enqueue t s).accepted = s.accepted ++ [t] := by
  simp [LiveWorker.enqueue, LiveState.accepted, hroom]

theorem length_enqueue_le (worker : LiveWorker) (t : LiveTrigger) (s : LiveState) :
    (worker.enqueue t s).queue.length ≤ s.queue.length + 1 := by
  unfold LiveWorker.enqueue
  split <;> simp

theorem fillsOf_enqueue (h : fillsOf key [t] = []) (worker : LiveWorker) (s : LiveState) :
    fillsOf key (worker.enqueue t s).accepted = fillsOf key s.accepted := by
  by_cases hroom : s.queue.length < worker.queueMaxsize
  · rw [accepted_enqueue hroom, fillsOf_append, h, append_nil]
  · simp [LiveWorker.enqueue, LiveState.accepted, hroom]

theorem accepted_dispatch (worker : LiveWorker) (s : LiveState) :
    (worker.step .dispatch s).accepted = s.accepted := by
  cases hqueue : s.queue <;> simp [LiveWorker.step, LiveState.accepted, hqueue]

theorem run_dispatch (worker : LiveWorker) (n : ℕ) (s : LiveState) (h : s.queue.length = n) :
    (worker.live.run (replicate n .dispatch) s).dispatched = s.accepted := by
  induction n generalizing s with
  | zero => simp [run, LiveState.accepted, length_eq_zero_iff.mp h]
  | succ n ih =>
    have hlength : (worker.step .dispatch s).queue.length = n := by simp [LiveWorker.step, h]
    rw [replicate_succ, run]
    exact (ih _ hlength).trans (accepted_dispatch worker s)

end Queue

/-! ## progress -/

/-- What is known of a key: `past` are its messages, `keys` the keys that make progress. -/
structure Tracked (keys : List (String × String)) (key : String × String)
    (past : List OrderMessage) (s : LiveState) : Prop where
  nodup : s.fillProgress.keys.Nodup
  held : ∀ k ∈ s.fillProgress.keys, k ∈ keys
  nonneg : ∀ k, 0 ≤ (s.fillProgress.get? k).getD 0
  best : ∀ n, (s.fillProgress.get? key).getD 0 < n ↔ 0 < n ∧ ∀ m ∈ past, m.filledQuantity < n
  fills : fillsOf key s.accepted = progresses [] past

section Tracked

variable {worker : LiveWorker} {keys : List (String × String)} {key : String × String}
  {past : List OrderMessage} {s : LiveState} {m : OrderMessage}

theorem setBounded_eq_set {d : Dict (String × String) Int} {k : String × String} (n : Int)
    (hnodup : d.keys.Nodup) (hheld : ∀ k ∈ d.keys, k ∈ keys) (hk : k ∈ keys)
    (hkeys : keys.length ≤ fillProgressLimit) :
    d.setBounded fillProgressLimit k n = d.set k n := by
  unfold Dict.setBounded
  split_ifs with hmem
  · rfl
  · have hnew : k ∉ d.keys := fun h => hmem (Dict.contains_iff_mem_keys.mpr h)
    have hgrown : (k :: d.keys).length ≤ keys.length :=
      (subperm_of_subset (nodup_cons.mpr ⟨hnew, hnodup⟩)
        (cons_subset.mpr ⟨hk, hheld⟩)).length_le
    have hlength : (d ++ [(k, n)]).length - fillProgressLimit = 0 := by
      simp [Dict.keys] at hgrown ⊢
      omega
    rw [Dict.set_of_notMem hnew]
    simp only [hlength, drop_zero]

theorem Tracked.enqueue {t : LiveTrigger} (h : Tracked keys key past s)
    (ht : fillsOf key [t] = []) : Tracked keys key past (worker.enqueue t s) where
  nodup := by rw [fillProgress_enqueue]; exact h.nodup
  held := by rw [fillProgress_enqueue]; exact h.held
  nonneg := by rw [fillProgress_enqueue]; exact h.nonneg
  best := by rw [fillProgress_enqueue]; exact h.best
  fills := (fillsOf_enqueue ht worker s).trans h.fills

theorem Tracked.set (h : Tracked keys key past s) (hm : m.fillKey ∈ keys)
    (hpos : 0 < m.filledQuantity) {past' : List OrderMessage} {s' : LiveState}
    (hs' : s'.fillProgress = s.fillProgress.set m.fillKey m.filledQuantity)
    (hbest : ∀ n, (s'.fillProgress.get? key).getD 0 < n ↔ 0 < n ∧ ∀ e ∈ past', e.filledQuantity < n)
    (hfills : fillsOf key s'.accepted = progresses [] past') : Tracked keys key past' s' where
  nodup := by rw [hs']; exact Dict.nodup_keys_set h.nodup _ _
  held := by
    intro k hk
    rw [hs', Dict.mem_keys_set] at hk
    exact hk.elim (fun heq => heq ▸ hm) (h.held k)
  nonneg := by
    intro k
    rw [hs', Dict.get?_set]
    split_ifs
    · exact Int.le_of_lt hpos
    · exact h.nonneg k
  best := hbest
  fills := hfills

theorem Tracked.stale (h : Tracked keys m.fillKey past s)
    (hstale : ¬ (s.fillProgress.get? m.fillKey).getD 0 < m.filledQuantity) :
    Tracked keys m.fillKey (past ++ [m]) s where
  nodup := h.nodup
  held := h.held
  nonneg := h.nonneg
  best n := by
    rw [h.best n]
    constructor
    · intro hn
      have hlt : m.filledQuantity < n := by
        have hheld := (h.best n).mpr hn
        omega
      exact ⟨hn.1, fun e he => (mem_append.mp he).elim (hn.2 e)
        fun hlast => by rwa [mem_singleton.mp hlast]⟩
    · exact fun hn => ⟨hn.1, fun e he => hn.2 e (mem_append_left _ he)⟩
  fills := by
    rw [progresses_concat, nil_append, if_neg (mt (h.best _).mpr hstale), append_nil]
    exact h.fills

theorem filter_self (m : OrderMessage) : [m].filter (fun e => e.fillKey = m.fillKey) = [m] := by simp

theorem Tracked.progress (h : Tracked keys key past s) (hm : m.fillKey ∈ keys)
    (hprogress : (s.fillProgress.get? m.fillKey).getD 0 < m.filledQuantity)
    (hroom : m.fillKey = key → s.queue.length < worker.queueMaxsize) :
    Tracked keys key (past ++ [m].filter fun m => m.fillKey = key)
      (worker.enqueue (.fillUpdate m)
        { s with fillProgress := s.fillProgress.set m.fillKey m.filledQuantity }) := by
  have hpos : 0 < m.filledQuantity := Int.lt_of_le_of_lt (h.nonneg _) hprogress
  refine h.set hm hpos (fillProgress_enqueue _ _ _) ?_ ?_ <;> by_cases hkey : m.fillKey = key
  · subst hkey
    have hpast := ((h.best _).mp hprogress).2
    intro n
    rw [fillProgress_enqueue, Dict.get?_set_self, getD_some, filter_self]
    constructor
    · intro hn
      refine ⟨by omega, fun e he => ?_⟩
      cases mem_append.mp he with
      | inl hmem => exact Int.lt_trans (hpast e hmem) hn
      | inr hlast => rwa [mem_singleton.mp hlast]
    · exact fun hn => hn.2 m (by simp)
  · simpa [hkey, Dict.get?_set_of_ne hkey] using h.best
  · subst hkey
    have hpast := (h.best _).mp hprogress
    have hroom := hroom rfl
    rw [accepted_enqueue (by exact hroom), fillsOf_append, filter_self, progresses_concat,
      nil_append, if_pos hpast]
    exact congr_arg₂ _ h.fills (by simp [fillsOf])
  · have hother : [m].filter (fun m => m.fillKey = key) = [] := by simp [hkey]
    rw [fillsOf_enqueue (by simp [fillsOf, hkey]), hother, append_nil]
    exact h.fills

theorem Tracked.handleOrderMessage (hfill : worker.fillUpdateEnabled)
    (hkeys : keys.length ≤ fillProgressLimit) (hroutes : worker.routes m)
    (hm : 0 < m.filledQuantity → m.fillKey ∈ keys) (h : Tracked keys key past s)
    (hroom : worker.HasRoom key (.message m) s) :
    Tracked keys key (past ++ [m].filter fun m => m.fillKey = key)
      (worker.handleOrderMessage m s) := by
  unfold LiveWorker.handleOrderMessage
  rw [if_neg (by simp [hroutes])]
  -- The `order_update` trigger is put first, and takes room.
  set s' := if worker.orderUpdateEnabled then worker.enqueue (.orderUpdate m) s else s with hs'
  have hsame : s'.fillProgress = s.fillProgress := by
    rw [hs']
    split_ifs <;> simp
  have hlength : s'.queue.length ≤ s.queue.length + if worker.orderUpdateEnabled then 1 else 0 := by
    rw [hs']
    split_ifs
    · exact length_enqueue_le worker _ s
    · simp
  have h' : Tracked keys key past s' := by
    rw [hs']
    split_ifs
    · exact h.enqueue rfl
    · exact h
  by_cases hprogress : (s'.fillProgress.get? m.fillKey).getD 0 < m.filledQuantity
  · have hmem := hm (Int.lt_of_le_of_lt (h'.nonneg _) hprogress)
    rw [if_pos ⟨hfill, hprogress⟩, setBounded_eq_set _ h'.nodup h'.held hmem hkeys]
    refine h'.progress hmem hprogress fun hkey => ?_
    rw [hsame, hkey] at hprogress
    exact Nat.lt_of_le_of_lt hlength (hroom hkey hprogress)
  · rw [if_neg (fun hboth => hprogress hboth.2)]
    by_cases hkey : m.fillKey = key
    · subst hkey
      simpa using h'.stale hprogress
    · simpa [hkey] using h'

end Tracked

/-! ## runs -/

theorem liveMessages_concat (steps : List LiveStep) (step : LiveStep) :
    liveMessages (steps ++ [step]) = liveMessages steps ++ step.message?.toList := by
  cases h : step.message? <;> simp [liveMessages, h]

def smallWorker : LiveWorker where
  queueMaxsize := 100
  allowUnscopedOrderEvents := true
  fillUpdateEnabled := true
  maxsize_ge := by decide

end KiteAlgo
