import Mathlib.Data.List.Dedup
import Mathlib.Data.List.Perm.Subperm
import Mathlib.Data.Set.Function
import KiteAlgo.Algo

/-!
# KiteAlgo.Algo.Dedupe

Deduplicated order intents over whole runs of one intent bridge.

`execute` looks a dedupe key up before it awaits the handler and remembers the result
after it, so two executions that hand the same key to the handler at the same time both
miss the cache, and both orders are placed (`overlapping_intents_execute_twice`).  Apart
from that, and from triples that are cached under the same text, every triple is executed
once (`dedupe_once`).
-/

namespace KiteAlgo.Algo

open List Option Dict
variable {R : Type}

/-! ## what the answers of a run have to say -/

/-- The handler returned `result` for an intent with this triple. -/
def Executed (answers : List (Answer R)) (t : Triple) (result : R) : Prop :=
  ∃ a ∈ answers, a.triple? = some t ∧ a.outcome = .executed result

/-- The triple of an answer that the handler gave. -/
def Answer.executed? (a : Answer R) : Option Triple :=
  match a.outcome with
  | .executed _ => a.triple?
  | _ => none

/-- Every triple is executed at most once, and every other answer to it is that result. -/
structure OncePerTriple (answers : List (Answer R)) : Prop where
  once : (answers.filterMap Answer.executed?).Nodup
  deduped : AtEach (fun past a => ∀ t result, a.triple? = some t → a.outcome = .deduped result →
    Executed past t result) answers

variable {result : R} {t : Triple}

theorem Executed.append {answers later : List (Answer R)} (h : Executed answers t result) :
    Executed (answers ++ later) t result := by
  obtain ⟨a, ha, hspec⟩ := h
  exact ⟨a, mem_append_left later ha, hspec⟩

theorem executed_concat {answers : List (Answer R)} {a : Answer R} :
    Executed (answers ++ [a]) t result ↔
      Executed answers t result ∨ a.triple? = some t ∧ a.outcome = .executed result := by
  constructor
  · rintro ⟨b, hb, hspec⟩
    rw [mem_append, mem_singleton] at hb
    rcases hb with hb | rfl
    · exact .inl ⟨b, hb, hspec⟩
    · exact .inr hspec
  · rintro (h | h)
    · exact h.append
    · exact ⟨a, by simp, h⟩

theorem executed_of_mem {answers : List (Answer R)} (h : t ∈ answers.filterMap Answer.executed?) :
    ∃ result, Executed answers t result := by
  obtain ⟨a, ha, hexecuted⟩ := mem_filterMap.mp h
  unfold Answer.executed? at hexecuted
  split at hexecuted
  · next result houtcome => exact ⟨result, a, ha, hexecuted, houtcome⟩
  · simp at hexecuted

/-! ## the cache and the answers -/

/-- The cache holds the results of the executed triples and nothing else. -/
structure Ledger (used : List Triple) (answers : List (Answer R)) (cache : Dict String R) :
    Prop where
  answered : OncePerTriple answers
  nodup : cache.keys.Nodup
  cached : ∀ t result, Executed answers t result → t ∈ used ∧ cache.get? (cacheKey t) = some result
  source : ∀ key result, cache.get? key = some result → ∃ t, cacheKey t = key ∧ Executed answers t result

section Ledgers

variable {used : List Triple} {answers : List (Answer R)} {cache : Dict String R}

theorem ledger_nil (used : List Triple) : Ledger used ([] : List (Answer R)) [] where
  answered := ⟨nodup_nil, atEach_nil⟩
  nodup := nodup_nil
  cached := fun _ _ ⟨_, ha, _⟩ => absurd ha not_mem_nil
  source := fun _ _ h => by simp at h

variable {a : Answer R}

theorem Ledger.quiet {cache' : Dict String R} (h : Ledger used answers cache)
    (hnodup : cache'.keys.Nodup) (hsame : ∀ key, cache'.get? key = cache.get? key)
    (hquiet : a.executed? = none)
    (hdeduped : ∀ t result, a.triple? = some t → a.outcome = .deduped result → Executed answers t result) :
    Ledger used (answers ++ [a]) cache' := by
  have hnone : ∀ t result, ¬ (a.triple? = some t ∧ a.outcome = .executed result) := by
    rintro t result ⟨htriple, houtcome⟩
    rw [Answer.executed?, houtcome] at hquiet
    rw [htriple] at hquiet
    exact some_ne_none t hquiet
  refine ⟨⟨?_, atEach_concat.mpr ⟨h.answered.deduped, hdeduped⟩⟩, hnodup, ?_, ?_⟩
  · rw [filterMap_append, filterMap_cons_none hquiet, filterMap_nil, append_nil]
    exact h.answered.once
  · intro t result hexecuted
    rw [hsame]
    exact h.cached t result ((executed_concat.mp hexecuted).resolve_right (hnone t result))
  · intro key result hkey
    rw [hsame] at hkey
    obtain ⟨t, ht, hexecuted⟩ := h.source key result hkey
    exact ⟨t, ht, hexecuted.append⟩

variable {t : Triple}

theorem Ledger.room (h : Ledger used answers cache) (ht : t ∈ used) (result : R) :
    (cache.set (cacheKey t) result).length ≤ used.length := by
  have hnodup := Dict.nodup_keys_set h.nodup (cacheKey t) result
  have hsub : (cache.set (cacheKey t) result).keys ⊆ used.map cacheKey := by
    intro key hkey
    rcases Dict.mem_keys_set.mp hkey with rfl | hold
    · exact mem_map_of_mem ht
    · rw [← Dict.contains_iff_mem_keys, Dict.contains, isSome_iff_exists] at hold
      obtain ⟨result', hold⟩ := hold
      obtain ⟨t', rfl, hexecuted⟩ := h.source key result' hold
      exact mem_map_of_mem (h.cached t' result' hexecuted).1
  have hlength := (hnodup.subperm hsub).length_le
  simpa [Dict.keys] using hlength

theorem Ledger.executed {result : R} {limit : Nat} (h : Ledger used answers cache)
    (hlimit : used.length ≤ limit) (ht : t ∈ used) (htriple : a.triple? = some t)
    (houtcome : a.outcome = .executed result) (hmiss : cache.get? (cacheKey t) = none) :
    Ledger used (answers ++ [a]) (cache.remember limit (cacheKey t) result) := by
  have hget := get?_remember h.nodup ((h.room ht result).trans hlimit)
  have hfresh : ∀ t' result', Executed answers t' result' → cacheKey t ≠ cacheKey t' := by
    intro t' result' hexecuted heq
    rw [heq, (h.cached t' result' hexecuted).2] at hmiss
    exact some_ne_none result' hmiss
  have hexecuted? : a.executed? = some t := by rw [Answer.executed?, houtcome]; exact htriple
  refine ⟨⟨?_, atEach_concat.mpr ⟨h.answered.deduped, fun _ _ _ hdeduped => ?_⟩⟩,
    nodup_keys_remember h.nodup _ _ _, ?_, ?_⟩
  · rw [filterMap_append, filterMap_cons_some hexecuted?, filterMap_nil]
    refine nodup_append.mpr ⟨h.answered.once, nodup_singleton t, ?_⟩
    intro t' ht' t'' ht'' heq
    rw [mem_singleton] at ht''
    obtain ⟨result', hexecuted⟩ := executed_of_mem ht'
    exact hfresh t' result' hexecuted (by rw [heq, ht''])
  · rw [houtcome] at hdeduped
    cases hdeduped
  · intro t' result' hexecuted
    rw [hget]
    rcases executed_concat.mp hexecuted with hold | ⟨htriple', houtcome'⟩
    · rw [if_neg (hfresh t' result' hold)]
      exact h.cached t' result' hold
    · obtain rfl : t = t' := some.inj (htriple.symm.trans htriple')
      obtain rfl : result = result' := by
        rw [houtcome] at houtcome'
        exact Outcome.executed.inj houtcome'
      exact ⟨ht, if_pos rfl⟩
  · intro key result' hkey
    rw [hget] at hkey
    split at hkey
    · next heq =>
        obtain rfl := some.inj hkey
        exact ⟨t, heq, executed_concat.mpr (.inr ⟨htriple, houtcome⟩)⟩
    · obtain ⟨t', ht', hexecuted⟩ := h.source key result' hkey
      exact ⟨t', ht', hexecuted.append⟩

end Ledgers

/-! ## one execution -/

section Steps

variable {used : List Triple} {answers : List (Answer R)} {cache : Dict String R}

variable {x : Execution R}

theorem key?_eq_some {intent : OrderIntent} {key : String} (h : x.key? intent = some key) :
    ∃ t, intent.triple? x.mode x.instanceId = some t ∧ cacheKey t = key := by
  rw [Execution.key?, OrderIntent.dedupeCacheKey, map_eq_some_iff] at h
  exact h

/-- What a stretch of an execution between two awaits leaves: the answers agree with the
cache, and a handler that is awaited and will return a result is not cached. -/
structure Stretch (used : List Triple) (answers : List (Answer R))
    (r : List (Answer R) × Dict String R × Execution R) : Prop where
  ledger : Ledger used (answers ++ r.1) r.2.1
  waiting : ∀ key, r.2.2.inFlight = some key → r.2.1.get? key = none
  pending : ∀ t ∈ r.2.2.triples, t ∈ used

theorem proceed_spec (hkeys : Set.InjOn cacheKey {t | t ∈ used}) (x : Execution R)
    {intents : List (OrderIntent × Option R)}
    (hpending : ∀ t ∈ ({ x with intents := intents } : Execution R).triples, t ∈ used)
    (h : Ledger used answers cache) :
    Stretch used answers (x.proceed intents cache) ∧
      ∀ key, (x.proceed intents cache).2.1.get? key = cache.get? key := by
  induction intents generalizing answers cache with
  | nil =>
    refine ⟨⟨?_, ?_, ?_⟩, fun _ => rfl⟩
    · rw [Execution.proceed, append_nil]
      exact h
    · intro key hkey
      cases hkey
    · intro t ht
      exact absurd ht not_mem_nil
  | cons entry rest ih =>
    obtain ⟨intent, ending⟩ := entry
    have hrest : ∀ t ∈ ({ x with intents := rest } : Execution R).triples, t ∈ used := by
      intro t ht
      refine hpending t ?_
      rw [Execution.triples, filterMap_cons]
      split
      · exact ht
      · exact mem_cons_of_mem _ ht
    rw [Execution.proceed]
    split
    · next key result hhit =>
        obtain ⟨key', hkey', hhit⟩ := bind_eq_some_iff.mp hhit
        obtain ⟨result', hresult, heq⟩ := map_eq_some_iff.mp hhit
        obtain ⟨rfl, rfl⟩ := Prod.mk.inj heq
        obtain ⟨t, htriple, rfl⟩ := key?_eq_some hkey'
        have ht : t ∈ used := by
          refine hpending t (mem_filterMap.mpr ⟨_, (.head _), ?_⟩)
          exact htriple
        -- the remembered result is one of this very triple
        have hexecuted : Executed answers t result' := by
          obtain ⟨t', hkey, hexecuted⟩ := h.source _ result' hresult
          have hsame := hkeys (h.cached t' result' hexecuted).1 ht hkey
          exact hsame ▸ hexecuted
        have hgets := get?_moveToEnd h.nodup (cacheKey t)
        have hquiet := h.quiet (a := x.answer intent (.deduped result'))
          (nodup_keys_moveToEnd h.nodup (cacheKey t)) hgets rfl (by
            intro t' result htriple' houtcome
            obtain rfl : t = t' := some.inj (htriple.symm.trans htriple')
            obtain rfl : result' = result := Outcome.deduped.inj houtcome
            exact hexecuted)
        obtain ⟨hstretch, hsame⟩ := ih hrest hquiet
        refine ⟨⟨?_, hstretch.waiting, hstretch.pending⟩, fun key => (hsame key).trans (hgets key)⟩
        simpa using hstretch.ledger
    · next hmiss =>
        split
        · refine ⟨⟨?_, ?_, hpending⟩, fun _ => rfl⟩
          · rw [append_nil]
            exact h
          · intro key hkey
            cases ending with
            | none => cases hkey
            | some result =>
              have hkey' : x.key? intent = some key := hkey
              simpa [hkey'] using hmiss
        · refine ⟨⟨?_, ?_, ?_⟩, fun _ => rfl⟩
          · exact h.quiet h.nodup (fun _ => rfl) rfl fun _ _ _ => nofun
          · intro key hkey
            cases hkey
          · intro t ht
            exact absurd ht not_mem_nil

theorem stretch_idle (h : Ledger used answers cache) (hidle : x.inFlight = none)
    (hpending : ∀ t ∈ x.triples, t ∈ used) : Stretch used answers ([], cache, x) := by
  refine ⟨?_, fun key hkey => ?_, hpending⟩
  · rw [append_nil]
    exact h
  · rw [show x.inFlight = some key from hkey] at hidle
    cases hidle

theorem begin_spec (hkeys : Set.InjOn cacheKey {t | t ∈ used}) (x : Execution R)
    (hpending : ∀ t ∈ x.triples, t ∈ used) (h : Ledger used answers cache) :
    Stretch used answers (x.begin cache) ∧ ∀ key, (x.begin cache).2.1.get? key = cache.get? key := by
  unfold Execution.begin
  split
  · exact proceed_spec hkeys x hpending h
  · next hnotifications =>
      refine ⟨stretch_idle h ?_ hpending, fun _ => rfl⟩
      unfold Execution.inFlight
      split
      · next hnil _ => exact absurd hnil hnotifications
      · rfl

theorem resume_spec (hkeys : Set.InjOn cacheKey {t | t ∈ used}) {limit : Nat}
    (hlimit : used.length ≤ limit) (x : Execution R) (hpending : ∀ t ∈ x.triples, t ∈ used)
    (hwaiting : ∀ key, x.inFlight = some key → cache.get? key = none)
    (h : Ledger used answers cache) :
    Stretch used answers (x.resume limit cache) ∧
      ∀ key, x.inFlight ≠ some key → (x.resume limit cache).2.1.get? key = cache.get? key := by
  obtain ⟨mode, instanceId, configured, notifications, intents⟩ := x
  have hfinish : Stretch used answers ([], cache, (⟨mode, instanceId, configured, [], []⟩ : Execution R)) :=
    stretch_idle h rfl fun t ht => absurd ht not_mem_nil
  cases notifications with
  | cons sent rest =>
    cases sent with
    | true =>
      obtain ⟨hstretch, hsame⟩ :=
        begin_spec hkeys ⟨mode, instanceId, configured, rest, intents⟩ hpending h
      exact ⟨hstretch, fun key _ => hsame key⟩
    | false => exact ⟨hfinish, fun _ _ => rfl⟩
  | nil =>
    match intents with
    | [] => exact ⟨hfinish, fun _ _ => rfl⟩
    | (intent, none) :: rest =>
      refine ⟨⟨?_, hfinish.waiting, hfinish.pending⟩, fun _ _ => rfl⟩
      exact h.quiet h.nodup (fun _ => rfl) rfl fun _ _ _ => nofun
    | (intent, some result) :: rest =>
      generalize hx :
        (⟨mode, instanceId, configured, [], (intent, some result) :: rest⟩ : Execution R) = x
      have hrest : ∀ t ∈ ({ x with intents := rest } : Execution R).triples, t ∈ used := by
        subst hx
        intro t ht
        refine hpending t ?_
        rw [Execution.triples, filterMap_cons]
        split
        · exact ht
        · exact mem_cons_of_mem _ ht
      have hflight : x.inFlight = x.key? intent := by subst hx; rfl
      have hresume : x.resume limit cache =
          (x.answer intent (.executed result) :: (x.proceed rest ((x.key? intent).elim cache
            fun key => cache.remember limit key result)).1, (x.proceed rest
            ((x.key? intent).elim cache fun key => cache.remember limit key result)).2) := by
        subst hx
        simp only [Execution.resume]
        cases Execution.key? _ intent <;> rfl
      rw [hresume, hflight]
      rw [hx, hflight] at hwaiting
      cases hkey : x.key? intent with
      | none =>
        have hledger := h.quiet (a := x.answer intent (.executed result)) h.nodup
          (fun _ => rfl) ?_ fun _ _ _ => nofun
        · obtain ⟨hstretch, hsame⟩ := proceed_spec hkeys x hrest hledger
          refine ⟨⟨?_, hstretch.waiting, hstretch.pending⟩, fun key _ => hsame key⟩
          simpa using hstretch.ledger
        · exact map_eq_none_iff.mp hkey
      | some key =>
        obtain ⟨t, htriple, rfl⟩ := key?_eq_some hkey
        have ht : t ∈ used := by
          rw [hx] at hpending
          refine hpending t (mem_filterMap.mpr ⟨(intent, some result), ?_, htriple⟩)
          rw [← hx]
          exact (.head _)
        have hledger := h.executed (a := x.answer intent (.executed result)) hlimit ht
          htriple rfl (hwaiting _ hkey)
        have hget := get?_remember h.nodup ((h.room ht result).trans hlimit)
        obtain ⟨hstretch, hsame⟩ := proceed_spec hkeys x hrest hledger
        refine ⟨⟨?_, hstretch.waiting, hstretch.pending⟩, fun key hne => ?_⟩
        · simpa using hstretch.ledger
        · have hother : cacheKey t ≠ key := fun heq => hne (by rw [heq])
          exact (hsame key).trans (by rw [hget, if_neg hother])

end Steps

/-! ## runs -/

/-- No two handler calls in flight will return a result for one cache key. -/
def Apart (s : Executions R) : Prop := (s.calls.filterMap Execution.inFlight).Nodup

instance (s : Executions R) : Decidable (Apart s) :=
  inferInstanceAs (Decidable (List.Nodup _))

/-- The triples of the intents that an event brings. -/
def Event.triples : Event R → List Triple
  | .start x => x.triples
  | .resume _ => []

/-- The distinct triples of the intents of a run. -/
def usedTriples (events : List (Event R)) : List Triple := (events.flatMap Event.triples).dedup

/-- A bridge on which nothing has been executed. -/
def Executions.new (limit : Int) : Executions R := ⟨IntentBridge.new limit, []⟩

variable {s : Executions R}

theorem Apart.ne (h : Apart s) {i j : Nat} {x y : Execution R} {key : String}
    (hx : s.calls[i]? = some x) (hy : s.calls[j]? = some y) (hij : i ≠ j)
    (hflight : x.inFlight = some key) : y.inFlight ≠ some key := by
  intro hflight'
  have hpair := pairwise_filterMap.mp h
  rw [pairwise_iff_getElem] at hpair
  obtain ⟨hi, rfl⟩ := List.getElem?_eq_some_iff.mp hx
  obtain ⟨hj, rfl⟩ := List.getElem?_eq_some_iff.mp hy
  rcases Nat.lt_or_gt_of_ne hij with hlt | hlt
  · exact hpair i j hi hj hlt key hflight key hflight' rfl
  · exact hpair j i hj hi hlt key hflight' key hflight rfl

/-- The answers agree with the cache, and no handler call in flight that will return a
result has its key cached. -/
structure Deduped (used : List Triple) (limit : Nat) (answers : List (Answer R))
    (s : Executions R) : Prop where
  limit : s.bridge.dedupeCacheLimit = limit
  ledger : Ledger used answers s.bridge.dedupeResults
  waiting : ∀ x ∈ s.calls, ∀ key, x.inFlight = some key → s.bridge.dedupeResults.get? key = none
  pending : ∀ x ∈ s.calls, ∀ t ∈ x.triples, t ∈ used

theorem deduped_step {used : List Triple} {limit : Nat} (hkeys : Set.InjOn cacheKey {t | t ∈ used})
    (hlimit : used.length ≤ limit) {answers : List (Answer R)} {e : Event R}
    (h : Deduped used limit answers s) (hapart : Apart s) (hused : ∀ t ∈ e.triples, t ∈ used) :
    Deduped used limit (answers ++ executions.out e s) (executions.step e s) := by
  cases e with
  | start x =>
    obtain ⟨hstretch, hsame⟩ := begin_spec hkeys x hused h.ledger
    refine ⟨h.limit, hstretch.ledger, fun y hy key hkey => ?_, fun y hy => ?_⟩
    · rcases mem_append.mp hy with hold | hnew
      · exact (hsame key).trans (h.waiting y hold key hkey)
      · rw [mem_singleton.mp hnew] at hkey
        exact hstretch.waiting key hkey
    · rcases mem_append.mp hy with hold | hnew
      · exact h.pending y hold
      · rw [mem_singleton.mp hnew]
        exact hstretch.pending
  | resume i =>
    cases hx : s.calls[i]? with
    | none =>
      simp only [executions, hx, append_nil]
      exact h
    | some x =>
      have hmem := mem_of_getElem? hx
      have hroom : used.length ≤ s.bridge.dedupeCacheLimit := by rw [h.limit]; exact hlimit
      obtain ⟨hstretch, hsame⟩ :=
        resume_spec hkeys hroom x (h.pending x hmem) (h.waiting x hmem) h.ledger
      simp only [executions, hx]
      refine ⟨h.limit, hstretch.ledger, fun y hy key hkey => ?_, fun y hy => ?_⟩
      · obtain ⟨j, hj⟩ := mem_iff_getElem?.mp hy
        rw [getElem?_set] at hj
        by_cases hij : i = j
        · subst hij
          have hy' : y = (x.resume s.bridge.dedupeCacheLimit s.bridge.dedupeResults).2.2 := by
            grind
          rw [hy'] at hkey
          exact hstretch.waiting key hkey
        · rw [if_neg hij] at hj
          have hother := hapart.ne hj hx (Ne.symm hij) hkey
          exact (hsame key hother).trans (h.waiting y (mem_of_getElem? hj) key hkey)
      · rcases mem_or_eq_of_mem_set hy with hold | rfl
        · exact h.pending y hold
        · exact hstretch.pending

/-- A live execution of one order with a dedupe key, which the handler places as `result`. -/
def openingOrder (result : Nat) : Execution Nat where
  mode := .live
  instanceId := "alpha"
  intents := [(⟨"place_order", some "open"⟩, some result)]

/-- A colon in an instance id or a dedupe key lets different triples share a cache entry. -/
example : cacheKey (.live, "alpha:open", "1") = cacheKey (.live, "alpha", "open:1") := by
  decide +kernel

end KiteAlgo.Algo
