import KiteAlgo.Breadth
import Mathlib.Algebra.Order.Ring.Int
import Mathlib.Data.List.Perm.Basic

/-!
# KiteAlgo.Breadth.Aggregate

What the breadth rows stand for.  The `Aggregate` of a stage is the latest
trigger of each instrument and the latest time seen, as plain functions; an
evaluation refines one `observe` step on it.  The steps commute, so the
aggregate after a run does not depend on the arrival order, and count and
satisfied flag are read off the aggregate.
-/

namespace KiteAlgo

open List Option
/-! ## the abstract aggregate -/

/-- The latest trigger of each instrument, and the latest time seen. -/
@[ext] structure Aggregate where
  latest : String → Option BreadthTrigger
  watermark : Option Int

namespace Aggregate

def observe (universeRevision : Option Int) (agg : Aggregate) (t : String × Int) : Aggregate where
  latest i :=
    if t.1 = i then some (upsertTrigger (agg.latest i) t.2 universeRevision) else agg.latest i
  watermark := some (agg.watermark.elim t.2 (max t.2))

/-- How many of the members have their latest trigger in the `windowS` seconds up
to `at_`. -/
def participation (agg : Aggregate) (members : List String) (windowS at_ : Int) : Nat :=
  (members.filter fun i =>
    (agg.latest i).any fun row => row.inWindow (at_ - windowS * microsPerSecond) at_).length

theorem upsertTrigger_comm (stored : Option BreadthTrigger) (s t : Int) (rev : Option Int) :
    upsertTrigger (some (upsertTrigger stored s rev)) t rev =
      upsertTrigger (some (upsertTrigger stored t rev)) s rev := by
  cases stored with
  | none =>
    simp only [upsertTrigger]
    rcases lt_trichotomy s t with h | rfl | h
    · simp [h, not_lt.mpr h.le]
    · rfl
    · simp [h, not_lt.mpr h.le]
  | some row =>
    simp only [upsertTrigger]
    by_cases hs : row.lastTriggerTs < s <;> by_cases ht : row.lastTriggerTs < t
    · rcases lt_trichotomy s t with h | rfl | h
      · simp [hs, ht, h, not_lt.mpr h.le]
      · rfl
      · simp [hs, ht, h, not_lt.mpr h.le]
    · have hlt : t < s := lt_of_le_of_lt (not_lt.mp ht) hs
      simp [hs, ht, not_lt.mpr hlt.le]
    · have hlt : s < t := lt_of_le_of_lt (not_lt.mp hs) ht
      simp [hs, ht, not_lt.mpr hlt.le]
    · simp [hs, ht]

theorem observe_comm (rev : Option Int) (agg : Aggregate) (s t : String × Int) :
    (agg.observe rev s).observe rev t = (agg.observe rev t).observe rev s := by
  have hlatest : ((agg.observe rev s).observe rev t).latest =
      ((agg.observe rev t).observe rev s).latest := by
    funext i
    simp only [observe]
    by_cases hs : s.1 = i <;> by_cases ht : t.1 = i
    · simp only [hs, ht, if_true, upsertTrigger_comm]
    · simp only [hs, ht, if_true, if_false]
    · simp only [hs, ht, if_true, if_false]
    · simp only [hs, ht, if_false]
  have hmark : ((agg.observe rev s).observe rev t).watermark =
      ((agg.observe rev t).observe rev s).watermark := by
    cases hw : agg.watermark with
    | none => simp [observe, hw, max_comm]
    | some w => simp [observe, hw, max_left_comm]
  exact Aggregate.ext hlatest hmark

theorem foldl_observe_perm {rev : Option Int} {agg : Aggregate} {ts us : List (String × Int)}
    (h : ts.Perm us) : ts.foldl (observe rev) agg = us.foldl (observe rev) agg :=
  h.foldl_eq' (fun s _ t _ a => observe_comm rev a s t) agg

end Aggregate

/-! ## what the rows stand for -/

/-- The aggregate that the rows of a stage record. -/
def BreadthDb.aggregate (db : BreadthDb) (key : StageKey) : Aggregate where
  latest i := db.triggers.get? (key, i)
  watermark := (db.states.get? key).bind BreadthState.aggregationWatermark

theorem nodup_distinctKeys (ks : List String) : (distinctKeys ks).Nodup := by
  induction ks with
  | nil => simp [distinctKeys]
  | cons k ks ih =>
    refine nodup_cons.mpr ⟨?_, ih.filter _⟩
    simp [mem_filter]

theorem distinctKeys_of_nodup {ks : List String} (h : ks.Nodup) : distinctKeys ks = ks := by
  induction ks with
  | nil => rfl
  | cons k ks ih =>
    obtain ⟨hnot, hnodup⟩ := nodup_cons.mp h
    rw [distinctKeys, ih hnodup]
    congr 1
    refine filter_eq_self.mpr fun a ha => ?_
    have hne : a ≠ k := fun he => hnot (he ▸ ha)
    simp [hne]

variable {members : List String}

theorem length_select_inWindow (db : BreadthDb) (key : StageKey) (lo hi : Int) (h : members.Nodup) :
    (db.triggers.select fun k row =>
        decide (k.1 = key) && members.contains k.2 && row.inWindow lo hi).length =
      (members.filter fun i => ((db.aggregate key).latest i).any (·.inWindow lo hi)).length := by
  have hkeys : (members.map fun i => (key, i)).Nodup :=
    h.map fun a b hab => (Prod.mk.injEq .. ▸ hab).2
  rw [Table.length_select hkeys, List.filter_map, List.length_map]
  · refine congrArg List.length (List.filter_congr fun i hi' => ?_)
    simp [BreadthDb.aggregate, hi']
  · rintro ⟨k, i⟩ v hv
    simp only [Bool.and_eq_true, decide_eq_true_eq, List.contains_iff_mem] at hv
    exact List.mem_map.mpr ⟨i, hv.1.2, by rw [hv.1.1]⟩

theorem length_countBreadthContributions (db : BreadthDb) (key : StageKey) (lo hi : Int)
    (h : members.Nodup) {limit : Int} (hlimit : members.length ≤ limit) :
    (countBreadthContributions db key lo hi members limit).length =
      (members.filter fun i => ((db.aggregate key).latest i).any (·.inWindow lo hi)).length := by
  rw [countBreadthContributions, distinctKeys_of_nodup h]
  by_cases hempty : members.isEmpty
  · rw [if_pos hempty]
    simp [List.isEmpty_iff.mp hempty]
  · rw [if_neg hempty]
    have hcount := length_select_inWindow db key lo hi h
    have hle := length_filter_le
      (fun i => ((db.aggregate key).latest i).any (·.inWindow lo hi)) members
    simp only [length_map, length_take, length_sortBy, hcount]
    omega

/-! ## an evaluation refines an observation -/

/-- The count of an evaluation: the members that participate at its own time. -/
def countAt (args : BreadthArgs) (agg : Aggregate) (at_ : Int) : Nat :=
  agg.participation (distinctKeys args.memberKeys) args.windowS at_

/-- The satisfied flag of a stage, `False` before its first evaluation. -/
def BreadthDb.isSatisfied (db : BreadthDb) (key : StageKey) : Bool :=
  ((db.states.get? key).map BreadthState.satisfied).getD false

/-- The crossing number of a stage, `0` before its first evaluation. -/
def BreadthDb.crossings (db : BreadthDb) (key : StageKey) : Int :=
  ((db.states.get? key).map BreadthState.crossingSeq).getD 0

theorem thresholdStep_spec (args : BreadthArgs) (state : Option BreadthState) (at_ : Int)
    (count : Nat) :
    let row := (thresholdStep args state at_ count).1
    let before := (state.map BreadthState.satisfied).getD false
    (row.satisfied ↔ args.distinctInstruments ≤ count) ∧
      row.crossingSeq = (state.map BreadthState.crossingSeq).getD 0 +
        (if before = false ∧ row.satisfied then 1 else 0) ∧
      row.aggregationWatermark = some at_ ∧ row.lastCount = some count := by
  simp only [thresholdStep]
  cases hbefore : (state.map BreadthState.satisfied).getD false with
  | false =>
    by_cases hmeet : args.distinctInstruments ≤ count
    · simp [hmeet]
    · simp [hmeet]
  | true =>
    by_cases hmeet : args.distinctInstruments ≤ count
    · simp [hmeet, not_lt.mpr hmeet]
    · simp [hmeet, not_le.mp hmeet]

theorem observe_watermark (args : BreadthArgs) (db : BreadthDb) (i : String) (t : Int) :
    ((db.aggregate args.key).observe args.memberUniverseRevision (i, t)).watermark =
      some (effectiveAt (db.states.get? args.key) t) := by
  simp only [Aggregate.observe, BreadthDb.aggregate, effectiveAt]
  cases (db.states.get? args.key).bind BreadthState.aggregationWatermark <;> rfl

theorem latest_upsertBreadthContribution (db : BreadthDb) (key : StageKey) (i : String) (t : Int)
    (rev : Option Int) :
    ((upsertBreadthContribution db key i t rev).aggregate key).latest =
      ((db.aggregate key).observe rev (i, t)).latest := by
  funext j
  by_cases h : i = j
  · subst h
    simp [BreadthDb.aggregate, Aggregate.observe, upsertBreadthContribution]
  · have hne : (key, i) ≠ (key, j) := fun he => h (Prod.mk.inj he).2
    simp [BreadthDb.aggregate, Aggregate.observe, upsertBreadthContribution, h, Table.get?_upsert_of_ne hne]

variable {args : BreadthArgs}

theorem evaluateAccepted_spec (hcap : args.overCapacity = false) (i : String) (t : Int)
    (db : BreadthDb) : let db' := (evaluateAccepted args (some i) t db).2
    let at_ := effectiveAt (db.states.get? args.key) t
    let agg := (db.aggregate args.key).observe args.memberUniverseRevision (i, t)
    db'.aggregate args.key = agg ∧ ∃ resolvedAt, db'.states.get? args.key = some
        { (thresholdStep args (db.states.get? args.key) at_ (countAt args agg at_)).1 with
          membershipResolvedAt := resolvedAt } := by
  intro db' at_ agg
  have hcapacity : ((distinctKeys args.memberKeys).length : Int) ≤ args.maxInstruments :=
    not_lt.mp (of_decide_eq_false hcap)
  have hnodup := nodup_distinctKeys args.memberKeys
  have hlatest := latest_upsertBreadthContribution db args.key i t args.memberUniverseRevision
  have hcount := length_countBreadthContributions
    (upsertBreadthContribution db args.key i t args.memberUniverseRevision) args.key
    (at_ - args.windowS * microsPerSecond) at_ hnodup
    (show ((distinctKeys args.memberKeys).length : Int) ≤
      max 1 (min (if (distinctKeys args.memberKeys).isEmpty then args.maxInstruments
        else (distinctKeys args.memberKeys).length) args.maxInstruments) by
      split <;> omega)
  rw [hlatest] at hcount
  have hstate : ∃ resolvedAt, db'.states.get? args.key = some
      { (thresholdStep args (db.states.get? args.key) at_ (countAt args agg at_)).1 with
        membershipResolvedAt := resolvedAt } := by
    refine ⟨or (thresholdStep args (db.states.get? args.key) at_
      (countAt args agg at_)).1.membershipResolvedAt
      ((db.states.get? args.key).bind BreadthState.membershipResolvedAt), ?_⟩
    simp only [db', evaluateAccepted, upsertBreadthState, Table.get?_upsert_self]
    rw [show effectiveAt (db.states.get? args.key) t = at_ from rfl, hcount]
    rfl
  refine ⟨Aggregate.ext ?_ ?_, hstate⟩
  · rw [← hlatest]
    rfl
  · obtain ⟨_, hrow⟩ := hstate
    rw [observe_watermark]
    simp only [BreadthDb.aggregate, hrow, bind_some]
    exact (thresholdStep_spec args _ at_ _).2.2.1

/-! ## runs -/

/-- One call of `evaluate_breadth` for a trigger: the instrument, its time, when
the membership was resolved and the wall clock. -/
structure BreadthCall where
  instrument : String
  observedAt : Int
  resolvedAt : Option Int
  now : Option Int
  deriving DecidableEq, Repr

def BreadthCall.trigger (call : BreadthCall) : String × Int := (call.instrument, call.observedAt)

def BreadthArgs.forCall (args : BreadthArgs) (call : BreadthCall) : BreadthArgs :=
  { args with membershipResolvedAt := call.resolvedAt, membershipNow := call.now }

/-- The membership of a call is resolved, and not stale. -/
def BreadthCall.Fresh (args : BreadthArgs) (call : BreadthCall) : Prop :=
  ∃ resolvedAt, call.resolvedAt = some resolvedAt ∧
    (args.forCall call).isStale resolvedAt call.observedAt = false

def feedOne (args : BreadthArgs) (db : BreadthDb) (call : BreadthCall) : BreadthDb :=
  (evaluateBreadth (args.forCall call) (some call.instrument) call.observedAt db).2

/-- The triggers fed to the stage one after another. -/
def feed (args : BreadthArgs) (db : BreadthDb) (calls : List BreadthCall) : BreadthDb :=
  calls.foldl (feedOne args) db

theorem feedOne_spec (hcap : args.overCapacity = false) {call : BreadthCall}
    (hfresh : call.Fresh args) (db : BreadthDb) :
    (feedOne args db call).aggregate args.key =
        (db.aggregate args.key).observe args.memberUniverseRevision call.trigger ∧
      ∃ row w, (feedOne args db call).states.get? args.key = some row ∧ row.aggregationWatermark = some w ∧
        row.lastCount = some (countAt args ((feedOne args db call).aggregate args.key) w) ∧
        (row.satisfied ↔
          args.distinctInstruments ≤ countAt args ((feedOne args db call).aggregate args.key) w) ∧
        row.crossingSeq = db.crossings args.key +
          (if db.isSatisfied args.key = false ∧ row.satisfied then 1 else 0) := by
  obtain ⟨resolvedAt, hres, hstale⟩ := hfresh
  have hover : (args.forCall call).overCapacity = false := hcap
  have hfeed : feedOne args db call =
      (evaluateAccepted (args.forCall call) (some call.instrument) call.observedAt db).2 := by
    have hres' : (args.forCall call).membershipResolvedAt = some resolvedAt := hres
    simp only [feedOne, evaluateBreadth, hover, hres', hstale]
    rfl
  obtain ⟨hagg, _, hrow⟩ := evaluateAccepted_spec hover call.instrument call.observedAt db
  rw [← hfeed] at hagg hrow
  obtain ⟨hsat, hseq, hmark, hcount⟩ := thresholdStep_spec (args.forCall call)
    (db.states.get? args.key) (effectiveAt (db.states.get? args.key) call.observedAt)
    (countAt (args.forCall call) ((feedOne args db call).aggregate args.key)
      (effectiveAt (db.states.get? args.key) call.observedAt))
  rw [← hagg] at hrow
  exact ⟨hagg, _, _, hrow, hmark, hcount, hsat, hseq⟩

variable {calls : List BreadthCall}

theorem aggregate_feed (hcap : args.overCapacity = false) (hfresh : ∀ call ∈ calls, call.Fresh args)
    (db : BreadthDb) :
    (feed args db calls).aggregate args.key =
      (calls.map BreadthCall.trigger).foldl (Aggregate.observe args.memberUniverseRevision)
        (db.aggregate args.key) := by
  induction calls generalizing db with
  | nil => rfl
  | cons call calls ih =>
    have hstep := (feedOne_spec hcap (hfresh call (.head _)) db).1
    have hrest := ih (fun c hc => hfresh c (.tail _ hc)) (feedOne args db call)
    rw [hstep] at hrest
    exact hrest

/-- The count stored by the latest evaluation. -/
def BreadthDb.storedCount (db : BreadthDb) (key : StageKey) : Option Nat :=
  (db.states.get? key).bind BreadthState.lastCount

theorem feed_readout (hcap : args.overCapacity = false) (hfresh : ∀ call ∈ calls, call.Fresh args)
    (hne : calls ≠ []) (db : BreadthDb) : let agg := (feed args db calls).aggregate args.key
    ∃ w, agg.watermark = some w ∧ (feed args db calls).storedCount args.key = some (countAt args agg w) ∧
      (feed args db calls).isSatisfied args.key =
        decide (args.distinctInstruments ≤ countAt args agg w) := by
  intro agg
  obtain ⟨seen, call, rfl⟩ : ∃ seen call, calls = seen ++ [call] :=
    ⟨_, _, (dropLast_append_getLast hne).symm⟩
  have hlast : feed args db (seen ++ [call]) = feedOne args (feed args db seen) call := by
    simp [feed]
  obtain ⟨_, row, w, hrow, hmark, hcount, hsat, _⟩ :=
    feedOne_spec hcap (hfresh call (by simp)) (feed args db seen)
  rw [← hlast] at hrow hcount hsat
  refine ⟨w, ?_, ?_, ?_⟩
  · simp [agg, BreadthDb.aggregate, hrow, hmark]
  · simp [BreadthDb.storedCount, hrow, hcount, agg]
  · simp only [BreadthDb.isSatisfied, hrow, map_some, getD_some]
    rw [Bool.eq_iff_iff, hsat, decide_eq_true_iff]

theorem watermark_le_of_observe {rev : Option Int} {agg : Aggregate} {t : String × Int} {w w' : Int}
    (hw : agg.watermark = some w) (hw' : (agg.observe rev t).watermark = some w') : w ≤ w' := by
  simp only [Aggregate.observe, hw, elim_some, some.injEq] at hw'
  omega

/-- The breadth aggregate over every run of fresh evaluations of a stage within
capacity: what each evaluation establishes, and that the final rows do not
depend on the order of the triggers. -/
theorem breadth_aggregate_sound (args : BreadthArgs) (hcap : args.overCapacity = false)
    (db : BreadthDb) (calls : List BreadthCall) (hfresh : ∀ call ∈ calls, call.Fresh args) :
    (∀ seen call rest, calls = seen ++ call :: rest → let before := feed args db seen
      let after := feed args db (seen ++ [call])
      ∃ row w, after.states.get? args.key = some row ∧ row.aggregationWatermark = some w ∧
        (row.satisfied = true ↔ args.distinctInstruments ≤ countAt args (after.aggregate args.key) w) ∧
        (∀ w₀, (before.aggregate args.key).watermark = some w₀ → w₀ ≤ w) ∧
        row.crossingSeq = before.crossings args.key +
          (if before.isSatisfied args.key = false ∧ row.satisfied = true then 1 else 0)) ∧
    (∀ calls' : List BreadthCall, (calls'.map BreadthCall.trigger).Perm (calls.map BreadthCall.trigger) →
      (∀ call ∈ calls', call.Fresh args) → (∀ i, (feed args db calls').triggers.get? (args.key, i) =
        (feed args db calls).triggers.get? (args.key, i)) ∧
      ((feed args db calls').aggregate args.key).watermark =
        ((feed args db calls).aggregate args.key).watermark ∧
      (feed args db calls').storedCount args.key = (feed args db calls).storedCount args.key ∧
      (feed args db calls').isSatisfied args.key = (feed args db calls).isSatisfied args.key) := by
  constructor
  · intro seen call rest hcalls before after
    have hlast : after = feedOne args before call := by simp [after, before, feed]
    obtain ⟨hagg, row, w, hrow, hmark, _, hsat, hseq⟩ :=
      feedOne_spec hcap (hfresh call (by simp [hcalls])) before
    rw [← hlast] at hagg hrow hsat
    have hmark' : (after.aggregate args.key).watermark = some w := by
      simp [BreadthDb.aggregate, hrow, hmark]
    rw [hagg] at hmark'
    exact ⟨row, w, hrow, hmark, hsat, fun w₀ hw₀ => watermark_le_of_observe hw₀ hmark', hseq⟩
  · intro calls' hperm hfresh'
    have hagg : (feed args db calls').aggregate args.key = (feed args db calls).aggregate args.key := by
      rw [aggregate_feed hcap hfresh', aggregate_feed hcap hfresh, Aggregate.foldl_observe_perm hperm]
    have hlatest := congrArg Aggregate.latest hagg
    refine ⟨fun i => congrFun hlatest i, congrArg Aggregate.watermark hagg, ?_⟩
    by_cases hnil : calls = []
    · have hnil' : calls' = [] := by
        subst hnil
        exact List.map_eq_nil_iff.mp hperm.eq_nil
      rw [hnil, hnil']
      exact ⟨rfl, rfl⟩
    · have hnil' : calls' ≠ [] := by
        rintro rfl
        exact hnil (List.map_eq_nil_iff.mp hperm.symm.eq_nil)
      obtain ⟨w, hw, hcount, hsat⟩ := feed_readout hcap hfresh hnil db
      obtain ⟨w', hw', hcount', hsat'⟩ := feed_readout hcap hfresh' hnil' db
      rw [hagg] at hw' hcount' hsat'
      obtain rfl : w = w' := Option.some.inj (hw.symm.trans hw')
      exact ⟨hcount'.trans hcount.symm, hsat'.trans hsat.symm⟩

/-- A stage that needs two of two instruments within a minute. -/
def twoOfTwo : BreadthArgs where
  key := ⟨"owner", "wf", "rev", "breadth"⟩
  distinctInstruments := 2
  windowS := 60
  memberKeys := ["NSE:INFY", "NSE:TCS"]
  membershipResolvedAt := none
  maxInstruments := 10
  membershipMaxAgeS := 300

/-- A late trigger completes the count at the watermark, in either order. -/
theorem breadth_aggregate_twoOfTwo :
    let late : List BreadthCall :=
      [⟨"NSE:INFY", 90000000, some 0, some 0⟩, ⟨"NSE:TCS", 60000000, some 0, some 0⟩]
    ((feed twoOfTwo .empty late).isSatisfied twoOfTwo.key = true ∧
      (feed twoOfTwo .empty late).storedCount twoOfTwo.key = some 2) ∧
    (feed twoOfTwo .empty late.reverse).isSatisfied twoOfTwo.key =
      (feed twoOfTwo .empty late).isSatisfied twoOfTwo.key := by
  intro late
  refine ⟨by decide +kernel, ?_⟩
  have hfresh : ∀ call ∈ late, call.Fresh twoOfTwo := by
    intro call hcall
    simp only [late, List.mem_cons, List.not_mem_nil, or_false] at hcall
    rcases hcall with rfl | rfl <;> exact ⟨0, rfl, by decide⟩
  have hsound := breadth_aggregate_sound twoOfTwo (by decide) .empty late hfresh
  exact (hsound.2 late.reverse ((List.reverse_perm late).map _)
    fun call hcall => hfresh call (List.mem_reverse.mp hcall)).2.2.2

end KiteAlgo
