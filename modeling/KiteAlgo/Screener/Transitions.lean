import KiteAlgo.Lib.Run
import KiteAlgo.Screener
import Mathlib.Data.List.Perm.Subperm

/-!
# KiteAlgo.Screener.Transitions

One attachment over a sequence of complete runs, each with the rows the runs before
it left.  `computeAttachmentTransitions` goes over all instruments of a run at once;
`actions_outcome` and `get?_feedBack` say what it does for one instrument, which is
what later results are about.
-/

namespace KiteAlgo

open List Option Table
variable {F : Type}

/-! ## runs of an attachment -/

/-- One complete run as an attachment sees it. -/
structure AttachmentRun (F : Type) where
  plan : AttachmentPlan F
  results : List (MemberResult F)
  now : Int

/-- A run on a day over members of which the code reads who passed and at which rank. -/
def runOf (day : Int) (members : List (String × Bool × Option Int)) : AttachmentRun ℚ where
  plan :=
    { ownerId := "owner", workflowId := "w", revisionId := "r", runId := toString day
      scheduledFor := day, screenerName := "scr" }
  results := members.map fun m => { instrumentKey := m.1, passed := m.2.1, rank := m.2.2 }
  now := day

/-- The rows of an attachment, by instrument. -/
abbrev AttachmentRows := Table String AttachmentState

def AttachmentRun.outcome (run : AttachmentRun F) (spec : AttachmentSpec) (rows : AttachmentRows) :
    AttachmentOutcome F :=
  computeAttachmentTransitions run.plan ⟨spec, run.results⟩ rows.rows

def AttachmentRun.feedBack (run : AttachmentRun F) (updates : List AttachmentStateUpdate)
    (rows : AttachmentRows) : AttachmentRows :=
  updates.foldl (fun rows u => rows.upsert u.instrumentKey (u.row run.plan.runId run.now)) rows

def AttachmentRun.next (run : AttachmentRun F) (spec : AttachmentSpec) (rows : AttachmentRows) :
    AttachmentRows :=
  run.feedBack (run.outcome spec rows).updates rows

def rowsAfter (spec : AttachmentSpec) (runs : List (AttachmentRun F)) (rows : AttachmentRows) :
    AttachmentRows :=
  runs.foldl (fun rows run => run.next spec rows) rows

theorem rowsAfter_concat (spec : AttachmentSpec) (past : List (AttachmentRun F))
    (run : AttachmentRun F) (rows : AttachmentRows) :
    rowsAfter spec (past ++ [run]) rows = run.next spec (rowsAfter spec past rows) := by
  simp [rowsAfter]

def AttachmentRun.Uncapped (run : AttachmentRun F) (spec : AttachmentSpec) (rows : AttachmentRows) :
    Prop :=
  (run.outcome spec rows).suppressed = 0

/-- The action an event reports of an instrument, read from its evidence. -/
def AttachmentEvent.actionFor (key : String) (event : AttachmentEvent F) : Option AttachmentAction :=
  match event.evidence.get? "instrument_key", event.evidence.get? "action" with
  | some (.str k), some (.str action) => if k = key then Named.ofName? action else none
  | _, _ => none

/-- The actions a run reports of an instrument. -/
def AttachmentRun.actions (run : AttachmentRun F) (spec : AttachmentSpec) (key : String)
    (rows : AttachmentRows) : List AttachmentAction :=
  (run.outcome spec rows).events.filterMap (AttachmentEvent.actionFor key)

def AttachmentRun.sees (run : AttachmentRun F) (key : String) : Option (MemberResult F) :=
  (currentMembers run.results).get? key

/-- The first complete run of an attachment without `initial_match` is silent. -/
def silentRun (spec : AttachmentSpec) (rows : AttachmentRows) : Bool :=
  rows.rows.isEmpty && !spec.initialMatch

def keyTransition (spec : AttachmentSpec) (key : String) (row : Option AttachmentState)
    (member : Option (MemberResult F)) : Transition :=
  match member with
  | some m => evaluatedTransition spec row m
  | none =>
    match row with
    | some previous => departedTransition spec key previous
    | none => ⟨none, []⟩

def rowAfter (run : AttachmentRun F) (transition : Transition) (row : Option AttachmentState) :
    Option AttachmentState :=
  (transition.update.map fun u => u.row run.plan.runId run.now).or row

/-! ## the members of a run -/

theorem nodup_currentMembers (results : List (MemberResult F)) :
    (currentMembers results).keys.Nodup :=
  nodup_keys_foldl_set MemberResult.instrumentKey id results nodup_nil

variable {key : String} {m : MemberResult F}

theorem instrumentKey_of_sees {results : List (MemberResult F)}
    (h : (currentMembers results).get? key = some m) : m.instrumentKey = key := by
  have hmem := Dict.mem_of_get? h
  rcases exists_of_mem_foldl_set MemberResult.instrumentKey id hmem with hnil | ⟨m', -, heq⟩
  · simp at hnil
  · obtain ⟨rfl, rfl⟩ := Prod.mk.inj heq
    rfl

variable {u : AttachmentStateUpdate}

theorem evaluatedTransition_update {spec : AttachmentSpec} {previous : Option AttachmentState}
    (h : (evaluatedTransition spec previous m).update = some u) :
    u.instrumentKey = m.instrumentKey := by
  unfold evaluatedTransition at h
  split at h
  · unfold topNTransition at h
    simp only at h
    split at h
    · split at h <;> exact some.inj h ▸ rfl
    · split at h <;> exact some.inj h ▸ rfl
  · exact some.inj h ▸ rfl
  · exact some.inj h ▸ rfl
  · exact some.inj h ▸ rfl

theorem evaluatedTransition_update_ne_none (spec : AttachmentSpec)
    (previous : Option AttachmentState) (m : MemberResult F) :
    (evaluatedTransition spec previous m).update ≠ none := by
  unfold evaluatedTransition topNTransition
  split
  · simp only
    split
    · split <;> simp
    · split <;> simp
  · simp [presenceTransition]
  · simp [presenceTransition]
  · simp [rankDeltaTransition]

theorem departedTransition_update {spec : AttachmentSpec} {previous : AttachmentState}
    (h : (departedTransition spec key previous).update = some u) : u.instrumentKey = key := by
  unfold departedTransition at h
  split at h
  · split at h
    · exact some.inj h ▸ rfl
    · simp at h
  · exact some.inj h ▸ rfl
  · exact some.inj h ▸ rfl
  · simp at h

section Transitions

variable (spec : AttachmentSpec) (results : List (MemberResult F)) (rows : AttachmentRows)

theorem keys_runTransitions :
    ((runTransitions spec results rows.rows).map Prod.fst).Perm
      ((currentMembers results).keys ++
        Dict.keys (rows.rows.filter fun e => !(currentMembers results).contains e.1)) := by
  unfold runTransitions
  simp only [List.map_append, List.map_map, Function.comp_def]
  exact ((perm_sortBy _ _).map Prod.fst).append ((perm_sortBy _ _).map Prod.fst)

theorem nodup_runTransitions : (Dict.keys (runTransitions spec results rows.rows)).Nodup := by
  rw [Dict.keys, (keys_runTransitions spec results rows).nodup_iff, nodup_append']
  refine ⟨nodup_currentMembers results, ?_, ?_⟩
  · exact rows.unique.sublist (filter_sublist.map Prod.fst)
  · intro key hcurrent hdeparted
    obtain ⟨e, he, rfl⟩ := mem_map.mp hdeparted
    have hnot := (mem_filter.mp he).2
    have hsome : (currentMembers results).get? e.1 ≠ none :=
      fun hnone => Dict.get?_eq_none_iff.mp hnone hcurrent
    cases hget : (currentMembers results).get? e.1 with
    | none => exact hsome hget
    | some m => simp [Dict.contains, hget] at hnot

theorem get?_runTransitions (key : String) :
    Dict.get? (runTransitions spec results rows.rows) key = match (currentMembers results).get? key with
      | some m => some (evaluatedTransition spec (rows.get? key) m)
      | none => (rows.get? key).map (departedTransition spec key) := by
  have hcurrent : Dict.get? (sortBy (fun a b => Text.le a.1 b.1) (currentMembers results)) key =
      (currentMembers results).get? key :=
    (Dict.get?_perm (perm_sortBy _ _).symm (nodup_currentMembers results) key).symm
  have hnodup : (Dict.keys (rows.rows.filter fun e => !(currentMembers results).contains e.1)).Nodup :=
    rows.unique.sublist (filter_sublist.map Prod.fst)
  have hdeparted : Dict.get? (sortBy (fun a b => Text.le a.1 b.1)
      (rows.rows.filter fun e => !(currentMembers results).contains e.1)) key =
      if !(currentMembers results).contains key then rows.get? key else none := by
    rw [← Dict.get?_perm (perm_sortBy _ _).symm hnodup key,
      Dict.get?_filterKeys (fun k => !(currentMembers results).contains k)]
    rfl
  unfold runTransitions
  simp only [Dict.get?_append]
  rw [Dict.get?_mapValues (fun k m => evaluatedTransition spec (rows.rows.get? k) m),
    Dict.get?_mapValues (fun k previous => departedTransition spec k previous), hcurrent, hdeparted]
  cases hget : (currentMembers results).get? key with
  | none => simp [Dict.contains, hget]
  | some m => rfl

end Transitions

/-! ## one instrument -/

theorem actionFor_attachmentEvent (plan : AttachmentPlan F) (task : AttachmentTask F)
    (k key : String) (payload : AttachmentPayload) :
    (attachmentEvent plan task k payload).actionFor key =
      if k = key then some payload.action else none := by
  simp [AttachmentEvent.actionFor, attachmentEvent]

section Instruments

variable {spec : AttachmentSpec} {run : AttachmentRun F} {rows : AttachmentRows}

theorem events_outcome (run : AttachmentRun F) (spec : AttachmentSpec) (rows : AttachmentRows)
    (key : String) : run.actions spec key rows = (((if silentRun spec rows then []
        else (runTransitions spec run.results rows.rows).flatMap fun t =>
          t.2.events.map fun e => (t.1, e)).take run.plan.maxEvents).filterMap fun r =>
            if r.1 = key then some r.2.action else none) := by
  unfold AttachmentRun.actions AttachmentRun.outcome computeAttachmentTransitions silentRun
  simp only [filterMap_map]
  congr 1
  funext r
  exact actionFor_attachmentEvent run.plan ⟨spec, run.results⟩ r.1 key r.2

theorem take_of_uncapped (hcap : run.Uncapped spec rows) (hsilent : silentRun spec rows = false) :
    ((runTransitions spec run.results rows.rows).flatMap fun t =>
        t.2.events.map fun e => (t.1, e)).take run.plan.maxEvents =
      (runTransitions spec run.results rows.rows).flatMap fun t =>
        t.2.events.map fun e => (t.1, e) := by
  have hcount : ((runTransitions spec run.results rows.rows).flatMap fun t =>
      t.2.events.map fun e => (t.1, e)).length ≤ run.plan.maxEvents := by
    have hsuppressed := hcap
    unfold AttachmentRun.Uncapped AttachmentRun.outcome computeAttachmentTransitions at hsuppressed
    unfold silentRun at hsilent
    simp only [hsilent] at hsuppressed
    exact Nat.sub_eq_zero_iff_le.mp hsuppressed
  exact take_of_length_le hcount

theorem actions_of_silent (hsilent : silentRun spec rows) (key : String) :
    run.actions spec key rows = [] := by
  rw [events_outcome, hsilent]
  simp

theorem actions_of_uncapped (hcap : run.Uncapped spec rows) (hsilent : silentRun spec rows = false)
    (key : String) :
    run.actions spec key rows =
      (keyTransition spec key (rows.get? key) (run.sees key)).events.map AttachmentPayload.action := by
  rw [events_outcome, hsilent]
  simp only [Bool.false_eq_true, if_false]
  rw [take_of_uncapped hcap hsilent, filterMap_flatMap]
  have hkey : (fun t : String × Transition =>
      (t.2.events.map fun e => (t.1, e)).filterMap fun r =>
        if r.1 = key then some r.2.action else none) =
      fun t => if t.1 = key then t.2.events.map AttachmentPayload.action else [] := by
    funext t
    rw [filterMap_map]
    by_cases hk : t.1 = key
    · simp [hk]
    · simp [hk]
  rw [hkey, Dict.flatMap_eq_of_key (fun t : Transition => t.events.map AttachmentPayload.action)
    (nodup_runTransitions spec run.results rows), get?_runTransitions]
  unfold keyTransition AttachmentRun.sees
  cases (currentMembers run.results).get? key with
  | some m => rfl
  | none => cases rows.get? key <;> rfl

variable {t : String × Transition}

theorem eq_keyTransition_of_mem (ht : t ∈ runTransitions spec run.results rows.rows) :
    t.2 = keyTransition spec t.1 (rows.get? t.1) (run.sees t.1) := by
  have hget := (Dict.mem_iff_get? (nodup_runTransitions spec run.results rows)).mp ht
  rw [get?_runTransitions] at hget
  unfold keyTransition AttachmentRun.sees
  cases hsees : (currentMembers run.results).get? t.1 with
  | some m =>
    simp only [hsees, some.injEq] at hget
    exact hget.symm
  | none =>
    simp only [hsees] at hget
    obtain ⟨previous, hrow, htransition⟩ := map_eq_some_iff.mp hget
    rw [hrow]
    exact htransition.symm

theorem uncapped_of_keys
    (hone : ∀ key, (keyTransition spec key (rows.get? key) (run.sees key)).events.length ≤ 1)
    (hbound : ∀ keys : List String, keys.Nodup →
      (∀ key ∈ keys, (keyTransition spec key (rows.get? key) (run.sees key)).events ≠ []) →
        keys.length ≤ run.plan.maxEvents) : run.Uncapped spec rows := by
  have hcount : ∀ ts : List (String × Transition), (∀ t ∈ ts, t.2.events.length ≤ 1) →
      (ts.flatMap fun t => t.2.events.map fun e => (t.1, e)).length ≤
        ((ts.filter fun t => !t.2.events.isEmpty).map Prod.fst).length := by
    intro ts hts
    induction ts with
    | nil => exact Nat.le_refl 0
    | cons t ts ih =>
      have hrest := ih fun t' ht' => hts t' (mem_cons_of_mem t ht')
      have hfirst := hts t (.head _)
      rw [flatMap_cons, length_append, length_map]
      cases hevents : t.2.events with
      | nil => simpa [hevents] using hrest
      | cons e es =>
        rw [hevents] at hfirst
        simp only [length_cons] at hfirst
        simp only [filter_cons, hevents, isEmpty_cons, Bool.not_false, if_true,
          map_cons, length_cons]
        omega
  have htotal := hcount (runTransitions spec run.results rows.rows) fun t ht => by
    rw [eq_keyTransition_of_mem ht]
    exact hone t.1
  have hkeys := hbound
    (((runTransitions spec run.results rows.rows).filter fun t => !t.2.events.isEmpty).map Prod.fst)
    ((nodup_runTransitions spec run.results rows).sublist (filter_sublist.map Prod.fst))
    fun key hkey => by
      obtain ⟨t, ht, rfl⟩ := mem_map.mp hkey
      rw [mem_filter] at ht
      rw [← eq_keyTransition_of_mem ht.1]
      simpa using ht.2
  unfold AttachmentRun.Uncapped AttachmentRun.outcome computeAttachmentTransitions
  by_cases hsilent : rows.rows.isEmpty && !spec.initialMatch
  · simp [hsilent]
  · simp only [hsilent]
    exact Nat.sub_eq_zero_of_le (htotal.trans hkeys)

theorem length_le_maxEvents {keys : List String} (hnodup : keys.Nodup)
    (h : ∀ key ∈ keys, run.actions spec key rows ≠ []) : keys.length ≤ run.plan.maxEvents := by
  have hsub : keys ⊆ (((if silentRun spec rows then []
      else (runTransitions spec run.results rows.rows).flatMap fun t =>
        t.2.events.map fun e => (t.1, e)).take run.plan.maxEvents).map Prod.fst) := by
    intro key hkey
    have hactions := h key hkey
    rw [events_outcome] at hactions
    obtain ⟨action, haction⟩ := exists_mem_of_ne_nil _ hactions
    obtain ⟨r, hr, hif⟩ := mem_filterMap.mp haction
    by_cases hk : r.1 = key
    · exact mem_map.mpr ⟨r, hr, hk⟩
    · simp [hk] at hif
  have hlength := (hnodup.subperm hsub).length_le
  rw [length_map, length_take] at hlength
  omega

theorem get?_feedBack {updates : List AttachmentStateUpdate}
    (hnodup : (updates.map AttachmentStateUpdate.instrumentKey).Nodup) (key : String) :
    (run.feedBack updates rows).get? key = ((updates.find? fun u => u.instrumentKey = key).map fun u =>
        u.row run.plan.runId run.now).or (rows.get? key) := by
  induction updates generalizing rows with
  | nil => rfl
  | cons u updates ih =>
    rw [map_cons, nodup_cons] at hnodup
    have hstep : run.feedBack (u :: updates) rows =
      run.feedBack updates (rows.upsert u.instrumentKey (u.row run.plan.runId run.now)) := rfl
    rw [hstep, ih hnodup.2, get?_upsert]
    by_cases hk : u.instrumentKey = key
    · subst hk
      have hnone : (updates.find? fun v => v.instrumentKey = u.instrumentKey) = none := by
        rw [find?_eq_none]
        intro v hv heq
        exact hnodup.1 (mem_map.mpr ⟨v, hv, by simpa using heq⟩)
      simp [hnone]
    · simp [hk]

theorem updates_of_keys {ts : Dict String Transition} (hnodup : ts.keys.Nodup)
    (hkey : ∀ t ∈ ts, ∀ u, t.2.update = some u → u.instrumentKey = t.1) :
    ((ts.filterMap fun t => t.2.update).map AttachmentStateUpdate.instrumentKey).Sublist ts.keys ∧
      ∀ key, (ts.filterMap fun t => t.2.update).find? (fun u => u.instrumentKey = key) =
        (ts.get? key).bind Transition.update := by
  induction ts with
  | nil => exact ⟨.slnil, fun key => rfl⟩
  | cons t ts ih =>
    obtain ⟨k, transition⟩ := t
    have hparts : k ∉ Dict.keys ts ∧ (Dict.keys ts).Nodup := nodup_cons.mp hnodup
    obtain ⟨hsub, hfind⟩ := ih hparts.2 fun t ht => hkey t (.tail _ ht)
    cases hupdate : transition.update with
    | none =>
      simp only [filterMap_cons, hupdate]
      refine ⟨hsub.cons k, fun key => ?_⟩
      rw [hfind, Dict.get?_cons]
      by_cases hk : k = key
      · subst hk
        simp [Dict.get?_eq_none_iff.mpr hparts.1, hupdate]
      · simp [hk]
    | some u =>
      have hu : u.instrumentKey = k := hkey (k, transition) (.head _) u hupdate
      simp only [filterMap_cons, hupdate]
      refine ⟨?_, fun key => ?_⟩
      · rw [map_cons, hu]
        exact hsub.cons_cons k
      · rw [find?_cons, hu, Dict.get?_cons]
        by_cases hk : k = key
        · simp [hk, hupdate]
        · simp [hk, hfind]

theorem runTransitions_update (ht : t ∈ runTransitions spec run.results rows.rows)
    {u : AttachmentStateUpdate} (hu : t.2.update = some u) : u.instrumentKey = t.1 := by
  rw [eq_keyTransition_of_mem ht] at hu
  unfold keyTransition AttachmentRun.sees at hu
  cases hsees : (currentMembers run.results).get? t.1 with
  | some m =>
    simp only [hsees] at hu
    rw [evaluatedTransition_update hu, instrumentKey_of_sees hsees]
  | none =>
    cases hrow : rows.get? t.1 with
    | none => simp [hsees, hrow] at hu
    | some previous =>
      simp only [hsees, hrow] at hu
      exact departedTransition_update hu

theorem get?_next_of_not_silent (hsilent : silentRun spec rows = false) (key : String) :
    (run.next spec rows).get? key =
      rowAfter run (keyTransition spec key (rows.get? key) (run.sees key)) (rows.get? key) := by
  have hupdates : (run.outcome spec rows).updates =
      (runTransitions spec run.results rows.rows).filterMap fun t => t.2.update := by
    unfold silentRun at hsilent
    simp [AttachmentRun.outcome, computeAttachmentTransitions, hsilent]
  obtain ⟨hsub, hfind⟩ := updates_of_keys (nodup_runTransitions spec run.results rows)
    fun t ht u hu => runTransitions_update ht hu
  rw [AttachmentRun.next, hupdates,
    get?_feedBack ((nodup_runTransitions spec run.results rows).sublist hsub), hfind, get?_runTransitions]
  unfold keyTransition AttachmentRun.sees
  cases (currentMembers run.results).get? key with
  | some m => rfl
  | none => cases rows.get? key <;> rfl

theorem get?_next_of_silent (hsilent : silentRun spec rows) (key : String) :
    (run.next spec rows).get? key =
      (run.sees key).map fun m => ⟨m.passed, some run.plan.runId, m.rank, 0, run.now⟩ := by
  have hempty : rows.rows = [] := by
    unfold silentRun at hsilent
    simp only [Bool.and_eq_true, List.isEmpty_iff] at hsilent
    exact hsilent.1
  have hnone : rows.get? key = none := by
    rw [Table.get?, hempty]
    rfl
  have hupdates : (run.outcome spec rows).updates = baselineUpdates run.results := by
    unfold silentRun at hsilent
    simp [AttachmentRun.outcome, computeAttachmentTransitions, hsilent]
  have hkeys : (baselineUpdates run.results).map AttachmentStateUpdate.instrumentKey =
      (currentMembers run.results).keys := by
    simp [baselineUpdates, Dict.keys, Function.comp_def]
  rw [AttachmentRun.next, hupdates,
    get?_feedBack (by rw [hkeys]; exact nodup_currentMembers run.results), hnone, or_none]
  unfold baselineUpdates AttachmentRun.sees
  induction currentMembers run.results with
  | nil => rfl
  | cons e members ih =>
    obtain ⟨k, m⟩ := e
    by_cases hk : k = key
    · simp [hk, AttachmentStateUpdate.row]
    · simpa [hk] using ih

theorem sees_eq_none_iff : (∀ key, run.sees key = none) ↔ run.results = [] := by
  constructor
  · intro h
    cases hresults : run.results with
    | nil => rfl
    | cons m rest =>
      have hnone := Dict.get?_eq_none_iff.mp (h m.instrumentKey)
      have hmem := (mem_keys_foldl_set MemberResult.instrumentKey id run.results []
        m.instrumentKey).mpr (.inr ⟨m, by simp [hresults], rfl⟩)
      exact absurd hmem hnone
  · intro h key
    rw [AttachmentRun.sees, h]
    rfl

theorem get?_next_eq_none_iff (key : String) :
    (run.next spec rows).get? key = none ↔ rows.get? key = none ∧ run.sees key = none := by
  cases hsilent : silentRun spec rows with
  | true =>
    have hempty : rows.rows = [] := by
      unfold silentRun at hsilent
      simp only [Bool.and_eq_true, List.isEmpty_iff] at hsilent
      exact hsilent.1
    have hnone : rows.get? key = none := by
      rw [Table.get?, hempty]
      rfl
    rw [get?_next_of_silent hsilent, map_eq_none_iff]
    simp [hnone]
  | false =>
    rw [get?_next_of_not_silent hsilent]
    unfold rowAfter keyTransition
    cases hsees : run.sees key with
    | some m =>
      have hupdate : (evaluatedTransition spec (rows.get? key) m).update ≠ none :=
        evaluatedTransition_update_ne_none spec (rows.get? key) m
      simp [hupdate]
    | none => cases hrow : rows.get? key <;> simp

theorem isEmpty_rowsAfter (spec : AttachmentSpec) (runs : List (AttachmentRun F)) :
    (rowsAfter spec runs .empty).rows.isEmpty ↔ ∀ run ∈ runs, run.results = [] := by
  have hnone : (rowsAfter spec runs .empty).rows.isEmpty ↔
      ∀ key, (rowsAfter spec runs .empty).get? key = none := by
    rw [List.isEmpty_iff]
    constructor
    · intro h key
      rw [Table.get?, h]
      rfl
    · intro h
      refine eq_nil_iff_forall_not_mem.mpr fun e he => ?_
      have hget := mem_rows_iff.mp he
      rw [h] at hget
      cases hget
  rw [hnone]
  clear hnone
  induction runs using reverseRecOn with
  | nil => simp [rowsAfter]
  | append_singleton past run ih =>
    simp only [rowsAfter_concat, get?_next_eq_none_iff, forall_and, ih, sees_eq_none_iff,
      mem_append, mem_singleton]
    grind

end Instruments

end KiteAlgo
