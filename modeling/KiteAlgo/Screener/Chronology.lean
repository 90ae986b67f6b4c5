import KiteAlgo.Screener.Claims
import KiteAlgo.Screener.Transitions

/-!
# KiteAlgo.Screener.Chronology

Publications of attachments in any order.  A publication is suppressed when a row of
the baseline was written by a run scheduled later, so time goes forward for as long as
every publication leaves its mark on a row.  It does not always: a run without results
writes no row of a `rank_delta` attachment, nor of a `top_n` attachment on which nobody
is present, and a run before it then still passes.
-/

namespace KiteAlgo

open List Option Table
variable {F : Type}

/-! ## publications -/

structure Publication (F : Type) where
  plan : AttachmentPlan F
  task : AttachmentTask F
  now : Int

namespace Publication

def key (p : Publication F) : AttachmentKey := p.plan.attachmentKey p.task

def run (p : Publication F) : AttachmentRun F := ⟨p.plan, p.task.results, p.now⟩

def superseded (p : Publication F) (db : ScreenerDb F) : Except PyErr Bool :=
  baselineSupersedes db (readAttachmentStates db p.key) p.plan.scheduledFor

/-- The database after the publication; one that raises is rolled back. -/
def publish (p : Publication F) (db : ScreenerDb F) : ScreenerDb F :=
  match publishTask p.plan p.now p.task [] db with
  | .ok (_, db') => db'
  | .error _ => db

/-- A publication on rows leaves its mark: it has results, or departed instruments are
recorded. -/
def LeavesMark (p : Publication F) (db : ScreenerDb F) : Prop :=
  readAttachmentStates db p.key ≠ [] → p.task.results ≠ [] ∨
    p.task.spec.trigger = .entry ∨ p.task.spec.trigger = .exit ∨
    p.task.spec.trigger = .topN ∧ ∃ e ∈ readAttachmentStates db p.key, e.2.present = true

end Publication

/-- A publication that was not suppressed, and whether the attachment has rows after it. -/
structure Effective (F : Type) where
  pub : Publication F
  hasRows : Bool

/-- Publications one after the other, recording those that were not suppressed. -/
def publications : Machine (Publication F) (ScreenerDb F) (Effective F) where
  step p db := p.publish db
  out p db :=
    match p.superseded db with
    | .ok false => [⟨p, !(readAttachmentStates (p.publish db) p.key).isEmpty⟩]
    | _ => []

/-- The baselines of all attachments go forward in time. -/
structure BaselinesAdvance (pubs : List (Publication F)) (db : ScreenerDb F) : Prop where
  /-- Once an attachment has rows, what passes the gate is scheduled ever later. -/
  increasing : (publications.trace pubs db).Pairwise fun p q => p.hasRows = true →
    p.pub.key = q.pub.key → p.pub.plan.scheduledFor < q.pub.plan.scheduledFor
  /-- A suppressed publication changes nothing. -/
  suppressed : publications.Along (fun p _ db => p.superseded db = .ok true → p.publish db = db)
    pubs db
  /-- The effective publications alone lead to the same rows. -/
  final : publications.run ((publications.trace pubs db).map Effective.pub) db = publications.run pubs db

/-! ## the rows of an attachment -/

theorem get?_readAttachmentStates (db : ScreenerDb F) (key : AttachmentKey) (instrument : String) :
    (readAttachmentStates db key).get? instrument = db.attachmentStates.get? (key, instrument) := by
  unfold readAttachmentStates select get?
  induction db.attachmentStates.rows with
  | nil => rfl
  | cons e rows ih =>
    obtain ⟨⟨k, i⟩, row⟩ := e
    by_cases hk : k = key
    · by_cases hi : i = instrument
      · simp [hk, hi]
      · simpa [hk, hi] using ih
    · simpa [hk] using ih

theorem nodup_readAttachmentStates (db : ScreenerDb F) (key : AttachmentKey) :
    (readAttachmentStates db key).keys.Nodup := by
  have hnodup := nodup_keys_select db.attachmentStates fun k _ => decide (k.1 = key)
  unfold readAttachmentStates Dict.keys
  rw [List.map_map]
  refine List.Nodup.of_map (fun i => (key, i)) ?_
  have hkeys : (db.attachmentStates.select fun k _ => decide (k.1 = key)).map
      (fun e => (key, e.1.2)) = (db.attachmentStates.select fun k _ => decide (k.1 = key)).map
        Prod.fst := by
    refine List.map_congr_left fun e he => ?_
    have hkey := (List.mem_filter.mp he).2
    rw [decide_eq_true_eq] at hkey
    rw [← hkey]
  rw [List.map_map]
  exact hkeys ▸ hnodup

def attachmentRows (db : ScreenerDb F) (key : AttachmentKey) : AttachmentRows :=
  ⟨readAttachmentStates db key, nodup_readAttachmentStates db key⟩

theorem get?_attachmentRows (db : ScreenerDb F) (key : AttachmentKey) (instrument : String) :
    (attachmentRows db key).get? instrument = db.attachmentStates.get? (key, instrument) :=
  get?_readAttachmentStates db key instrument

theorem get?_upsertAttachmentStateRow (run : AttachmentRun F)
    (updates : List AttachmentStateUpdate) {key : AttachmentKey} {rows : AttachmentRows}
    {states : Table (AttachmentKey × String) AttachmentState}
    (h : ∀ instrument, states.get? (key, instrument) = rows.get? instrument)
    (key' : AttachmentKey) (instrument : String) :
    (updates.foldl (fun states update =>
        upsertAttachmentStateRow states key run.plan.runId run.now update) states).get?
          (key', instrument) =
      if key = key' then (run.feedBack updates rows).get? instrument
      else states.get? (key', instrument) := by
  induction updates generalizing states rows with
  | nil =>
    by_cases hk : key = key'
    · rw [if_pos hk, ← hk]
      exact h instrument
    · rw [if_neg hk]
      rfl
  | cons u updates ih =>
    have hrows : ∀ instrument, (upsertAttachmentStateRow states key run.plan.runId run.now u).get?
        (key, instrument) = (rows.upsert u.instrumentKey (u.row run.plan.runId run.now)).get?
          instrument := by
      intro instrument
      rw [upsertAttachmentStateRow, get?_upsert, get?_upsert, h]
      simp
    rw [foldl_cons, ih hrows]
    by_cases hk : key = key'
    · rw [if_pos hk, if_pos hk]
      rfl
    · rw [if_neg hk, if_neg hk, upsertAttachmentStateRow, get?_upsert]
      simp [hk]

namespace Publication

variable {p : Publication F} {db : ScreenerDb F}

theorem publish_runs (p : Publication F) (db : ScreenerDb F) : (p.publish db).runs = db.runs := by
  unfold publish
  cases htask : publishTask p.plan p.now p.task [] db with
  | error e => rfl
  | ok result =>
    obtain ⟨applied, db'⟩ := result
    exact publishTask_runs htask

theorem publish_of_superseded (h : p.superseded db ≠ .ok false) : p.publish db = db := by
  unfold superseded key at h
  unfold publish publishTask
  cases hgate : baselineSupersedes db (readAttachmentStates db (p.plan.attachmentKey p.task))
      p.plan.scheduledFor with
  | error e =>
    simp only [hgate]
    rfl
  | ok superseded =>
    cases superseded with
    | true =>
      simp only [hgate]
      rfl
    | false => exact absurd hgate h

theorem get?_publish (h : p.superseded db = .ok false) (key : AttachmentKey) (instrument : String) :
    (p.publish db).attachmentStates.get? (key, instrument) = if p.key = key then
        (p.run.next p.task.spec (attachmentRows db p.key)).get? instrument
      else db.attachmentStates.get? (key, instrument) := by
  unfold superseded Publication.key at h
  unfold publish publishTask
  simp only [h]
  have hframe := (insertAttachmentEvents_frame db p.plan p.now
    (computeAttachmentTransitions p.plan p.task (readAttachmentStates db
      (p.plan.attachmentKey p.task))).events).2
  have hrows : ∀ i, (insertAttachmentEvents db p.plan p.now
      (computeAttachmentTransitions p.plan p.task (readAttachmentStates db
        (p.plan.attachmentKey p.task))).events).2.attachmentStates.get? (p.key, i) =
        (attachmentRows db p.key).get? i := by
    intro i
    rw [hframe, get?_attachmentRows]
  have hget := get?_upsertAttachmentStateRow p.run
    (p.run.outcome p.task.spec (attachmentRows db p.key)).updates hrows key instrument
  rw [← hframe]
  exact hget

theorem publish_ne_none (p : Publication F) {key : AttachmentKey} {instrument : String}
    (h : db.attachmentStates.get? (key, instrument) ≠ none) :
    (p.publish db).attachmentStates.get? (key, instrument) ≠ none := by
  by_cases hgate : p.superseded db = .ok false
  · rw [get?_publish hgate]
    by_cases hkey : p.key = key
    · rw [if_pos hkey, Ne, get?_next_eq_none_iff, get?_attachmentRows, hkey]
      exact fun hnone => h hnone.1
    · rw [if_neg hkey]
      exact h
  · rw [publish_of_superseded hgate]
    exact h

end Publication

section Marks

variable {run : AttachmentRun F} {spec : AttachmentSpec} {rows : AttachmentRows}

variable {instrument : String} {row : AttachmentState}

theorem row_of_next (h : (run.next spec rows).get? instrument = some row) :
    row.lastCompleteRunId = some run.plan.runId ∨ rows.get? instrument = some row := by
  cases hsilent : silentRun spec rows with
  | true =>
    rw [get?_next_of_silent hsilent] at h
    obtain ⟨m, -, rfl⟩ := map_eq_some_iff.mp h
    exact .inl rfl
  | false =>
    rw [get?_next_of_not_silent hsilent, rowAfter] at h
    cases hupdate : (keyTransition spec instrument (rows.get? instrument)
        (run.sees instrument)).update with
    | none =>
      rw [hupdate] at h
      exact .inr h
    | some u =>
      rw [hupdate] at h
      obtain rfl := some.inj h
      exact .inl rfl

theorem exists_mark_of_update (hsilent : silentRun spec rows = false)
    (h : (keyTransition spec instrument (rows.get? instrument)
      (run.sees instrument)).update ≠ none) :
    ∃ row, (run.next spec rows).get? instrument = some row ∧
      row.lastCompleteRunId = some run.plan.runId := by
  obtain ⟨u, hu⟩ := ne_none_iff_exists'.mp h
  refine ⟨u.row run.plan.runId run.now, ?_, rfl⟩
  rw [get?_next_of_not_silent hsilent, rowAfter, hu]
  rfl

theorem exists_mark_of_results (hresults : run.results ≠ []) :
    ∃ instrument row, (run.next spec rows).get? instrument = some row ∧
      row.lastCompleteRunId = some run.plan.runId := by
  have hsees : ∃ instrument, run.sees instrument ≠ none := by
    by_contra hnone
    push Not at hnone
    exact hresults (sees_eq_none_iff.mp hnone)
  obtain ⟨instrument, hne⟩ := hsees
  obtain ⟨m, hm⟩ := ne_none_iff_exists'.mp hne
  cases hsilent : silentRun spec rows with
  | true =>
    refine ⟨instrument, ⟨m.passed, some run.plan.runId, m.rank, 0, run.now⟩, ?_, rfl⟩
    rw [get?_next_of_silent hsilent, hm]
    rfl
  | false =>
    refine ⟨instrument, exists_mark_of_update hsilent ?_⟩
    rw [hm]
    exact evaluatedTransition_update_ne_none spec (rows.get? instrument) m

theorem exists_mark_of_departed (hrow : rows.get? instrument = some row)
    (hresults : run.results = [])
    (hdeparted : (departedTransition spec instrument row).update ≠ none) :
    ∃ instrument row, (run.next spec rows).get? instrument = some row ∧
      row.lastCompleteRunId = some run.plan.runId := by
  have hsilent : silentRun spec rows = false := by
    rw [silentRun]
    have hmem := mem_rows_iff.mpr hrow
    cases hrows : rows.rows with
    | nil => simp [hrows] at hmem
    | cons e es => rfl
  refine ⟨instrument, exists_mark_of_update hsilent ?_⟩
  rw [hrow, sees_eq_none_iff.mpr hresults instrument]
  exact hdeparted

end Marks

/-! ## how far a baseline is -/

/-- A row of the attachment was written by a run scheduled at the time or later. -/
def BaselineReaches (db : ScreenerDb F) (key : AttachmentKey) (time : Int) : Prop :=
  ∃ instrument row id run, db.attachmentStates.get? (key, instrument) = some row ∧
    row.lastCompleteRunId = some id ∧ db.runs.rows.get? id = some run ∧ time ≤ run.scheduledFor

variable {time : Int}

theorem le_of_not_superseded {db : ScreenerDb F} {p : Publication F}
    (hgate : p.superseded db = .ok false) (h : BaselineReaches db p.key time) :
    time ≤ p.plan.scheduledFor := by
  obtain ⟨instrument, row, id, run, hrow, hid, hrun, hle⟩ := h
  rw [← get?_readAttachmentStates] at hrow
  have hmem := Dict.mem_of_get? hrow
  have htime : run.scheduledFor ∈ baselineTimes db (readAttachmentStates db p.key) := by
    refine mem_map.mpr ⟨(id, run), mem_select.mpr ⟨hrun, ?_⟩, rfl⟩
    exact contains_iff_mem.mpr (mem_filterMap.mpr ⟨_, hmem, hid⟩)
  unfold Publication.superseded baselineSupersedes at hgate
  have hsome : ¬ (readAttachmentStates db p.key).all
      (fun e => e.2.lastCompleteRunId.isNone) := by
    intro hall
    have hnone := all_eq_true.mp hall _ hmem
    simp [hid] at hnone
  rw [if_neg hsome] at hgate
  cases htimes : baselineTimes db (readAttachmentStates db p.key) with
  | nil =>
    rw [htimes] at htime
    cases htime
  | cons t ts =>
    simp only [htimes, Except.ok.injEq, decide_eq_false_iff_not] at hgate
    rw [htimes] at htime
    have hmax := (max?_le_iff (max?_cons' : (t :: ts).max? = _)).mp
      (Int.le_refl _) run.scheduledFor htime
    omega

theorem baselineReaches_of_mark {db : ScreenerDb F} {p : Publication F} {run : ScreenerRun F}
    (hrun : db.runs.rows.get? p.plan.runId = some run)
    (htime : run.scheduledFor = p.plan.scheduledFor) {instrument : String} {row : AttachmentState}
    (hrow : (p.publish db).attachmentStates.get? (p.key, instrument) = some row)
    (hid : row.lastCompleteRunId = some p.plan.runId) :
    BaselineReaches (p.publish db) p.key p.plan.scheduledFor := by
  refine ⟨instrument, row, p.plan.runId, run, hrow, hid, ?_, Int.le_of_eq htime.symm⟩
  rw [p.publish_runs]
  exact hrun

variable {key : AttachmentKey}

theorem BaselineReaches.mono {db : ScreenerDb F} {time' : Int} (h : BaselineReaches db key time)
    (hle : time' ≤ time) : BaselineReaches db key time' := by
  obtain ⟨instrument, row, id, run, hrow, hid, hrun, htime⟩ := h
  exact ⟨instrument, row, id, run, hrow, hid, hrun, by omega⟩

theorem BaselineReaches.publish {db : ScreenerDb F} (h : BaselineReaches db key time)
    {p : Publication F} {run : ScreenerRun F} (hrun : db.runs.rows.get? p.plan.runId = some run)
    (htime : run.scheduledFor = p.plan.scheduledFor) : BaselineReaches (p.publish db) key time := by
  by_cases hgate : p.superseded db = .ok false
  · have hreaches := h
    obtain ⟨instrument, row, id, run', hrow, hid, hrun', hle⟩ := h
    by_cases hkey : p.key = key
    · subst hkey
      have hkept := p.publish_ne_none (by rw [hrow]; simp)
      obtain ⟨row', hrow'⟩ := ne_none_iff_exists'.mp hkept
      have hnext := hrow'
      rw [Publication.get?_publish hgate, if_pos rfl] at hnext
      cases row_of_next hnext with
      | inl hmark =>
        exact (baselineReaches_of_mark hrun htime hrow' hmark).mono (le_of_not_superseded hgate hreaches)
      | inr hsame =>
        rw [get?_attachmentRows, hrow, some.injEq] at hsame
        subst hsame
        exact ⟨instrument, row, id, run', hrow', hid, by rw [p.publish_runs]; exact hrun', hle⟩
    · refine ⟨instrument, row, id, run', ?_, hid, by rw [p.publish_runs]; exact hrun', hle⟩
      rw [Publication.get?_publish hgate, if_neg hkey]
      exact hrow
  · rw [Publication.publish_of_superseded hgate]
    exact h

theorem baselineReaches_of_effective {db : ScreenerDb F} {p : Publication F} {run : ScreenerRun F}
    (hrun : db.runs.rows.get? p.plan.runId = some run)
    (htime : run.scheduledFor = p.plan.scheduledFor) (hgate : p.superseded db = .ok false)
    (hmark : p.LeavesMark db) (hrows : readAttachmentStates (p.publish db) p.key ≠ []) :
    BaselineReaches (p.publish db) p.key p.plan.scheduledFor := by
  have hwritten : ∃ instrument row,
      (p.run.next p.task.spec (attachmentRows db p.key)).get? instrument = some row ∧
        row.lastCompleteRunId = some p.plan.runId := by
    by_cases hresults : p.task.results = []
    · have hempty : p.run.results = [] := hresults
      -- with no results only rows that are already there can be written
      have hbefore : readAttachmentStates db p.key ≠ [] := by
        intro hnil
        obtain ⟨e, he⟩ := exists_mem_of_ne_nil _ hrows
        have hget := (Dict.mem_iff_get? (nodup_readAttachmentStates _ _)).mp he
        rw [get?_readAttachmentStates, Publication.get?_publish hgate, if_pos rfl] at hget
        have hnone : (p.run.next p.task.spec (attachmentRows db p.key)).get? e.1 = none := by
          rw [get?_next_eq_none_iff, get?_attachmentRows, ← get?_readAttachmentStates, hnil]
          exact ⟨rfl, sees_eq_none_iff.mpr hempty e.1⟩
        rw [hnone] at hget
        cases hget
      have hdeparted : ∃ e ∈ readAttachmentStates db p.key,
          (departedTransition p.task.spec e.1 e.2).update ≠ none := by
        obtain ⟨e, he⟩ := exists_mem_of_ne_nil _ hbefore
        have hcases := (hmark hbefore).resolve_left (not_not_intro hresults)
        unfold departedTransition
        rcases hcases with htrigger | htrigger | ⟨htrigger, e, he, hpresent⟩
        · exact ⟨e, he, by simp [htrigger]⟩
        · exact ⟨e, he, by simp [htrigger]⟩
        · exact ⟨e, he, by simp [htrigger, hpresent]⟩
      obtain ⟨e, he, hupdate⟩ := hdeparted
      have hrow : (attachmentRows db p.key).get? e.1 = some e.2 :=
        (Dict.mem_iff_get? (nodup_readAttachmentStates _ _)).mp he
      exact exists_mark_of_departed hrow hempty hupdate
    · exact exists_mark_of_results hresults
  obtain ⟨instrument, row, hrow, hid⟩ := hwritten
  have hpublished : (p.publish db).attachmentStates.get? (p.key, instrument) = some row := by
    rw [Publication.get?_publish hgate, if_pos rfl]
    exact hrow
  exact baselineReaches_of_mark hrun htime hpublished hid

/-! ## publications in any order -/

/-- The run of a publication is stored with its time. -/
def Publication.Stored (p : Publication F) (db : ScreenerDb F) : Prop :=
  (db.runs.rows.get? p.plan.runId).map ScreenerRun.scheduledFor = some p.plan.scheduledFor

/-- What the publications so far leave for those to come. -/
structure Chronology (past : List (Effective F)) (rest : List (Publication F))
    (db : ScreenerDb F) : Prop where
  increasing : past.Pairwise fun p q => p.hasRows = true → p.pub.key = q.pub.key →
    p.pub.plan.scheduledFor < q.pub.plan.scheduledFor
  reached : ∀ p ∈ past, p.hasRows = true → BaselineReaches db p.pub.key p.pub.plan.scheduledFor
  distinct : ∀ p ∈ past, ∀ q ∈ rest, p.pub.key = q.key → p.pub.plan.scheduledFor ≠ q.plan.scheduledFor
  stored : ∀ p ∈ rest, p.Stored db
  apart : rest.Pairwise fun p q => p.key = q.key → p.plan.scheduledFor ≠ q.plan.scheduledFor

theorem Publication.Stored.publish {p q : Publication F} {db : ScreenerDb F} (h : p.Stored db) :
    p.Stored (q.publish db) := by
  unfold Publication.Stored at *
  rw [q.publish_runs]
  exact h

theorem publications_out_of_superseded {p : Publication F} {db : ScreenerDb F}
    (h : p.superseded db ≠ .ok false) : publications.out p db = [] := by
  show (match p.superseded db with | .ok false => _ | _ => []) = []
  split
  · next heq => exact absurd heq h
  · rfl

theorem Chronology.step {past : List (Effective F)} {p : Publication F}
    {rest : List (Publication F)} {db : ScreenerDb F} (h : Chronology past (p :: rest) db)
    (hmark : p.superseded db = .ok false → p.LeavesMark db) :
    Chronology (past ++ publications.out p db) rest (publications.step p db) := by
  obtain ⟨run, hrun, htime⟩ := map_eq_some_iff.mp (h.stored p (.head _))
  have hapart := pairwise_cons.mp h.apart
  have hreached : ∀ e ∈ past, e.hasRows →
      BaselineReaches (p.publish db) e.pub.key e.pub.plan.scheduledFor :=
    fun e he hrows => (h.reached e he hrows).publish hrun htime
  have hrest : ∀ q ∈ rest, q.Stored (p.publish db) :=
    fun q hq => (h.stored q (mem_cons_of_mem p hq)).publish
  by_cases hgate : p.superseded db = .ok false
  · have hout : publications.out p db = [⟨p, !(readAttachmentStates (p.publish db) p.key).isEmpty⟩] := by
      simp only [publications, hgate]
    rw [hout]
    refine ⟨?_, ?_, ?_, hrest, hapart.2⟩
    · rw [pairwise_append]
      refine ⟨h.increasing, pairwise_singleton _ _, fun e he q hq hrows hkey => ?_⟩
      rw [mem_singleton.mp hq] at hkey ⊢
      have hreaches := h.reached e he hrows
      rw [hkey] at hreaches
      have hle := le_of_not_superseded hgate hreaches
      have hne := h.distinct e he p (.head _) hkey
      show e.pub.plan.scheduledFor < p.plan.scheduledFor
      omega
    · intro e he hrows
      cases mem_append.mp he with
      | inl hold => exact hreached e hold hrows
      | inr hnew =>
        rw [mem_singleton.mp hnew] at hrows ⊢
        refine baselineReaches_of_effective hrun htime hgate (hmark hgate) ?_
        simpa using hrows
    · intro e he q hq hkey
      cases mem_append.mp he with
      | inl hold => exact h.distinct e hold q (mem_cons_of_mem p hq) hkey
      | inr hnew =>
        rw [mem_singleton.mp hnew] at hkey ⊢
        exact hapart.1 q hq hkey
  · rw [publications_out_of_superseded hgate, append_nil]
    exact ⟨h.increasing, hreached, fun e he q hq => h.distinct e he q (mem_cons_of_mem p hq),
      hrest, hapart.2⟩

theorem publications_out (p : Publication F) (db : ScreenerDb F) :
    (publications.out p db).map Effective.pub = [p] ∨
      publications.out p db = [] ∧ publications.step p db = db := by
  by_cases hgate : p.superseded db = .ok false
  · left
    simp only [publications, hgate, map_cons, map_nil]
  · right
    exact ⟨publications_out_of_superseded hgate, Publication.publish_of_superseded hgate⟩

/-- Runs stored with different times, published in any order: while every publication
that passes the gate leaves its mark, the baselines go forward. -/
theorem attachment_baselines_advance {pubs : List (Publication F)} {db : ScreenerDb F}
    (hstored : ∀ p ∈ pubs, p.Stored db)
    (hdistinct : pubs.Pairwise fun p q => p.key = q.key → p.plan.scheduledFor ≠ q.plan.scheduledFor)
    (hmark : publications.Along (fun p _ db => p.superseded db = .ok false → p.LeavesMark db)
      pubs db) :
    BaselinesAdvance pubs db where
  increasing := by
    have hstart : Chronology ([] : List (Effective F)) pubs db :=
      ⟨List.Pairwise.nil, by simp, by simp, hstored, hdistinct⟩
    have hend := Machine.history (fun h hmark => h.step hmark) hstart hmark
    exact hend.increasing
  suppressed := by
    refine hmark.mono fun p rest db _ hsuperseded => ?_
    exact Publication.publish_of_superseded (by simp [hsuperseded])
  final := Machine.run_map_trace publications_out pubs db

/-- A `top_n` attachment for the first rank. -/
def leader : AttachmentSpec where
  id := "en"
  trigger := .topN
  channels := ["t"]
  topN := some 1
  entryRank := some 1
  exitRank := some 2

def publicationOf (day : Int) (members : List (String × Bool × Option Int)) : Publication ℚ :=
  ⟨(runOf day members).plan, ⟨leader, (runOf day members).results⟩, day⟩

def threeDays : ScreenerDb ℚ :=
  [1, 2, 3].foldl (fun db day =>
    ((claimRun db ⟨"owner", "w", "r", toString day, day, "schedule"⟩ "scheduler" 300 day
      (toString day)).map Prod.snd).getD db) { runs := .empty }

/-- A late run is suppressed. -/
theorem late_run_suppressed :
    BaselinesAdvance
      [publicationOf 1 [("NSE:A", false, none)], publicationOf 3 [("NSE:B", false, none)],
        publicationOf 2 [("NSE:A", true, some 1)]] threeDays :=
  attachment_baselines_advance (by unfold Publication.Stored; decide +kernel) (by decide +kernel)
    ⟨fun _ _ => .inl (List.cons_ne_nil _ _), fun _ _ => .inl (List.cons_ne_nil _ _),
      fun _ _ => .inl (List.cons_ne_nil _ _), trivial⟩

/-- A late run passes after a newer one without results, and reports an entry. -/
theorem late_run_after_empty_run :
    (∀ p ∈ [publicationOf 1 [("NSE:A", false, none)], publicationOf 3 [],
      publicationOf 2 [("NSE:A", true, some 1)]], p.Stored threeDays) ∧
      [publicationOf 1 [("NSE:A", false, none)], publicationOf 3 [],
        publicationOf 2 [("NSE:A", true, some 1)]].Pairwise (fun p q => p.key = q.key →
          p.plan.scheduledFor ≠ q.plan.scheduledFor) ∧
      ¬ BaselinesAdvance
        [publicationOf 1 [("NSE:A", false, none)], publicationOf 3 [],
          publicationOf 2 [("NSE:A", true, some 1)]] threeDays := by
  refine ⟨by unfold Publication.Stored; decide +kernel, by decide +kernel, fun h => ?_⟩
  have hincreasing := h.increasing
  revert hincreasing
  decide +kernel

end KiteAlgo
