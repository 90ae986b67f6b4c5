import KiteAlgo.Lib.Run
import KiteAlgo.Screener

/-!
# KiteAlgo.Screener.Claims

One occurrence of a screener over whole runs: any number of lease owners claim it,
refresh their lease and finalize it, in any order and at any times.  `RunMove` says
once what a call can do to the run of the occurrence; that it is published at most
once, and only by its last claimer, follows along the calls.
-/

namespace KiteAlgo

open List Option RunTable
variable {F : Type}

/-! ## frames of a publication -/

theorem insertAttachmentEvents_frame (db : ScreenerDb F) (plan : AttachmentPlan F) (now : Int)
    (events : List (AttachmentEvent F)) :
    (insertAttachmentEvents db plan now events).2.runs = db.runs ∧
      (insertAttachmentEvents db plan now events).2.attachmentStates = db.attachmentStates := by
  induction events generalizing db with
  | nil => exact ⟨rfl, rfl⟩
  | cons event rest ih =>
    simp only [insertAttachmentEvents]
    split
    · exact ih db
    · exact ih _

variable {applied applied' : Counters} {now : Int} {plan : AttachmentPlan F}

theorem publishTask_runs {task : AttachmentTask F} {db db' : ScreenerDb F}
    (h : publishTask plan now task applied db = .ok (applied', db')) : db'.runs = db.runs := by
  obtain ⟨superseded, -, h⟩ := bind_eq_ok.mp h
  split at h
  · obtain ⟨-, rfl⟩ := Prod.mk.inj (Except.ok.inj h)
    rfl
  · obtain ⟨-, rfl⟩ := Prod.mk.inj (Except.ok.inj h)
    exact (insertAttachmentEvents_frame db plan now _).1

theorem publishTasks_runs {tasks : List (AttachmentTask F)} {db db' : ScreenerDb F}
    (h : publishTasks plan now tasks applied db = .ok (applied', db')) : db'.runs = db.runs := by
  induction tasks generalizing applied db with
  | nil =>
    obtain ⟨-, rfl⟩ := Prod.mk.inj (Except.ok.inj h)
    rfl
  | cons task rest ih =>
    obtain ⟨⟨applied₁, db₁⟩, htask, hrest⟩ := bind_eq_ok.mp h
    rw [ih hrest, publishTask_runs htask]

theorem publishRun_run {db db' : ScreenerDb F} {runId : String} {args : FinalizeArgs F}
    {run : ScreenerRun F} (hrun : db.runs.rows.get? runId = some run)
    (h : publishRun db runId args now = .ok db') :
    ∃ run', db'.runs.rows.get? runId = some run' ∧ run'.occurrenceKey = run.occurrenceKey ∧
      run'.leaseOwner = run.leaseOwner ∧ run'.status = args.status.run := by
  unfold publishRun at h
  cases hplan : args.attachmentPlan with
  | none =>
    simp only [hplan] at h
    obtain rfl := Except.ok.inj h
    refine ⟨args.finalized now run, ?_, rfl, rfl, rfl⟩
    rw [get?_modify, if_pos rfl, hrun]
    rfl
  | some plan =>
    simp only [hplan] at h
    obtain ⟨⟨summary, published⟩, htasks, h⟩ := bind_eq_ok.mp h
    obtain rfl := Except.ok.inj h
    let coverage : Values F := args.coverage.update (summary.map fun e => (e.1, .int e.2))
    refine ⟨{ args.finalized now run with coverage, updatedAt := now }, ?_, rfl, rfl, rfl⟩
    rw [get?_modify, if_pos rfl, publishTasks_runs htasks, get?_modify, if_pos rfl, hrun]
    rfl

theorem FinalStatus.run_ne_running (status : FinalStatus) : status.run ≠ .running := by
  cases status with
  | complete => simp [FinalStatus.run]
  | partial_ => simp [FinalStatus.run]
  | failed => simp [FinalStatus.run]

/-! ## calls -/

inductive RunCall (F : Type) where
  | claim (request : RunRequest) (leaseOwner : String) (leaseTtl now : Int) (freshId : String)
  | refresh (leaseOwner : String) (leaseTtl now : Int)
  | finalize (leaseOwner : String) (args : FinalizeArgs F) (now : Int)

inductive RunReply where
  | claimed (runId : String)
  | refused
  | returned (result : Bool)
  | raised (error : PyErr)
  deriving DecidableEq, Repr

def RunCall.caller : RunCall F → String
  | .claim _ leaseOwner _ _ _ => leaseOwner
  | .refresh leaseOwner _ _ => leaseOwner
  | .finalize leaseOwner _ _ => leaseOwner

/-- One call for the occurrence `key`.  A lease is refreshed and a run finalized under
the id that the claim of the occurrence returned. -/
def runCall (key : String) (db : ScreenerDb F) : RunCall F → RunReply × ScreenerDb F
  | .claim request leaseOwner leaseTtl now freshId =>
    match claimRun db { request with occurrenceKey := key } leaseOwner leaseTtl now freshId with
    | some (runId, db') => (.claimed runId, db')
    | none => (.refused, db)
  | .refresh leaseOwner leaseTtl now =>
    match db.runs.byOccurrence key with
    | none => (.returned false, db)
    | some (runId, _) =>
      ((.returned (refreshLease db runId leaseOwner leaseTtl now).1),
        (refreshLease db runId leaseOwner leaseTtl now).2)
  | .finalize leaseOwner args now =>
    match db.runs.byOccurrence key with
    | none => (.returned false, db)
    | some (runId, _) =>
      match finalizeRun db runId leaseOwner args now with
      | .ok (published, db') => (.returned published, db')
      | .error e => (.raised e, db)

/-- What a successful call leaves of the run of the occurrence. -/
inductive RunMove (key : String) (db db' : ScreenerDb F) : RunCall F → RunReply → Prop
  | first {request : RunRequest} {leaseOwner : String} {leaseTtl now : Int} {freshId : String}
      {run : ScreenerRun F} (hnone : db.runs.byOccurrence key = none)
      (hrun : db'.runs.byOccurrence key = some (freshId, run))
      (howner : run.leaseOwner = some leaseOwner) :
      RunMove key db db' (.claim request leaseOwner leaseTtl now freshId) (.claimed freshId)
  | takeOver {request : RunRequest} {leaseOwner : String} {leaseTtl now expires : Int}
      {freshId runId : String} {run run' : ScreenerRun F}
      (hrun : db.runs.byOccurrence key = some (runId, run)) (hrunning : run.status = .running)
      (hlease : run.leaseExpiresAt = some expires) (hexpired : expires ≤ now)
      (hrun' : db'.runs.byOccurrence key = some (runId, run'))
      (howner : run'.leaseOwner = some leaseOwner) :
      RunMove key db db' (.claim request leaseOwner leaseTtl now freshId) (.claimed runId)
  | refresh {leaseOwner runId : String} {leaseTtl now : Int} {run run' : ScreenerRun F}
      (hrun : db.runs.byOccurrence key = some (runId, run))
      (howned : run.ownedBy leaseOwner = true)
      (hrun' : db'.runs.byOccurrence key = some (runId, run'))
      (howner : run'.leaseOwner = run.leaseOwner) (hstatus : run'.status = run.status) :
      RunMove key db db' (.refresh leaseOwner leaseTtl now) (.returned true)
  | finalize {leaseOwner runId : String} {args : FinalizeArgs F} {now : Int}
      {run run' : ScreenerRun F} (hrun : db.runs.byOccurrence key = some (runId, run))
      (howned : run.ownedBy leaseOwner = true)
      (hrun' : db'.runs.byOccurrence key = some (runId, run'))
      (howner : run'.leaseOwner = run.leaseOwner) (hstatus : run'.status ≠ .running) :
      RunMove key db db' (.finalize leaseOwner args now) (.returned true)
  | refused {request : RunRequest} {leaseOwner : String} {leaseTtl now : Int} {freshId : String}
      (hsame : db' = db) :
      RunMove key db db' (.claim request leaseOwner leaseTtl now freshId) .refused
  | rejected {call : RunCall F} (hsame : db' = db) : RunMove key db db' call (.returned false)
  | raised {leaseOwner runId : String} {args : FinalizeArgs F} {now : Int} {run : ScreenerRun F}
      {error : PyErr} (hrun : db.runs.byOccurrence key = some (runId, run))
      (howned : run.ownedBy leaseOwner = true) (hsame : db' = db) :
      RunMove key db db' (.finalize leaseOwner args now) (.raised error)

section Calls

variable {key : String} {db : ScreenerDb F}

variable {run : ScreenerRun F} {t : RunTable F}

theorem byOccurrence_modify {runId : String} {f : ScreenerRun F → ScreenerRun F}
    (hf : ∀ run, (f run).occurrenceKey = run.occurrenceKey)
    (h : t.byOccurrence key = some (runId, run)) :
    (t.modify runId f hf).byOccurrence key = some (runId, f run) := by
  obtain ⟨hrun, hkey⟩ := byOccurrence_eq_some.mp h
  refine byOccurrence_eq_some.mpr ⟨?_, ?_⟩
  · rw [get?_modify, if_pos rfl, hrun]
    rfl
  · rw [hf, hkey]

theorem byOccurrence_insert {t' : RunTable F} {id : String} (h : t.insert id run = some t') :
    t'.byOccurrence run.occurrenceKey = some (id, run) := by
  unfold RunTable.insert at h
  split at h
  · obtain rfl := Option.some.inj h
    exact RunTable.byOccurrence_eq_some.mpr ⟨Table.get?_upsert_self _ _ _, rfl⟩
  · simp at h

theorem claim_move (request : RunRequest) (leaseOwner : String) (leaseTtl now : Int)
    (freshId : String) :
    RunMove key db (runCall key db (.claim request leaseOwner leaseTtl now freshId)).2
      (.claim request leaseOwner leaseTtl now freshId)
      (runCall key db (.claim request leaseOwner leaseTtl now freshId)).1 := by
  cases hclaim : claimRun db { request with occurrenceKey := key } leaseOwner leaseTtl now freshId with
  | none =>
    simp only [runCall, hclaim]
    exact .refused rfl
  | some claimed =>
    obtain ⟨runId, db'⟩ := claimed
    simp only [runCall, hclaim]
    simp only [claimRun] at hclaim
    cases hfound : db.runs.byOccurrence key with
    | none =>
      simp only [hfound] at hclaim
      obtain ⟨runs, hinsert, heq⟩ := map_eq_some_iff.mp hclaim
      obtain ⟨rfl, rfl⟩ := Prod.mk.inj heq
      exact .first hfound (byOccurrence_insert hinsert) rfl
    | some e =>
      obtain ⟨id, run⟩ := e
      simp only [hfound] at hclaim
      cases hstatus : run.status with
      | running =>
        cases hlease : run.leaseExpiresAt with
        | none => simp [hstatus, hlease] at hclaim
        | some expires =>
          simp only [hstatus, hlease] at hclaim
          split at hclaim
          · next hexpired =>
              obtain ⟨rfl, rfl⟩ := Prod.mk.inj (some.inj hclaim)
              exact .takeOver hfound hstatus hlease hexpired
                (byOccurrence_modify (ScreenerRun.takenOver_occurrenceKey _ _ _) hfound) rfl
          · simp at hclaim
      | complete => simp [hstatus] at hclaim
      | partial_ => simp [hstatus] at hclaim
      | failed => simp [hstatus] at hclaim

theorem refresh_move (leaseOwner : String) (leaseTtl now : Int) :
    RunMove key db (runCall key db (.refresh leaseOwner leaseTtl now)).2
      (.refresh leaseOwner leaseTtl now) (runCall key db (.refresh leaseOwner leaseTtl now)).1 := by
  cases hfound : db.runs.byOccurrence key with
  | none =>
    simp only [runCall, hfound]
    exact .rejected rfl
  | some e =>
    obtain ⟨runId, run⟩ := e
    have hrun := (byOccurrence_eq_some.mp hfound).1
    simp only [runCall, hfound, refreshLease, hrun, any_some]
    split
    · next howned =>
        exact .refresh hfound howned
          (byOccurrence_modify (ScreenerRun.refreshed_occurrenceKey _ _) hfound) rfl rfl
    · exact .rejected rfl

theorem finalize_move (leaseOwner : String) (args : FinalizeArgs F) (now : Int) :
    RunMove key db (runCall key db (.finalize leaseOwner args now)).2
      (.finalize leaseOwner args now) (runCall key db (.finalize leaseOwner args now)).1 := by
  cases hfound : db.runs.byOccurrence key with
  | none =>
    simp only [runCall, hfound]
    exact .rejected rfl
  | some e =>
    obtain ⟨runId, run⟩ := e
    obtain ⟨hrun, hkey⟩ := byOccurrence_eq_some.mp hfound
    simp only [runCall, hfound, finalizeRun, hrun, any_some]
    cases howned : run.ownedBy leaseOwner with
    | false =>
      simp only [if_false, Bool.false_eq_true]
      exact .rejected rfl
    | true =>
      simp only [if_true]
      cases hpublish : publishRun db runId args now with
      | error e => exact .raised hfound howned rfl
      | ok db' =>
        obtain ⟨run', hrun', hkey', howner', hstatus'⟩ := publishRun_run hrun hpublish
        refine .finalize hfound howned
          (byOccurrence_eq_some.mpr ⟨hrun', hkey'.trans hkey⟩) howner' ?_
        rw [hstatus']
        exact args.status.run_ne_running

theorem runCall_move (key : String) (db : ScreenerDb F) (call : RunCall F) :
    RunMove key db (runCall key db call).2 call (runCall key db call).1 := by
  cases call with
  | claim request leaseOwner leaseTtl now freshId =>
    exact claim_move request leaseOwner leaseTtl now freshId
  | refresh leaseOwner leaseTtl now => exact refresh_move leaseOwner leaseTtl now
  | finalize leaseOwner args now => exact finalize_move leaseOwner args now

end Calls

/-! ## runs -/

/-- One call of a run with the database before and after it. -/
structure RunEvent (F : Type) where
  call : RunCall F
  before : ScreenerDb F
  reply : RunReply
  after : ScreenerDb F

/-- The calls for one occurrence as a machine. -/
def occurrence (key : String) : Machine (RunCall F) (ScreenerDb F) (RunEvent F) :=
  .ofCall fun call db => (⟨call, db, (runCall key db call).1, (runCall key db call).2⟩,
    (runCall key db call).2)

def RunEvent.claimer (e : RunEvent F) : Option String :=
  match e.reply with
  | .claimed _ => some e.call.caller
  | _ => none

/-- The owner of the most recent successful claim, at first the stored one. -/
def lastClaimer (stored : Option String) (events : List (RunEvent F)) : Option String :=
  events.foldl (fun owner e => e.claimer.or owner) stored

/-- `finalize_run` returned True. -/
def RunEvent.Publishes (e : RunEvent F) : Prop :=
  (∃ leaseOwner args now, e.call = .finalize leaseOwner args now) ∧ e.reply = .returned true

/-- The lease owner stored for an occurrence. -/
def storedOwner (key : String) (db : ScreenerDb F) : Option String :=
  (db.runs.byOccurrence key).bind fun e => e.2.leaseOwner

/-- The occurrence of a key over the calls of a run. -/
structure PublishedOnce (key : String) (stored : Option String) (events : List (RunEvent F)) :
    Prop where
  /-- At most one finalization returns True. -/
  once : events.Pairwise fun a b => a.Publishes → ¬ b.Publishes
  /-- It is the call of the last claimer. -/
  byClaimer : ∀ past e rest, events = past ++ e :: rest → e.Publishes →
    lastClaimer stored past = some e.call.caller
  /-- A finalization or refresh of anyone else returns False and changes nothing. -/
  fenced : ∀ past e rest, events = past ++ e :: rest → lastClaimer stored past ≠ some e.call.caller →
    (∀ request leaseOwner leaseTtl now freshId, e.call ≠ .claim request leaseOwner leaseTtl now freshId) →
    e.reply = .returned false ∧ e.after = e.before
  /-- A claim of an occurrence that has a run succeeds only while it runs and after the
  stored lease. -/
  expired : ∀ e ∈ events, ∀ request leaseOwner leaseTtl now freshId claimedId,
    e.call = .claim request leaseOwner leaseTtl now freshId → e.reply = .claimed claimedId →
    ∀ runId run, e.before.runs.byOccurrence key = some (runId, run) →
      run.status = .running ∧ ∃ expires, run.leaseExpiresAt = some expires ∧ expires ≤ now

theorem storedOwner_runCall (key : String) (db : ScreenerDb F) (call : RunCall F) :
    storedOwner key (runCall key db call).2 =
      (RunEvent.claimer ⟨call, db, (runCall key db call).1, (runCall key db call).2⟩).or
        (storedOwner key db) := by
  have hmove := runCall_move key db call
  generalize (runCall key db call).1 = reply at hmove ⊢
  generalize (runCall key db call).2 = db' at hmove ⊢
  cases hmove with
  | first hnone hrun howner => simp [storedOwner, hrun, howner, RunEvent.claimer, RunCall.caller]
  | takeOver hrun hrunning hlease hexpired hrun' howner =>
    simp [storedOwner, hrun', howner, RunEvent.claimer, RunCall.caller]
  | refresh hrun howned hrun' howner hstatus =>
    simp [storedOwner, hrun, hrun', howner, RunEvent.claimer]
  | finalize hrun howned hrun' howner hstatus =>
    simp [storedOwner, hrun, hrun', howner, RunEvent.claimer]
  | refused hsame => rw [hsame]; rfl
  | rejected hsame => rw [hsame]; rfl
  | raised hrun howned hsame => rw [hsame]; rfl

theorem storedOwner_run (key : String) (calls : List (RunCall F)) (db : ScreenerDb F) :
    storedOwner key ((occurrence key).run calls db) =
      lastClaimer (storedOwner key db) ((occurrence key).trace calls db) := by
  induction calls generalizing db with
  | nil => rfl
  | cons call rest ih =>
    show storedOwner key ((occurrence key).run rest (runCall key db call).2) = _
    rw [ih, storedOwner_runCall]
    rfl

theorem occurrence_event {key : String} {calls : List (RunCall F)} {db : ScreenerDb F}
    {past rest : List (RunEvent F)} {e : RunEvent F}
    (h : (occurrence key).trace calls db = past ++ e :: rest) :
    RunMove key e.before e.after e.call e.reply ∧
      storedOwner key e.before = lastClaimer (storedOwner key db) past := by
  obtain ⟨first, call, later, -, rfl, rfl, -⟩ := Machine.exists_of_trace_ofCall h
  exact ⟨runCall_move key _ call, storedOwner_run key first db⟩

variable {call : RunCall F} {reply : RunReply} {run : ScreenerRun F} {runId : String}

theorem RunMove.of_finalized {key : String} {db db' : ScreenerDb F}
    (hmove : RunMove key db db' call reply) (hrun : db.runs.byOccurrence key = some (runId, run))
    (hstatus : run.status ≠ .running) : db' = db ∧ reply ≠ .returned true := by
  cases hmove with
  | first hnone hrun' howner => simp [hnone] at hrun
  | takeOver hfound hrunning hlease hexpired hrun' howner =>
    obtain ⟨-, rfl⟩ := Prod.mk.inj (some.inj (hfound.symm.trans hrun))
    exact absurd hrunning hstatus
  | refresh hfound howned hrun' howner hstatus' =>
    obtain ⟨-, rfl⟩ := Prod.mk.inj (some.inj (hfound.symm.trans hrun))
    simp [ScreenerRun.ownedBy, hstatus] at howned
  | finalize hfound howned hrun' howner hstatus' =>
    obtain ⟨-, rfl⟩ := Prod.mk.inj (some.inj (hfound.symm.trans hrun))
    simp [ScreenerRun.ownedBy, hstatus] at howned
  | refused hsame => exact ⟨hsame, by simp⟩
  | rejected hsame => exact ⟨hsame, by simp⟩
  | raised hfound howned hsame => exact ⟨hsame, by simp⟩

variable {leaseOwner : String}

theorem ScreenerRun.owner_of_ownedBy (h : run.ownedBy leaseOwner) :
    run.leaseOwner = some leaseOwner := by
  simp only [ScreenerRun.ownedBy, Bool.and_eq_true, decide_eq_true_eq] at h
  exact h.1

theorem RunMove.owner_or_rejected {key : String} {db db' : ScreenerDb F}
    (hmove : RunMove key db db' call reply) (hcall : ∀ request leaseOwner leaseTtl now freshId,
      call ≠ .claim request leaseOwner leaseTtl now freshId) :
    storedOwner key db = some call.caller ∨ (reply = .returned false ∧ db' = db) := by
  cases hmove with
  | first hnone hrun howner => exact absurd rfl (hcall _ _ _ _ _)
  | takeOver hrun hrunning hlease hexpired hrun' howner => exact absurd rfl (hcall _ _ _ _ _)
  | refresh hrun howned hrun' howner hstatus =>
    exact .inl (by simp [storedOwner, hrun, ScreenerRun.owner_of_ownedBy howned, RunCall.caller])
  | finalize hrun howned hrun' howner hstatus =>
    exact .inl (by simp [storedOwner, hrun, ScreenerRun.owner_of_ownedBy howned, RunCall.caller])
  | refused hsame => exact absurd rfl (hcall _ _ _ _ _)
  | rejected hsame => exact .inr ⟨rfl, hsame⟩
  | raised hrun howned hsame =>
    exact .inl (by simp [storedOwner, hrun, ScreenerRun.owner_of_ownedBy howned, RunCall.caller])

theorem RunMove.expired_of_claimed {key : String} {db db' : ScreenerDb F} {request : RunRequest}
    {freshId claimedId : String} {leaseTtl now : Int}
    (hmove : RunMove key db db' (.claim request leaseOwner leaseTtl now freshId) (.claimed claimedId))
    (hrun : db.runs.byOccurrence key = some (runId, run)) :
    run.status = .running ∧ ∃ expires, run.leaseExpiresAt = some expires ∧ expires ≤ now := by
  cases hmove with
  | first hnone hrun' howner => simp [hnone] at hrun
  | takeOver hfound hrunning hlease hexpired hrun' howner =>
    obtain ⟨-, rfl⟩ := Prod.mk.inj (some.inj (hfound.symm.trans hrun))
    exact ⟨hrunning, _, hlease, hexpired⟩

theorem RunMove.finalized_of_publishes {key : String} {e : RunEvent F}
    (hmove : RunMove key e.before e.after e.call e.reply) (he : e.Publishes) :
    ∃ runId run, e.after.runs.byOccurrence key = some (runId, run) ∧ run.status ≠ .running := by
  obtain ⟨⟨leaseOwner, args, now, hcall⟩, hreply⟩ := he
  rw [hcall, hreply] at hmove
  cases hmove with
  | finalize hrun howned hrun' howner hstatus => exact ⟨_, _, hrun', hstatus⟩

/-- An occurrence is published at most once, by its last claimer. -/
theorem screener_published_once (key : String) (calls : List (RunCall F)) (db : ScreenerDb F) :
    PublishedOnce key (storedOwner key db) ((occurrence key).trace calls db) where
  once := by
    refine Machine.pairwise_trace
      (K := fun a db => a.Publishes →
        ∃ runId run, db.runs.byOccurrence key = some (runId, run) ∧ run.status ≠ .running)
      ?_ ?_ ?_ ?_ calls db
    · exact fun call db => List.pairwise_singleton _ _
    · intro call db a ha hpublishes
      obtain rfl := List.mem_singleton.mp ha
      exact (runCall_move key db call).finalized_of_publishes (e := ⟨call, db, _, _⟩) hpublishes
    · intro call db a hkept hpublishes
      obtain ⟨runId, run, hrun, hstatus⟩ := hkept hpublishes
      refine ⟨runId, run, ?_, hstatus⟩
      rw [← hrun]
      exact congrArg (fun db : ScreenerDb F => db.runs.byOccurrence key)
        ((runCall_move key db call).of_finalized hrun hstatus).1
    · intro call db a hkept b hb hpublishes hagain
      obtain rfl := List.mem_singleton.mp hb
      obtain ⟨runId, run, hrun, hstatus⟩ := hkept hpublishes
      exact ((runCall_move key db call).of_finalized hrun hstatus).2 hagain.2
  byClaimer := by
    intro past e rest htrace he
    obtain ⟨hmove, hstored⟩ := occurrence_event htrace
    obtain ⟨⟨leaseOwner, args, now, hcall⟩, hreply⟩ := he
    rw [← hstored]
    refine (hmove.owner_or_rejected ?_).resolve_right fun hrejected => ?_
    · intro request leaseOwner' leaseTtl now' freshId hclaim
      simp [hclaim] at hcall
    · simp [hrejected.1] at hreply
  fenced := by
    intro past e rest htrace hother hcall
    obtain ⟨hmove, hstored⟩ := occurrence_event htrace
    rw [← hstored] at hother
    exact (hmove.owner_or_rejected hcall).resolve_left hother
  expired := by
    intro e he request leaseOwner leaseTtl now freshId claimedId hcall hreply runId run hrun
    obtain ⟨past, rest, htrace⟩ := List.append_of_mem he
    have hmove := (occurrence_event htrace).1
    rw [hcall, hreply] at hmove
    exact hmove.expired_of_claimed hrun

/-- The former owner is fenced after a takeover; the new one publishes, once. -/
example :
    ((occurrence "w:1").trace
      [.claim ⟨"o", "w", "r", "w:1", 0, "schedule"⟩ "a" 10 0 "run", .refresh "a" 10 5,
        .claim ⟨"o", "w", "r", "w:1", 0, "schedule"⟩ "b" 300 14 "run2",
        .claim ⟨"o", "w", "r", "w:1", 0, "schedule"⟩ "b" 300 60 "run2",
        .finalize "a" { status := .complete, asOf := 0 } 60,
        .finalize "b" { status := .complete, asOf := 0 } 60,
        .finalize "b" { status := .complete, asOf := 0 } 61]
      ({ runs := .empty } : ScreenerDb ℚ)).map RunEvent.reply =
      [.claimed "run", .returned true, .refused, .claimed "run", .returned false, .returned true,
        .returned false] := by
  decide +kernel

end KiteAlgo
