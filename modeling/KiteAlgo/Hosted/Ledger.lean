import KiteAlgo.Hosted

/-!
# KiteAlgo.Hosted.Ledger

One blocking attempt per strategy, and a ledger that only moves on.

Every statement moves one job along (`JobStep`) or inserts a queued one, under the lock of
its strategy and after a look at the jobs that block (`LedgerStep`).  No move makes a job
block that did not, so the look stays true until the insertion, and `Ledger` holds in every
interleaving.  What moves add up to is `Onward`.
-/

namespace KiteAlgo.Hosted

open Keyed World
/-! ## what a statement does to a job -/

/-- The launch markers are written in their order, a queued job has no owner, and no statement
of the repository writes the statuses it only knows of. -/
structure Sound (job : StrategyJob) : Prop where
  written : job.status ≠ .fencing ∧ job.status ≠ .failed ∧ job.status ≠ .hung
  unclaimed : job.status = .queued → job.leaseOwner = none
  token_of_run : job.runId.isSome = true → job.tokenId.isSome = true
  run_of_handoff : job.handoffAt.isSome = true → job.runId.isSome = true

/-- One statement moves a job from `a` to `b`. -/
structure JobStep (a b : StrategyJob) : Prop where
  spec : b.toJobSpec = a.toJobSpec
  /-- The epoch is raised by one when a queued job is claimed, and at no other time. -/
  lease : (b.leaseEpoch = a.leaseEpoch ∧ (b.leaseOwner = a.leaseOwner ∨ b.leaseOwner = none)) ∨
    (a.status = .queued ∧ b.status = .starting ∧ b.leaseEpoch = a.leaseEpoch + 1 ∧
      b.leaseOwner.isSome = true)
  token : b.tokenId = a.tokenId ∨ (a.tokenId = none ∧ a.runId = none ∧ a.handoffAt = none)
  run : b.runId = a.runId ∨ (a.tokenId.isSome = true ∧ a.runId = none ∧ a.handoffAt = none)
  handoff : b.handoffAt = a.handoffAt ∨ (a.runId.isSome = true ∧ a.handoffAt = none)
  queued : b.status = .queued → a.status = .queued
  stopped : a.status = .stopped → b.status = .stopped
  blocking : b.blocking = true → a.blocking = true

structure Onward (a b : StrategyJob) : Prop where
  spec : b.toJobSpec = a.toJobSpec
  epoch_le : a.leaseEpoch ≤ b.leaseEpoch
  /-- An epoch belongs to the claimer it was given to. -/
  claimer : b.leaseEpoch = a.leaseEpoch → b.leaseOwner = a.leaseOwner ∨ b.leaseOwner = none
  claimed : a.status ≠ .queued → b.status ≠ .queued ∧ b.leaseEpoch = a.leaseEpoch
  token : ∀ tokenId, a.tokenId = some tokenId → b.tokenId = some tokenId
  run : ∀ runId, a.runId = some runId → b.runId = some runId
  handoff : ∀ instant, a.handoffAt = some instant → b.handoffAt = some instant
  stopped : a.status = .stopped → b.status = .stopped

section Moves

variable {a b c : StrategyJob}

theorem JobStep.refl (a : StrategyJob) : JobStep a a where
  spec := rfl
  lease := .inl ⟨rfl, .inl rfl⟩
  token := .inl rfl
  run := .inl rfl
  handoff := .inl rfl
  queued h := h
  stopped h := h
  blocking h := h

theorem JobStep.onward (h : JobStep a b) : Onward a b where
  spec := h.spec
  epoch_le := by
    rcases h.lease with ⟨hepoch, -⟩ | ⟨-, -, hepoch, -⟩ <;> omega
  claimer hepoch := by
    rcases h.lease with ⟨-, howner⟩ | ⟨-, -, hraised, -⟩
    · exact howner
    · omega
  claimed ha := by
    refine ⟨fun hb => ha (h.queued hb), ?_⟩
    rcases h.lease with ⟨hepoch, -⟩ | ⟨hqueued, -⟩
    · exact hepoch
    · exact absurd hqueued ha
  token tokenId ha := by
    rcases h.token with hkept | ⟨hnone, -⟩
    · rw [hkept, ha]
    · simp [hnone] at ha
  run runId ha := by
    rcases h.run with hkept | ⟨-, hnone, -⟩
    · rw [hkept, ha]
    · simp [hnone] at ha
  handoff instant ha := by
    rcases h.handoff with hkept | ⟨-, hnone⟩
    · rw [hkept, ha]
    · simp [hnone] at ha
  stopped := h.stopped

theorem Onward.refl (a : StrategyJob) : Onward a a := (JobStep.refl a).onward

theorem Onward.trans (h : Onward a b) (h' : Onward b c) : Onward a c where
  spec := h'.spec.trans h.spec
  epoch_le := Int.le_trans h.epoch_le h'.epoch_le
  claimer hepoch := by
    have hab := h.epoch_le
    have hbc := h'.epoch_le
    rcases h'.claimer (by omega) with hsame | hnone
    · rw [hsame]
      exact h.claimer (by omega)
    · exact .inr hnone
  claimed ha := by
    obtain ⟨hb, hepoch⟩ := h.claimed ha
    obtain ⟨hc, hepoch'⟩ := h'.claimed hb
    exact ⟨hc, hepoch'.trans hepoch⟩
  token tokenId ha := h'.token tokenId (h.token tokenId ha)
  run runId ha := h'.run runId (h.run runId ha)
  handoff instant ha := h'.handoff instant (h.handoff instant ha)
  stopped ha := h'.stopped (h.stopped ha)

theorem JobStep.quiet (hspec : b.toJobSpec = a.toJobSpec) (hstatus : b.status = a.status)
    (hlease : b.leaseEpoch = a.leaseEpoch ∧ b.leaseOwner = a.leaseOwner)
    (hmarkers : b.tokenId = a.tokenId ∧ b.runId = a.runId ∧ b.handoffAt = a.handoffAt)
    (hreconciled : b.reconciledAt = a.reconciledAt) : JobStep a b where
  spec := hspec
  lease := .inl ⟨hlease.1, .inl hlease.2⟩
  token := .inl hmarkers.1
  run := .inl hmarkers.2.1
  handoff := .inl hmarkers.2.2
  queued h := hstatus ▸ h
  stopped h := hstatus.trans h
  blocking h := by
    rw [StrategyJob.blocking, hstatus, hreconciled] at h
    exact h

theorem JobStep.ended (hspec : b.toJobSpec = a.toJobSpec)
    (hlease : b.leaseEpoch = a.leaseEpoch ∧ (b.leaseOwner = a.leaseOwner ∨ b.leaseOwner = none))
    (hmarkers : b.tokenId = a.tokenId ∧ b.runId = a.runId ∧ b.handoffAt = a.handoffAt)
    (hstatus : b.status = .stopped ∨
      (b.status = .recoveryRequired ∧ a.status ≠ .stopped ∧ a.blocking = true)) : JobStep a b where
  spec := hspec
  lease := .inl hlease
  token := .inl hmarkers.1
  run := .inl hmarkers.2.1
  handoff := .inl hmarkers.2.2
  queued h := by
    rcases hstatus with hb | ⟨hb, -⟩ <;> simp [hb] at h
  stopped h := by
    rcases hstatus with hb | ⟨-, ha, -⟩
    · exact hb
    · exact absurd h ha
  blocking h := by
    rcases hstatus with hb | ⟨-, -, ha⟩
    · simp [StrategyJob.blocking, hb] at h
    · exact ha

theorem Sound.of_markers (h : Sound a)
    (hstatus : b.status ≠ .fencing ∧ b.status ≠ .failed ∧ b.status ≠ .hung)
    (hunclaimed : b.status = .queued → b.leaseOwner = none)
    (hmarkers : b.tokenId = a.tokenId ∧ b.runId = a.runId ∧ b.handoffAt = a.handoffAt) :
    Sound b where
  written := hstatus
  unclaimed := hunclaimed
  token_of_run hrun := by
    rw [hmarkers.2.1] at hrun
    rw [hmarkers.1]
    exact h.token_of_run hrun
  run_of_handoff hhandoff := by
    rw [hmarkers.2.2] at hhandoff
    rw [hmarkers.2.1]
    exact h.run_of_handoff hhandoff

/-- What a statement may be among these programs: it moves the sound jobs it matches. -/
def Moves (matching : StrategyJob → Bool) (values : StrategyJob → StrategyJob) : Prop :=
  ∀ a, Sound a → matching a = true → JobStep a (values a) ∧ Sound (values a)

theorem Moves.quiet {matching : StrategyJob → Bool} {values : StrategyJob → StrategyJob}
    (hspec : ∀ a, (values a).toJobSpec = a.toJobSpec) (hstatus : ∀ a, (values a).status = a.status)
    (hlease : ∀ a, (values a).leaseEpoch = a.leaseEpoch ∧ (values a).leaseOwner = a.leaseOwner)
    (hmarkers : ∀ a, (values a).tokenId = a.tokenId ∧ (values a).runId = a.runId ∧
      (values a).handoffAt = a.handoffAt)
    (hreconciled : ∀ a, (values a).reconciledAt = a.reconciledAt) : Moves matching values :=
  fun a hsound _ => ⟨.quiet (hspec a) (hstatus a) (hlease a) (hmarkers a) (hreconciled a),
    hsound.of_markers (hstatus a ▸ hsound.written)
      (fun hqueued => (hlease a).2.trans (hsound.unclaimed ((hstatus a).symm.trans hqueued)))
      (hmarkers a)⟩

theorem Moves.stopped {matching : StrategyJob → Bool} {values : StrategyJob → StrategyJob}
    (hspec : ∀ a, (values a).toJobSpec = a.toJobSpec) (hstatus : ∀ a, (values a).status = .stopped)
    (hlease : ∀ a, (values a).leaseEpoch = a.leaseEpoch ∧ (values a).leaseOwner = a.leaseOwner)
    (hmarkers : ∀ a, (values a).tokenId = a.tokenId ∧ (values a).runId = a.runId ∧
      (values a).handoffAt = a.handoffAt) : Moves matching values :=
  fun a hsound _ => ⟨.ended (hspec a) ⟨(hlease a).1, .inl (hlease a).2⟩ (hmarkers a)
    (.inl (hstatus a)), hsound.of_markers (by simp [hstatus a]) (by simp [hstatus a]) (hmarkers a)⟩

theorem Moves.fenced {matching : StrategyJob → Bool} {values : StrategyJob → StrategyJob}
    (hspec : ∀ a, (values a).toJobSpec = a.toJobSpec)
    (hstatus : ∀ a, (values a).status = .recoveryRequired)
    (hlease : ∀ a, (values a).leaseEpoch = a.leaseEpoch ∧
      ((values a).leaseOwner = a.leaseOwner ∨ (values a).leaseOwner = none))
    (hmarkers : ∀ a, (values a).tokenId = a.tokenId ∧ (values a).runId = a.runId ∧
      (values a).handoffAt = a.handoffAt)
    (hmatching : ∀ a, matching a = true → a.status ≠ .stopped ∧ a.status ≠ .failed ∧
      a.status ≠ .recoveryRequired) : Moves matching values := by
  intro a hsound ha
  obtain ⟨hstopped, hfailed, hrecovery⟩ := hmatching a ha
  obtain ⟨hfencing, -, hhung⟩ := hsound.written
  have hblocking : a.blocking = true := by
    unfold StrategyJob.blocking
    cases hstatus' : a.status <;> simp_all
  exact ⟨.ended (hspec a) (hlease a) (hmarkers a) (.inr ⟨hstatus a, hstopped, hblocking⟩),
    hsound.of_markers (by simp [hstatus a]) (by simp [hstatus a]) (hmarkers a)⟩

theorem not_ended_of_live (h : a.status.live = true) :
    a.status ≠ .stopped ∧ a.status ≠ .failed ∧ a.status ≠ .recoveryRequired ∧ a.status ≠ .queued := by
  revert h
  cases a.status <;> simp [JobStatus.live]

theorem blocking_of_live (h : a.status.live = true) : a.blocking = true := by
  unfold StrategyJob.blocking
  revert h
  cases a.status <;> simp [JobStatus.live]

end Moves

/-! ## the statements -/

section Statements

variable (lease : Lease)

theorem authorityClause_live {a : StrategyJob} (h : lease.authorityClause a = true) :
    a.status.live = true := by
  rw [Lease.authorityClause, Bool.and_eq_true] at h
  exact h.1

theorem moves_reserveChildToken (tokenId : String) :
    Moves (fun job => lease.authorityClause job && job.tokenId.isNone && job.handoffAt.isNone)
      fun job => { job with tokenId := some tokenId } := by
  intro a hsound ha
  simp only [Bool.and_eq_true, Option.isNone_iff_eq_none] at ha
  obtain ⟨⟨-, htoken⟩, hhandoff⟩ := ha
  have hrun : a.runId = none := by
    by_contra hne
    have htoken' := hsound.token_of_run (Option.isSome_iff_ne_none.mpr hne)
    simp [htoken] at htoken'
  exact ⟨{ JobStep.refl a with token := .inr ⟨htoken, hrun, hhandoff⟩ },
    { hsound with token_of_run := fun _ => rfl }⟩

theorem moves_recordChildRun (tokenId runId : String) :
    Moves (fun job => lease.authorityClause job && decide (job.tokenId = some tokenId) &&
      job.runId.isNone && job.handoffAt.isNone) fun job => { job with runId := some runId } := by
  intro a hsound ha
  simp only [Bool.and_eq_true, Option.isNone_iff_eq_none, decide_eq_true_eq] at ha
  obtain ⟨⟨⟨-, htoken⟩, hrun⟩, hhandoff⟩ := ha
  have hsome : a.tokenId.isSome = true := by rw [htoken, Option.isSome_some]
  exact ⟨{ JobStep.refl a with run := .inr ⟨hsome, hrun, hhandoff⟩ },
    { hsound with token_of_run := fun _ => hsome, run_of_handoff := fun _ => rfl }⟩

theorem moves_markRunningAndHandoff (runId : String) (now : Int) :
    Moves (fun job => lease.authorityClause job && decide (job.runId = some runId) &&
      job.handoffAt.isNone) fun job => { job with status := .running, handoffAt := some now } := by
  intro a hsound ha
  simp only [Bool.and_eq_true, Option.isNone_iff_eq_none, decide_eq_true_eq] at ha
  obtain ⟨⟨hauthority, hrun⟩, hhandoff⟩ := ha
  have hlive := authorityClause_live lease hauthority
  have hsome : a.runId.isSome = true := by rw [hrun, Option.isSome_some]
  refine ⟨{ JobStep.refl a with
    lease := .inl ⟨rfl, .inl rfl⟩
    handoff := .inr ⟨hsome, hhandoff⟩
    queued := by simp
    stopped := fun hstopped => absurd hstopped (not_ended_of_live hlive).1
    blocking := fun _ => blocking_of_live hlive }, ?_⟩
  exact { hsound with
    written := by simp
    unclaimed := by simp
    run_of_handoff := fun _ => hsome }

theorem moves_claim (leaseUntil now : Int) :
    Moves (fun job => decide (job.status = .queued ∧ job.desiredState = .started ∧
        job.leaseEpoch = lease.epoch ∧ job.attempt = lease.attempt) && job.leaseFree now)
      fun job =>
        { job with
          leaseOwner := some lease.owner
          leaseEpoch := job.leaseEpoch + 1
          leaseUntil := some leaseUntil
          status := .starting } := by
  intro a hsound ha
  simp only [Bool.and_eq_true, decide_eq_true_eq] at ha
  obtain ⟨⟨hqueued, -⟩, -⟩ := ha
  refine ⟨{ JobStep.refl a with
    lease := .inr ⟨hqueued, rfl, rfl, rfl⟩
    queued := by simp
    stopped := by simp [hqueued]
    blocking := fun _ => by simp [StrategyJob.blocking, hqueued] }, ?_⟩
  exact { hsound with written := by simp, unclaimed := by simp }

theorem moves_renewLease (leaseUntil : Int) :
    Moves (fun job => lease.authorityClause job && job.handoffAt.isSome)
      fun job => { job with leaseUntil := some leaseUntil } :=
  .quiet (fun _ => rfl) (fun _ => rfl) (fun _ => ⟨rfl, rfl⟩) (fun _ => ⟨rfl, rfl, rfl⟩) fun _ => rfl

theorem moves_recordFailure (reason : String) :
    Moves lease.authorityClause fun job => { job with lastError := some reason } :=
  .quiet (fun _ => rfl) (fun _ => rfl) (fun _ => ⟨rfl, rfl⟩) (fun _ => ⟨rfl, rfl, rfl⟩) fun _ => rfl

theorem moves_reportCleanup (matching : StrategyJob → Bool) (state actor : String) (now : Int) :
    Moves matching fun job =>
      { job with
        processCleanupState := some state
        processCleanupAt := some now
        processCleanupActor := some actor } :=
  .quiet (fun _ => rfl) (fun _ => rfl) (fun _ => ⟨rfl, rfl⟩) (fun _ => ⟨rfl, rfl, rfl⟩) fun _ => rfl

theorem moves_requestStop (matching : StrategyJob → Bool) (actor : String) (now : Int) :
    Moves matching fun job =>
      { job with
        desiredState := .stopped
        stopRequestedAt := some now
        stopRequestedBy := some actor } :=
  .quiet (fun _ => rfl) (fun _ => rfl) (fun _ => ⟨rfl, rfl⟩) (fun _ => ⟨rfl, rfl, rfl⟩) fun _ => rfl

theorem moves_logged (matching : StrategyJob → Bool) (source : String) (discarded : Bool) :
    Moves matching fun job =>
      { job with
        logsSource := some (job.logsSource.getD source)
        logsDiscarded := job.logsDiscarded || discarded } :=
  .quiet (fun _ => rfl) (fun _ => rfl) (fun _ => ⟨rfl, rfl⟩) (fun _ => ⟨rfl, rfl, rfl⟩) fun _ => rfl

theorem moves_markStopped :
    Moves lease.authorityClause fun job =>
      { job with status := .stopped, desiredState := .stopped, leaseUntil := none } :=
  .stopped (fun _ => rfl) (fun _ => rfl) (fun _ => ⟨rfl, rfl⟩) fun _ => ⟨rfl, rfl, rfl⟩

theorem moves_stopQueued (matching : StrategyJob → Bool) (actor : String) (now : Int) :
    Moves matching fun job =>
      { job with
        status := .stopped
        desiredState := .stopped
        stopRequestedAt := some now
        stopRequestedBy := some actor } :=
  .stopped (fun _ => rfl) (fun _ => rfl) (fun _ => ⟨rfl, rfl⟩) fun _ => ⟨rfl, rfl, rfl⟩

theorem moves_reconciled (matching : StrategyJob → Bool) (now : Int) :
    Moves matching fun job => job.reconciled now :=
  .stopped (fun _ => rfl) (fun _ => rfl) (fun _ => ⟨rfl, rfl⟩) fun _ => ⟨rfl, rfl, rfl⟩

theorem moves_markRecoveryRequired (now : Int) :
    Moves (fun job => lease.names job && decide (job.status ≠ .stopped ∧ job.status ≠ .failed ∧
      job.status ≠ .recoveryRequired)) fun job => job.fenced now := by
  refine .fenced (fun _ => rfl) (fun _ => rfl) (fun _ => ⟨rfl, .inl rfl⟩)
    (fun _ => ⟨rfl, rfl, rfl⟩) fun a ha => ?_
  rw [Bool.and_eq_true, decide_eq_true_eq] at ha
  exact ha.2

theorem moves_expireToRecovery (attempt now : Int) :
    Moves (fun job => decide (job.attempt = attempt) && job.status.live && job.leaseFree now)
      fun job => { job.fenced now with leaseOwner := none } := by
  refine .fenced (fun _ => rfl) (fun _ => rfl) (fun _ => ⟨rfl, .inr rfl⟩)
    (fun _ => ⟨rfl, rfl, rfl⟩) fun a ha => ?_
  simp only [Bool.and_eq_true] at ha
  have hlive := not_ended_of_live ha.1.2
  exact ⟨hlive.1, hlive.2.1, hlive.2.2.1⟩

theorem moves_expireToRecoveryAuthorized (now : Int) :
    Moves (fun job => lease.authorityClause job && job.leaseFree now) fun job => job.fenced now := by
  refine .fenced (fun _ => rfl) (fun _ => rfl) (fun _ => ⟨rfl, .inl rfl⟩)
    (fun _ => ⟨rfl, rfl, rfl⟩) fun a ha => ?_
  rw [Bool.and_eq_true] at ha
  have hlive := not_ended_of_live (authorityClause_live lease ha.1)
  exact ⟨hlive.1, hlive.2.1, hlive.2.2.1⟩

end Statements

/-! ## the ledger -/

/-- At most one job blocks a strategy, and an occurrence key names at most one job. -/
structure Ledger (t : Tables) : Prop where
  sound : ∀ id a, t.jobs.get? id = some a → Sound a
  one : ∀ a ∈ t.jobs.rows, ∀ b ∈ t.jobs.rows, a.ownerId = b.ownerId →
    a.strategyId = b.strategyId → a.blocking = true → b.blocking = true → a.id = b.id
  keys : ∀ a ∈ t.jobs.rows, ∀ b ∈ t.jobs.rows, a.occurrenceKey.isSome = true →
    a.occurrenceKey = b.occurrenceKey → a.id = b.id

/-- What `create_job` inserts. -/
structure Fresh (job : StrategyJob) : Prop where
  queued : job.status = .queued
  unclaimed : job.leaseOwner = none ∧ job.leaseEpoch = 0
  unmarked : job.tokenId = none ∧ job.runId = none ∧ job.handoffAt = none

/-- What a step of thread `i` does to the jobs. -/
inductive LedgerStep (i : Nat) (w w' : World String Tables) : Prop where
  | same (hjobs : w'.store.jobs = w.store.jobs)
  | moved (a b : StrategyJob) (hget : w.store.jobs.get? a.id = some a) (hstep : JobStep a b)
      (hsound : Sound b) (hjobs : w'.store.jobs = w.store.jobs.upsert b)
  | inserted (b : StrategyJob) (hnone : w.store.jobs.get? b.id = none) (hfresh : Fresh b)
      (hlock : w.holder b.strategyId = some i)
      (hclear : ∀ a ∈ w.store.jobs.rows, a.blocks b.ownerId b.strategyId = false)
      (hkey : ∀ a ∈ w.store.jobs.rows, a.occurrenceKey.isSome = true → a.occurrenceKey ≠ b.occurrenceKey)
      (hjobs : w'.store.jobs = w.store.jobs.upsert b)

/-- A step of thread `i`. -/
def guar (i : Nat) (w w' : World String Tables) : Prop :=
  World.OwnLocks i w w' ∧ LedgerStep i w w'

def ledger : Protocol String Unit Tables where
  guar := guar

section Steps

variable {i j : Nat} {w w' : World String Tables} {t : Tables} {a b : StrategyJob}

theorem Fresh.sound (h : Fresh a) : Sound a where
  written := by simp [h.queued]
  unclaimed _ := h.unclaimed.1
  token_of_run := by simp [h.unmarked.2.1]
  run_of_handoff := by simp [h.unmarked.2.2]

theorem JobStep.id_eq (h : JobStep a b) : b.id = a.id := by rw [h.spec]

variable {id : String} {jobs : Keyed fun job : StrategyJob => job.id}

theorem Ledger.moved (h : Ledger t) (hget : t.jobs.get? a.id = some a) (hstep : JobStep a b)
    (hsound : Sound b) (hjobs : jobs = t.jobs.upsert b) : Ledger { t with jobs := jobs } := by
  subst hjobs
  have ha := mem_rows_of_get? hget
  -- Every row stands for one that was there, with its specification and blocking no more.
  have hrow : ∀ c ∈ (t.jobs.upsert b).rows, ∃ d ∈ t.jobs.rows, c.toJobSpec = d.toJobSpec ∧
      (c.blocking = true → d.blocking = true) := by
    intro c hc
    rcases mem_rows_upsert hc with rfl | ⟨hold, -⟩
    · exact ⟨a, ha, hstep.spec, hstep.blocking⟩
    · exact ⟨c, hold, rfl, fun hblocking => hblocking⟩
  refine ⟨fun id c hc => ?_, fun c hc d hd howner hstrategy hcb hdb => ?_, fun c hc d hd hsome hkey => ?_⟩
  · rw [get?_upsert] at hc
    split at hc
    · rw [← Option.some.inj hc]
      exact hsound
    · exact h.sound id c hc
  · obtain ⟨c', hc', hcspec, hcblocking⟩ := hrow c hc
    obtain ⟨d', hd', hdspec, hdblocking⟩ := hrow d hd
    rw [hcspec, hdspec] at howner hstrategy ⊢
    exact h.one c' hc' d' hd' howner hstrategy (hcblocking hcb) (hdblocking hdb)
  · obtain ⟨c', hc', hcspec, -⟩ := hrow c hc
    obtain ⟨d', hd', hdspec, -⟩ := hrow d hd
    rw [hcspec] at hsome
    rw [hcspec, hdspec] at hkey ⊢
    exact h.keys c' hc' d' hd' hsome hkey

theorem Ledger.inserted (h : Ledger t) (hfresh : Fresh b)
    (hclear : ∀ a ∈ t.jobs.rows, a.blocks b.ownerId b.strategyId = false)
    (hkey : ∀ a ∈ t.jobs.rows, a.occurrenceKey.isSome = true →
      a.occurrenceKey ≠ b.occurrenceKey) (hjobs : jobs = t.jobs.upsert b) :
    Ledger { t with jobs := jobs } := by
  subst hjobs
  have hfree : ∀ a ∈ t.jobs.rows, a.ownerId = b.ownerId → a.strategyId = b.strategyId →
      a.blocking = true → False := by
    intro a ha howner hstrategy hblocking
    have hblocks := hclear a ha
    simp [StrategyJob.blocks, howner, hstrategy, hblocking] at hblocks
  refine ⟨fun id c hc => ?_, fun c hc d hd howner hstrategy hcb hdb => ?_, fun c hc d hd hsome heq => ?_⟩
  · rw [get?_upsert] at hc
    split at hc
    · rw [← Option.some.inj hc]
      exact hfresh.sound
    · exact h.sound id c hc
  · rcases mem_rows_upsert hc with rfl | ⟨hc', -⟩ <;>
      rcases mem_rows_upsert hd with rfl | ⟨hd', -⟩
    · rfl
    · exact (hfree d hd' howner.symm hstrategy.symm hdb).elim
    · exact (hfree c hc' howner hstrategy hcb).elim
    · exact h.one c hc' d hd' howner hstrategy hcb hdb
  · rcases mem_rows_upsert hc with rfl | ⟨hc', -⟩ <;>
      rcases mem_rows_upsert hd with rfl | ⟨hd', -⟩
    · rfl
    · exact absurd heq.symm (hkey d hd' (heq ▸ hsome))
    · exact absurd heq (hkey c hc' hsome)
    · exact h.keys c hc' d hd' hsome heq

theorem Ledger.of_jobs {t' : Tables} (h : Ledger t) (hjobs : t'.jobs = t.jobs) : Ledger t' := by
  refine ⟨?_, ?_, ?_⟩ <;> rw [hjobs]
  · exact h.sound
  · exact h.one
  · exact h.keys

theorem guar.ledger (h : guar i w w') (hledger : Ledger w.store) : Ledger w'.store := by
  rcases h.2 with hjobs | ⟨a, b, hget, hstep, hsound, hjobs⟩ |
    ⟨b, -, hfresh, -, hclear, hkey, hjobs⟩
  · exact hledger.of_jobs hjobs
  · exact (hledger.moved hget hstep hsound hjobs).of_jobs rfl
  · exact (hledger.inserted hfresh hclear hkey hjobs).of_jobs rfl

theorem guar.jobStep (h : guar i w w') (hget : w.store.jobs.get? id = some a) :
    ∃ b, w'.store.jobs.get? id = some b ∧ JobStep a b := by
  rcases h.2 with hjobs | ⟨c, b, hc, hstep, -, hjobs⟩ | ⟨b, hnone, -, -, -, -, hjobs⟩
  · exact ⟨a, hjobs ▸ hget, .refl a⟩
  · rw [hjobs, get?_upsert]
    split
    · next hid =>
      have hca : c = a := by
        rw [← hstep.id_eq, hid, hget] at hc
        exact (Option.some.inj hc).symm
      exact ⟨b, rfl, hca ▸ hstep⟩
    · exact ⟨a, hget, .refl a⟩
  · rw [hjobs, get?_upsert]
    split
    · next hid =>
      rw [hid, hget] at hnone
      exact absurd hnone (by simp)
    · exact ⟨a, hget, .refl a⟩

theorem guar.fresh (h : guar i w w') (hnone : w.store.jobs.get? id = none)
    (hget : w'.store.jobs.get? id = some b) : Fresh b := by
  rcases h.2 with hjobs | ⟨c, d, hc, hstep, -, hjobs⟩ | ⟨d, -, hfresh, -, -, -, hjobs⟩
  · rw [hjobs, hnone] at hget
    exact absurd hget (by simp)
  · rw [hjobs, get?_upsert] at hget
    split at hget
    · next hid =>
      rw [← hstep.id_eq, hid, hnone] at hc
      exact absurd hc (by simp)
    · rw [hnone] at hget
      exact absurd hget (by simp)
  · rw [hjobs, get?_upsert] at hget
    split at hget
    · rw [← Option.some.inj hget]
      exact hfresh
    · rw [hnone] at hget
      exact absurd hget (by simp)

theorem onward_of_steps (h : Relation.ReflTransGen (fun w w' => ∃ i, guar i w w') w w')
    (hget : w.store.jobs.get? id = some a) : ∃ b, w'.store.jobs.get? id = some b ∧ Onward a b := by
  induction h with
  | refl => exact ⟨a, hget, .refl a⟩
  | tail _ hstep ih =>
    obtain ⟨b, hb, hab⟩ := ih
    obtain ⟨i, hguar⟩ := hstep
    obtain ⟨c, hc, hbc⟩ := hguar.jobStep hb
    exact ⟨c, hc, hab.trans hbc.onward⟩

end Steps

/-! ## rules -/

/-- Thread `i` holds this lock and no other, and the ledger is in order. -/
def Has (i : Nat) (lock : Option String) (w : World String Tables) : Prop :=
  (match lock with
    | none => w.Idle i
    | some key => w.Holds i key) ∧ Ledger w.store

/-- Thread `i` holds the lock of the strategy, for which nothing blocks. -/
def Clear (i : Nat) (ownerId strategyId : String) (w : World String Tables) : Prop :=
  Has i (some strategyId) w ∧ ∀ a ∈ w.store.jobs.rows, a.blocks ownerId strategyId = false

/-- The program keeps the lock it starts with, in every interleaving. -/
def Keeps (lock : Option String) {α : Type} (p : Task α) : Prop :=
  ∀ i, Triple ledger i (Has i lock) p fun _ => Has i lock

section Rules

variable {i : Nat} {lock : Option String} {α β : Type}

theorem stable_has : ledger.Stable i (Has i lock) := by
  intro j w w' hij hguar hhas
  refine ⟨?_, hguar.ledger hhas.2⟩
  cases lock with
  | none => exact hguar.1.idle hij.symm hhas.1
  | some key => exact hguar.1.holds hij.symm hhas.1

theorem stable_clear {ownerId strategyId : String} :
    ledger.Stable i (Clear i ownerId strategyId) := by
  intro j w w' hij hguar hclear
  refine ⟨stable_has j w w' hij hguar hclear.1, fun c hc => ?_⟩
  rcases hguar.2 with hjobs | ⟨a, b, hget, hstep, -, hjobs⟩ | ⟨b, -, -, hlock, -, -, hjobs⟩
  · exact hclear.2 c (hjobs ▸ hc)
  · rw [hjobs] at hc
    rcases mem_rows_upsert hc with rfl | ⟨hold, -⟩
    · have ha := hclear.2 a (mem_rows_of_get? hget)
      by_contra hblocks
      simp only [StrategyJob.blocks, Bool.not_eq_false, Bool.and_eq_true, decide_eq_true_eq]
        at hblocks
      rw [hstep.spec] at hblocks
      simp [StrategyJob.blocks, hblocks.1, hstep.blocking hblocks.2] at ha
    · exact hclear.2 c hold
  · rw [hjobs] at hc
    rcases mem_rows_upsert hc with rfl | ⟨hold, -⟩
    · have hother : c.strategyId ≠ strategyId := by
        intro heq
        rw [heq, hclear.1.1.1, Option.some.injEq] at hlock
        exact hij hlock.symm
      simp [StrategyJob.blocks, hother]
    · exact hclear.2 c hold

theorem Keeps.ret (a : α) : Keeps lock (.ret a : Task α) := fun _ => .ret stable_has

variable {p : Task α}

theorem Keeps.bind {k : α → Task β} (hp : Keeps lock p) (hk : ∀ a, Keeps lock (k a)) :
    Keeps lock (p.bind k) :=
  fun i => .bind (hp i) fun a => hk a i

theorem Keeps.map (f : α → β) (hp : Keeps lock p) : Keeps lock (f <$> p) :=
  hp.bind fun a => .ret (f a)

theorem Keeps.call {f : Tables → α × Tables}
    (h : ∀ i (w : World String Tables), Ledger w.store → LedgerStep i w (w.act fun t => (f t).2)) :
    Keeps lock (.call () f : Task α) := by
  intro i
  refine .call stable_has (fun _ => stable_has) fun w hhas _ => ?_
  have hguar : guar i w (w.act fun t => (f t).2) := ⟨.of_eq rfl, h i w hhas.2⟩
  refine ⟨hguar, ?_, hguar.ledger hhas.2⟩
  cases lock with
  | none => exact hhas.1
  | some key => exact hhas.1.of_eq rfl

theorem Keeps.read (f : Tables → α) : Keeps lock (.read () f : Task α) :=
  .call fun _ _ _ => .same rfl

theorem Keeps.withLock {key : String} (hp : Keeps (some key) p) : Keeps none (.withLock key p) := by
  intro i
  refine .withLock stable_has (fun _ => stable_has) (fun _ => stable_has) (fun w hhas hfree => ?_)
    (hp i) fun a w hhas => ?_
  · exact ⟨⟨ownLocks_take hfree, .same rfl⟩, hhas.1.holds_take key, hhas.2⟩
  · exact ⟨⟨hhas.1.ownLocks_drop, .same rfl⟩, hhas.1.idle_drop, hhas.2⟩

variable {jobId : String} {matching : StrategyJob → Bool} {values : StrategyJob → StrategyJob}

theorem Moves.step (hmoves : Moves matching values) {w : World String Tables}
    (hledger : Ledger w.store) {a : StrategyJob} (hget : w.store.jobs.get? jobId = some a)
    (hmatching : matching a = true) {w' : World String Tables}
    (hjobs : w'.store.jobs = w.store.jobs.upsert (values a)) : LedgerStep i w w' := by
  obtain ⟨hstep, hsound⟩ := hmoves a (hledger.sound jobId a hget) hmatching
  obtain rfl := key_of_get? hget
  exact .moved a (values a) hget hstep hsound hjobs

theorem Moves.keeps (hmoves : Moves matching values) :
    Keeps lock (.call () (updateJob jobId matching values) : Task Bool) := by
  refine .call fun i w hledger => ?_
  have hcases : updateJob jobId matching values w.store = (false, w.store) ∨ _ :=
    updateJob_cases w.store
  rcases hcases with hnone | ⟨a, hget, hmatching, hsome⟩
  · exact .same (by rw [act_store, hnone])
  · exact hmoves.step hledger hget hmatching (by rw [act_store, hsome])

theorem keeps_lockedUpdate (hmoves : Moves matching values) :
    Keeps none (lockedUpdate jobId (updateJob jobId matching values)) := by
  refine .bind (.read _) fun strategyId => ?_
  cases strategyId with
  | none => exact .ret false
  | some strategyId => exact .withLock hmoves.keeps

end Rules

/-! ## the calls -/

section Calls

variable (svc : Service)

theorem keeps_claimLocked (jobId : String) (lease : Lease) (leaseUntil now : Int)
    (strategyId : String) : Keeps none (claimLocked jobId lease leaseUntil now strategyId) := by
  refine .withLock (.bind (.read _) fun strategy => ?_)
  cases strategy with
  | none => exact .ret _
  | some strategy =>
    dsimp only
    split
    · exact .ret _
    · exact .bind (moves_claim lease leaseUntil now).keeps fun _ => .ret _

theorem keeps_claimJob (jobId : String) (lease : Lease) (leaseUntil checkedAt now : Int) :
    Keeps none (claimJob jobId lease leaseUntil checkedAt now) := by
  unfold claimJob
  dsimp only
  split
  · exact .ret _
  · refine .bind (.read _) fun strategyId => ?_
    cases strategyId with
    | none => exact .ret _
    | some strategyId =>
      refine .bind (keeps_claimLocked _ _ _ _ _) fun won => ?_
      match won with
      | .error _ => exact .ret _
      | .ok false => exact .ret _
      | .ok true => exact .bind (.read _) fun _ => .ret _

theorem keeps_reportProcessCleanup (jobId state actor : String) (attempt now : Int) :
    Keeps none (reportProcessCleanup jobId state actor attempt now) := by
  unfold reportProcessCleanup
  split
  · exact .ret _
  · refine .bind (.read _) fun strategyId => ?_
    cases strategyId with
    | none => exact .bind (moves_reportCleanup _ _ _ _).keeps fun _ => .ret _
    | some strategyId =>
      exact .bind (.withLock (moves_reportCleanup _ _ _ _).keeps) fun _ => .ret _

theorem keeps_reconcileRecovery (jobId ownerId : String) (epoch attempt now : Int) :
    Keeps none (reconcileRecovery jobId ownerId epoch attempt now) := by
  refine .bind (.read _) fun job => ?_
  cases job with
  | none => exact .ret _
  | some job =>
    dsimp only
    split
    · exact .ret _
    · exact .withLock (moves_reconciled _ now).keeps

theorem keeps_reconcileWithAuditRow {lock : Option String} (audit : Audit)
    (strategyId newId : String) (now : Int) :
    Keeps lock (.call () (reconcileWithAuditRow audit strategyId newId now)) := by
  refine .call fun i w hledger => ?_
  unfold reconcileWithAuditRow
  have hcases : updateJob audit.jobId audit.evidenced (fun job => job.reconciled now) w.store =
      (false, w.store) ∨ _ := updateJob_cases w.store
  rcases hcases with hnone | ⟨a, hget, hmatching, hsome⟩
  · exact .same (by rw [act_store, hnone]; rfl)
  · rw [act]
    simp only [hsome]
    split
    · exact .same rfl
    · split
      · exact .same rfl
      · exact (moves_reconciled _ now).step hledger hget hmatching rfl

theorem keeps_reconcileWithAudit (audit : Audit) (newId : String) (now : Int) :
    Keeps none (reconcileWithAudit audit newId now) := by
  refine .bind (.read _) fun job => ?_
  cases job with
  | none => exact .ret _
  | some job =>
    dsimp only
    split
    · exact .ret _
    · exact .withLock (keeps_reconcileWithAuditRow _ _ _ _)

theorem keeps_renewLeaseChecked (jobId : String) (lease : Lease) (leaseUntil checkedAt : Int) :
    Keeps none (renewLeaseChecked jobId lease leaseUntil checkedAt) := by
  unfold renewLeaseChecked
  split
  · exact .ret _
  · exact .bind (moves_renewLease lease leaseUntil).keeps fun _ => .ret _

theorem keeps_replayJob {lock : Option String} (request : LaunchRequest) :
    Keeps lock (replayJob svc request) := by
  unfold replayJob
  split
  · exact .ret _
  · refine .bind (.read _) fun existing => ?_
    cases existing with
    | none => exact .ret _
    | some existing =>
      dsimp only
      split
      · exact .ret _
      · refine .bind (.read _) fun version => ?_
        cases version with
        | none => exact .ret _
        | some version =>
          dsimp only
          split
          · exact .ret _
          · split <;> exact .ret _

theorem insertJob_clear {i : Nat} {job : StrategyJob} (hfresh : Fresh job) :
    Triple ledger i (Clear i job.ownerId job.strategyId) (.call () (insertJob job))
      fun _ => Has i (some job.strategyId) := by
  refine .call stable_clear (fun _ => stable_has) fun w hclear _ => ?_
  have hstep : LedgerStep i w (w.act fun t => (insertJob job t).2) := by
    rw [act]
    unfold insertJob
    split
    · exact .same rfl
    · next hnew =>
      simp only [Bool.or_eq_true, not_or, Bool.not_eq_true, Option.isSome_eq_false_iff,
        Option.isNone_iff_eq_none, List.any_eq_false, Bool.and_eq_true, beq_iff_eq, not_and] at hnew
      exact .inserted job hnew.1 hfresh hclear.1.1.1 hclear.2 hnew.2 rfl
  have hguar : guar i w (w.act fun t => (insertJob job t).2) := ⟨.of_eq rfl, hstep⟩
  exact ⟨hguar, hclear.1.1.of_eq rfl, hguar.ledger hclear.1.2⟩

theorem read_blocked {i : Nat} (ownerId strategyId : String) :
    Triple ledger i (Has i (some strategyId)) (.read () fun t => t.blocked ownerId strategyId)
      fun blocked w => Has i (some strategyId) w ∧ (blocked = false → Clear i ownerId strategyId w) := by
  refine .call stable_has (fun blocked => ?_) fun w hhas _ => ?_
  · exact fun j w w' hij hguar hw => ⟨stable_has j w w' hij hguar hw.1,
      fun hblocked => stable_clear j w w' hij hguar (hw.2 hblocked)⟩
  · refine ⟨⟨.of_eq rfl, .same rfl⟩, hhas, fun hblocked => ⟨hhas, fun a ha => ?_⟩⟩
    have hall : ∀ a ∈ w.store.jobs.rows, ¬ a.blocks ownerId strategyId = true :=
      List.any_eq_false.mp hblocked
    simpa using hall a ha

theorem keeps_insertChecked (request : LaunchRequest) (strategy : HostedStrategy) (newId : String) :
    Keeps (some request.strategyId) (insertChecked svc request strategy newId) := by
  unfold insertChecked
  split
  · exact .ret _
  · split
    · exact .ret _
    · refine .bind (.read _) fun version => ?_
      cases version with
      | none => exact .ret _
      | some version =>
        intro i
        refine .bind (read_blocked request.ownerId request.strategyId) fun blocked => ?_
        cases blocked with
        | true => exact .pre (fun _ hw => hw.1) (Keeps.ret _ i)
        | false =>
          rw [if_neg Bool.false_ne_true]
          split
          · exact .pre (fun _ hw => hw.1) (Keeps.ret _ i)
          · next snapshot _ =>
            have hfresh : Fresh (request.job strategy version snapshot newId) :=
              ⟨rfl, ⟨rfl, rfl⟩, rfl, rfl, rfl⟩
            exact .pre (fun _ hw => hw.2 rfl) (insertJob_clear hfresh)

theorem keeps_createJob (request : LaunchRequest) (newId : String) :
    Keeps none (createJob svc request newId) := by
  unfold createJob
  split
  · exact .ret _
  · refine .withLock (.bind (.read _) fun strategy => ?_)
    cases strategy with
    | none => exact .ret _
    | some strategy =>
      refine .bind (keeps_replayJob svc request) fun answer => ?_
      cases answer with
      | none => exact keeps_insertChecked svc request strategy newId
      | some answer => exact .ret _

theorem keeps_appendJobLog {lock : Option String} (jobId : String) (attempt : Int)
    (chunks : List (List Char)) (maxTotalBytes : Int) :
    Keeps lock (.call () (appendJobLog svc.storable jobId attempt chunks maxTotalBytes)) := by
  refine .call fun i w hledger => ?_
  rw [act]
  unfold appendJobLog
  dsimp only
  split
  · exact .same rfl
  · split
    · next job hget =>
      exact (moves_logged (fun _ => true) _ _).step hledger hget rfl rfl
    · split
      · exact .same rfl
      · exact .same rfl

theorem keeps_done {p : Task Bool} (hp : Keeps none p) : Keeps none (program.done p) :=
  hp.bind fun _ => .ret _

theorem keeps_program (request : Request) : Keeps none (program svc request) := by
  cases request with
  | createJob request newId => exact .map _ (keeps_createJob svc request newId)
  | claimJob jobId lease leaseUntil checkedAt now => exact .map _ (keeps_claimJob _ _ _ _ _)
  | reserveChildToken jobId lease tokenId => exact keeps_done (moves_reserveChildToken lease tokenId).keeps
  | recordChildRun jobId lease tokenId runId => exact keeps_done (moves_recordChildRun lease tokenId runId).keeps
  | markRunningAndHandoff jobId lease runId now =>
    exact keeps_done (moves_markRunningAndHandoff lease runId now).keeps
  | renewLease jobId lease leaseUntil checkedAt => exact .map _ (keeps_renewLeaseChecked _ _ _ _)
  | recordFailure jobId lease reason => exact keeps_done (moves_recordFailure lease _).keeps
  | requestStopActive jobId ownerId actor attempt now => exact keeps_done (moves_requestStop _ _ now).keeps
  | stopQueuedJob jobId ownerId actor attempt now => exact keeps_done (moves_stopQueued _ _ now).keeps
  | markStopped jobId lease => exact keeps_done (moves_markStopped lease).keeps
  | markRecoveryRequired jobId lease now =>
    exact keeps_done (keeps_lockedUpdate (moves_markRecoveryRequired lease now))
  | expireToRecovery jobId attempt now =>
    exact keeps_done (keeps_lockedUpdate (moves_expireToRecovery attempt now))
  | expireToRecoveryAuthorized jobId lease now =>
    exact keeps_done (keeps_lockedUpdate (moves_expireToRecoveryAuthorized lease now))
  | reportProcessCleanup jobId state actor attempt now =>
    exact .map _ (keeps_reportProcessCleanup _ _ _ _ _)
  | reconcileRecovery jobId ownerId epoch attempt now => exact keeps_done (keeps_reconcileRecovery _ _ _ _ _)
  | reconcileWithAudit audit newId now => exact .map _ (keeps_reconcileWithAudit _ _ _)
  | appendJobLog jobId attempt chunks maxTotalBytes =>
    exact .map _ (keeps_appendJobLog svc jobId attempt chunks maxTotalBytes)
  | catalog strategies versions => exact .call fun _ _ _ => .same rfl

end Calls

/-! ## interleavings -/

/-- The programs of the repository over its tables. -/
abbrev Repository := Config String Unit Tables Reply

variable {events : List (Event Request)}

theorem run_safe (svc : Service) {cfg last : Repository}
    (hsafe : cfg.Safe ledger fun i _ w => Has i none w) (hledger : Ledger cfg.world.store)
    (hrun : cfg.run (program svc) events = some last) :
    (last.Safe ledger fun i _ w => Has i none w) ∧ Ledger last.world.store ∧
      Relation.ReflTransGen (fun w w' => ∃ i, guar i w w') cfg.world last.world := by
  have hentry : ∀ request i (w : World String Tables), Ledger w.store → w.Idle i →
      (program svc request).Safe ledger i (fun _ => Has i none) w :=
    fun request i w hledger hidle => keeps_program svc request i w ⟨hidle, hledger⟩
  exact hsafe.run (fun _ _ _ hguar => guar.ledger hguar) hentry hledger hrun
    (Config.meetsAlong_of_forall (fun _ _ => trivial) cfg events)

theorem ledger_of_run (svc : Service) {t : Tables} (hempty : t.jobs.rows = []) {mid : Repository}
    (hmid : (Config.idle t).run (program svc) events = some mid) :
    (mid.Safe ledger fun i _ w => Has i none w) ∧ Ledger mid.world.store := by
  have hstart : Ledger t := by
    refine ⟨fun id a hget => ?_, ?_, ?_⟩
    · simp [get?, hempty] at hget
    · simp [hempty]
    · simp [hempty]
  obtain ⟨hsafe, hledger, -⟩ := run_safe svc (Config.idle_safe t) hstart hmid
  exact ⟨hsafe, hledger⟩

/-- Whatever calls are made and however they interleave, at most one job blocks a strategy and
an occurrence key names at most one job, jobs only move onward, and every event moves them by
one statement. -/
theorem ledger_one_way (svc : Service) {t : Tables} (hempty : t.jobs.rows = [])
    {events later : List (Event Request)} {mid last : Repository}
    (hmid : (Config.idle t).run (program svc) events = some mid)
    (hlast : mid.run (program svc) later = some last) :
    (∀ ownerId strategyId,
      (mid.world.store.jobs.rows.filter (StrategyJob.blocks ownerId strategyId)).length ≤ 1) ∧
    (∀ key, (mid.world.store.jobs.rows.filter fun job =>
      job.occurrenceKey = some key).length ≤ 1) ∧
    (∀ id a, mid.world.store.jobs.get? id = some a → (a.runId.isSome = true → a.tokenId.isSome = true) ∧
      (a.handoffAt.isSome = true → a.runId.isSome = true) ∧
      ∃ b, last.world.store.jobs.get? id = some b ∧ Onward a b) ∧
    ∀ e next, mid.step (program svc) e = some next → ∀ id b,
      next.world.store.jobs.get? id = some b → match mid.world.store.jobs.get? id with
        | some a => JobStep a b
        | none => Fresh b := by
  obtain ⟨hsafe, hledger⟩ := ledger_of_run svc hempty hmid
  obtain ⟨-, -, hsteps⟩ := run_safe svc hsafe hledger hlast
  refine ⟨fun ownerId strategyId => ?_, fun key => ?_, fun id a hget => ?_, fun e next hnext id b hb => ?_⟩
  · refine Keyed.length_filter_le_one fun a ha b hb hblocks hblocks' => ?_
    simp only [StrategyJob.blocks, Bool.and_eq_true, decide_eq_true_eq] at hblocks hblocks'
    exact hledger.one a ha b hb (hblocks.1.1.trans hblocks'.1.1.symm)
      (hblocks.1.2.trans hblocks'.1.2.symm) hblocks.2 hblocks'.2
  · refine Keyed.length_filter_le_one fun a ha b hb hkey hkey' => ?_
    rw [decide_eq_true_eq] at hkey hkey'
    exact hledger.keys a ha b hb (by rw [hkey, Option.isSome_some]) (hkey.trans hkey'.symm)
  · have hsound := hledger.sound id a hget
    exact ⟨hsound.token_of_run, hsound.run_of_handoff, onward_of_steps hsteps hget⟩
  · have hall : mid.MeetsAlong (program svc) ledger.cond [e] :=
      Config.meetsAlong_of_forall (fun _ _ => trivial) mid [e]
    have hmeet : mid.Meets ledger.cond e := hall.1
    rcases hsafe.event_guar hnext hmeet with hworld | ⟨i, hguar⟩
    · rw [hworld] at hb
      rw [hb]
      exact .refl b
    · split
      · next a ha =>
        obtain ⟨b', hb', hstep⟩ := hguar.jobStep ha
        rw [hb, Option.some.injEq] at hb'
        exact hb' ▸ hstep
      · next hnone => exact hguar.fresh hnone hb

/-- The checks pass, and a text is stored unless it has a NUL. -/
def demoService : Service :=
  ⟨fun _ params => .ok (params.getD "\x7b\x7d"), fun scope _ => .ok scope, fun c => c ≠ '\x00'⟩

def demoLaunch : LaunchRequest :=
  { strategyId := "s", versionId := "v", ownerId := "app:a", jobKind := "finite"
    executionMode := "paper", occurrenceKey := some "run-1" }

/-- Two launches meet at the lock; the second finds the job of the first. -/
def demoRace : List (Event Request) :=
  [.start (.createJob demoLaunch "j1"),
    .start (.createJob { demoLaunch with occurrenceKey := some "run-2" } "j2")] ++
    List.replicate 7 (.step 0) ++ List.replicate 6 (.step 1)

/-- The job is claimed and its token reserved. -/
def demoClaimed : List (Event Request) :=
  [.start (.claimJob "j1" ⟨"sup", 0, 1⟩ 100 5 6)] ++ List.replicate 6 (.step 2) ++
    [.start (.reserveChildToken "j1" ⟨"sup", 1, 1⟩ "worker_1"), .step 3]

theorem ledger_one_way_demo :
    ∃ mid last : Repository, (Config.idle demoTables).run (program demoService) demoRace = some mid ∧
      mid.run (program demoService) demoClaimed = some last ∧
      (mid.world.store.jobs.rows.filter (StrategyJob.blocks "app:a" "s")).length ≤ 1 := by
  have hmid : ((Config.idle demoTables).run (program demoService) demoRace).isSome = true := by
    decide +kernel
  have hlast : (((Config.idle demoTables).run (program demoService) demoRace).bind fun mid =>
      mid.run (program demoService) demoClaimed).isSome = true := by
    decide +kernel
  obtain ⟨mid, hmid⟩ := Option.isSome_iff_exists.mp hmid
  rw [hmid, Option.bind_some] at hlast
  obtain ⟨last, hlast⟩ := Option.isSome_iff_exists.mp hlast
  exact ⟨mid, last, hmid, hlast, (ledger_one_way demoService rfl hmid hlast).1 "app:a" "s"⟩

end KiteAlgo.Hosted
