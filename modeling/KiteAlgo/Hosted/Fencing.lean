import KiteAlgo.Hosted.Lifecycle
import KiteAlgo.Lib.Run

/-!
# KiteAlgo.Hosted.Fencing

Whether the worker token of an attempt is revoked once the attempt has ended.

Calls that end an attempt decide on the job they have loaded, and a preparation may hand the
attempt off before they write what they decided (`attempt`, a machine that advances any call
of an attempt by one repository call).  When no update that ends the attempt finds it handed
off with its token usable, or stops it at all (`Timely`), either the tokens are revoked, or the
attempt is live and handed off, or a preparation is still on its way to one of the two.
-/

namespace KiteAlgo.Hosted

open List Option Bool Keyed
/-! ## the calls of an attempt -/

/-- A call for the attempt, with what it draws. -/
inductive CallRequest where
  | prepare (tokenId rawToken runId nonce : String)
  | ending (kind : EndKind) (reason : String)
  deriving DecidableEq

/-- The call under the authority of the attempt. -/
def CallRequest.call (jobId : String) (lease : Lease) : CallRequest → Call
  | prepare tokenId rawToken runId nonce =>
    .prepare ⟨jobId, lease, tokenId, rawToken, runId, nonce⟩ .loading
  | ending kind reason => .ending ⟨kind, jobId, lease, reason⟩ .loading

structure Attempt where
  server : Server
  calls : List Call := []

/-- A call is made, or one of the calls makes its next repository call. -/
inductive CallStep where
  | start (request : CallRequest)
  | advance (i : Nat) (now : Int)
  deriving DecidableEq

/-- Any interleaving of the calls of an attempt. -/
def attempt (lc : Lifecycle) (jobId : String) (lease : Lease) : Machine CallStep Attempt Unit where
  step
    | .start request, s => { s with calls := s.calls ++ [request.call jobId lease] }
    | .advance i now, s =>
      match s.calls[i]? with
      | none => s
      | some call =>
        ⟨(call.advance lc now s.server).2, s.calls.set i (call.advance lc now s.server).1⟩
  out _ _ := []

/-! ## tokens -/

/-- Every token created for the attempt is revoked. -/
def Server.Revoked (jobId : String) (lease : Lease) (s : Server) : Prop :=
  ∀ token ∈ s.tokens.rows, token.hostedJobId = jobId → token.hostedAttempt = lease.attempt →
    token.revoked = true

instance (jobId : String) (lease : Lease) (s : Server) : Decidable (s.Revoked jobId lease) :=
  inferInstanceAs (Decidable (∀ token ∈ s.tokens.rows, token.hostedJobId = jobId →
    token.hostedAttempt = lease.attempt → token.revoked = true))

namespace EndRequest

variable (request : EndRequest)

/-- The update decided on the loaded job is `mark_stopped`. -/
def stops (job : StrategyJob) : Bool := decide (request.kind = .release) && job.handoffAt.isNone

/-- The update finds the attempt live, and for `expire` expired. -/
def applies (now : Int) (row : StrategyJob) : Bool :=
  row.status.live && (decide (request.kind ≠ .expire) || row.leaseFree now)

end EndRequest

/-- The update that ends an attempt, should it be about to run, finds the attempt not handed
off, or with its tokens revoked, and does not stop what was handed off. -/
def Attempt.Timely (jobId : String) (lease : Lease) (s : Attempt) : CallStep → Prop
  | .start _ => True
  | .advance i now =>
    match s.calls[i]? with
    | some (.ending request (.marking job)) =>
      ∀ row ∈ s.server.getJobById jobId, request.applies now row = true → row.handoffAt.isSome = true →
          request.stops job = false ∧ s.server.Revoked jobId lease
    | _ => True

instance (jobId : String) (lease : Lease) (s : Attempt) (step : CallStep) :
    Decidable (s.Timely jobId lease step) := by
  unfold Attempt.Timely
  cases step with
  | start request => exact .isTrue trivial
  | advance i now =>
    dsimp only
    split <;> infer_instance

/-! ## what repository calls do to the server -/

namespace PreparePhase

def reserved : PreparePhase → Bool
  | loading | findingStrategy _ | findingVersion _ | reserving _ _ => false
  | _ => true

def minted : PreparePhase → Bool
  | loading | findingStrategy _ | findingVersion _ | reserving _ _ | minting _ _ => false
  | _ => true

def withdrawn : PreparePhase → Bool
  | fencing _ _ => true
  | _ => false

end PreparePhase

/-- The call is a preparation that will revoke its token or hand the attempt off. -/
def Call.inFlight : Call → Bool
  | .prepare _ phase => phase.reserved && !phase.withdrawn
  | _ => false

section Facts

variable (jobId : String) (lease : Lease)

def Call.Fits (s : Server) : Call → Prop
  | .prepare request phase =>
    (request.jobId = jobId ∧ request.lease = lease) ∧
      (phase.reserved = true → ∃ job, s.getJobById jobId = some job ∧ job.tokenId = some request.tokenId) ∧
      (phase.minted = true → ∃ token, s.tokens.get? request.tokenId = some token ∧
        (phase.withdrawn = true → token.revoked = true))
  | .ending request _ => request.jobId = jobId ∧ request.lease = lease
  | .returned _ => True

/-- The tokens of the attempt are the one that the job names, and a job that was handed off
runs or waits for its reconciliation. -/
def Server.Sane (s : Server) : Prop :=
  ∃ job, s.getJobById jobId = some job ∧
    (∀ token ∈ s.tokens.rows, token.hostedJobId = jobId → token.hostedAttempt = lease.attempt →
      job.tokenId = some token.tokenId) ∧
    (job.handoffAt.isSome = true → job.status = .running ∨ job.status = .recoveryRequired)

/-- The tokens are revoked, or the attempt is handed off and live. -/
def Server.Settled (s : Server) : Prop :=
  s.Revoked jobId lease ∨ ∃ job, s.getJobById jobId = some job ∧ job.handoffAt.isSome = true ∧
    job.status.live = true

/-- The job keeps its token, and tokens stay and stay revoked. -/
structure Server.Onward (s s' : Server) : Prop where
  job : ∀ job, s.getJobById jobId = some job → ∃ job', s'.getJobById jobId = some job' ∧
    ∀ tokenId, job.tokenId = some tokenId → job'.tokenId = some tokenId
  token : ∀ tokenId token, s.tokens.get? tokenId = some token →
    ∃ token', s'.tokens.get? tokenId = some token' ∧ (token.revoked = true → token'.revoked = true)

/-- Nor do tokens, status and handoff change. -/
structure Server.Quiet (s s' : Server) : Prop where
  tokens : s'.tokens = s.tokens
  job : ∀ job, s.getJobById jobId = some job → ∃ job', s'.getJobById jobId = some job' ∧
    (∀ tokenId, job.tokenId = some tokenId → job'.tokenId = some tokenId) ∧
    job'.handoffAt = job.handoffAt ∧ job'.status = job.status

/-- What a repository call does to the server and to the call. -/
structure Effect (s s' : Server) (call call' : Call) : Prop where
  onward : s.Onward jobId s'
  sane : s'.Sane jobId lease
  fits : call'.Fits jobId lease s'
  settled : s.Settled jobId lease ∨ call.inFlight = true → s'.Settled jobId lease ∨ call'.inFlight = true

end Facts

section Effects

variable {jobId : String} {lease : Lease} {s s' : Server} {call call' : Call}

theorem Server.Onward.fits (h : s.Onward jobId s') (hfits : call.Fits jobId lease s) :
    call.Fits jobId lease s' := by
  cases call with
  | prepare request phase =>
    obtain ⟨habout, hreserved, hminted⟩ := hfits
    refine ⟨habout, fun hphase => ?_, fun hphase => ?_⟩
    · obtain ⟨job, hget, htoken⟩ := hreserved hphase
      obtain ⟨job', hget', hkept⟩ := h.job job hget
      exact ⟨job', hget', hkept _ htoken⟩
    · obtain ⟨token, hget, hrevoked⟩ := hminted hphase
      obtain ⟨token', hget', hkept⟩ := h.token _ token hget
      exact ⟨token', hget', fun hwithdrawn => hkept (hrevoked hwithdrawn)⟩
  | ending request phase => exact hfits
  | returned answer => trivial

namespace Server.Quiet

theorem refl (jobId : String) (s : Server) : s.Quiet jobId s :=
  ⟨rfl, fun job hget => ⟨job, hget, fun _ h => h, rfl, rfl⟩⟩

theorem onward (h : s.Quiet jobId s') : s.Onward jobId s' := by
  refine ⟨fun job hget => ?_, fun tokenId token hget => ?_⟩
  · obtain ⟨job', hget', htoken, -⟩ := h.job job hget
    exact ⟨job', hget', htoken⟩
  · exact ⟨token, h.tokens ▸ hget, fun hrevoked => hrevoked⟩

theorem sane (h : s.Quiet jobId s') (hsane : s.Sane jobId lease) : s'.Sane jobId lease := by
  obtain ⟨job, hget, htokens, hhandoff⟩ := hsane
  obtain ⟨job', hget', htoken, hsame, hstatus⟩ := h.job job hget
  refine ⟨job', hget', fun token hmem hjob hattempt => ?_, ?_⟩
  · rw [h.tokens] at hmem
    exact htoken _ (htokens token hmem hjob hattempt)
  · rw [hsame, hstatus]
    exact hhandoff

theorem settled (h : s.Quiet jobId s') (hsettled : s.Settled jobId lease) :
    s'.Settled jobId lease := by
  rcases hsettled with hrevoked | ⟨job, hget, hhandoff, hlive⟩
  · refine .inl fun token hmem => ?_
    rw [h.tokens] at hmem
    exact hrevoked token hmem
  · obtain ⟨job', hget', -, hsame, hstatus⟩ := h.job job hget
    exact .inr ⟨job', hget', hsame ▸ hhandoff, hstatus ▸ hlive⟩

theorem effect (h : s.Quiet jobId s') (hsane : s.Sane jobId lease)
    (hfits : call'.Fits jobId lease s') (hflight : call.inFlight → call'.inFlight) :
    Effect jobId lease s s' call call' :=
  ⟨h.onward, h.sane hsane, hfits, fun hor => hor.imp h.settled hflight⟩

end Server.Quiet

def Server.withJob (s : Server) (job : StrategyJob) : Server :=
  { s with tables := { s.tables with jobs := s.tables.jobs.upsert job } }

theorem Server.getJobById_withJob {job : StrategyJob} (hid : job.id = jobId) :
    (s.withJob job).getJobById jobId = some job := by
  subst hid
  exact get?_upsert_self s.tables.jobs job

theorem Server.id_of_getJobById {job : StrategyJob} (hget : s.getJobById jobId = some job) :
    job.id = jobId := by
  have hrow : s.tables.jobs.get? jobId = some job := hget
  have hkey := key_of_get? hrow
  exact hkey

theorem Server.onTables_updateJob {matching : StrategyJob → Bool}
    {values : StrategyJob → StrategyJob} (s : Server) :
    s.onTables (updateJob jobId matching values) = (false, s) ∨
      ∃ job, s.getJobById jobId = some job ∧ matching job ∧
        s.onTables (updateJob jobId matching values) = (true, s.withJob (values job)) := by
  unfold onTables
  have hcases : updateJob jobId matching values s.tables = (false, s.tables) ∨ _ :=
    updateJob_cases s.tables
  rcases hcases with hnone | ⟨job, hget, hmatching, hsome⟩
  · exact .inl (by rw [hnone])
  · exact .inr ⟨job, hget, hmatching, by rw [hsome]; rfl⟩

theorem Server.Quiet.withJob {job row : StrategyJob} (hget : s.getJobById jobId = some job)
    (hid : row.id = job.id) (htoken : ∀ tokenId, job.tokenId = some tokenId → row.tokenId = some tokenId)
    (hhandoff : row.handoffAt = job.handoffAt) (hstatus : row.status = job.status) :
    s.Quiet jobId (s.withJob row) := by
  have hrow : row.id = jobId := hid.trans (Server.id_of_getJobById hget)
  refine ⟨rfl, fun job' hget' => ⟨row, getJobById_withJob hrow, ?_⟩⟩
  rw [hget, some.injEq] at hget'
  subst hget'
  exact ⟨htoken, hhandoff, hstatus⟩

/-! ## preparing -/

variable {lc : Lifecycle} {request : PrepareRequest} {phase : PreparePhase} {now : Int}

theorem Call.Fits.goto (h : (request.goto phase).Fits jobId lease s) (phase' : PreparePhase)
    (hreserved : phase'.reserved → phase.reserved)
    (hminted : phase'.minted → phase.minted)
    (hwithdrawn : phase'.withdrawn → phase.withdrawn) :
    (request.goto phase').Fits jobId lease s := by
  obtain ⟨habout, hjob, htoken⟩ := h
  refine ⟨habout, fun hphase => hjob (hreserved hphase), fun hphase => ?_⟩
  obtain ⟨token, hget, hrevoked⟩ := htoken (hminted hphase)
  exact ⟨token, hget, fun hphase' => hrevoked (hwithdrawn hphase')⟩

theorem Effect.goto {phase' : PreparePhase} (h : (request.goto phase).Fits jobId lease s)
    (hquiet : s.Quiet jobId s') (hsane : s.Sane jobId lease) (hreserved : phase.reserved)
    (hminted : phase'.minted → phase.minted)
    (hflight : (request.goto phase').inFlight) :
    Effect jobId lease s s' (request.goto phase) (request.goto phase') := by
  have hwithdrawn : phase'.withdrawn → phase.withdrawn := by
    intro hphase
    simp [PrepareRequest.goto, Call.inFlight, hphase] at hflight
  exact hquiet.effect hsane (hquiet.onward.fits (h.goto phase' (fun _ => hreserved) hminted
    hwithdrawn)) fun _ => hflight

theorem Effect.before (hsane : s.Sane jobId lease) (hphase : phase.reserved = false)
    (hfits : call'.Fits jobId lease s) : Effect jobId lease s s (request.goto phase) call' := by
  refine (Server.Quiet.refl jobId s).effect hsane hfits fun hflight => ?_
  simp [PrepareRequest.goto, Call.inFlight, hphase] at hflight

theorem PrepareRequest.load_fits (h : (request.goto .loading).Fits jobId lease s)
    (job : Option StrategyJob) : (request.load lc now job).Fits jobId lease s := by
  unfold PrepareRequest.load
  split
  · trivial
  · split
    · trivial
    · split
      · trivial
      · split
        · trivial
        · exact h.goto _ (by simp [PreparePhase.reserved]) (by simp [PreparePhase.minted])
            (by simp [PreparePhase.withdrawn])

theorem Server.Quiet.of_tables (htables : s'.tables = s.tables) (htokens : s'.tokens = s.tokens) :
    s.Quiet jobId s' := by
  refine ⟨htokens, fun job hget => ⟨job, ?_, fun _ h => h, rfl, rfl⟩⟩
  rw [getJobById, htables]
  exact hget

theorem Server.Sane.revoked (hsane : s.Sane jobId lease) {job : StrategyJob}
    (hget : s.getJobById jobId = some job) {tokenId : String} (hjob : job.tokenId = some tokenId)
    {token : WorkerToken} (htoken : s.tokens.get? tokenId = some token)
    (hrevoked : token.revoked) : s.Revoked jobId lease := by
  obtain ⟨job', hget', htokens, -⟩ := hsane
  rw [hget, some.injEq] at hget'
  subst hget'
  intro other hmem hjobId hattempt
  have hid := htokens other hmem hjobId hattempt
  rw [hjob, some.injEq] at hid
  rw [mem_rows_iff, ← hid, htoken, some.injEq] at hmem
  rw [← hmem, hrevoked]

section Revoke

variable (tokenId : String)

theorem Server.revokeToken_cases (s : Server) :
    (s.revokeToken tokenId).2 = s ∨ ∃ token, s.tokens.get? tokenId = some token ∧
      (s.revokeToken tokenId).2 = { s with tokens := s.tokens.upsert { token with revoked := true } } := by
  unfold revokeToken
  split
  · next token hget => exact .inr ⟨token, hget, rfl⟩
  · exact .inl rfl

theorem Server.get?_revokeToken (s : Server) (other : String) :
    (s.revokeToken tokenId).2.tokens.get? other = (s.tokens.get? other).map fun token =>
        if other = tokenId then { token with revoked := true } else token := by
  unfold revokeToken
  split
  · next token hget =>
    have hkey := key_of_get? hget
    by_cases hother : other = tokenId
    · subst hother
      simp [hget, hkey]
    · have hne : token.tokenId ≠ other := by
        rw [hkey]
        exact fun heq => hother heq.symm
      rw [get?_upsert, if_neg hne]
      simp [hother]
  · next hnone =>
    by_cases hother : other = tokenId
    · subst hother
      simp [hnone]
    · simp [hother]

theorem Server.mem_revokeToken {token : WorkerToken}
    (h : token ∈ (s.revokeToken tokenId).2.tokens.rows) :
    ∃ old ∈ s.tokens.rows, old.tokenId = token.tokenId ∧ old.hostedJobId = token.hostedJobId ∧
      old.hostedAttempt = token.hostedAttempt ∧ (old.revoked → token.revoked) := by
  rcases s.revokeToken_cases tokenId with hsame | ⟨old, hget, hrevoked⟩
  · rw [hsame] at h
    exact ⟨token, h, rfl, rfl, rfl, fun hrevoked => hrevoked⟩
  · rw [hrevoked] at h
    rcases mem_rows_upsert h with rfl | ⟨hold, -⟩
    · exact ⟨old, mem_rows_of_get? hget, rfl, rfl, rfl, fun _ => rfl⟩
    · exact ⟨token, hold, rfl, rfl, rfl, fun hrevoked => hrevoked⟩

theorem Server.getJobById_revokeToken (s : Server) (jobId : String) :
    (s.revokeToken tokenId).2.getJobById jobId = s.getJobById jobId := by
  rcases s.revokeToken_cases tokenId with hsame | ⟨old, -, hrevoked⟩
  · rw [hsame]
  · rw [hrevoked]
    rfl

theorem Server.onward_revokeToken : s.Onward jobId (s.revokeToken tokenId).2 := by
  refine ⟨fun job hget => ⟨job, ?_, fun _ h => h⟩, fun other token hget => ?_⟩
  · rw [getJobById_revokeToken]
    exact hget
  · refine ⟨_, by rw [get?_revokeToken, hget]; rfl, fun hrevoked => ?_⟩
    split
    · rfl
    · exact hrevoked

theorem Server.Sane.revokeToken (hsane : s.Sane jobId lease) :
    (s.revokeToken tokenId).2.Sane jobId lease := by
  obtain ⟨job, hget, htokens, hhandoff⟩ := hsane
  refine ⟨job, by rw [getJobById_revokeToken, hget], fun token hmem hjob hattempt => ?_, hhandoff⟩
  obtain ⟨old, hold, hid, hjobId, hattempt', -⟩ := mem_revokeToken tokenId hmem
  rw [← hid]
  exact htokens old hold (hjobId.trans hjob) (hattempt'.trans hattempt)

theorem Server.Settled.revokeToken (hsettled : s.Settled jobId lease) :
    (s.revokeToken tokenId).2.Settled jobId lease := by
  rcases hsettled with hrevoked | hlive
  · refine .inl fun token hmem hjob hattempt => ?_
    obtain ⟨old, hold, -, hjobId, hattempt', hkept⟩ := mem_revokeToken tokenId hmem
    exact hkept (hrevoked old hold (hjobId.trans hjob) (hattempt'.trans hattempt))
  · refine .inr ?_
    rw [getJobById_revokeToken]
    exact hlive

end Revoke

/-! ## one repository call of a preparation -/

section Prepare

variable {job : StrategyJob} {version : HostedStrategyVersion} {abort : Abort}

theorem effect_reserving (hsane : s.Sane jobId lease)
    (hfits : (request.goto (.reserving job version)).Fits jobId lease s) :
    Effect jobId lease s (request.advance lc now s (.reserving job version)).2
      (request.goto (.reserving job version))
      (request.advance lc now s (.reserving job version)).1 := by
  obtain ⟨⟨rfl, rfl⟩, -⟩ := hfits
  rw [PrepareRequest.advance]
  rcases s.onTables_updateJob with hnone | ⟨row, hget, hmatching, hsome⟩
  · rw [reserveChildToken, hnone]
    exact .before hsane rfl trivial
  · rw [reserveChildToken, hsome]
    have htoken : row.tokenId = none := by
      simp only [and_eq_true, isNone_iff_eq_none] at hmatching
      exact hmatching.1.2
    have hquiet : s.Quiet request.jobId (s.withJob { row with tokenId := some request.tokenId }) :=
      .withJob hget rfl (by simp [htoken]) rfl rfl
    have hrow := Server.id_of_getJobById hget
    exact ⟨hquiet.onward, hquiet.sane hsane, ⟨⟨rfl, rfl⟩,
      fun _ => ⟨_, Server.getJobById_withJob hrow, rfl⟩, fun h => absurd h Bool.false_ne_true⟩,
      fun _ => .inr rfl⟩

theorem effect_minting (hsane : s.Sane jobId lease)
    (hfits : (request.goto (.minting job version)).Fits jobId lease s) :
    Effect jobId lease s (request.advance lc now s (.minting job version)).2
      (request.goto (.minting job version)) (request.advance lc now s (.minting job version)).1 := by
  have habout := hfits.1
  have hreserved := hfits.2.1 rfl
  obtain ⟨row, hget, htoken⟩ := hreserved
  rw [PrepareRequest.advance, Server.createToken]
  cases hstored : s.tokens.get? (request.token job now).tokenId with
  | some stored =>
    refine (Server.Quiet.refl jobId s).effect hsane ⟨habout, fun _ => hfits.2.1 rfl, fun _ => ?_⟩
      fun _ => rfl
    exact ⟨stored, hstored, fun h => absurd h Bool.false_ne_true⟩
  | none =>
    refine ⟨⟨fun other hother => ⟨other, hother, fun _ h => h⟩, fun tokenId token hother => ?_⟩,
      ?_, ⟨habout, fun _ => ⟨row, hget, htoken⟩, fun _ => ?_⟩, fun _ => .inr rfl⟩
    · refine ⟨token, ?_, fun h => h⟩
      rw [get?_upsert, if_neg]
      · exact hother
      · intro heq
        rw [heq, hother] at hstored
        cases hstored
    · obtain ⟨row', hget', htokens, hhandoff⟩ := hsane
      refine ⟨row', hget', fun token hmem hjob hattempt => ?_, hhandoff⟩
      rw [hget, some.injEq] at hget'
      subst hget'
      rcases mem_rows_upsert hmem with rfl | ⟨hold, -⟩
      · exact htoken
      · exact htokens token hold hjob hattempt
    · exact ⟨_, get?_upsert_self s.tokens (request.token job now),
        fun h => absurd h Bool.false_ne_true⟩

theorem effect_creatingRun (hsane : s.Sane jobId lease)
    (hfits : (request.goto (.creatingRun job version)).Fits jobId lease s) :
    Effect jobId lease s (request.advance lc now s (.creatingRun job version)).2
      (request.goto (.creatingRun job version))
      (request.advance lc now s (.creatingRun job version)).1 := by
  rw [PrepareRequest.advance]
  split
  · exact .goto hfits (.refl jobId s) hsane rfl (fun _ => rfl) rfl
  · unfold Server.createRun
    cases s.runs.get? request.runId with
    | some run => exact .goto hfits (.refl jobId s) hsane rfl (fun _ => rfl) rfl
    | none => exact .goto hfits (.of_tables rfl rfl) hsane rfl (fun _ => rfl) rfl

theorem effect_recordingRun (hsane : s.Sane jobId lease)
    (hfits : (request.goto (.recordingRun job version)).Fits jobId lease s) :
    Effect jobId lease s (request.advance lc now s (.recordingRun job version)).2
      (request.goto (.recordingRun job version))
      (request.advance lc now s (.recordingRun job version)).1 := by
  have habout := hfits.1
  rw [PrepareRequest.advance]
  rcases s.onTables_updateJob with hnone | ⟨row, hget, hmatching, hsome⟩
  · rw [recordChildRun, hnone]
    exact .goto hfits (.refl jobId s) hsane rfl (fun _ => rfl) rfl
  · rw [recordChildRun, hsome]
    rw [habout.1] at hget
    exact .goto hfits (.withJob hget rfl (fun _ h => h) rfl rfl) hsane rfl (fun _ => rfl) rfl

theorem effect_claimingSession (hsane : s.Sane jobId lease)
    (hfits : (request.goto (.claimingSession job version)).Fits jobId lease s) :
    Effect jobId lease s (request.advance lc now s (.claimingSession job version)).2
      (request.goto (.claimingSession job version))
      (request.advance lc now s (.claimingSession job version)).1 := by
  have hquiet : s.Quiet jobId (s.claimRunSession lc request.runId request.nonce now).2 := by
    unfold Server.claimRunSession
    split
    · split
      · exact .of_tables rfl rfl
      · exact .refl jobId s
    · exact .refl jobId s
  rw [PrepareRequest.advance]
  rcases hclaim : s.claimRunSession lc request.runId request.nonce now with ⟨nonce, s'⟩
  rw [hclaim] at hquiet
  cases nonce with
  | none => exact .goto hfits hquiet hsane rfl (fun _ => rfl) rfl
  | some nonce =>
    dsimp only
    split
    · exact .goto hfits hquiet hsane rfl (fun _ => rfl) rfl
    · exact .goto hfits hquiet hsane rfl (fun _ => rfl) rfl

theorem effect_handingOff {nonce : String} (hsane : s.Sane jobId lease)
    (hfits : (request.goto (.handingOff job version nonce)).Fits jobId lease s) :
    Effect jobId lease s (request.advance lc now s (.handingOff job version nonce)).2
      (request.goto (.handingOff job version nonce))
      (request.advance lc now s (.handingOff job version nonce)).1 := by
  have habout := hfits.1
  rw [PrepareRequest.advance]
  rcases s.onTables_updateJob with hnone | ⟨row, hget, hmatching, hsome⟩
  · rw [markRunningAndHandoff, hnone]
    exact .goto hfits (.refl jobId s) hsane rfl (fun _ => rfl) rfl
  · rw [markRunningAndHandoff, hsome]
    rw [habout.1] at hget
    have hrow := Server.id_of_getJobById hget
    have hafter : (s.withJob { row with status := .running, handoffAt := some now }).getJobById
        jobId = some { row with status := .running, handoffAt := some now } :=
      Server.getJobById_withJob hrow
    obtain ⟨row', hget', htokens, -⟩ := hsane
    rw [hget, some.injEq] at hget'
    subst hget'
    refine ⟨⟨fun other hother => ⟨_, hafter, fun tokenId htoken => ?_⟩,
      fun _ token hstored => ⟨token, hstored, fun h => h⟩⟩,
      ⟨_, hafter, htokens, fun _ => .inl rfl⟩, trivial, fun _ => .inl (.inr ⟨_, hafter, rfl, rfl⟩)⟩
    rw [hget, some.injEq] at hother
    subst hother
    exact htoken

theorem effect_recordingFailure (hsane : s.Sane jobId lease)
    (hfits : (request.goto (.recordingFailure abort)).Fits jobId lease s) :
    Effect jobId lease s (request.advance lc now s (.recordingFailure abort)).2
      (request.goto (.recordingFailure abort))
      (request.advance lc now s (.recordingFailure abort)).1 := by
  have habout := hfits.1
  rw [PrepareRequest.advance]
  rcases s.onTables_updateJob with hnone | ⟨row, hget, hmatching, hsome⟩
  · rw [recordFailure, hnone]
    exact .goto hfits (.refl jobId s) hsane rfl (fun _ => rfl) rfl
  · rw [recordFailure, hsome]
    rw [habout.1] at hget
    exact .goto hfits (.withJob hget rfl (fun _ h => h) rfl rfl) hsane rfl (fun _ => rfl) rfl

theorem effect_revoking (hsane : s.Sane jobId lease)
    (hfits : (request.goto (.revoking abort)).Fits jobId lease s) :
    Effect jobId lease s (request.advance lc now s (.revoking abort)).2
      (request.goto (.revoking abort)) (request.advance lc now s (.revoking abort)).1 := by
  obtain ⟨habout, hreserved, hminted⟩ := hfits
  obtain ⟨row, hget, htoken⟩ := hreserved rfl
  obtain ⟨token, hstored, -⟩ := hminted rfl
  have hafter : (s.revokeToken request.tokenId).2.tokens.get? request.tokenId =
      some { token with revoked := true } := by
    rw [Server.get?_revokeToken, hstored, map_some, if_pos rfl]
  have hrow : (s.revokeToken request.tokenId).2.getJobById jobId = some row := by
    rw [Server.getJobById_revokeToken, hget]
  have hsane' := hsane.revokeToken request.tokenId
  rw [PrepareRequest.advance]
  exact ⟨Server.onward_revokeToken _, hsane', ⟨habout, fun _ => ⟨row, hrow, htoken⟩,
    fun _ => ⟨_, hafter, fun _ => rfl⟩⟩, fun _ => .inl (.inl (hsane'.revoked hrow htoken hafter rfl))⟩

theorem Effect.marked {row row' : StrategyJob} (hsane : s.Sane jobId lease)
    (hget : s.getJobById jobId = some row) (hid : row'.id = row.id)
    (htoken : row'.tokenId = row.tokenId) (hhandoff : row'.handoffAt = row.handoffAt)
    (hstatus : row.handoffAt.isSome → row'.status = .recoveryRequired)
    (hrevoked : row.handoffAt.isSome → row.status.live → s.Revoked jobId lease)
    (hfits : call'.Fits jobId lease (s.withJob row')) (hflight : call.inFlight = false) :
    Effect jobId lease s (s.withJob row') call call' := by
  have hafter : (s.withJob row').getJobById jobId = some row' :=
    Server.getJobById_withJob (hid.trans (Server.id_of_getJobById hget))
  have htokens := hsane
  obtain ⟨other, hother, htokens, -⟩ := hsane
  rw [hget, some.injEq] at hother
  subst hother
  refine ⟨⟨fun other hother => ⟨row', hafter, fun tokenId hold => ?_⟩,
    fun _ token hstored => ⟨token, hstored, fun h => h⟩⟩, ⟨row', hafter, ?_, ?_⟩, hfits, ?_⟩
  · rw [hget, some.injEq] at hother
    rw [htoken, hother, hold]
  · rw [htoken]
    exact htokens
  · rw [hhandoff]
    exact fun hhandoff => .inr (hstatus hhandoff)
  · rintro ((hall | ⟨other, hother, hhanded, hlive⟩) | hflight')
    · exact .inl (.inl hall)
    · rw [hget, some.injEq] at hother
      subst hother
      exact .inl (.inl (hrevoked hhanded hlive))
    · rw [hflight] at hflight'
      cases hflight'

theorem effect_fencing {revoked : Bool} (hsane : s.Sane jobId lease)
    (hfits : (request.goto (.fencing abort revoked)).Fits jobId lease s) :
    Effect jobId lease s (request.advance lc now s (.fencing abort revoked)).2
      (request.goto (.fencing abort revoked))
      (request.advance lc now s (.fencing abort revoked)).1 := by
  obtain ⟨habout, hreserved, hminted⟩ := hfits
  obtain ⟨row, hget, htoken⟩ := hreserved rfl
  obtain ⟨token, hstored, hrevoked⟩ := hminted rfl
  have hall := hsane.revoked hget htoken hstored (hrevoked rfl)
  rw [PrepareRequest.advance]
  rcases s.onTables_updateJob with hnone | ⟨row', hget', hmatching, hsome⟩
  · rw [markRecoveryRequired, hnone]
    exact (Server.Quiet.refl jobId s).effect hsane trivial fun h => absurd h Bool.false_ne_true
  · rw [markRecoveryRequired, hsome]
    rw [habout.1] at hget'
    exact .marked hsane hget' rfl rfl rfl (fun _ => rfl) (fun _ _ => hall) trivial rfl

theorem effect_prepare (hsane : s.Sane jobId lease)
    (hfits : (request.goto phase).Fits jobId lease s) :
    Effect jobId lease s (request.advance lc now s phase).2 (request.goto phase)
      (request.advance lc now s phase).1 := by
  cases phase with
  | loading => exact .before hsane rfl (request.load_fits hfits _)
  | findingStrategy job =>
    rw [PrepareRequest.advance]
    split
    · exact .before hsane rfl trivial
    · exact .before hsane rfl (hfits.goto _ (fun h => h) (fun h => h) fun h => h)
  | findingVersion job =>
    rw [PrepareRequest.advance]
    split
    · exact .before hsane rfl trivial
    · exact .before hsane rfl (hfits.goto _ (fun h => h) (fun h => h) fun h => h)
  | reserving job version => exact effect_reserving hsane hfits
  | minting job version => exact effect_minting hsane hfits
  | creatingRun job version => exact effect_creatingRun hsane hfits
  | recordingRun job version => exact effect_recordingRun hsane hfits
  | claimingSession job version => exact effect_claimingSession hsane hfits
  | handingOff job version nonce => exact effect_handingOff hsane hfits
  | recordingFailure abort => exact effect_recordingFailure hsane hfits
  | revoking abort => exact effect_revoking hsane hfits
  | fencing abort revoked => exact effect_fencing hsane hfits

end Prepare

/-! ## one repository call that ends the attempt -/

section End

variable {ending : EndRequest}

theorem EndRequest.withdraw_fits (habout : ending.jobId = jobId ∧ ending.lease = lease)
    (job : StrategyJob) : (ending.withdraw job).Fits jobId lease s := by
  unfold EndRequest.withdraw
  split <;> exact habout

theorem EndRequest.load_fits (habout : ending.jobId = jobId ∧ ending.lease = lease)
    (job : Option StrategyJob) : (ending.load now job).Fits jobId lease s := by
  unfold EndRequest.load
  split
  · trivial
  · split
    · exact ending.withdraw_fits habout _
    · split
      · trivial
      · exact ending.withdraw_fits habout _
    · split
      · exact habout
      · exact ending.withdraw_fits habout _

theorem Server.markRecoveryRequired_cases (hkind : ending.kind ≠ .expire) (s : Server) :
    s.onTables (markRecoveryRequired ending.jobId ending.lease now) = (false, s) ∨
      ∃ row, s.getJobById ending.jobId = some row ∧
        s.onTables (markRecoveryRequired ending.jobId ending.lease now) =
          (true, s.withJob (row.fenced now)) ∧
        (row.status.live → ending.applies now row) ∧ row.status ≠ .recoveryRequired := by
  rcases s.onTables_updateJob with hnone | ⟨row, hget, hmatching, hsome⟩
  · exact .inl hnone
  · rw [and_eq_true, decide_eq_true_eq] at hmatching
    refine .inr ⟨row, hget, hsome, fun hlive => ?_, hmatching.2.2.2⟩
    simp [EndRequest.applies, hlive, hkind]

theorem EndRequest.mark_cases (job : StrategyJob) (s : Server) :
    s.onTables (ending.mark job now) = (false, s) ∨ ∃ row row', s.getJobById ending.jobId = some row ∧
        s.onTables (ending.mark job now) = (true, s.withJob row') ∧
        (row'.id = row.id ∧ row'.tokenId = row.tokenId ∧ row'.handoffAt = row.handoffAt) ∧
        (ending.stops job = false → row'.status = .recoveryRequired) ∧
        (row.status.live → ending.applies now row) ∧ row.status ≠ .recoveryRequired := by
  unfold mark
  cases hkind : ending.kind with
  | fence =>
    have hne : ending.kind ≠ .expire := by simp [hkind]
    rcases s.markRecoveryRequired_cases hne with
      hnone | ⟨row, hget, hsome, happlies, hstatus⟩
    · exact .inl hnone
    · exact .inr ⟨row, _, hget, hsome, ⟨rfl, rfl, rfl⟩, fun _ => rfl, happlies, hstatus⟩
  | expire =>
    rcases s.onTables_updateJob with hnone | ⟨row, hget, hmatching, hsome⟩
    · exact .inl hnone
    · simp only [Lease.authorityClause, and_eq_true] at hmatching
      refine .inr ⟨row, _, hget, hsome, ⟨rfl, rfl, rfl⟩, fun _ => rfl, fun hlive => ?_, ?_⟩
      · simp [applies, hlive, hmatching.2]
      · intro hstatus
        simp [hstatus, JobStatus.live] at hmatching
  | release =>
    dsimp only
    split
    · have hne : ending.kind ≠ .expire := by simp [hkind]
      rcases s.markRecoveryRequired_cases hne with
        hnone | ⟨row, hget, hsome, happlies, hstatus⟩
      · exact .inl hnone
      · exact .inr ⟨row, _, hget, hsome, ⟨rfl, rfl, rfl⟩, fun _ => rfl, happlies, hstatus⟩
    · next hunlaunched =>
      rcases s.onTables_updateJob with hnone | ⟨row, hget, hmatching, hsome⟩
      · exact .inl hnone
      · simp only [Lease.authorityClause, and_eq_true] at hmatching
        refine .inr ⟨row, _, hget, hsome, ⟨rfl, rfl, rfl⟩, fun hstops => ?_, fun hlive => ?_, ?_⟩
        · have hnone : job.handoffAt.isNone := by simpa using hunlaunched
          simp [stops, hkind, hnone] at hstops
        · simp [applies, hlive, hkind]
        · intro hstatus
          simp [hstatus, JobStatus.live] at hmatching

theorem effect_marking {job : StrategyJob} (hsane : s.Sane jobId lease)
    (habout : ending.jobId = jobId ∧ ending.lease = lease)
    (htimely : ∀ row ∈ s.getJobById jobId, ending.applies now row →
      row.handoffAt.isSome → ending.stops job = false ∧ s.Revoked jobId lease) :
    Effect jobId lease s (ending.advance now s (.marking job)).2 (ending.goto (.marking job))
      (ending.advance now s (.marking job)).1 := by
  rw [EndRequest.advance]
  rcases ending.mark_cases job s with
    hnone | ⟨row, row', hget, hsome, ⟨hid, htoken, hhandoff⟩, hfenced, happlies, hstatus⟩
  · rw [hnone]
    exact (Server.Quiet.refl jobId s).effect hsane trivial fun h => absurd h Bool.false_ne_true
  · rw [hsome]
    rw [habout.1] at hget
    have hlive : row.handoffAt.isSome → row.status.live := by
      intro hhanded
      obtain ⟨other, hother, -, hwhere⟩ := hsane
      rw [hget, some.injEq] at hother
      subst hother
      rcases hwhere hhanded with hrunning | hrecovery
      · rw [hrunning]
        rfl
      · exact absurd hrecovery hstatus
    have hintime : row.handoffAt.isSome →
        ending.stops job = false ∧ s.Revoked jobId lease := fun hhanded =>
      htimely row hget (happlies (hlive hhanded)) hhanded
    exact .marked hsane hget hid htoken hhandoff (fun hhanded => hfenced (hintime hhanded).1)
      (fun hhanded _ => (hintime hhanded).2) trivial rfl

end End

theorem Call.effect {s : Attempt} {i : Nat} (hcall : s.calls[i]? = some call)
    (hsane : s.server.Sane jobId lease) (hfits : call.Fits jobId lease s.server)
    (htimely : s.Timely jobId lease (.advance i now)) :
    Effect jobId lease s.server (call.advance lc now s.server).2 call
      (call.advance lc now s.server).1 := by
  cases call with
  | prepare request phase => exact effect_prepare hsane hfits
  | returned answer =>
    exact (Server.Quiet.refl jobId s.server).effect hsane trivial fun h => h
  | ending request phase =>
    have hending : ∀ phase', (Call.ending request phase').inFlight →
        ∀ call' : Call, call'.inFlight := fun _ h => absurd h Bool.false_ne_true
    cases phase with
    | loading =>
      exact (Server.Quiet.refl jobId s.server).effect hsane (request.load_fits hfits _)
        fun h => hending _ h _
    | findingRun job runId =>
      rw [Call.advance, EndRequest.advance]
      split
      · exact (Server.Quiet.refl jobId s.server).effect hsane hfits fun h => hending _ h _
      · exact (Server.Quiet.refl jobId s.server).effect hsane (request.withdraw_fits hfits _)
          fun h => hending _ h _
    | releasingSession job runId nonce =>
      have hquiet : s.server.Quiet jobId (s.server.releaseRunSession runId nonce) := by
        unfold Server.releaseRunSession
        split
        · split
          · exact .of_tables rfl rfl
          · exact .refl jobId s.server
        · exact .refl jobId s.server
      exact hquiet.effect hsane (request.withdraw_fits hfits _) fun h => hending _ h _
    | revoking job tokenId =>
      exact ⟨Server.onward_revokeToken tokenId, hsane.revokeToken tokenId, hfits, fun hor =>
        hor.imp (fun h => h.revokeToken tokenId) fun h => hending _ h _⟩
    | marking job =>
      have htimely' : ∀ row ∈ s.server.getJobById jobId, request.applies now row →
          row.handoffAt.isSome → request.stops job = false ∧ s.server.Revoked jobId lease := by
        rw [Attempt.Timely, hcall] at htimely
        exact htimely
      exact effect_marking hsane hfits htimely'

end Effects

/-! ## interleavings -/

/-- The server is in order, every call knows what it should, and the attempt is settled or will
be. -/
structure Attempt.Guarded (jobId : String) (lease : Lease) (s : Attempt) : Prop where
  sane : s.server.Sane jobId lease
  fits : ∀ call ∈ s.calls, call.Fits jobId lease s.server
  settled : s.server.Settled jobId lease ∨ ∃ call ∈ s.calls, call.inFlight = true

theorem Attempt.Guarded.step {lc : Lifecycle} {jobId : String} {lease : Lease} {s : Attempt}
    {step : CallStep} (h : s.Guarded jobId lease) (htimely : s.Timely jobId lease step) :
    ((attempt lc jobId lease).step step s).Guarded jobId lease := by
  cases step with
  | start request =>
    refine ⟨h.sane, fun call hmem => ?_, h.settled.imp_right fun ⟨call, hmem, hflight⟩ =>
      ⟨call, mem_append_left _ hmem, hflight⟩⟩
    rcases mem_append.mp hmem with hold | hnew
    · exact h.fits call hold
    · rw [mem_singleton] at hnew
      subst hnew
      cases request with
      | prepare tokenId rawToken runId nonce =>
        exact ⟨⟨rfl, rfl⟩, fun h => absurd h Bool.false_ne_true, fun h => absurd h Bool.false_ne_true⟩
      | ending kind reason => exact ⟨rfl, rfl⟩
  | advance i now =>
    cases hcall : s.calls[i]? with
    | none =>
      have hstep : (attempt lc jobId lease).step (.advance i now) s = s := by
        simp only [attempt, hcall]
      rw [hstep]
      exact h
    | some call =>
      have hstep : (attempt lc jobId lease).step (.advance i now) s =
          ⟨(call.advance lc now s.server).2, s.calls.set i (call.advance lc now s.server).1⟩ := by
        simp only [attempt, hcall]
      have hmem : call ∈ s.calls := mem_of_getElem? hcall
      have heffect : Effect jobId lease s.server (call.advance lc now s.server).2 call
          (call.advance lc now s.server).1 := Call.effect hcall h.sane (h.fits call hmem) htimely
      rw [hstep]
      obtain ⟨hi, hget⟩ := List.getElem?_eq_some_iff.mp hcall
      refine ⟨heffect.sane, fun other hother => ?_, ?_⟩
      · rcases mem_or_eq_of_mem_set hother with hold | rfl
        · exact heffect.onward.fits (h.fits other hold)
        · exact heffect.fits
      · have hset : (call.advance lc now s.server).1 ∈
            s.calls.set i (call.advance lc now s.server).1 := mem_set hi _
        rcases h.settled with hsettled | ⟨other, hother, hflight⟩
        · exact (heffect.settled (.inl hsettled)).imp_right fun hflight => ⟨_, hset, hflight⟩
        · obtain ⟨j, hj⟩ := getElem?_of_mem hother
          by_cases hij : i = j
          · subst hij
            rw [hcall, some.injEq] at hj
            subst hj
            exact (heffect.settled (.inr hflight)).imp_right fun hflight => ⟨_, hset, hflight⟩
          · refine .inr ⟨other, ?_, hflight⟩
            have hkept : (s.calls.set i (call.advance lc now s.server).1)[j]? = some other := by
              rw [getElem?_set, if_neg hij, hj]
            exact mem_of_getElem? hkept

/-- When every update that ends the attempt comes in time, then once all calls have returned an
attempt that is not live has no usable token, and what was handed off is never stopped. -/
theorem ended_attempt_revoked (lc : Lifecycle) (jobId : String) (lease : Lease) {server : Server}
    {job : StrategyJob} (hjob : server.getJobById jobId = some job)
    (hunprepared : job.tokenId = none ∧ job.handoffAt = none)
    (hfresh : ∀ token ∈ server.tokens.rows, token.hostedJobId = jobId →
      token.hostedAttempt ≠ lease.attempt) (steps : List CallStep)
    (htimely : (attempt lc jobId lease).Along (fun step _ s => s.Timely jobId lease step) steps
      { server := server }) :
    ∃ last row, (attempt lc jobId lease).run steps { server := server } = last ∧
      last.server.getJobById jobId = some row ∧ (last.calls.all Call.done = true → row.status.live = false →
        last.server.Revoked jobId lease) ∧
      (row.handoffAt.isSome = true → row.status ≠ .stopped) := by
  have hguarded : ({ server := server } : Attempt).Guarded jobId lease := by
    refine ⟨⟨job, hjob, fun token hmem hid hattempt => ?_, ?_⟩, fun call hcall => ?_,
      .inl (.inl fun token hmem hid hattempt => ?_)⟩
    · exact absurd hattempt (hfresh token hmem hid)
    · simp [hunprepared.2]
    · exact absurd hcall List.not_mem_nil
    · exact absurd hattempt (hfresh token hmem hid)
  generalize ({ server := server } : Attempt) = s at htimely hguarded ⊢
  induction steps generalizing s with
  | cons step rest ih => exact ih _ htimely.2 (hguarded.step htimely.1)
  | nil =>
    obtain ⟨row, hrow, -, hwhere⟩ := hguarded.sane
    refine ⟨s, row, rfl, hrow, fun hdone hended => ?_, fun hhanded hstopped => ?_⟩
    · rcases hguarded.settled with (hrevoked | ⟨other, hother, -, hlive⟩) | ⟨call, hmem, hflight⟩
      · exact hrevoked
      · rw [hrow, Option.some.injEq] at hother
        rw [hother, hlive] at hended
        cases hended
      · have hreturned := List.all_eq_true.mp hdone call hmem
        cases call with
        | returned answer => exact absurd hflight Bool.false_ne_true
        | prepare request phase => exact absurd hreturned Bool.false_ne_true
        | ending request phase => exact absurd hreturned Bool.false_ne_true
    · rcases hwhere hhanded with hrunning | hrecovery
      · rw [hrunning] at hstopped
        cases hstopped
      · rw [hrecovery] at hstopped
        cases hstopped

def demoLifecycle : Lifecycle := { capabilityError := fun _ => none, runAccepted := fun _ => true }

def demoJob : StrategyJob :=
  { id := "j1", strategyId := "s", versionId := "v", ownerId := "app:a"
    accountScope := "paper:main", jobKind := "finite", executionMode := "paper"
    occurrenceKey := none, attempt := 1, paramsSnapshot := "\x7b\x7d"
    capabilitiesSnapshot := "\x7b\x7d", policySnapshot := demoPolicy
    desiredState := .started, status := .starting, leaseOwner := some "sup", leaseEpoch := 1
    leaseUntil := some 100 }

def demoLease : Lease := ⟨"sup", 1, 1⟩

def demoServer : Server where
  tables := { demoTables with jobs := Keyed.empty.upsert demoJob }
  tokens := .empty
  runs := .empty

def demoPrepare : CallStep := .start (.prepare "worker_1" "kwa_1" "run_1" "wsn_1")

/-- The attempt is prepared and then fenced. -/
def demoFenced : List CallStep :=
  demoPrepare :: List.replicate 9 (.advance 0 5) ++
    .start (.ending .fence "fenced_by_supervisor") :: List.replicate 3 (.advance 1 6)

theorem ended_attempt_revoked_demo :
    ∃ last row, (attempt demoLifecycle "j1" demoLease).run demoFenced { server := demoServer } = last ∧
      last.server.getJobById "j1" = some row ∧ (last.calls.all Call.done = true → row.status.live = false →
        last.server.Revoked "j1" demoLease) ∧
      (row.handoffAt.isSome = true → row.status ≠ .stopped) :=
  have hjob : demoServer.getJobById "j1" = some demoJob := by decide +kernel
  ended_attempt_revoked demoLifecycle "j1" demoLease hjob ⟨rfl, rfl⟩ (by decide +kernel) demoFenced
    (by decide +kernel)

/-- A call that ends the attempt loads the job before the preparation reserves its token, and
writes what it decided after the handoff. -/
def demoLate (kind : EndKind) : List CallStep :=
  [.start (.ending kind "fenced_by_supervisor"), .advance 0 5, demoPrepare] ++
    List.replicate 9 (.advance 1 5) ++ [.advance 0 6]

def demoAfter (kind : EndKind) : Attempt :=
  (attempt demoLifecycle "j1" demoLease).run (demoLate kind) { server := demoServer }

/-- The fenced attempt keeps a usable token, and the released one is stopped though it was
handed off. -/
theorem late_end_keeps_token :
    (∃ row, (demoAfter .fence).calls.all Call.done = true ∧
      (demoAfter .fence).server.getJobById "j1" = some row ∧ row.status = .recoveryRequired ∧
      ¬ (demoAfter .fence).server.Revoked "j1" demoLease) ∧
    ∃ row, (demoAfter .release).calls.all Call.done = true ∧
      (demoAfter .release).server.getJobById "j1" = some row ∧ row.status = .stopped ∧
      row.handoffAt = some 5 ∧ row.reconciledAt = none := by
  have hfence : ((demoAfter .fence).server.getJobById "j1").map StrategyJob.status =
      some .recoveryRequired := by
    decide +kernel
  have hrelease : ((demoAfter .release).server.getJobById "j1").map (fun row =>
      (row.status, row.handoffAt, row.reconciledAt)) = some (.stopped, some 5, none) := by
    decide +kernel
  obtain ⟨fenced, hfenced, hstatus⟩ := Option.map_eq_some_iff.mp hfence
  obtain ⟨released, hreleased, hrow⟩ := Option.map_eq_some_iff.mp hrelease
  simp only [Prod.mk.injEq] at hrow
  exact ⟨⟨fenced, by decide +kernel, hfenced, hstatus, by decide +kernel⟩,
    released, by decide +kernel, hreleased, hrow.1, hrow.2.1, hrow.2.2⟩

end KiteAlgo.Hosted
