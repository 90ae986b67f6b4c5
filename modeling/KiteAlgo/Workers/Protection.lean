import KiteAlgo.Workers
import KiteAlgo.Lib.Run

/-!
# KiteAlgo.Workers.Protection

Backend protection of one worker run (`protection_runtime.py`, `worker_protection.py`).  A
pass reads the protection state, evaluates it, claims the exit by writing a claim id into the
state, submits the exit under an idempotency key and writes how it went; a claim that is 60
seconds old may be taken again.  A worker may reset the protection, which starts the next
generation.

`ProtectionRun` is the state with the passes and patch requests on it, each advanced one await
at a time.  As long as a claimer is done before its claim is found old and a pass finds the
claim and the exit that it read (`Orderly`), exits are final (`protection_exit_final`).
-/

namespace KiteAlgo

/-- A value of `details`. -/
inductive Detail where
  | null
  | text (s : String)
  | int (n : Int)
  | float (x : ℚ)
  deriving DecidableEq

def Detail.toJson : Detail → Json
  | null => .none
  | text s => .str s
  | int n => .int n
  | float x => .float x

/-- `backend_protection_state`. -/
structure ProtectionState where
  status : String := ""
  generation : Option Int := none
  triggeredRule : Option String := none
  details : Dict String Detail := []
  exitSubmitted : Bool := false
  exitSubmissionStatus : Option String := none
  exitClaimId : Option Nat := none
  exitClaimedAt : Option Int := none
  exitIdempotencyKey : Option String := none
  deriving DecidableEq

/-- What the rules find, from the configuration, the positions, the heartbeat and the clock. -/
inductive Verdict where
  | active
  | triggered (rule : String) (details : Dict String Detail)
  deriving DecidableEq

namespace ProtectionState

/-- `_initial_backend_protection_state`. -/
def initial (enabled : Bool) (generation : Int) : ProtectionState where
  status := if enabled then "active" else "disabled"
  generation := some generation

/-- The generation as it is compared: `_to_int(…, default=0)`. -/
def generationNumber (state : ProtectionState) : Int := state.generation.getD 0

/-- `evaluate_backend_protection`. -/
def evaluate (enabled : Bool) (state : ProtectionState) (verdict : Verdict) : ProtectionState :=
  if state.exitSubmitted then state
  else if !enabled then { status := "disabled", generation := state.generation }
  else
    match verdict with
    | .active => { status := "active", generation := state.generation }
    | .triggered rule details =>
      { status := "triggered", triggeredRule := some rule, details := details
        generation := state.generation }

def hasRecentExitClaim (state : ProtectionState) (now : Int) : Bool :=
  if state.exitSubmitted || state.exitClaimId.isNone then false
  else
    match state.exitClaimedAt with
    | none => true
    | some claimedAt => decide (now - claimedAt < seconds 60)

/-- `_idempotency_key`, with the hexadecimal digest of `hashlib.sha1`. -/
def idempotencyKey (sha1 : String → String) (runId : String) (state : ProtectionState) : String :=
  let generation := if state.generationNumber = 0 then 1 else state.generationNumber
  let rule := match state.triggeredRule with
    | some rule => if rule = "" then "unknown" else rule
    | none => "unknown"
  let details := (PyVal.dict (state.details.map fun e => (Key.str e.1, e.2.toJson)) : Json)
  "backend-protection:" ++ runId ++ ":g" ++ toString generation ++ ":" ++ rule ++ ":" ++
    String.ofList ((sha1 (details.jsonDumps true)).toList.take 10)

end ProtectionState

/-- What a write expects to find (`_persist_backend_protection_change_sync`). -/
structure Expectation where
  generation : Option Int := none
  triggeredRule : Option String := none
  exitClaimId : Option (Option Nat) := none

def Expectation.Holds (expected : Expectation) (state : ProtectionState) : Prop :=
  (∀ generation ∈ expected.generation, state.generationNumber = generation) ∧
    (∀ rule ∈ expected.triggeredRule, state.triggeredRule.getD "" = rule) ∧
    ∀ claim ∈ expected.exitClaimId, state.exitClaimId = claim

instance (expected : Expectation) (state : ProtectionState) : Decidable (expected.Holds state) :=
  inferInstanceAs (Decidable (_ ∧ _ ∧ _))

/-- How `exit_submitter` ends. -/
inductive ExitOutcome where
  | accepted
  | deferred
  | raised
  deriving DecidableEq

/-- A call of `exit_submitter`. -/
structure ExitSubmission where
  generation : Option Int
  triggeredRule : Option String
  details : Dict String Detail
  key : Option String

/-- Where a pass is: it has listed the run, read the clock, claimed the exit, called
`exit_submitter`, or been refused the write of the outcome; a patch request has read the run. -/
inductive PassPhase where
  | listed (enabled : Bool) (read : ProtectionState)
  | loading (enabled : Bool) (read : ProtectionState) (now : Int)
  | claimed (claim : ProtectionState) (id : Nat)
  | submitting (claim : ProtectionState) (id : Nat)
  | refused (outcome : ProtectionState) (id : Nat)
  | patching (read : ProtectionState)
  | done

/-- The protection of one run.  `minted` counts claim ids, `judgedOld` are the claims that a
pass found 60 seconds old, `lastClaim` is the last one that was stored. -/
structure ProtectionRun where
  runId : String
  now : Int := 0
  enabled : Bool
  state : ProtectionState
  passes : List PassPhase := []
  submissions : List ExitSubmission := []
  minted : Nat := 0
  judgedOld : List Nat := []
  lastClaim : Option Nat := none

/-- What the next step of a pass or a request meets. -/
inductive PassStep where
  | clock
  | evaluate (verdict : Verdict)
  | submit
  | outcome (outcome : ExitOutcome)
  | fallBack
  | patch (enabled : Bool)
  deriving DecidableEq

/-- What happens: time passes, a pass lists the run, a patch request reads it, or one of them
goes on. -/
inductive ProtectionEvent where
  | tick (microseconds : Nat)
  | list
  | readForPatch
  | step (pass : Nat) (what : PassStep)
  deriving DecidableEq

namespace ProtectionRun

variable (sha1 : String → String)

def goTo (s : ProtectionRun) (i : Nat) (phase : PassPhase) : ProtectionRun :=
  { s with passes := s.passes.set i phase }

/-- `_has_recent_exit_claim` with the clock; a claim that is there and not recent is old. -/
def readClock (s : ProtectionRun) (i : Nat) (enabled : Bool) (read : ProtectionState) :
    ProtectionRun :=
  if read.hasRecentExitClaim s.now then s.goTo i .done
  else
    { s with
      judgedOld := if read.exitSubmitted then s.judgedOld
        else read.exitClaimId.toList ++ s.judgedOld }.goTo i (.loading enabled read s.now)

def claimState (s : ProtectionRun) (next : ProtectionState) (now : Int) : ProtectionState :=
  { next with
    exitClaimId := some s.minted
    exitClaimedAt := some now
    exitIdempotencyKey := some (next.idempotencyKey sha1 s.runId) }

def claimExpects (read : ProtectionState) : Expectation where
  generation := read.generation
  triggeredRule := some (read.triggeredRule.getD "")

def persistExpects (read : ProtectionState) : Expectation :=
  { claimExpects read with exitClaimId := some read.exitClaimId }

def didTrigger (read next : ProtectionState) : Bool :=
  next.status == "triggered" && !read.exitSubmitted

/-- `_evaluate_run` from `evaluate_backend_protection` to the first write. -/
def decideExit (s : ProtectionRun) (i : Nat) (enabled : Bool) (read : ProtectionState) (now : Int)
    (verdict : Verdict) : ProtectionRun :=
  let next := read.evaluate enabled verdict
  if didTrigger read next then
    let claim := s.claimState sha1 next now
    if (claimExpects read).Holds s.state then
      { s with state := claim, minted := s.minted + 1, lastClaim := some s.minted }.goTo i
        (.claimed claim s.minted)
    else s.goTo i .done
  else if (persistExpects read).Holds s.state then { s with state := next }.goTo i .done
  else s.goTo i .done

/-- The call of `exit_submitter` for a claim. -/
def submission (claim : ProtectionState) : ExitSubmission :=
  ⟨claim.generation, claim.triggeredRule, claim.details, claim.exitIdempotencyKey⟩

/-- `exit_submitter` is called. -/
def submitExit (s : ProtectionRun) (i : Nat) (claim : ProtectionState) (id : Nat) : ProtectionRun :=
  { s with submissions := s.submissions ++ [submission claim] }.goTo i (.submitting claim id)

def outcomeState (claim : ProtectionState) : ExitOutcome → ProtectionState
  | .accepted => { claim with exitSubmitted := true }
  | .deferred => { claim with exitSubmitted := false, exitSubmissionStatus := some "deferred" }
  | .raised =>
    { claim with status := "error", exitSubmitted := true, exitSubmissionStatus := some "unknown" }

def outcomeExpects (claim : ProtectionState) (id : Nat) : Expectation where
  generation := claim.generation
  exitClaimId := some (some id)

def writeOutcome (s : ProtectionRun) (i : Nat) (claim : ProtectionState) (id : Nat)
    (outcome : ExitOutcome) : ProtectionRun :=
  if (outcomeExpects claim id).Holds s.state then
    { s with state := outcomeState claim outcome }.goTo i .done
  else s.goTo i (.refused (outcomeState claim outcome) id)

/-- The write of `patch_worker_run_protection`. -/
def writePatch (s : ProtectionRun) (i : Nat) (read : ProtectionState) (enabled : Bool) :
    ProtectionRun :=
  if Expectation.Holds ⟨some read.generationNumber, some (read.triggeredRule.getD ""),
      some read.exitClaimId⟩ s.state then
    { s with
      enabled := enabled
      state := .initial enabled (read.generationNumber + 1) }.goTo i .done
  else s.goTo i .done

/-- One step of a pass or a request; what cannot happen where it is, does not. -/
def stepPass (s : ProtectionRun) (i : Nat) : PassPhase → PassStep → ProtectionRun
  | .listed enabled read, .clock => s.readClock i enabled read
  | .loading enabled read now, .evaluate verdict => s.decideExit sha1 i enabled read now verdict
  | .claimed claim id, .submit => s.submitExit i claim id
  | .submitting claim id, .outcome outcome => s.writeOutcome i claim id outcome
  | .refused outcome _, .fallBack => { s with state := outcome }.goTo i .done
  | .patching read, .patch enabled => s.writePatch i read enabled
  | _, _ => s

/-- The answer of `patch_worker_run_protection` is 409 right after it read the run. -/
def patchRefused (state : ProtectionState) : Bool :=
  state.exitSubmitted || state.exitClaimId.isSome ||
    !(["", "active", "disabled", "triggered", "error"].contains state.status)

/-- One event.  `list_protection_enabled_runs` lists the run while protection is enabled. -/
def step (e : ProtectionEvent) (s : ProtectionRun) : ProtectionRun :=
  match e with
  | .tick microseconds => { s with now := s.now + microseconds }
  | .list => if s.enabled then { s with passes := s.passes ++ [.listed s.enabled s.state] } else s
  | .readForPatch =>
    if patchRefused s.state then s else { s with passes := s.passes ++ [.patching s.state] }
  | .step i what =>
    match s.passes[i]? with
    | some phase => s.stepPass sha1 i phase what
    | none => s

def machine : Machine ProtectionEvent ProtectionRun Unit where
  step := step sha1
  out _ _ := []

/-- A run as it is created, with protection enabled, disabled or left out. -/
def created (runId : String) : Option Bool → ProtectionRun
  | some enabled => { runId := runId, enabled := enabled, state := .initial enabled 1 }
  | none => { runId := runId, enabled := false, state := {} }

/-! ## exits are final -/

/-- What an event may do to the stored state: it takes no exit back and no generation, and
what a claimer writes changes nothing once another pass has claimed. -/
structure Sound (e : ProtectionEvent) (s : ProtectionRun) : Prop where
  exitSubmitted : s.state.exitSubmitted = true → (step sha1 e s).state.exitSubmitted = true
  generation : s.state.generationNumber ≤ (step sha1 e s).state.generationNumber
  claimer : ∀ (i : Nat) what claim id, e = .step i what →
    (s.passes[i]? = some (.claimed claim id) ∨ s.passes[i]? = some (.submitting claim id) ∨
      s.passes[i]? = some (.refused claim id)) →
    s.lastClaim = some id ∨ (step sha1 e s).state = s.state

/-- All exits submitted for one generation carry one key. -/
def OneKey (s : ProtectionRun) : Prop :=
  ∀ a ∈ s.submissions, ∀ b ∈ s.submissions, a.generation = b.generation → a.key = b.key

/-- What a step has to find.  Where a pass writes what it evaluated, the claim and the exit are
the ones it read; where it submits an exit, those submitted for the generation had its rule and
details; where it writes the outcome, no pass has found its claim old. -/
def InOrder (s : ProtectionRun) : PassPhase → PassStep → Prop
  | .loading enabled read _, .evaluate verdict =>
    (if didTrigger read (read.evaluate enabled verdict) then claimExpects read
      else persistExpects read).Holds s.state →
    s.state.exitClaimId = read.exitClaimId ∧ s.state.exitSubmitted = read.exitSubmitted
  | .claimed claim _, .submit =>
    ∀ earlier ∈ s.submissions, earlier.generation = claim.generation →
      earlier.triggeredRule = claim.triggeredRule ∧ earlier.details = claim.details
  | .submitting _ id, .outcome _ => id ∉ s.judgedOld
  | _, _ => True

instance decidableInOrder (s : ProtectionRun) : ∀ phase what, Decidable (s.InOrder phase what)
  | .loading _ _ _, .evaluate _ => inferInstanceAs (Decidable (_ → _ ∧ _))
  | .claimed _ _, .submit => inferInstanceAs (Decidable (∀ earlier ∈ s.submissions, _ → _ ∧ _))
  | .submitting _ id, .outcome _ => inferInstanceAs (Decidable (id ∉ s.judgedOld))
  | .loading _ _ _, .clock | .loading _ _ _, .submit | .loading _ _ _, .outcome _
  | .loading _ _ _, .fallBack | .loading _ _ _, .patch _ | .claimed _ _, .clock
  | .claimed _ _, .evaluate _ | .claimed _ _, .outcome _ | .claimed _ _, .fallBack
  | .claimed _ _, .patch _ | .submitting _ _, .clock | .submitting _ _, .evaluate _
  | .submitting _ _, .submit | .submitting _ _, .fallBack | .submitting _ _, .patch _
  | .listed _ _, _ | .refused _ _, _ | .patching _, _ | .done, _ => isTrue trivial

/-- The step that an event is, if it is one, is in order. -/
def Orderly (e : ProtectionEvent) (s : ProtectionRun) : Prop :=
  match e with
  | .step i what => ∀ phase ∈ s.passes[i]?, s.InOrder phase what
  | .tick _ | .list | .readForPatch => True

instance decidableOrderly (s : ProtectionRun) : ∀ e, Decidable (Orderly e s)
  | .step i what => inferInstanceAs (Decidable (∀ phase ∈ s.passes[i]?, s.InOrder phase what))
  | .tick _ | .list | .readForPatch => isTrue trivial

/-! ### the invariant -/

/-- The claim of a pass that has not written its outcome. -/
def holds : PassPhase → Option Nat
  | .claimed _ id | .submitting _ id | .refused _ id => some id
  | .listed _ _ | .loading _ _ _ | .patching _ | .done => none

/-- The claim is stored as it was made, or a pass found it old. -/
def Claims (s : ProtectionRun) (claim : ProtectionState) (id : Nat) : Prop :=
  id < s.minted ∧ claim.exitClaimId = some id ∧ claim.exitSubmitted = false ∧
    claim.exitIdempotencyKey = some (claim.idempotencyKey sha1 s.runId) ∧
    (id ∈ s.judgedOld ∨ s.state = claim ∧ s.lastClaim = some id)

def PassOk (s : ProtectionRun) : PassPhase → Prop
  | .listed _ read => read.generation.isSome
  | .loading _ read _ => read.generation.isSome ∧
      (read.exitSubmitted = false → ∀ id, read.exitClaimId = some id → id ∈ s.judgedOld)
  | .claimed claim id | .submitting claim id => s.Claims sha1 claim id
  | .refused _ _ => False
  | .patching read => read.exitClaimId = none
  | .done => True

/-- No two passes hold one claim, a recorded exit has its claim, enabled protection has a
generation, and the key of an exit is made from its generation, which fixes rule and details. -/
structure Valid (s : ProtectionRun) : Prop where
  passes : ∀ (i : Nat) phase, s.passes[i]? = some phase → s.PassOk sha1 phase
  unique : ∀ (i j : Nat) a b id, s.passes[i]? = some a → s.passes[j]? = some b →
    holds a = some id → holds b = some id → i = j
  claimed : s.state.exitSubmitted = true → s.state.exitClaimId.isSome
  generation : s.enabled = true → s.state.generation.isSome
  keyed : ∀ sent ∈ s.submissions, sent.key = some (ProtectionState.idempotencyKey sha1 s.runId
    { generation := sent.generation, triggeredRule := sent.triggeredRule, details := sent.details })
  agree : ∀ a ∈ s.submissions, ∀ b ∈ s.submissions, a.generation = b.generation →
    a.triggeredRule = b.triggeredRule ∧ a.details = b.details

variable {sha1} {s s' : ProtectionRun} {i : Nat} {phase new : PassPhase}

theorem valid_created (runId : String) (protection : Option Bool) :
    Valid sha1 (created runId protection) := by
  cases protection with
  | none => constructor <;> simp [created]
  | some enabled => constructor <;> simp [created, ProtectionState.initial]

theorem Valid.oneKey (hs : Valid sha1 s) : s.OneKey := by
  intro a ha b hb hgeneration
  obtain ⟨hrule, hdetails⟩ := hs.agree a ha b hb hgeneration
  rw [hs.keyed a ha, hs.keyed b hb, hgeneration, hrule, hdetails]

theorem PassOk.lt_minted (h : s.PassOk sha1 phase) {id : Nat} (hid : holds phase = some id) :
    id < s.minted := by
  cases phase with
  | claimed claim id' => cases hid; exact h.1
  | submitting claim id' => cases hid; exact h.1
  | refused outcome id' => exact h.elim
  | _ => cases hid

theorem PassOk.mono (h : s.PassOk sha1 phase) (hrunId : s'.runId = s.runId)
    (hminted : s.minted ≤ s'.minted) (hjudged : ∀ id ∈ s.judgedOld, id ∈ s'.judgedOld)
    (hclaim : ∀ id, holds phase = some id → s.state.exitClaimId = some id → s.state.exitSubmitted = false →
        id ∈ s'.judgedOld ∨ s'.state = s.state ∧ s'.lastClaim = s.lastClaim) :
    s'.PassOk sha1 phase := by
  have hclaims : ∀ claim id, holds phase = some id → s.Claims sha1 claim id → s'.Claims sha1 claim id := by
    rintro claim id hid ⟨hlt, hown, hopen, hkey, hstored⟩
    refine ⟨lt_of_lt_of_le hlt hminted, hown, hopen, by rw [hrunId]; exact hkey, ?_⟩
    obtain hold | ⟨rfl, hlast⟩ := hstored
    · exact .inl (hjudged id hold)
    · obtain hold | ⟨hstate, hsame⟩ := hclaim id hid hown hopen
      · exact .inl hold
      · exact .inr ⟨hstate, hsame.trans hlast⟩
  cases phase with
  | listed enabled read => exact h
  | loading enabled read now =>
    exact ⟨h.1, fun hopen id hid => hjudged id (h.2 hopen id hid)⟩
  | claimed claim id => exact hclaims claim id rfl h
  | submitting claim id => exact hclaims claim id rfl h
  | refused outcome id => exact h.elim
  | patching read => exact h
  | done => trivial

theorem Valid.advance (hs : Valid sha1 s) (hi : s.passes[i]? = some phase)
    (hpasses : s'.passes = s.passes.set i new)
    (hkeep : ∀ (j : Nat) other, j ≠ i → s.passes[j]? = some other → s.PassOk sha1 other →
      s'.PassOk sha1 other)
    (hnew : s'.PassOk sha1 new)
    (hholds : ∀ id, holds new = some id → holds phase = some id ∨ id = s.minted)
    (hclaimed : s'.state.exitSubmitted = true → s'.state.exitClaimId.isSome)
    (hgeneration : s'.enabled = true → s'.state.generation.isSome)
    (hrunId : s'.runId = s.runId) (hsubmissions : s'.submissions = s.submissions) :
    Valid sha1 s' := by
  have hat : ∀ (j : Nat) other, s'.passes[j]? = some other →
      (j = i ∧ other = new) ∨ (j ≠ i ∧ s.passes[j]? = some other) := by
    intro j other hj
    rw [hpasses, List.getElem?_set] at hj
    split at hj
    · next hij =>
      split at hj
      · exact .inl ⟨hij.symm, (Option.some.inj hj).symm⟩
      · cases hj
    · next hij => exact .inr ⟨fun h => hij h.symm, hj⟩
  -- the claim of the pass is its old one or a fresh one, so nobody else holds it
  have hother : ∀ (j : Nat) other id, j ≠ i → s.passes[j]? = some other → holds other = some id →
      holds new ≠ some id := by
    intro j other id hji hj hother hnew
    obtain hold | rfl := hholds id hnew
    · exact hji (hs.unique j i other phase id hj hi hother hold)
    · exact absurd ((hs.passes j other hj).lt_minted hother) (lt_irrefl _)
  refine ⟨fun j other hj => ?_, fun j k a b id ha hb hida hidb => ?_, hclaimed, hgeneration, ?_, ?_⟩
  · obtain ⟨-, rfl⟩ | ⟨hji, hj⟩ := hat j other hj
    · exact hnew
    · exact hkeep j other hji hj (hs.passes j other hj)
  · obtain ⟨rfl, rfl⟩ | ⟨hji, hj⟩ := hat j a ha
    · obtain ⟨rfl, -⟩ | ⟨hki, hk⟩ := hat k b hb
      · rfl
      · exact absurd hida (hother k b id hki hk hidb)
    · obtain ⟨rfl, rfl⟩ | ⟨-, hk⟩ := hat k b hb
      · exact absurd hidb (hother j a id hji hj hida)
      · exact hs.unique j k a b id hj hk hida hidb
  · rw [hsubmissions, hrunId]
    exact hs.keyed
  · rw [hsubmissions]
    exact hs.agree

theorem Valid.goTo (hs : Valid sha1 s) (hi : s.passes[i]? = some phase)
    (hnew : s.PassOk sha1 new) (hholds : ∀ id, holds new = some id → holds phase = some id) :
    Valid sha1 (s.goTo i new) :=
  have hmono : ∀ other, s.PassOk sha1 other → (s.goTo i new).PassOk sha1 other := fun _ h =>
    h.mono rfl (le_refl _) (fun _ h => h) fun _ _ _ _ => .inr ⟨rfl, rfl⟩
  hs.advance hi rfl (fun _ other _ _ h => hmono other h) (hmono new hnew)
    (fun id hid => .inl (hholds id hid)) hs.claimed hs.generation rfl rfl

theorem Valid.done (hs : Valid sha1 s) (hi : s.passes[i]? = some phase) :
    Valid sha1 (s.goTo i .done) := hs.goTo hi trivial fun _ h => by cases h

/-- The stored state keeps a recorded exit and goes back to no earlier generation. -/
structure Keeps (s s' : ProtectionRun) : Prop where
  exitSubmitted : s.state.exitSubmitted = true → s'.state.exitSubmitted = true
  generation : s.state.generationNumber ≤ s'.state.generationNumber

theorem Keeps.of_state (h : s'.state = s.state) : Keeps s s' :=
  ⟨fun hexit => h ▸ hexit, Int.le_of_eq (congrArg ProtectionState.generationNumber h.symm)⟩

end ProtectionRun

namespace ProtectionState

variable {state : ProtectionState} {enabled : Bool} {verdict : Verdict}

@[simp] theorem evaluate_generation : (state.evaluate enabled verdict).generation = state.generation := by
  unfold evaluate
  split
  · rfl
  · split
    · rfl
    · cases verdict <;> rfl

theorem evaluate_of_submitted (h : state.exitSubmitted = true) :
    state.evaluate enabled verdict = state := if_pos h

theorem evaluate_open (h : state.exitSubmitted = false) :
    (state.evaluate enabled verdict).exitSubmitted = false := by
  unfold evaluate
  rw [h, if_neg (by decide)]
  split
  · rfl
  · cases verdict <;> rfl

end ProtectionState

namespace ProtectionRun

variable {sha1 : String → String} {s s' : ProtectionRun} {i : Nat} {phase : PassPhase}
  {enabled : Bool} {read : ProtectionState}

/-! ### steps -/

theorem Valid.readClock (hs : Valid sha1 s) (hi : s.passes[i]? = some (.listed enabled read)) :
    Valid sha1 (s.readClock i enabled read) ∧ Keeps s (s.readClock i enabled read) := by
  have hread : read.generation.isSome := hs.passes i _ hi
  unfold ProtectionRun.readClock
  split
  · exact ⟨hs.done hi, .of_state rfl⟩
  · refine ⟨hs.advance hi rfl ?_ ⟨hread, fun hopen id hid => ?_⟩ (fun _ h => by cases h) hs.claimed
      hs.generation rfl rfl, .of_state rfl⟩
    · refine fun _ other _ _ h => h.mono rfl (le_refl _) (fun id hid => ?_)
        fun _ _ _ _ => .inr ⟨rfl, rfl⟩
      show id ∈ if read.exitSubmitted then s.judgedOld else read.exitClaimId.toList ++ s.judgedOld
      split
      · exact hid
      · exact List.mem_append_right _ hid
    · show id ∈ if read.exitSubmitted then s.judgedOld else read.exitClaimId.toList ++ s.judgedOld
      rw [hopen, hid]
      exact (.head _)

theorem Valid.decideExit (hs : Valid sha1 s) {now : Int} {verdict : Verdict}
    (hi : s.passes[i]? = some (.loading enabled read now))
    (horder : s.InOrder (.loading enabled read now) (.evaluate verdict)) :
    Valid sha1 (s.decideExit sha1 i enabled read now verdict) ∧
      Keeps s (s.decideExit sha1 i enabled read now verdict) := by
  obtain ⟨hread, hold⟩ := hs.passes i _ hi
  obtain ⟨generation, hgeneration⟩ := Option.isSome_iff_exists.mp hread
  -- an open claim that a pass read is old by now
  have hfound : s.state.exitClaimId = read.exitClaimId → s.state.exitSubmitted = read.exitSubmitted →
      ∀ id, s.state.exitClaimId = some id → s.state.exitSubmitted = false → id ∈ s.judgedOld :=
    fun hclaim hexit id hid hopen => hold (hexit ▸ hopen) id (hclaim ▸ hid)
  have hnumber : (claimExpects read).Holds s.state →
      s.state.generationNumber = (read.evaluate enabled verdict).generationNumber := by
    intro hexpected
    rw [hexpected.1 generation hgeneration, ProtectionState.generationNumber,
      ProtectionState.evaluate_generation, hgeneration]
    rfl
  unfold ProtectionRun.decideExit
  by_cases htrigger : didTrigger read (read.evaluate enabled verdict) = true
  · have hopen : read.exitSubmitted = false := by
      rw [didTrigger, Bool.and_eq_true, Bool.not_eq_true'] at htrigger
      exact htrigger.2
    simp only [htrigger, if_true]
    split
    · next hexpected =>
      obtain ⟨hclaim, hexit⟩ := horder (by rw [if_pos htrigger]; exact hexpected)
      refine ⟨hs.advance hi rfl (fun _ other _ _ h => ?_) ?_ ?_ ?_ (fun _ => ?_) rfl rfl, ?_, ?_⟩
      · exact h.mono rfl (Nat.le_succ _) (fun _ h => h)
          fun id _ hid hopen => .inl (hfound hclaim hexit id hid hopen)
      · exact ⟨Nat.lt_succ_self _, rfl, ProtectionState.evaluate_open hopen, rfl, .inr ⟨rfl, rfl⟩⟩
      · intro id hid
        exact .inr (Option.some.inj hid).symm
      · exact fun _ => rfl
      · show (read.evaluate enabled verdict).generation.isSome
        rw [ProtectionState.evaluate_generation]
        exact hread
      · intro hsubmitted
        rw [hexit, hopen] at hsubmitted
        cases hsubmitted
      · exact Int.le_of_eq (hnumber hexpected)
    · exact ⟨hs.done hi, .of_state rfl⟩
  · simp only [htrigger, Bool.false_eq_true, if_false]
    split
    · next hexpected =>
      obtain ⟨hclaim, hexit⟩ := horder (by rw [if_neg htrigger]; exact hexpected)
      refine ⟨hs.advance hi rfl (fun _ other _ _ h => ?_) trivial (fun _ h => by cases h)
        (fun hsubmitted => ?_) (fun _ => ?_) rfl rfl, fun hsubmitted => ?_, ?_⟩
      · exact h.mono rfl (le_refl _) (fun _ h => h)
          fun id _ hid hopen => .inl (hfound hclaim hexit id hid hopen)
      · cases hopen : read.exitSubmitted with
        | false =>
          have hnext : (read.evaluate enabled verdict).exitSubmitted = true := hsubmitted
          rw [ProtectionState.evaluate_open hopen] at hnext
          cases hnext
        | true =>
          show (read.evaluate enabled verdict).exitClaimId.isSome
          rw [ProtectionState.evaluate_of_submitted hopen, ← hclaim]
          exact hs.claimed (hexit.trans hopen)
      · show (read.evaluate enabled verdict).generation.isSome
        rw [ProtectionState.evaluate_generation]
        exact hread
      · show (read.evaluate enabled verdict).exitSubmitted = true
        rw [hexit] at hsubmitted
        rw [ProtectionState.evaluate_of_submitted hsubmitted, hsubmitted]
      · exact Int.le_of_eq (hnumber ⟨hexpected.1, hexpected.2.1, fun _ h => by cases h⟩)
    · exact ⟨hs.done hi, .of_state rfl⟩

variable {claim : ProtectionState} {id : Nat}

theorem Valid.submitExit (hs : Valid sha1 s) (hi : s.passes[i]? = some (.claimed claim id))
    (horder : s.InOrder (.claimed claim id) .submit) :
    Valid sha1 (s.submitExit i claim id) ∧ Keeps s (s.submitExit i claim id) := by
  have hclaim : s.Claims sha1 claim id := hs.passes i _ hi
  have hgo : Valid sha1 (s.goTo i (.submitting claim id)) := hs.goTo hi hclaim fun _ h => h
  refine ⟨⟨hgo.passes, hgo.unique, hgo.claimed, hgo.generation, ?_, ?_⟩, .of_state rfl⟩
  · intro sent hsent
    cases List.mem_append.mp hsent with
    | inl hold => exact hs.keyed sent hold
    | inr hnew =>
      rw [List.mem_singleton.mp hnew]
      exact hclaim.2.2.2.1
  · intro a ha b hb hgeneration
    cases List.mem_append.mp ha with
    | inl ha =>
      cases List.mem_append.mp hb with
      | inl hb => exact hs.agree a ha b hb hgeneration
      | inr hb =>
        rw [List.mem_singleton.mp hb] at hgeneration ⊢
        exact horder a ha hgeneration
    | inr ha =>
      rw [List.mem_singleton.mp ha] at hgeneration ⊢
      cases List.mem_append.mp hb with
      | inl hb =>
        obtain ⟨hrule, hdetails⟩ := horder b hb hgeneration.symm
        exact ⟨hrule.symm, hdetails.symm⟩
      | inr hb =>
        rw [List.mem_singleton.mp hb]
        exact ⟨rfl, rfl⟩

theorem Claims.stored (h : s.Claims sha1 claim id) (hnot : id ∉ s.judgedOld) :
    s.state = claim ∧ s.lastClaim = some id :=
  h.2.2.2.2.resolve_left hnot

theorem Valid.writeOutcome (hs : Valid sha1 s) (hi : s.passes[i]? = some (.submitting claim id))
    (hnot : id ∉ s.judgedOld) (outcome : ExitOutcome) :
    Valid sha1 (s.writeOutcome i claim id outcome) ∧ Keeps s (s.writeOutcome i claim id outcome) := by
  have hclaim : s.Claims sha1 claim id := hs.passes i _ hi
  obtain ⟨hstate, -⟩ := hclaim.stored hnot
  have hexpected : (outcomeExpects claim id).Holds s.state := by
    rw [hstate]
    refine ⟨fun generation hgeneration => ?_, fun rule hrule => ?_, fun own hown => ?_⟩
    · have hsome : claim.generation = some generation := hgeneration
      rw [ProtectionState.generationNumber, hsome]
      rfl
    · cases hrule
    · cases hown
      exact hclaim.2.1
  have hopen : s.state.exitSubmitted = false := by rw [hstate]; exact hclaim.2.2.1
  have hsame : (outcomeState claim outcome).exitClaimId = some id ∧
      (outcomeState claim outcome).generation = claim.generation := by
    cases outcome <;> exact ⟨hclaim.2.1, rfl⟩
  unfold ProtectionRun.writeOutcome
  rw [if_pos hexpected]
  refine ⟨hs.advance hi rfl (fun j other hji hj h => ?_) trivial (fun _ h => by cases h)
    (fun _ => ?_) (fun henabled => ?_) rfl rfl, fun hsubmitted => ?_, ?_⟩
  · refine h.mono rfl (le_refl _) (fun _ h => h) fun own hother hown _ => ?_
    rw [hstate, hclaim.2.1] at hown
    cases hown
    exact absurd (hs.unique j i other _ id hj hi hother rfl) hji
  · show (outcomeState claim outcome).exitClaimId.isSome
    rw [hsame.1]
    rfl
  · show (outcomeState claim outcome).generation.isSome
    rw [hsame.2, ← hstate]
    exact hs.generation henabled
  · exact absurd (hopen.symm.trans hsubmitted) Bool.false_ne_true
  · have heq : s.state.generationNumber = (outcomeState claim outcome).generationNumber := by
      rw [hstate, ProtectionState.generationNumber, ProtectionState.generationNumber, hsame.2]
    exact Int.le_of_eq heq

theorem Valid.writePatch (hs : Valid sha1 s) (hi : s.passes[i]? = some (.patching read))
    (protection : Bool) :
    Valid sha1 (s.writePatch i read protection) ∧ Keeps s (s.writePatch i read protection) := by
  have hnone : read.exitClaimId = none := hs.passes i _ hi
  unfold ProtectionRun.writePatch
  split
  · next hexpected =>
    have hfree : s.state.exitClaimId = none := (hexpected.2.2 _ rfl).trans hnone
    have hopen : s.state.exitSubmitted = false := by
      cases hsubmitted : s.state.exitSubmitted with
      | false => rfl
      | true => exact absurd (hs.claimed hsubmitted) (by simp [hfree])
    refine ⟨hs.advance hi rfl (fun _ other _ _ h => ?_) trivial (fun _ h => by cases h)
      (fun h => by cases h) (fun _ => rfl) rfl rfl, fun hsubmitted => ?_, ?_⟩
    · refine h.mono rfl (le_refl _) (fun _ h => h) fun id _ hid _ => ?_
      rw [hfree] at hid
      cases hid
    · rw [hopen] at hsubmitted
      cases hsubmitted
    · rw [hexpected.1 _ rfl]
      exact Int.le_of_lt (Int.lt_succ _)
  · exact ⟨hs.done hi, .of_state rfl⟩

theorem Valid.stepPass (hs : Valid sha1 s) (hi : s.passes[i]? = some phase) {what : PassStep}
    (horder : s.InOrder phase what) :
    Valid sha1 (s.stepPass sha1 i phase what) ∧ Keeps s (s.stepPass sha1 i phase what) := by
  unfold ProtectionRun.stepPass
  split
  · exact hs.readClock hi
  · exact hs.decideExit hi horder
  · exact hs.submitExit hi horder
  · exact hs.writeOutcome hi horder _
  · exact (hs.passes i _ hi).elim
  · exact hs.writePatch hi _
  · exact ⟨hs, .of_state rfl⟩

theorem Valid.arrive (hs : Valid sha1 s) (hnew : s.PassOk sha1 phase) (hfree : holds phase = none) :
    Valid sha1 { s with passes := s.passes ++ [phase] } := by
  have hat : ∀ (j : Nat) other, (s.passes ++ [phase])[j]? = some other →
      other = phase ∨ s.passes[j]? = some other := by
    intro j other hj
    rw [List.getElem?_append] at hj
    split at hj
    · exact .inr hj
    · exact .inl (List.mem_singleton.mp (List.mem_of_getElem? hj))
  refine ⟨fun j other hj => ?_, fun j k a b id ha hb hida hidb => ?_, hs.claimed, hs.generation,
    hs.keyed, hs.agree⟩
  · have hok : s.PassOk sha1 other := by
      cases hat j other hj with
      | inl heq => rw [heq]; exact hnew
      | inr hj => exact hs.passes j other hj
    exact hok.mono rfl (le_refl _) (fun _ h => h) fun _ _ _ _ => .inr ⟨rfl, rfl⟩
  · cases hat j a ha with
    | inl heq => rw [heq, hfree] at hida; cases hida
    | inr hj =>
      cases hat k b hb with
      | inl heq => rw [heq, hfree] at hidb; cases hidb
      | inr hk => exact hs.unique j k a b id hj hk hida hidb

theorem Valid.step (hs : Valid sha1 s) (e : ProtectionEvent) (horder : Orderly e s) :
    Valid sha1 (step sha1 e s) ∧ Keeps s (step sha1 e s) := by
  cases e with
  | tick microseconds =>
    refine ⟨⟨fun j other hj => ?_, hs.unique, hs.claimed, hs.generation, hs.keyed, hs.agree⟩, .of_state rfl⟩
    exact (hs.passes j other hj).mono rfl (le_refl _) (fun _ h => h) fun _ _ _ _ => .inr ⟨rfl, rfl⟩
  | list =>
    show Valid sha1 (if s.enabled then _ else s) ∧ Keeps s (if s.enabled then _ else s)
    split
    · next henabled => exact ⟨hs.arrive (hs.generation henabled) rfl, .of_state rfl⟩
    · exact ⟨hs, .of_state rfl⟩
  | readForPatch =>
    show Valid sha1 (if patchRefused s.state then s else _) ∧
      Keeps s (if patchRefused s.state then s else _)
    split
    · exact ⟨hs, .of_state rfl⟩
    · next hfree =>
      simp only [patchRefused, Bool.or_eq_true, not_or, Bool.not_eq_true, Option.isSome_eq_false_iff,
        Option.isNone_iff_eq_none] at hfree
      exact ⟨hs.arrive hfree.1.2 rfl, .of_state rfl⟩
  | step i what =>
    show Valid sha1 (match s.passes[i]? with
        | some phase => s.stepPass sha1 i phase what
        | none => s) ∧
      Keeps s (match s.passes[i]? with
        | some phase => s.stepPass sha1 i phase what
        | none => s)
    cases hi : s.passes[i]? with
    | none => exact ⟨hs, .of_state rfl⟩
    | some phase => exact hs.stepPass hi (horder phase hi)

theorem Valid.sound (hs : Valid sha1 s) (e : ProtectionEvent) (horder : Orderly e s) :
    Sound sha1 e s := by
  obtain ⟨-, hkeeps⟩ := hs.step e horder
  refine ⟨hkeeps.exitSubmitted, hkeeps.generation, ?_⟩
  rintro i what claim id rfl hphase
  obtain hi | hi | hi := hphase
  · right
    show (match s.passes[i]? with
      | some phase => s.stepPass sha1 i phase what
      | none => s).state = s.state
    rw [hi]
    cases what <;> rfl
  · cases what with
    | outcome outcome =>
      have hclaim : s.Claims sha1 claim id := hs.passes i _ hi
      exact .inl (hclaim.stored (horder _ hi)).2
    | _ =>
      right
      show (match s.passes[i]? with
        | some phase => s.stepPass sha1 i phase _
        | none => s).state = s.state
      rw [hi]
      rfl
  · exact (hs.passes i _ hi).elim

theorem Valid.run (hs : Valid sha1 s) (events : List ProtectionEvent)
    (horder : (machine sha1).Along (fun e _ s => Orderly e s) events s) :
    (machine sha1).Along (fun e _ s => Sound sha1 e s) events s ∧
      Valid sha1 ((machine sha1).run events s) := by
  induction events generalizing s with
  | nil => exact ⟨trivial, hs⟩
  | cons e rest ih =>
    obtain ⟨hsound, hlast⟩ := ih (hs.step e horder.1).1 horder.2
    exact ⟨⟨hs.sound e horder.1, hsound⟩, hlast⟩

end ProtectionRun

open ProtectionRun

/-- However passes and patch requests interleave, as long as their steps are in order: all
exits submitted for a generation carry one key, no step takes a recorded exit back or returns
to an earlier generation, and a claimer writes nothing after another one. -/
theorem protection_exit_final (sha1 : String → String) (runId : String) (protection : Option Bool)
    (events : List ProtectionEvent)
    (horder : (machine sha1).Along (fun e _ s => Orderly e s) events (created runId protection)) :
    (machine sha1).Along (fun e _ s => Sound sha1 e s) events (created runId protection) ∧
      ((machine sha1).run events (created runId protection)).OneKey := by
  obtain ⟨hsound, hlast⟩ := (valid_created runId protection).run events horder
  exact ⟨hsound, hlast.oneKey⟩

/-! ### runs -/

def demoStoploss : PassStep :=
  .evaluate (.triggered "basket_stoploss" [("basket_pnl_pct", .float (-5))])

def deferredOnce : List ProtectionEvent :=
  [.list, .step 0 .clock, .step 0 demoStoploss, .step 0 .submit, .step 0 (.outcome .deferred),
    .tick 60000000, .list, .step 1 .clock, .step 1 demoStoploss, .step 1 .submit,
    .step 1 (.outcome .accepted)]

/-- The first pass is still submitting when its claim is 60 seconds old and taken over. -/
def takenOver : List ProtectionEvent :=
  [.list, .step 0 .clock, .step 0 demoStoploss, .step 0 .submit,
    .tick 60000000, .list, .step 1 .clock, .step 1 demoStoploss, .step 1 .submit,
    .step 1 (.outcome .accepted), .step 0 (.outcome .deferred), .step 0 .fallBack]

/-- The digest of the details of `demoStoploss`. -/
def demoSha1 (_ : String) : String := "7bd8088347926be0ebf4519d4f3f3ca26cca9acb"

theorem protection_exit_final_deferred :
    (machine demoSha1).Along (fun e _ s => Sound demoSha1 e s) deferredOnce
        (created "run" (some true)) ∧
      ((machine demoSha1).run deferredOnce (created "run" (some true))).OneKey :=
  protection_exit_final demoSha1 "run" (some true) deferredOnce (by decide +kernel)

theorem takenOver_undone : ¬ ∀ (sha1 : String → String) (runId : String) (protection : Option Bool)
    (events : List ProtectionEvent),
    (machine sha1).Along (fun e _ s => Sound sha1 e s) events (created runId protection) ∧
      ((machine sha1).run events (created runId protection)).OneKey := by
  intro h
  have hkept : (machine demoSha1).Along (fun e _ s => s.state.exitSubmitted = true →
      (step demoSha1 e s).state.exitSubmitted = true) takenOver (created "run" (some true)) :=
    (h demoSha1 "run" (some true) takenOver).1.mono fun _ _ _ hsound => hsound.exitSubmitted
  exact absurd hkept (by decide +kernel)

end KiteAlgo
