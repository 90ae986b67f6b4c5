import KiteAlgo.LiveOrders
import KiteAlgo.Lib.Run

/-!
# KiteAlgo.LiveOrders.Idempotency

`OrdersService.place_order` under an idempotency key (`orders/service.py`).  A call claims
the key in redis before it prepares and places the order, and settles the entry afterwards:
`completed` with the order id, `unknown` after an exception, removed after a refusal that
came before the broker was called.

`Placements` is one key with its entry, the calls and what was sent to the broker; the calls
advance one redis command, preparation or broker call at a time, and each may raise.  All
claims are made while the first one's entry cannot have expired, so that at most one call
holds the key (`Sole`), and only a holder reaches the broker (`placed_at_most_once`).
-/

namespace KiteAlgo

open List Option
/-- The environment: both lifetimes in seconds. -/
structure IdempotencySettings where
  processingTtlEnv : Int := 120
  completedTtlEnv : Int := 300

namespace IdempotencySettings

/-- `IDEMPOTENCY_PROCESSING_TTL_SECONDS`. -/
def processingTtl (settings : IdempotencySettings) : Int := max 30 settings.processingTtlEnv

/-- `IDEMPOTENCY_COMPLETED_TTL_SECONDS`. -/
def completedTtl (settings : IdempotencySettings) : Int :=
  max settings.processingTtl settings.completedTtlEnv

theorem processing_le_completed (settings : IdempotencySettings) :
    settings.processingTtl ≤ settings.completedTtl := le_max_left _ _

end IdempotencySettings

/-- `status` of an entry, with the order id of a completed one. -/
inductive EntryStatus where
  | processing
  | completed (orderId : String)
  | unknown
  deriving DecidableEq

/-- The JSON value stored under the redis key, with its expiry. -/
structure IdempotencyEntry where
  status : EntryStatus
  bodyHash : String
  expiresAt : Int
  deriving DecidableEq

/-- How `kite.place_order` ends; it may raise although it created the order. -/
inductive BrokerAnswer where
  | returned (orderId : String)
  | raised (created : Option String)
  deriving DecidableEq

/-- A call of `kite.place_order`, with the hash of the entry that holds the key then. -/
structure Invocation where
  bodyHash : String
  answer : BrokerAnswer
  held : Option String
  deriving DecidableEq

/-- Where a call of `place_order` is: before the claim, before the lookup of a taken key, with
the claim but not at the broker yet, and before the last redis command, which depends on how
the order went. -/
inductive PlacementPhase where
  | claiming
  | looking
  | owning
  | placed (orderId : String)
  | uncertain
  | clearing
  | returned (orderId : String)
  | failed (status : Nat)
  deriving DecidableEq

/-- A call of `place_order` with its body. -/
structure PlaceCall where
  bodyHash : String
  phase : PlacementPhase := .claiming
  deriving DecidableEq

/-- One idempotency key of one session; `firstClaim` is when a claim first succeeded. -/
structure Placements where
  now : Int := 0
  entry : Option IdempotencyEntry := none
  calls : List PlaceCall := []
  invocations : List Invocation := []
  firstClaim : Option Int := none
  deriving DecidableEq

/-- What happens in one step of a call: a redis command that answers, or raises having been
carried out or not; an exception while the order is prepared or waits for its slot; the
broker call. -/
inductive CallStep where
  | redis (raises : Option Bool)
  | httpException (status : Nat)
  | exception
  | broker (answer : BrokerAnswer)
  deriving DecidableEq

/-- What happens to the key: a call arrives, time passes, or a call goes on. -/
inductive PlacementEvent where
  | start (bodyHash : String)
  | tick (seconds : Nat)
  | step (call : Nat) (step : CallStep)
  deriving DecidableEq

/-- The statuses after which the key is given free: refusals before the broker call. -/
def clearingStatuses : List Nat := [400, 401, 403, 404, 409, 422]

namespace Placements

variable (settings : IdempotencySettings)

def live (s : Placements) : Option IdempotencyEntry := s.entry.filter fun e => s.now < e.expiresAt

def carriedOut (raises : Option Bool) : Bool := raises.getD true

def goTo (s : Placements) (i : Nat) (phase : PlacementPhase) : Placements :=
  { s with calls := s.calls.modify i fun call => { call with phase := phase } }

/-- `redis.set(key, …, ex=ttl)`. -/
def put (s : Placements) (status : EntryStatus) (bodyHash : String) (ttl : Int) : Placements :=
  { s with entry := some ⟨status, bodyHash, s.now + ttl⟩ }

/-- The claim of `_begin_idempotent_order`: `SET … NX`. -/
def claim (s : Placements) (i : Nat) (call : PlaceCall) (raises : Option Bool) : Placements :=
  match s.live with
  | some _ => s.goTo i (if raises.isSome then .failed 503 else .looking)
  | none =>
    let claimed : Placements :=
      if carriedOut raises then
        { s.put .processing call.bodyHash settings.processingTtl with
          firstClaim := s.firstClaim.or (some s.now) }
      else s
    claimed.goTo i (if raises.isSome then .failed 503 else .owning)

/-- The lookup of `_begin_idempotent_order`: `GET`. -/
def lookUp (s : Placements) (i : Nat) (call : PlaceCall) (raises : Option Bool) : Placements :=
  s.goTo i <| if raises.isSome then .failed 503
    else
      match s.live with
      | none => .failed 503
      | some entry =>
        if entry.bodyHash ≠ call.bodyHash then .failed 409
        else
          match entry.status with
          | .completed orderId => if orderId ≠ "" then .returned orderId else .failed 409
          | .processing | .unknown => .failed 409

/-- `kite.place_order`. -/
def invoke (s : Placements) (i : Nat) (call : PlaceCall) (answer : BrokerAnswer) : Placements :=
  let sent : Placements :=
    { s with invocations := s.invocations ++
        [⟨call.bodyHash, answer, s.live.map IdempotencyEntry.bodyHash⟩] }
  sent.goTo i <| match answer with
    | .returned orderId => .placed orderId
    | .raised _ => .uncertain

/-- The last redis command; when it raises, that is only logged. -/
def settle (s : Placements) (i : Nat) (raises : Option Bool) (effect : Placements → Placements)
    (phase : PlacementPhase) : Placements :=
  (if carriedOut raises then effect s else s).goTo i phase

/-- One step of `place_order`; what cannot happen where the call is, does not. -/
def stepCall (s : Placements) (i : Nat) (call : PlaceCall) : CallStep → Placements
  | .redis raises =>
    match call.phase with
    | .claiming => s.claim settings i call raises
    | .looking => s.lookUp i call raises
    | .placed orderId => s.settle i raises
        (fun s => s.put (.completed orderId) call.bodyHash settings.completedTtl) (.returned orderId)
    | .uncertain => s.settle i raises
        (fun s => s.put .unknown call.bodyHash settings.completedTtl) (.failed 500)
    | .clearing => s.settle i raises (fun s => { s with entry := none }) (.failed 400)
    | .owning | .returned _ | .failed _ => s
  | .httpException status =>
    match call.phase with
    | .owning => s.goTo i (if status ∈ clearingStatuses then .clearing else .uncertain)
    | _ => s
  | .exception =>
    match call.phase with
    | .owning => s.goTo i .uncertain
    | _ => s
  | .broker answer =>
    match call.phase with
    | .owning => s.invoke i call answer
    | _ => s

def step : PlacementEvent → Placements → Placements
  | .start bodyHash, s => { s with calls := s.calls ++ [{ bodyHash := bodyHash }] }
  | .tick seconds, s => { s with now := s.now + seconds }
  | .step i what, s =>
    match s.calls[i]? with
    | none => s
    | some call => s.stepCall settings i call what

def machine : Machine PlacementEvent Placements Unit where
  step := step settings
  out _ _ := []

/-- A claim is made within the lifetime of the first one. -/
def ClaimInTime (e : PlacementEvent) (s : Placements) : Prop :=
  match e with
  | .step i (.redis _) => ∀ call, s.calls[i]? = some call → call.phase = .claiming →
      ∀ first, s.firstClaim = some first → s.now < first + settings.processingTtl
  | _ => True

instance decidableClaimInTime : ∀ e s, Decidable (ClaimInTime settings e s)
  | .step i (.redis _), s =>
    inferInstanceAs (Decidable (∀ call ∈ s.calls[i]?, call.phase = .claiming →
      ∀ first ∈ s.firstClaim, s.now < first + settings.processingTtl))
  | .start _, _ | .tick _, _ | .step _ (.httpException _), _ | .step _ .exception, _
  | .step _ (.broker _), _ => isTrue trivial

end Placements

/-! ## one holder -/

namespace PlacementPhase

/-- The call has the claim: it is between claiming the key and settling it. -/
def holding : PlacementPhase → Bool
  | .owning | .placed _ | .uncertain | .clearing => true
  | .claiming | .looking | .returned _ | .failed _ => false

/-- The call has the claim and the broker was not called. -/
def unsent : PlacementPhase → Bool
  | .owning | .clearing => true
  | .claiming | .looking | .placed _ | .uncertain | .returned _ | .failed _ => false

/-- The order id that the call returns or will return. -/
def orderId : PlacementPhase → Option String
  | .placed id | .returned id => some id
  | .claiming | .looking | .owning | .uncertain | .clearing | .failed _ => none

end PlacementPhase

namespace Placements

variable (settings : IdempotencySettings)

/-- The entry is there, was written for the body, and outlives every claim. -/
def Secured (s : Placements) (bodyHash : String) : Prop :=
  ∃ first entry, s.firstClaim = some first ∧ s.entry = some entry ∧
    first + settings.processingTtl ≤ entry.expiresAt ∧ entry.bodyHash = bodyHash

/-- The broker call that created an order has returned its id. -/
def Answered (s : Placements) (orderId : String) : Prop :=
  ∃ sent ∈ s.invocations, sent.answer = .returned orderId

/-- At most one call has the claim, the entry secures it, and the broker is called by a holder
at most once. -/
structure Sole (s : Placements) : Prop where
  started : ∀ first, s.firstClaim = some first → first ≤ s.now
  secured : ∀ (i : Nat) call, s.calls[i]? = some call → call.phase.holding →
    s.Secured settings call.bodyHash
  sent : ∀ sent ∈ s.invocations, s.Secured settings sent.bodyHash
  sole : ∀ (i j : Nat) call other, s.calls[i]? = some call → s.calls[j]? = some other →
    call.phase.holding → other.phase.holding → i = j
  once : s.invocations.length ≤ 1
  unsent : ∀ (i : Nat) call, s.calls[i]? = some call → call.phase.unsent → s.invocations = []
  completed : ∀ entry id, s.entry = some entry → entry.status = .completed id → s.Answered id
  returned : ∀ (i : Nat) call id, s.calls[i]? = some call → call.phase.orderId = some id → s.Answered id
  held : ∀ sent ∈ s.invocations, ∀ bodyHash, sent.held = some bodyHash → bodyHash = sent.bodyHash

variable {settings} {s : Placements} {i j : Nat} {call other : PlaceCall}

@[simp] theorem goTo_entry (phase : PlacementPhase) : (s.goTo i phase).entry = s.entry := rfl
@[simp] theorem goTo_now (phase : PlacementPhase) : (s.goTo i phase).now = s.now := rfl
@[simp] theorem goTo_invocations (phase : PlacementPhase) :
    (s.goTo i phase).invocations = s.invocations := rfl
@[simp] theorem goTo_firstClaim (phase : PlacementPhase) :
    (s.goTo i phase).firstClaim = s.firstClaim := rfl

theorem goTo_goTo (a b : PlacementPhase) : (s.goTo i a).goTo i b = s.goTo i b := by
  unfold goTo
  simp only [modify_modify_eq]
  rfl

theorem calls_goTo {phase : PlacementPhase} (h : (s.goTo i phase).calls[j]? = some other) :
    (j ≠ i ∧ s.calls[j]? = some other) ∨
      ∃ call, j = i ∧ s.calls[i]? = some call ∧ other = { call with phase := phase } := by
  rw [goTo, List.getElem?_modify, Option.map_eq_map, Option.map_eq_some_iff] at h
  obtain ⟨call, hcall, rfl⟩ := h
  by_cases hij : i = j
  · subst hij
    exact .inr ⟨call, rfl, hcall, by simp⟩
  · exact .inl ⟨fun hji => hij hji.symm, by rw [hcall, if_neg hij]⟩

theorem Secured.unique {a b : String} (ha : s.Secured settings a) (hb : s.Secured settings b) :
    a = b := by
  obtain ⟨-, entry, -, hentry, -, rfl⟩ := ha
  obtain ⟨-, entry', -, hentry', -, rfl⟩ := hb
  rw [hentry] at hentry'
  rw [some.inj hentry']

namespace Sole

theorem initial : Sole settings {} := by
  constructor <;> simp [Placements.Answered]

variable {phase : PlacementPhase}

/-- A call goes on: it may have the claim afterwards only if it is the one that has it, and it
is before the broker call only if nobody made one. -/
theorem goTo (hs : Sole settings s) (hcall : s.calls[i]? = some call)
    (hholding : phase.holding → s.Secured settings call.bodyHash ∧
      ∀ (j : Nat) other, s.calls[j]? = some other → other.phase.holding → j = i)
    (hunsent : phase.unsent → s.invocations = [])
    (hid : ∀ id, phase.orderId = some id → s.Answered id) : Sole settings (s.goTo i phase) := by
  refine ⟨hs.started, ?_, hs.sent, ?_, hs.once, ?_, hs.completed, ?_, hs.held⟩
  · intro j other hother hphase
    obtain ⟨-, hj⟩ | ⟨call', rfl, hcall', rfl⟩ := calls_goTo hother
    · exact hs.secured j other hj hphase
    · rw [hcall] at hcall'
      cases hcall'
      exact (hholding hphase).1
  · intro j k a b ha hb hpa hpb
    obtain ⟨hji, hj⟩ | ⟨call', rfl, hcall', rfl⟩ := calls_goTo ha <;>
      obtain ⟨hki, hk⟩ | ⟨call'', hki, hcall'', hb⟩ := calls_goTo hb
    · exact hs.sole j k a b hj hk hpa hpb
    · subst hb hki
      exact (hholding hpb).2 j a hj hpa
    · exact ((hholding hpa).2 k b hk hpb).symm
    · exact hki.symm
  · intro j other hother hphase
    obtain ⟨-, hj⟩ | ⟨call', rfl, hcall', rfl⟩ := calls_goTo hother
    · exact hs.unsent j other hj hphase
    · exact hunsent hphase
  · intro j other id hother hphase
    obtain ⟨-, hj⟩ | ⟨call', rfl, hcall', rfl⟩ := calls_goTo hother
    · exact hs.returned j other id hj hphase
    · exact hid id hphase

theorem goTo_holder (hs : Sole settings s) (hcall : s.calls[i]? = some call)
    (hholder : call.phase.holding) (hunsent : phase.unsent → s.invocations = [])
    (hid : ∀ id, phase.orderId = some id → s.Answered id) : Sole settings (s.goTo i phase) :=
  hs.goTo hcall (fun _ => ⟨hs.secured i call hcall hholder,
    fun j other hother hphase => hs.sole j i other call hother hcall hphase hholder⟩) hunsent hid

theorem goTo_free (hs : Sole settings s) (hcall : s.calls[i]? = some call)
    (hphase : phase.holding = false) (hunsent : phase.unsent = false)
    (hid : ∀ id, phase.orderId = some id → s.Answered id) : Sole settings (s.goTo i phase) :=
  hs.goTo hcall (fun h => absurd h (by simp [hphase])) (fun h => absurd h (by simp [hunsent])) hid

theorem put (hs : Sole settings s) (hcall : s.calls[i]? = some call)
    (hholder : call.phase.holding) {status : EntryStatus}
    (hstatus : ∀ id, status = .completed id → s.Answered id) :
    Sole settings (s.put status call.bodyHash settings.completedTtl) := by
  have hsecured : ∀ bodyHash, s.Secured settings bodyHash →
      (s.put status call.bodyHash settings.completedTtl).Secured settings bodyHash := by
    intro bodyHash hsecured
    obtain ⟨first, -, hfirst, -, -, -⟩ := id hsecured
    refine ⟨first, _, hfirst, rfl, ?_, (hs.secured i call hcall hholder).unique hsecured⟩
    have := hs.started first hfirst
    have := settings.processing_le_completed
    show first + _ ≤ s.now + _
    omega
  refine ⟨hs.started, ?_, ?_, hs.sole, hs.once, hs.unsent, ?_, hs.returned, hs.held⟩
  · exact fun j other hother hphase => hsecured _ (hs.secured j other hother hphase)
  · exact fun sent hsent => hsecured _ (hs.sent sent hsent)
  · intro entry id hentry hcompleted
    rw [Placements.put, some.injEq] at hentry
    subst hentry
    exact hstatus id hcompleted

theorem clear (hs : Sole settings s)
    (hfree : ∀ (j : Nat) other, s.calls[j]? = some other → other.phase.holding = false)
    (hnone : s.invocations = []) : Sole settings { s with entry := none } where
  started := hs.started
  secured j other hother hphase := absurd hphase (by simp [hfree j other hother])
  sent sent hsent := by simp [hnone] at hsent
  sole := hs.sole
  once := hs.once
  unsent := hs.unsent
  completed := by simp
  returned := hs.returned
  held := hs.held

theorem free (hs : Sole settings s) (hlive : s.live = none)
    (hintime : ∀ first, s.firstClaim = some first → s.now < first + settings.processingTtl) :
    (∀ (j : Nat) other, s.calls[j]? = some other → other.phase.holding = false) ∧ s.invocations = [] := by
  have hunsecured : ∀ bodyHash, ¬ s.Secured settings bodyHash := by
    rintro bodyHash ⟨first, entry, hfirst, hentry, hexpires, -⟩
    have hnow := hintime first hfirst
    have hstays : s.now < entry.expiresAt := by omega
    simp [live, hentry, Option.filter, hstays] at hlive
  constructor
  · intro j other hother
    by_contra hphase
    exact hunsecured _ (hs.secured j other hother (by simpa using hphase))
  · rw [List.eq_nil_iff_forall_not_mem]
    exact fun sent hsent => hunsecured _ (hs.sent sent hsent)

theorem claim (hs : Sole settings s) (hcall : s.calls[i]? = some call) (raises : Option Bool)
    (hintime : ∀ first, s.firstClaim = some first → s.now < first + settings.processingTtl) :
    Sole settings (s.claim settings i call raises) := by
  rw [Placements.claim]
  cases hlive : s.live with
  | some entry =>
    refine hs.goTo_free hcall ?_ ?_ ?_ <;> cases raises <;> simp [PlacementPhase.holding,
      PlacementPhase.unsent, PlacementPhase.orderId]
  | none =>
    obtain ⟨hfree, hnone⟩ := hs.free hlive hintime
    have hclaimed : Sole settings
        { s.put .processing call.bodyHash settings.processingTtl with
          firstClaim := s.firstClaim.or (some s.now) } := by
      refine ⟨?_, ?_, ?_, hs.sole, hs.once, hs.unsent, ?_, hs.returned, hs.held⟩
      · intro first hfirst
        cases hclaim : s.firstClaim with
        | none =>
          rw [hclaim] at hfirst
          exact (some.inj hfirst).ge
        | some t => exact hs.started first (by simpa [hclaim] using hfirst)
      · intro j other hother hphase
        exact absurd hphase (by simp [hfree j other hother])
      · intro sent hsent
        exact absurd hsent (by simp [Placements.put, hnone])
      · intro entry id hentry hcompleted
        rw [Placements.put, some.injEq] at hentry
        subst hentry
        exact absurd hcompleted (by simp)
    cases raises with
    | none =>
      refine hclaimed.goTo hcall (fun _ => ⟨?_, ?_⟩) (fun _ => hnone) (by simp [PlacementPhase.orderId])
      · cases hclaim : s.firstClaim with
        | none => exact ⟨s.now, _, rfl, rfl, le_refl _, rfl⟩
        | some first =>
          refine ⟨first, _, rfl, rfl, ?_, rfl⟩
          have := hs.started first hclaim
          show first + _ ≤ s.now + _
          omega
      · exact fun j other hother hphase => absurd hphase (by simp [hfree j other hother])
    | some done =>
      cases done with
      | true => exact hclaimed.goTo_free hcall rfl rfl (by simp [PlacementPhase.orderId])
      | false => exact hs.goTo_free hcall rfl rfl (by simp [PlacementPhase.orderId])

theorem lookUp (hs : Sole settings s) (hcall : s.calls[i]? = some call) (raises : Option Bool) :
    Sole settings (s.lookUp i call raises) := by
  have hfailed : ∀ status, Sole settings (s.goTo i (.failed status)) :=
    fun status => hs.goTo_free hcall rfl rfl (by simp [PlacementPhase.orderId])
  unfold Placements.lookUp
  split
  · exact hfailed 503
  · split
    · exact hfailed 503
    · rename_i entry hentry
      split
      · exact hfailed 409
      · split
        · rename_i id hstatus
          split
          · refine hs.goTo_free hcall rfl rfl fun id' hid' => ?_
            cases hid'
            exact hs.completed entry id (filter_eq_some_iff.mp hentry).1 hstatus
          · exact hfailed 409
        · exact hfailed 409
        · exact hfailed 409

theorem invoke (hs : Sole settings s) (hcall : s.calls[i]? = some call)
    (howning : call.phase = .owning) (answer : BrokerAnswer) :
    Sole settings (s.invoke i call answer) := by
  have hnone : s.invocations = [] := hs.unsent i call hcall (by rw [howning]; rfl)
  have hsecured := hs.secured i call hcall (by rw [howning]; rfl)
  have hgone : Sole settings (s.goTo i .uncertain) :=
    hs.goTo_holder hcall (by rw [howning]; rfl) nofun (fun _ => nofun)
  have hcall' : (s.goTo i .uncertain).calls[i]? = some { call with phase := .uncertain } := by
    rw [Placements.goTo, getElem?_modify, hcall]
    simp
  have hsent : Sole settings { s.goTo i .uncertain with
      invocations := [⟨call.bodyHash, answer, s.live.map IdempotencyEntry.bodyHash⟩] } := by
    refine ⟨hgone.started, hgone.secured, ?_, hgone.sole, by simp, ?_, ?_, ?_, ?_⟩
    · intro sent hmem
      rw [mem_singleton] at hmem
      subst hmem
      exact hsecured
    · intro j other hother hunsent
      have hholding : other.phase.holding := by
        cases hphase : other.phase <;> simp_all [PlacementPhase.unsent, PlacementPhase.holding]
      have hji := hgone.sole j i other _ hother hcall' hholding rfl
      subst hji
      rw [hcall'] at hother
      cases hother
      cases hunsent
    · intro entry id hentry hstatus
      obtain ⟨sent, hmem, -⟩ := hs.completed entry id hentry hstatus
      simp [hnone] at hmem
    · intro j other id hother hid
      obtain ⟨sent, hmem, -⟩ := hgone.returned j other id hother hid
      simp [hnone] at hmem
    · intro sent hmem bodyHash hheld
      rw [mem_singleton] at hmem
      subst hmem
      obtain ⟨-, entry, -, hentry, -, hhash⟩ := hsecured
      rw [map_eq_some_iff] at hheld
      obtain ⟨entry', hlive, rfl⟩ := hheld
      rw [live, filter_eq_some_iff, hentry] at hlive
      obtain ⟨heq, -⟩ := hlive
      rw [← some.inj heq, hhash]
  unfold Placements.invoke
  rw [hnone, ← goTo_goTo .uncertain]
  cases answer with
  | returned id =>
    refine hsent.goTo_holder hcall' rfl nofun fun id' hid => ?_
    cases hid
    exact ⟨_, mem_singleton_self _, rfl⟩
  | raised created =>
    exact hsent.goTo_holder hcall' rfl nofun (fun _ => nofun)

theorem settle (hs : Sole settings s) (hcall : s.calls[i]? = some call) (raises : Option Bool)
    {effect : Placements → Placements} (heffect : Sole settings ((effect s).goTo i phase))
    (hphase : phase.holding = false) (hunsent : phase.unsent = false)
    (hid : ∀ id, phase.orderId = some id → s.Answered id) :
    Sole settings (s.settle i raises effect phase) := by
  unfold Placements.settle
  split
  · exact heffect
  · exact hs.goTo_free hcall hphase hunsent hid

theorem stepCall (hs : Sole settings s) (hcall : s.calls[i]? = some call) (what : CallStep)
    (hintime : ClaimInTime settings (.step i what) s) :
    Sole settings (s.stepCall settings i call what) := by
  cases what with
  | redis raises =>
    unfold Placements.stepCall
    cases hphase : call.phase with
    | claiming => exact hs.claim hcall raises (hintime call hcall hphase)
    | looking => exact hs.lookUp hcall raises
    | placed id =>
      have hanswered : s.Answered id := hs.returned i call id hcall (by rw [hphase]; rfl)
      have hreturns : ∀ id', (PlacementPhase.returned id).orderId = some id' → s.Answered id' := by
        intro id' hid
        cases hid
        exact hanswered
      have hput : Sole settings (s.put (.completed id) call.bodyHash settings.completedTtl) :=
        hs.put hcall (by rw [hphase]; rfl) (by rintro id' ⟨⟩; exact hanswered)
      exact hs.settle hcall raises (hput.goTo_free hcall rfl rfl hreturns) rfl rfl hreturns
    | uncertain =>
      have hput : Sole settings (s.put .unknown call.bodyHash settings.completedTtl) :=
        hs.put hcall (by rw [hphase]; rfl) fun _ => nofun
      exact hs.settle hcall raises (hput.goTo_free hcall rfl rfl fun _ => nofun) rfl rfl
        fun _ => nofun
    | clearing =>
      have hgone : Sole settings (s.goTo i (.failed 400)) :=
        hs.goTo_free hcall rfl rfl fun _ => nofun
      have hclear := hgone.clear ?_ (hs.unsent i call hcall (by rw [hphase]; rfl))
      · exact hs.settle hcall raises hclear rfl rfl fun _ => nofun
      · intro j other hother
        obtain ⟨hji, hj⟩ | ⟨call', rfl, hcall', rfl⟩ := calls_goTo hother
        · by_contra hholding
          exact hji (hs.sole j i other call hj hcall (by simpa using hholding) (by rw [hphase]; rfl))
        · rfl
    | owning => exact hs
    | returned id => exact hs
    | failed status => exact hs
  | httpException status =>
    unfold Placements.stepCall
    cases hphase : call.phase with
    | owning =>
      have hnone := hs.unsent i call hcall (by rw [hphase]; rfl)
      refine hs.goTo_holder hcall (by rw [hphase]; rfl) (fun _ => hnone) fun id hid => ?_
      split at hid <;> cases hid
    | _ => exact hs
  | exception =>
    unfold Placements.stepCall
    cases hphase : call.phase with
    | owning =>
      exact hs.goTo_holder hcall (by rw [hphase]; rfl) nofun (fun _ => nofun)
    | _ => exact hs
  | broker answer =>
    unfold Placements.stepCall
    cases hphase : call.phase with
    | owning => exact hs.invoke hcall hphase answer
    | _ => exact hs

theorem step (hs : Sole settings s) (e : PlacementEvent) (hintime : ClaimInTime settings e s) :
    Sole settings (Placements.step settings e s) := by
  cases e with
  | start bodyHash =>
    have hold : ∀ (j : Nat) other, (s.calls ++ [{ bodyHash := bodyHash }])[j]? = some other →
        other.phase = .claiming ∨ s.calls[j]? = some other := by
      intro j other hother
      rw [getElem?_append] at hother
      split at hother
      · exact .inr hother
      · left
        rw [mem_singleton.mp (mem_of_getElem? hother)]
    refine ⟨hs.started, ?_, hs.sent, ?_, hs.once, ?_, hs.completed, ?_, hs.held⟩
    · intro j other hother hphase
      cases hold j other hother with
      | inl hnew => rw [hnew] at hphase; cases hphase
      | inr hj => exact hs.secured j other hj hphase
    · intro j k a b ha hb hpa hpb
      cases hold j a ha with
      | inl hnew => rw [hnew] at hpa; cases hpa
      | inr hj =>
        cases hold k b hb with
        | inl hnew => rw [hnew] at hpb; cases hpb
        | inr hk => exact hs.sole j k a b hj hk hpa hpb
    · intro j other hother hphase
      cases hold j other hother with
      | inl hnew => rw [hnew] at hphase; cases hphase
      | inr hj => exact hs.unsent j other hj hphase
    · intro j other id hother hid
      cases hold j other hother with
      | inl hnew => rw [hnew] at hid; cases hid
      | inr hj => exact hs.returned j other id hj hid
  | tick seconds =>
    refine ⟨fun first hfirst => ?_, hs.secured, hs.sent, hs.sole, hs.once, hs.unsent,
      hs.completed, hs.returned, hs.held⟩
    have := hs.started first hfirst
    show first ≤ s.now + seconds
    omega
  | step i what =>
    show Sole settings (match s.calls[i]? with
      | none => s
      | some call => s.stepCall settings i call what)
    cases hcall : s.calls[i]? with
    | none => exact hs
    | some call => exact hs.stepCall hcall what hintime

theorem run {s : Placements} (hs : Sole settings s) (events : List PlacementEvent)
    (hintime : (machine settings).Along (fun e _ s => ClaimInTime settings e s) events s) :
    Sole settings ((machine settings).run events s) := by
  induction events generalizing s with
  | nil => exact hs
  | cons e rest ih => exact ih (hs.step e hintime.1) hintime.2

end Sole

/-- A refused call gives the key free; the retry places the order and is retried twice, the
second time with another body. -/
def demoRetries : List PlacementEvent :=
  [.start "body", .start "body", .step 0 (.redis none), .step 1 (.redis none),
    .step 1 (.redis none), .step 0 (.httpException 400), .step 0 (.redis none), .start "body",
    .tick 20, .step 2 (.redis none), .start "body", .start "other", .step 3 (.redis none),
    .step 4 (.redis none), .step 4 (.redis none), .step 2 (.broker (.returned "order")), .tick 20,
    .step 2 (.redis none), .step 3 (.redis none)]

end Placements

end KiteAlgo
