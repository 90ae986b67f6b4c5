import KiteAlgo.Lib.Dict
import KiteAlgo.Lib.Run
import Mathlib.Data.List.Basic

/-!
# KiteAlgo.Workers.Intents

Intents of one worker run (`worker_execution.py`, `algo_worker_repo.py`).  A paper intent and a
live order are looked up, executed and stored; a live basket claims its row first, and so does
the preview of a basket, which is a dry run of the same path.

`IntentDesk` is the table of intents with the calls on it, each advanced one statement or one
call of the order service at a time.  Submissions that share a key must not overlap unless
both claim their row or both are live orders, and a preview must not come before a submission
with its key (`Apart`); then every key is executed once (`intents_once`).
-/

namespace KiteAlgo

open List
inductive IntentType where
  | placeOrder
  | placeBasket
  deriving DecidableEq

/-- A request of `submit_worker_intent`, or of `preview_worker_basket`. -/
inductive Intent where
  | submission (key : String) (type : IntentType) (dryRun : Bool)
  | preview (key : String)
  deriving DecidableEq

namespace Intent

def key : Intent → String
  | submission key _ _ | preview key => key

def submitted : Intent → Bool
  | submission _ _ _ => true
  | preview _ => false

def type : Intent → IntentType
  | submission _ type _ => type
  | preview _ => .placeBasket

/-- The row is claimed before the order service is called. -/
def claims (live : Bool) (intent : Intent) : Bool := live && intent.type = .placeBasket

/-- A call of the order service for it places orders: a live dry run does not. -/
def effective (live : Bool) : Intent → Bool
  | submission key type dryRun => !((submission key type dryRun).claims live && dryRun)
  | preview _ => false

end Intent

/-- `result_json`: the pending result of a claim, or what the order service answered. -/
inductive IntentResult where
  | pending
  | final (answer : String)
  deriving DecidableEq

/-- A row of `algo_worker_intents`. -/
structure IntentRow where
  request : Intent
  result : IntentResult
  deriving DecidableEq

/-- Where a call is: it has arrived, it found no row, it has claimed its row, the order service
has answered, or it has answered itself. -/
inductive IntentPhase where
  | arrived
  | executing
  | claimed
  | storing (answer : String)
  | answered (result : IntentResult)
  deriving DecidableEq

namespace IntentPhase

/-- The call found no row and has not answered. -/
def inProgress : IntentPhase → Bool
  | executing | claimed | storing _ => true
  | arrived | answered _ => false

/-- The call has claimed its row, if it claims, and has not stored its result. -/
def holding : IntentPhase → Bool
  | claimed | storing _ => true
  | arrived | executing | answered _ => false

end IntentPhase

structure IntentCall where
  intent : Intent
  phase : IntentPhase
  deriving DecidableEq

/-- The order service carried an intent out. -/
structure ServiceRun where
  call : Nat
  intent : Intent
  answer : String
  deriving DecidableEq

/-- The intents of one run; `guard` are the order ids that the order service keeps for the keys
of live orders until their entries expire. -/
structure IntentDesk where
  live : Bool
  intents : Dict String IntentRow := []
  guard : Dict String String := []
  calls : List IntentCall := []
  runs : List ServiceRun := []

/-- What happens: a request arrives, a call goes on, where the order service would answer with
`answer`, or an entry of the order service expires. -/
inductive IntentEvent where
  | submit (key : String) (type : IntentType) (dryRun : Bool)
  | preview (key : String)
  | step (call : Nat) (answer : String)
  | expire (key : String)
  deriving DecidableEq

namespace IntentDesk

def goTo (s : IntentDesk) (i : Nat) (intent : Intent) (phase : IntentPhase) : IntentDesk :=
  { s with calls := s.calls.set i ⟨intent, phase⟩ }

/-- `get_intent_result`. -/
def lookUp (s : IntentDesk) (i : Nat) (intent : Intent) : IntentDesk :=
  match s.intents.get? intent.key with
  | some row => s.goTo i intent (.answered row.result)
  | none => s.goTo i intent .executing

/-- `begin_intent` with the pending result; what is not claimed is answered as it is stored. -/
def beginIntent (s : IntentDesk) (i : Nat) (intent : Intent) : IntentDesk :=
  match s.intents.get? intent.key with
  | some row => s.goTo i intent (.answered row.result)
  | none => { s with intents := s.intents.set intent.key ⟨intent, .pending⟩ }.goTo i intent .claimed

/-- The order service carries the intent out. -/
def carryOut (s : IntentDesk) (i : Nat) (intent : Intent) (answer : String) : IntentDesk :=
  { s with runs := s.runs ++ [ServiceRun.mk i intent answer] }.goTo i intent (.storing answer)

/-- The call of the order service for an intent that was not claimed.  A live order goes
through the order service's own guard. -/
def callService (s : IntentDesk) (i : Nat) (intent : Intent) (answer : String) : IntentDesk :=
  if s.live then
    match s.guard.get? intent.key with
    | some orderId => s.goTo i intent (.storing orderId)
    | none => { s with guard := s.guard.set intent.key answer }.carryOut i intent answer
  else s.carryOut i intent answer

/-- `save_intent_result`: a row that is there is kept, and returned. -/
def saveIntentResult (s : IntentDesk) (i : Nat) (intent : Intent) (answer : String) : IntentDesk :=
  match s.intents.get? intent.key with
  | some row => s.goTo i intent (.answered row.result)
  | none =>
    { s with intents := s.intents.set intent.key ⟨intent, .final answer⟩ }.goTo i intent
      (.answered (.final answer))

def finalizeIntentResult (s : IntentDesk) (i : Nat) (intent : Intent) (answer : String) :
    IntentDesk :=
  match s.intents.get? intent.key with
  | some row =>
    { s with intents := s.intents.set intent.key { row with result := .final answer } }.goTo i
      intent (.answered (.final answer))
  | none => s

def stepCall (s : IntentDesk) (i : Nat) (call : IntentCall) (answer : String) : IntentDesk :=
  match call.phase with
  | .arrived => s.lookUp i call.intent
  | .executing =>
    if call.intent.claims s.live then s.beginIntent i call.intent
    else s.callService i call.intent answer
  | .claimed => s.carryOut i call.intent answer
  | .storing answer =>
    if call.intent.claims s.live then s.finalizeIntentResult i call.intent answer
    else s.saveIntentResult i call.intent answer
  | .answered _ => s

/-- One event.  Baskets are previewed for live runs only. -/
def step (e : IntentEvent) (s : IntentDesk) : IntentDesk :=
  match e with
  | .submit key type dryRun =>
    { s with calls := s.calls ++ [IntentCall.mk (.submission key type dryRun) .arrived] }
  | .preview key =>
    if s.live then { s with calls := s.calls ++ [IntentCall.mk (.preview key) .executing] } else s
  | .step i answer =>
    match s.calls[i]? with
    | some call => s.stepCall i call answer
    | none => s
  | .expire key => { s with guard := s.guard.erase key }

def machine : Machine IntentEvent IntentDesk Unit where
  step := step
  out _ _ := []

/-! ## once for every key -/

/-- What the table, the guard and the runs hold for a key; only the runs of submissions count. -/
structure KeySlot where
  row : Option IntentRow
  guard : Option String
  runs : List ServiceRun

def slot (s : IntentDesk) (key : String) : KeySlot where
  row := s.intents.get? key
  guard := s.guard.get? key
  runs := s.runs.filter fun run => run.intent.key = key ∧ run.intent.submitted = true

/-- A submission with the key has the claim. -/
def ClaimedFor (s : IntentDesk) (key : String) : Prop :=
  ∃ (j : Nat) (other : Intent), s.calls[j]? = some ⟨other, .claimed⟩ ∧ other.key = key ∧
    other.submitted = true

/-- The orders of a key are placed once, and a key that a submission was answered for is carried
out, or about to be, for a submission. -/
structure Once (s : IntentDesk) : Prop where
  effects : ∀ key, (s.runs.filter fun run =>
    run.intent.key = key ∧ run.intent.effective s.live = true).length ≤ 1
  executed : ∀ (i : Nat) intent result, s.calls[i]? = some ⟨intent, .answered result⟩ →
    intent.submitted = true → (s.slot intent.key).runs ≠ [] ∨ s.ClaimedFor intent.key

/-- An answer that a step gives carries the result stored for the key, if a submission that
placed its orders has answered by then. -/
def AnswersStored (e : IntentEvent) (s : IntentDesk) : Prop :=
  ∀ (i : Nat) answer call result, e = .step i answer → s.calls[i]? = some call →
    call.phase.inProgress ∨ call.phase = .arrived →
    (step e s).calls[i]? = some ⟨call.intent, .answered result⟩ → ∀ run ∈ (s.slot call.intent.key).runs,
        (run.call = i ∨ ∃ stored, s.calls[run.call]? = some ⟨run.intent, .answered stored⟩) →
          result = .final run.answer ∧
            (((step e s).intents.get? call.intent.key).map IntentRow.result) = some result

/-- Two submissions of one key that may be in progress together: both claim their row, or both
are live orders. -/
def together (live : Bool) (a b : Intent) : Bool := live && a.type = b.type

/-- What an event has to find.  A submission is looked up while no preview has the row of its
key and no other submission with its key is in progress that it may not run together with; a
preview claims its row while no submission with its key is in progress; and the guard of a live
order does not expire while it is in progress. -/
def Apart (e : IntentEvent) (s : IntentDesk) : Prop :=
  match e with
  | .submit _ _ _ | .preview _ => True
  | .expire key => ∀ call ∈ s.calls, call.intent.key = key → call.intent.submitted = true →
      call.phase.inProgress = true → call.intent.type ≠ .placeOrder
  | .step i _ => ∀ call ∈ s.calls[i]?,
      match call.phase with
      | .arrived =>
        (∀ row ∈ s.intents.get? call.intent.key, row.request.submitted = true) ∧
          (s.intents.get? call.intent.key = none → ∀ other ∈ s.calls,
            other.intent.key = call.intent.key → other.intent.submitted = true →
              other.phase.inProgress = true → together s.live call.intent other.intent = true)
      | .executing =>
        call.intent.submitted = false → s.intents.get? call.intent.key = none →
          ∀ other ∈ s.calls, other.intent.key = call.intent.key → other.intent.submitted = true →
            other.phase.inProgress = false
      | .claimed | .storing _ | .answered _ => True

def PhaseOk (live : Bool) (slot : KeySlot) (i : Nat) (intent : Intent) : IntentPhase → Prop
  | .arrived => intent.submitted = true
  | .answered _ => True
  | .executing =>
    if intent.claims live then
      intent.submitted = true → (slot.row = none → slot.runs = []) ∧
        ∀ row ∈ slot.row, row.request.submitted = true
    else
      intent.submitted = true ∧ (slot.row = none ∧ slot.runs = [] ∨
        live = true ∧ ∃ run, slot.runs = [run] ∧ slot.guard = some run.answer ∧
          ∀ row ∈ slot.row, row.result = .final run.answer ∧ row.request.submitted = true)
  | .claimed => intent.claims live = true ∧ slot.row = some ⟨intent, .pending⟩ ∧ slot.runs = []
  | .storing answer =>
    if intent.claims live then
      slot.row = some ⟨intent, .pending⟩ ∧
        slot.runs = if intent.submitted then [⟨i, intent, answer⟩] else []
    else
      intent.submitted = true ∧ ∃ run, slot.runs = [run] ∧ run.answer = answer ∧
        (live = true → slot.guard = some answer) ∧
          ∀ row ∈ slot.row, row.result = .final answer ∧ row.request.submitted = true

/-- The order service carried a key out once at most; what it answered is the stored result or
its call is about to store it; and a row is there for a submission carried out or claimed, or for
a preview. -/
structure SlotOk (s : IntentDesk) (key : String) : Prop where
  once : (s.slot key).runs.length ≤ 1
  ran : ∀ run ∈ (s.slot key).runs, ∃ phase, s.calls[run.call]? = some ⟨run.intent, phase⟩ ∧
    (phase = .storing run.answer ∨ ∃ row, (s.slot key).row = some row ∧ row.result = .final run.answer)
  submitted : ∀ row, (s.slot key).row = some row → row.request.submitted = true →
    (s.slot key).runs ≠ [] ∨ s.ClaimedFor key
  previewed : ∀ row, (s.slot key).row = some row → row.request.submitted = false → (s.slot key).runs = []
  guarded : ∀ orderId, (s.slot key).guard = some orderId →
    ∃ run, (s.slot key).runs = [run] ∧ run.answer = orderId
  executed : ∀ (i : Nat) intent result, s.calls[i]? = some ⟨intent, .answered result⟩ →
    intent.key = key → intent.submitted = true → (s.slot key).runs ≠ [] ∨ s.ClaimedFor key

/-- Calls and slots are as they should be; submissions in progress under one key may run
together, and only one call holds the claim of a key. -/
structure Valid (s : IntentDesk) : Prop where
  calls : ∀ (i : Nat) call, s.calls[i]? = some call →
    PhaseOk s.live (s.slot call.intent.key) i call.intent call.phase
  apart : ∀ (i j : Nat) a b, i ≠ j → s.calls[i]? = some a → s.calls[j]? = some b →
    a.intent.key = b.intent.key → a.intent.submitted = true → b.intent.submitted = true →
      a.phase.inProgress = true → b.phase.inProgress = true → together s.live a.intent b.intent = true
  holder : ∀ (i j : Nat) a b, s.calls[i]? = some a → s.calls[j]? = some b →
    a.intent.key = b.intent.key → a.intent.claims s.live = true → b.intent.claims s.live = true →
      a.phase.holding = true → b.phase.holding = true → i = j
  slots : ∀ key, s.SlotOk key

variable {s s' : IntentDesk} {i : Nat} {call : IntentCall} {phase : IntentPhase}

variable {a b : Intent} {live : Bool}

theorem together_comm (h : together live a b) : together live b a := by
  simp only [together, Bool.and_eq_true, decide_eq_true_eq] at h ⊢
  exact ⟨h.1, h.2.symm⟩

theorem claims_of_together (h : together live a b) : a.claims live = b.claims live := by
  simp only [together, Bool.and_eq_true, decide_eq_true_eq] at h
  rw [Intent.claims, Intent.claims, h.2]

theorem live_of_together (h : together live a b) : live := by
  simp only [together, Bool.and_eq_true] at h
  exact h.1

variable {j : Nat} {new other : IntentCall}

theorem calls_set (hcalls : s'.calls = s.calls.set i new) (hj : s'.calls[j]? = some other) :
    (j = i ∧ other = new) ∨ (j ≠ i ∧ s.calls[j]? = some other) := by
  rw [hcalls, getElem?_set] at hj
  split at hj
  · next hij =>
    split at hj
    · exact .inl ⟨hij.symm, (Option.some.inj hj).symm⟩
    · cases hj
  · next hij => exact .inr ⟨fun h => hij h.symm, hj⟩

theorem calls_set_self (hcalls : s'.calls = s.calls.set i new) (hi : s.calls[i]? = some call) :
    s'.calls[i]? = some new := by
  rw [hcalls, getElem?_set_self (List.getElem?_eq_some_iff.mp hi).1]

theorem calls_set_ne (hcalls : s'.calls = s.calls.set i new) (hji : j ≠ i)
    (hj : s.calls[j]? = some other) : s'.calls[j]? = some other := by
  rw [hcalls, getElem?_set_ne (fun h => hji h.symm), hj]

theorem mem_slot_runs {key : String} {run : ServiceRun} (h : run ∈ (s.slot key).runs) :
    run ∈ s.runs ∧ run.intent.key = key ∧ run.intent.submitted :=
  ⟨(mem_filter.mp h).1, of_decide_eq_true (mem_filter.mp h).2⟩

theorem SlotOk.of_ne {key : String} (h : s.SlotOk key) (hi : s.calls[i]? = some call)
    (hne : call.intent.key ≠ key) (hcalls : s'.calls = s.calls.set i ⟨call.intent, phase⟩)
    (hslot : s'.slot key = s.slot key) : s'.SlotOk key := by
  have hat : ∀ (j : Nat) other, other.intent.key = key → s.calls[j]? = some other →
      s'.calls[j]? = some other := by
    intro j other hkey hj
    refine calls_set_ne hcalls ?_ hj
    rintro rfl
    rw [hi, Option.some.injEq] at hj
    exact hne (hj ▸ hkey)
  have hclaimed : s.ClaimedFor key → s'.ClaimedFor key := by
    rintro ⟨j, other, hj, hkey, hsubmitted⟩
    exact ⟨j, other, hat j _ hkey hj, hkey, hsubmitted⟩
  constructor
  · rw [hslot]
    exact h.once
  · rw [hslot]
    intro run hrun
    obtain ⟨phase', hphase, hstored⟩ := h.ran run hrun
    exact ⟨phase', hat run.call _ (mem_slot_runs hrun).2.1 hphase, hstored⟩
  · rw [hslot]
    exact fun row hrow hsubmitted => (h.submitted row hrow hsubmitted).imp_right hclaimed
  · rw [hslot]
    exact h.previewed
  · rw [hslot]
    exact h.guarded
  · rw [hslot]
    intro j intent result hj hkey hsubmitted
    obtain ⟨-, hnew⟩ | ⟨-, hj⟩ := calls_set hcalls hj
    · cases hnew
      exact absurd hkey hne
    · exact (h.executed j intent result hj hkey hsubmitted).imp_right hclaimed

theorem Valid.advance (hs : s.Valid) (hi : s.calls[i]? = some call)
    (hcalls : s'.calls = s.calls.set i ⟨call.intent, phase⟩) (hlive : s'.live = s.live)
    (hslot : ∀ key, call.intent.key ≠ key → s'.slot key = s.slot key)
    (hok : PhaseOk s.live (s'.slot call.intent.key) i call.intent phase)
    (hothers : ∀ (j : Nat) other, j ≠ i → s.calls[j]? = some other → other.intent.key = call.intent.key →
        PhaseOk s.live (s.slot call.intent.key) j other.intent other.phase →
          PhaseOk s.live (s'.slot call.intent.key) j other.intent other.phase)
    (happart : phase.inProgress → call.phase.inProgress ∨
      ∀ other ∈ s.calls, other.intent.key = call.intent.key → other.intent.submitted →
        other.phase.inProgress → call.intent.submitted →
          together s.live call.intent other.intent)
    (hholder : phase.holding → call.intent.claims s.live →
      ∀ (j : Nat) other, j ≠ i → s.calls[j]? = some other → other.intent.key = call.intent.key →
        other.intent.claims s.live → other.phase.holding = false)
    (hown : s'.SlotOk call.intent.key) : s'.Valid := by
  refine ⟨fun j other hj => ?_, ?_, ?_, fun key => ?_⟩
  · rw [hlive]
    obtain ⟨rfl, rfl⟩ | ⟨hji, hj⟩ := calls_set hcalls hj
    · exact hok
    · by_cases hkey : call.intent.key = other.intent.key
      · rw [← hkey]
        exact hothers j other hji hj hkey.symm (hkey ▸ hs.calls j other hj)
      · rw [hslot _ hkey]
        exact hs.calls j other hj
  · have hnew : ∀ (k : Nat) other, k ≠ i → s.calls[k]? = some other →
        other.intent.key = call.intent.key → other.intent.submitted →
          other.phase.inProgress → call.intent.submitted → phase.inProgress →
            together s.live call.intent other.intent := by
      intro k other hki hk hkey hsubmitted hprogress hown hphase
      cases happart hphase with
      | inl hbefore =>
        exact hs.apart i k call other (fun h => hki h.symm) hi hk hkey.symm hown hsubmitted
          hbefore hprogress
      | inr hall =>
        exact hall other (mem_of_getElem? hk) hkey hsubmitted hprogress hown
    intro j k a b hjk ha hb hkey hsa hsb hpa hpb
    rw [hlive]
    obtain ⟨rfl, rfl⟩ | ⟨hji, hj⟩ := calls_set hcalls ha
    · obtain ⟨rfl, -⟩ | ⟨hki, hk⟩ := calls_set hcalls hb
      · exact absurd rfl hjk
      · exact hnew k b hki hk hkey.symm hsb hpb hsa hpa
    · obtain ⟨rfl, rfl⟩ | ⟨-, hk⟩ := calls_set hcalls hb
      · exact together_comm (hnew j a hji hj hkey hsa hpa hsb hpb)
      · exact hs.apart j k a b hjk hj hk hkey hsa hsb hpa hpb
  · intro j k a b ha hb hkey hca hcb hpa hpb
    rw [hlive] at hca hcb
    obtain ⟨rfl, rfl⟩ | ⟨hji, hj⟩ := calls_set hcalls ha
    · obtain ⟨rfl, -⟩ | ⟨hki, hk⟩ := calls_set hcalls hb
      · rfl
      · rw [hholder hpa hca k b hki hk hkey.symm hcb] at hpb
        cases hpb
    · obtain ⟨rfl, rfl⟩ | ⟨-, hk⟩ := calls_set hcalls hb
      · rw [hholder hpb hcb j a hji hj hkey hca] at hpa
        cases hpa
      · exact hs.holder j k a b hj hk hkey hca hcb hpa hpb
  · by_cases hkey : call.intent.key = key
    · exact hkey ▸ hown
    · exact (hs.slots key).of_ne hi hkey hcalls (hslot key hkey)

/-! ### the slot of a call that goes on -/

section OwnSlot

variable {key : String} (hi : s.calls[i]? = some call)
  (hcalls : s'.calls = s.calls.set i ⟨call.intent, phase⟩)

include hi hcalls

theorem ClaimedFor.next (hclaim : call.phase = .claimed → call.intent.submitted = false)
    (h : s.ClaimedFor key) : s'.ClaimedFor key := by
  obtain ⟨j, other, hj, hkey, hsubmitted⟩ := h
  refine ⟨j, other, calls_set_ne hcalls ?_ hj, hkey, hsubmitted⟩
  rintro rfl
  rw [hi, Option.some.injEq] at hj
  rw [hj] at hclaim
  exact absurd (hclaim rfl) (by simp [hsubmitted])

omit hi in
theorem executed_next (hs : s.SlotOk key)
    (hkeep : (s.slot key).runs ≠ [] ∨ s.ClaimedFor key → (s'.slot key).runs ≠ [] ∨ s'.ClaimedFor key)
    (hnew : ∀ result, phase = .answered result → call.intent.submitted →
      (s'.slot key).runs ≠ [] ∨ s'.ClaimedFor key) :
    ∀ (j : Nat) intent result, s'.calls[j]? = some ⟨intent, .answered result⟩ → intent.key = key →
      intent.submitted → (s'.slot key).runs ≠ [] ∨ s'.ClaimedFor key := by
  intro j intent result hj hkey hsubmitted
  obtain ⟨-, heq⟩ | ⟨-, hj⟩ := calls_set hcalls hj
  · cases heq
    exact hnew result rfl hsubmitted
  · exact hkeep (hs.executed j intent result hj hkey hsubmitted)

theorem SlotOk.quiet (hs : s.SlotOk key) (hslot : s'.slot key = s.slot key)
    (hclaim : call.phase = .claimed → call.intent.submitted = false)
    (hran : ∀ run ∈ (s.slot key).runs, run.call = i → phase = .storing run.answer ∨
      ∃ row, (s.slot key).row = some row ∧ row.result = .final run.answer)
    (hnew : ∀ result, phase = .answered result → call.intent.submitted →
      (s.slot key).runs ≠ [] ∨ s.ClaimedFor key) : s'.SlotOk key := by
  have hkeep : (s.slot key).runs ≠ [] ∨ s.ClaimedFor key → (s'.slot key).runs ≠ [] ∨ s'.ClaimedFor key := by
    rw [hslot]
    exact fun h => h.imp_right (ClaimedFor.next hi hcalls hclaim)
  refine ⟨?_, fun run hrun => ?_, fun row hrow hsubmitted => ?_, ?_, ?_,
    executed_next hcalls hs hkeep fun result hresult hsubmitted =>
      hkeep (hnew result hresult hsubmitted)⟩
  · rw [hslot]
    exact hs.once
  · rw [hslot] at hrun ⊢
    obtain ⟨phase', hphase, hstored⟩ := hs.ran run hrun
    by_cases hcall : run.call = i
    · rw [hcall, hi, Option.some.injEq] at hphase
      exact ⟨phase, by rw [hcall, calls_set_self hcalls hi, hphase], hran run hrun hcall⟩
    · exact ⟨phase', calls_set_ne hcalls hcall hphase, hstored⟩
  · rw [hslot] at hrow
    exact hkeep (hs.submitted row hrow hsubmitted)
  · rw [hslot]
    exact hs.previewed
  · rw [hslot]
    exact hs.guarded

theorem SlotOk.carried {answer : String}
    (hruns : (s'.slot key).runs = [⟨i, call.intent, answer⟩]) (hphase : phase = .storing answer)
    (hrow : ∀ row, (s'.slot key).row = some row → row.request.submitted)
    (hguard : ∀ orderId, (s'.slot key).guard = some orderId → orderId = answer) :
    s'.SlotOk key := by
  have hsome : (s'.slot key).runs ≠ [] := by simp [hruns]
  refine ⟨by simp [hruns], fun run hrun => ?_, fun _ _ _ => .inl hsome, fun row hstored hnot => ?_,
    fun orderId horder => ⟨_, hruns, (hguard orderId horder).symm⟩, fun _ _ _ _ _ _ => .inl hsome⟩
  · rw [hruns, mem_singleton] at hrun
    subst hrun
    exact ⟨phase, calls_set_self hcalls hi, .inl hphase⟩
  · rw [hrow row hstored] at hnot
    cases hnot

theorem SlotOk.stored (hs : s.SlotOk key) {row : IntentRow} {answer : String}
    (hclaim : call.phase ≠ .claimed) (hruns : (s'.slot key).runs = (s.slot key).runs)
    (hguard : (s'.slot key).guard = (s.slot key).guard) (hrow : (s'.slot key).row = some row)
    (hresult : row.result = .final answer) (hanswer : ∀ run ∈ (s.slot key).runs, run.answer = answer)
    (hrequest : if row.request.submitted then (s.slot key).runs ≠ [] else (s.slot key).runs = [])
    (hnew : call.intent.submitted → (s.slot key).runs ≠ []) : s'.SlotOk key := by
  have hkeep : (s.slot key).runs ≠ [] ∨ s.ClaimedFor key → (s'.slot key).runs ≠ [] ∨ s'.ClaimedFor key := by
    rw [hruns]
    exact fun h => h.imp_right (ClaimedFor.next hi hcalls fun h => absurd h hclaim)
  refine ⟨?_, fun run hrun => ?_, fun row' hrow' hsubmitted => ?_, fun row' hrow' hnot => ?_, ?_,
    executed_next hcalls hs hkeep fun _ _ hsubmitted => hkeep (.inl (hnew hsubmitted))⟩
  · rw [hruns]
    exact hs.once
  · rw [hruns] at hrun
    obtain ⟨phase', hphase, -⟩ := hs.ran run hrun
    have hfinal : ∃ row, (s'.slot key).row = some row ∧ row.result = .final run.answer :=
      ⟨row, hrow, by rw [hresult, hanswer run hrun]⟩
    by_cases hcall : run.call = i
    · rw [hcall, hi, Option.some.injEq] at hphase
      exact ⟨phase, by rw [hcall, calls_set_self hcalls hi, hphase], .inr hfinal⟩
    · exact ⟨phase', calls_set_ne hcalls hcall hphase, .inr hfinal⟩
  · rw [hrow, Option.some.injEq] at hrow'
    rw [← hrow'] at hsubmitted
    rw [if_pos hsubmitted] at hrequest
    exact .inl (hruns ▸ hrequest)
  · rw [hrow, Option.some.injEq] at hrow'
    rw [← hrow'] at hnot
    rw [hnot, if_neg (by decide)] at hrequest
    exact hruns ▸ hrequest
  · rw [hruns, hguard]
    exact hs.guarded

end OwnSlot

/-! ### steps -/

@[simp] theorem slot_goTo (intent : Intent) (key : String) :
    (s.goTo i intent phase).slot key = s.slot key := rfl

theorem slot_set (row : IntentRow) (k key : String) :
    slot { s with intents := s.intents.set k row } key =
      { s.slot key with row := if k = key then some row else (s.slot key).row } := by
  simp only [slot, Dict.get?_set]

theorem slot_carryOut (intent : Intent) (answer key : String) :
    (s.carryOut i intent answer).slot key = { s.slot key with
        runs := (s.slot key).runs ++
          if intent.key = key ∧ intent.submitted then [⟨i, intent, answer⟩] else [] } := by
  simp only [carryOut, goTo, slot, filter_append, filter_cons, filter_nil, decide_eq_true_eq]

variable {intent : Intent}

theorem slot_carryOut_of_ne {key : String} (h : intent.key ≠ key) (answer : String) :
    (s.carryOut i intent answer).slot key = s.slot key := by
  rw [slot_carryOut, if_neg fun hboth => h hboth.1, append_nil]

theorem slot_set_of_ne {k key : String} (h : k ≠ key) (row : IntentRow) :
    slot { s with intents := s.intents.set k row } key = s.slot key := by
  rw [slot_set, if_neg h]

theorem Valid.quiet (hs : s.Valid) (hi : s.calls[i]? = some call)
    (hclaim : call.phase ≠ .claimed)
    (hok : PhaseOk s.live (s.slot call.intent.key) i call.intent phase)
    (happart : phase.inProgress → call.phase.inProgress ∨
      ∀ other ∈ s.calls, other.intent.key = call.intent.key → other.intent.submitted →
        other.phase.inProgress → call.intent.submitted →
          together s.live call.intent other.intent)
    (hholder : phase.holding → call.intent.claims s.live = false)
    (hran : ∀ run ∈ (s.slot call.intent.key).runs, run.call = i → phase = .storing run.answer ∨
      ∃ row, (s.slot call.intent.key).row = some row ∧ row.result = .final run.answer)
    (hnew : ∀ result, phase = .answered result → call.intent.submitted →
      (s.slot call.intent.key).runs ≠ [] ∨ s.ClaimedFor call.intent.key) :
    (s.goTo i call.intent phase).Valid :=
  hs.advance hi rfl rfl (fun _ _ => rfl) hok (fun _ _ _ _ _ h => h) happart
    (fun hholding hclaims => absurd hclaims (by simp [hholder hholding]))
    ((hs.slots call.intent.key).quiet hi rfl rfl (fun h => absurd h hclaim) hran hnew)

theorem Valid.run_call_ne (hs : s.Valid) (hi : s.calls[i]? = some call)
    (hphase : call.phase = .arrived ∨ call.phase = .executing) :
    ∀ run ∈ (s.slot call.intent.key).runs, run.call = i → phase = .storing run.answer ∨
        ∃ row, (s.slot call.intent.key).row = some row ∧ row.result = .final run.answer := by
  intro run hrun hcall
  obtain ⟨phase', hat, hstored⟩ := (hs.slots _).ran run hrun
  rw [hcall, hi, Option.some.injEq] at hat
  obtain rfl | hfinal := hstored
  · rw [hat] at hphase
    obtain h | h := hphase <;> cases h
  · exact .inr hfinal

theorem Valid.storing_of_run (hs : s.Valid) {key : String} (hrow : (s.slot key).row = none)
    {run : ServiceRun} (hrun : run ∈ (s.slot key).runs) :
    s.calls[run.call]? = some ⟨run.intent, .storing run.answer⟩ ∧ run.intent.key = key ∧
      run.intent.submitted := by
  obtain ⟨phase', hat, hstored⟩ := (hs.slots key).ran run hrun
  obtain rfl | ⟨row, hsome, -⟩ := hstored
  · exact ⟨hat, (mem_slot_runs hrun).2⟩
  · rw [hrow] at hsome
    cases hsome

theorem Valid.lookUp (hs : s.Valid) (hi : s.calls[i]? = some call) (hphase : call.phase = .arrived)
    (happart : Apart (.step i "") s) : (s.lookUp i call.intent).Valid := by
  have hsubmitted : call.intent.submitted := by
    have hok := hs.calls i call hi
    rw [hphase] at hok
    exact hok
  have hapart := happart call hi
  rw [hphase] at hapart
  obtain ⟨hpreview, htogether⟩ := hapart
  unfold IntentDesk.lookUp
  split
  · next row hrow =>
    have hnot : call.phase ≠ .claimed := by rw [hphase]; decide
    refine hs.quiet hi hnot trivial nofun nofun
      (hs.run_call_ne hi (.inl hphase)) fun result _ _ => ?_
    exact (hs.slots _).submitted row hrow (hpreview row hrow)
  · next hnone =>
    have hrow : (s.slot call.intent.key).row = none := hnone
    have hall := htogether hnone
    have hnot : call.phase ≠ .claimed := by rw [hphase]; decide
    -- a run of the key is about to be stored, by a live order
    have hruns : ∀ run ∈ (s.slot call.intent.key).runs,
        together s.live call.intent run.intent ∧ run.intent.claims s.live = false ∧
          (s.slot call.intent.key).guard = some run.answer := by
      intro run hrun
      obtain ⟨hat, hkey, hrunSubmitted⟩ := hs.storing_of_run hrow hrun
      have htwo := hall _ (mem_of_getElem? hat) hkey hrunSubmitted rfl
      have hok := hs.calls _ _ hat
      rw [hkey] at hok
      cases hclaims : run.intent.claims s.live with
      | true =>
        rw [PhaseOk, if_pos hclaims, hrow] at hok
        cases hok.1
      | false =>
        rw [PhaseOk, if_neg (by simp [hclaims])] at hok
        obtain ⟨-, _, -, -, hguard, -⟩ := hok
        exact ⟨htwo, rfl, hguard (live_of_together htwo)⟩
    refine hs.quiet hi hnot ?_ (fun _ => .inr fun other hother hkey hsub hprogress _ =>
      hall other hother hkey hsub hprogress) nofun
      (hs.run_call_ne hi (.inl hphase)) fun _ => nofun
    rw [PhaseOk]
    split
    · next hclaims =>
      refine fun _ => ⟨fun _ => eq_nil_iff_forall_not_mem.mpr fun run hrun => ?_, fun row h => ?_⟩
      · obtain ⟨htwo, hfree, -⟩ := hruns run hrun
        rw [claims_of_together htwo, hfree] at hclaims
        cases hclaims
      · rw [hrow] at h
        cases h
    · refine ⟨hsubmitted, ?_⟩
      cases hall : (s.slot call.intent.key).runs with
      | nil => exact .inl ⟨hrow, rfl⟩
      | cons run rest =>
        have honce := (hs.slots call.intent.key).once
        obtain ⟨htwo, -, hguard⟩ := hruns run (by rw [hall]; exact mem_cons_self)
        rw [hall, length_cons] at honce
        have hrest : rest = [] := length_eq_zero_iff.mp (by omega)
        refine .inr ⟨live_of_together htwo, run, by rw [hrest], hguard, fun row h => ?_⟩
        rw [hrow] at h
        cases h

theorem Valid.together_of_progress (hs : s.Valid) (hi : s.calls[i]? = some call)
    (hsubmitted : call.intent.submitted) (hprogress : call.phase.inProgress) {j : Nat}
    {other : IntentCall} (hji : j ≠ i) (hj : s.calls[j]? = some other)
    (hkey : other.intent.key = call.intent.key) (hother : other.intent.submitted)
    (hphase : other.phase.inProgress) : together s.live call.intent other.intent :=
  hs.apart i j call other (fun h => hji h.symm) hi hj hkey.symm hsubmitted hother hprogress hphase

variable {answer : String}

theorem Valid.beginIntent (hs : s.Valid) (hi : s.calls[i]? = some call)
    (hphase : call.phase = .executing) (hclaims : call.intent.claims s.live)
    (happart : Apart (.step i answer) s) : (s.beginIntent i call.intent).Valid := by
  have hok := hs.calls i call hi
  rw [hphase, PhaseOk, if_pos hclaims] at hok
  have hapart := happart call hi
  rw [hphase] at hapart
  have hnot : call.phase ≠ .claimed := by rw [hphase]; decide
  have hprogress : call.phase.inProgress := by rw [hphase]; rfl
  unfold IntentDesk.beginIntent
  split
  · next row hrow =>
    refine hs.quiet hi hnot trivial nofun nofun
      (hs.run_call_ne hi (.inr hphase)) fun result _ hsubmitted => ?_
    exact (hs.slots _).submitted row hrow ((hok hsubmitted).2 row hrow)
  · next hnone =>
    have hrow : (s.slot call.intent.key).row = none := hnone
    -- whoever else is in progress for the key as a submission claims its row too
    have hall : ∀ (j : Nat) other, j ≠ i → s.calls[j]? = some other →
        other.intent.key = call.intent.key → other.intent.submitted → other.phase.inProgress →
            call.intent.submitted ∧ other.intent.claims s.live := by
      intro j other hji hj hkey hother hphase'
      cases hsubmitted : call.intent.submitted with
      | false =>
        rw [hapart hsubmitted hnone other (mem_of_getElem? hj) hkey hother] at hphase'
        cases hphase'
      | true =>
        have htwo := hs.together_of_progress hi hsubmitted hprogress hji hj hkey hother hphase'
        exact ⟨rfl, (claims_of_together htwo).symm.trans hclaims⟩
    have hruns : (s.slot call.intent.key).runs = [] := by
      refine eq_nil_iff_forall_not_mem.mpr fun run hrun => ?_
      obtain ⟨hat, hkey, hrunSubmitted⟩ := hs.storing_of_run hrow hrun
      have hji : run.call ≠ i := by
        intro hcall
        rw [hcall, hi, Option.some.injEq] at hat
        rw [hat] at hphase
        cases hphase
      have hok' := hs.calls _ _ hat
      rw [hkey, PhaseOk, if_pos (hall _ _ hji hat hkey hrunSubmitted rfl).2, hrow] at hok'
      cases hok'.1
    have hslot : ∀ key, slot ({ s with
        intents := s.intents.set call.intent.key ⟨call.intent, .pending⟩ }.goTo i call.intent .claimed)
          key = { s.slot key with
            row := if call.intent.key = key then some ⟨call.intent, .pending⟩
              else (s.slot key).row } := slot_set _ _
    have hfree : ¬ s.ClaimedFor call.intent.key := by
      rintro ⟨j, other, hj, hkey, -⟩
      have hok' := hs.calls j _ hj
      rw [hkey, PhaseOk, hrow] at hok'
      cases hok'.2.1
    refine hs.advance hi rfl rfl (fun key hne => ?_) ?_ ?_ (fun _ => .inl hprogress) ?_ ?_
    · rw [hslot, if_neg hne]
    · rw [hslot, if_pos rfl]
      exact ⟨hclaims, rfl, hruns⟩
    · intro j other hji hj hkey hok'
      rw [hslot, if_pos rfl]
      cases hother : other.phase with
      | arrived => rwa [hother] at hok'
      | answered result => trivial
      | claimed => rw [hother, PhaseOk, hrow] at hok'; cases hok'.2.1
      | executing =>
        rw [hother, PhaseOk] at hok'
        have hphase' : other.phase.inProgress := by rw [hother]; rfl
        split at hok'
        · next hclaims' =>
          rw [PhaseOk, if_pos hclaims']
          intro hsub
          constructor
          · intro h
            cases h
          · intro row h
            cases h
            exact (hall j other hji hj hkey hsub hphase').1
        · next hclaims' => exact absurd (hall j other hji hj hkey hok'.1 hphase').2 hclaims'
      | storing answer =>
        rw [hother, PhaseOk] at hok'
        have hphase' : other.phase.inProgress := by rw [hother]; rfl
        split at hok'
        · rw [hrow] at hok'; cases hok'.1
        · next hclaims' => exact absurd (hall j other hji hj hkey hok'.1 hphase').2 hclaims'
    · intro _ _ j other hji hj hkey hclaims'
      have hok' := hs.calls j other hj
      rw [hkey] at hok'
      cases hother : other.phase with
      | arrived => rfl
      | executing => rfl
      | answered result => rfl
      | claimed => rw [hother, PhaseOk, hrow] at hok'; cases hok'.2.1
      | storing answer => rw [hother, PhaseOk, if_pos hclaims', hrow] at hok'; cases hok'.1
    · have hold := hs.slots call.intent.key
      refine ⟨?_, ?_, fun row hrow' hsubmitted => .inr ?_, ?_, fun orderId horder => ?_,
        fun j intent result hj hkey hsubmitted => ?_⟩
      · rw [hslot]
        exact hold.once
      · rw [hslot, hruns]
        exact fun _ => nofun
      · rw [hslot, if_pos rfl] at hrow'
        cases hrow'
        exact ⟨i, call.intent, calls_set_self rfl hi, rfl, hsubmitted⟩
      · rw [hslot]
        exact fun _ _ _ => hruns
      · rw [hslot] at horder
        obtain ⟨run, hrun, -⟩ := hold.guarded orderId horder
        rw [hruns] at hrun
        cases hrun
      · obtain ⟨-, heq⟩ | ⟨-, hj⟩ := calls_set rfl hj
        · cases heq
        · cases hold.executed j intent result hj hkey hsubmitted with
          | inl hsome => exact absurd hruns hsome
          | inr hclaimed => exact absurd hclaimed hfree

theorem Valid.alone (hs : s.Valid) (hi : s.calls[i]? = some call)
    (hclaims : call.intent.claims s.live) (hholding : call.phase.holding) :
    ∀ (j : Nat) other, j ≠ i → s.calls[j]? = some other → other.intent.key = call.intent.key →
      other.intent.claims s.live → other.phase.holding = false := by
  intro j other hji hj hkey hclaims'
  by_contra hother
  exact hji (hs.holder j i other call hj hi hkey hclaims' hclaims (by simpa using hother) hholding)

theorem Valid.others_of_claim (hs : s.Valid) (hi : s.calls[i]? = some call)
    (hclaims : call.intent.claims s.live) (hholding : call.phase.holding)
    (hrow : (s.slot call.intent.key).row = some ⟨call.intent, .pending⟩) {slot' : KeySlot}
    {result : IntentResult} (hrow' : slot'.row = some ⟨call.intent, result⟩) :
    ∀ (j : Nat) other, j ≠ i → s.calls[j]? = some other → other.intent.key = call.intent.key →
      PhaseOk s.live (s.slot call.intent.key) j other.intent other.phase →
        PhaseOk s.live slot' j other.intent other.phase := by
  intro j other hji hj hkey hok
  have halone := hs.alone hi hclaims hholding j other hji hj hkey
  cases hother : other.phase with
  | arrived => rwa [hother] at hok
  | answered result => trivial
  | claimed =>
    rw [hother, PhaseOk] at hok
    rw [hother] at halone
    cases halone hok.1
  | executing =>
    rw [hother, PhaseOk] at hok
    split at hok
    · next hclaims' =>
      rw [PhaseOk, if_pos hclaims', hrow']
      intro hsub
      constructor
      · intro h
        cases h
      · intro row h
        cases h
        exact (hok hsub).2 ⟨call.intent, .pending⟩ hrow
    · obtain ⟨-, ⟨hnone, -⟩ | ⟨-, run, -, -, hfinal⟩⟩ := hok
      · rw [hrow] at hnone
        cases hnone
      · cases (hfinal _ hrow).1
  | storing answer =>
    rw [hother, PhaseOk] at hok
    split at hok
    · next hclaims' =>
      rw [hother] at halone
      cases halone hclaims'
    · obtain ⟨-, run, -, -, -, hfinal⟩ := hok
      cases (hfinal _ hrow).1

theorem Valid.carryOut (hs : s.Valid) (hi : s.calls[i]? = some call)
    (hphase : call.phase = .claimed) (answer : String) :
    (s.carryOut i call.intent answer).Valid := by
  have hok := hs.calls i call hi
  rw [hphase] at hok
  obtain ⟨hclaims, hrow, hruns⟩ := hok
  have hprogress : call.phase.inProgress := by rw [hphase]; rfl
  have hholding : call.phase.holding := by rw [hphase]; rfl
  have hslot : (s.carryOut i call.intent answer).slot call.intent.key = { s.slot call.intent.key with
        runs := if call.intent.submitted then [⟨i, call.intent, answer⟩] else [] } := by
    rw [slot_carryOut, hruns, nil_append]
    simp
  refine hs.advance hi rfl rfl (fun key hne => slot_carryOut_of_ne hne answer) ?_ ?_
    (fun _ => .inl hprogress) (fun _ _ => hs.alone hi hclaims hholding) ?_
  · rw [hslot, PhaseOk, if_pos hclaims]
    exact ⟨hrow, rfl⟩
  · rw [hslot]
    exact hs.others_of_claim hi hclaims hholding hrow hrow
  · cases hsubmitted : call.intent.submitted with
    | true =>
      refine SlotOk.carried hi rfl (by rw [hslot, if_pos hsubmitted]) rfl ?_ ?_
      · intro row h
        rw [hslot] at h
        rw [hrow] at h
        cases h
        exact hsubmitted
      · intro orderId h
        rw [hslot] at h
        obtain ⟨run, hrun, -⟩ := (hs.slots _).guarded orderId h
        rw [hruns] at hrun
        cases hrun
    | false =>
      refine (hs.slots call.intent.key).quiet hi rfl ?_ (fun _ => hsubmitted) ?_ fun _ => nofun
      · rw [hslot, hsubmitted, if_neg (by decide), ← hruns]
      · rw [hruns]
        exact fun _ => nofun

theorem Valid.finalizeIntentResult (hs : s.Valid) (hi : s.calls[i]? = some call)
    (hphase : call.phase = .storing answer) (hclaims : call.intent.claims s.live) :
    (s.finalizeIntentResult i call.intent answer).Valid := by
  have hok := hs.calls i call hi
  rw [hphase, PhaseOk, if_pos hclaims] at hok
  obtain ⟨hrow, hruns⟩ := hok
  have hholding : call.phase.holding := by rw [hphase]; rfl
  unfold IntentDesk.finalizeIntentResult
  have hget : s.intents.get? call.intent.key = some ⟨call.intent, .pending⟩ := hrow
  simp only [hget]
  have hslot : slot ({ s with
      intents := s.intents.set call.intent.key ⟨call.intent, .final answer⟩ }.goTo i call.intent
        (.answered (.final answer))) call.intent.key =
      { s.slot call.intent.key with row := some ⟨call.intent, .final answer⟩ } := by
    refine (slot_set _ _ _).trans ?_
    rw [if_pos rfl]
  refine hs.advance hi rfl rfl (fun key hne => slot_set_of_ne hne _) trivial ?_ nofun
    nofun ?_
  · rw [hslot]
    exact hs.others_of_claim hi hclaims hholding hrow rfl
  · refine (hs.slots call.intent.key).stored hi rfl ?_ (by rw [hslot]) (by rw [hslot])
      (congrArg KeySlot.row hslot) rfl ?_ ?_ ?_
    · rw [hphase]
      nofun
    · intro run hrun
      rw [hruns] at hrun
      split at hrun
      · rw [mem_singleton.mp hrun]
      · cases hrun
    · rw [hruns]
      cases call.intent.submitted <;> simp
    · intro hsubmitted
      rw [hruns, if_pos hsubmitted]
      simp

theorem Valid.saveIntentResult (hs : s.Valid) (hi : s.calls[i]? = some call)
    (hphase : call.phase = .storing answer) (hclaims : call.intent.claims s.live = false) :
    (s.saveIntentResult i call.intent answer).Valid := by
  have hok := hs.calls i call hi
  rw [hphase, PhaseOk, if_neg (by simp [hclaims])] at hok
  obtain ⟨hsubmitted, run, hruns, hanswer, hguard, hfinal⟩ := hok
  have hprogress : call.phase.inProgress := by rw [hphase]; rfl
  have hnot : call.phase ≠ .claimed := by
    rw [hphase]
    nofun
  have hanswers : ∀ other ∈ (s.slot call.intent.key).runs, other.answer = answer := by
    intro other hother
    rw [hruns, mem_singleton] at hother
    rw [hother, hanswer]
  have hsome : (s.slot call.intent.key).runs ≠ [] := by simp [hruns]
  unfold IntentDesk.saveIntentResult
  split
  · next row hrow =>
    obtain ⟨hresult, hrequest⟩ := hfinal row hrow
    refine hs.advance hi rfl rfl (fun _ _ => rfl) trivial (fun _ _ _ _ _ h => h) nofun
      nofun ?_
    refine (hs.slots call.intent.key).stored hi rfl hnot rfl rfl hrow hresult hanswers ?_
      fun _ => hsome
    rw [if_pos hrequest]
    exact hsome
  · next hnone =>
    have hrow : (s.slot call.intent.key).row = none := hnone
    have hslot : slot ({ s with
        intents := s.intents.set call.intent.key ⟨call.intent, .final answer⟩ }.goTo i call.intent
          (.answered (.final answer))) call.intent.key =
        { s.slot call.intent.key with row := some ⟨call.intent, .final answer⟩ } := by
      refine (slot_set _ _ _).trans ?_
      rw [if_pos rfl]
    refine hs.advance hi rfl rfl (fun key hne => slot_set_of_ne hne _) trivial ?_ nofun
      nofun ?_
    · intro j other hji hj hkey hok'
      have htwo := hs.together_of_progress hi hsubmitted hprogress hji hj hkey
      have hstored : ∀ row ∈ (some ⟨call.intent, .final answer⟩ : Option IntentRow),
          row.result = .final answer ∧ row.request.submitted := by
        intro row h
        cases h
        exact ⟨rfl, hsubmitted⟩
      rw [hslot]
      cases hother : other.phase with
      | arrived => rwa [hother] at hok'
      | answered result => trivial
      | claimed => rw [hother, PhaseOk, hrow] at hok'; cases hok'.2.1
      | executing =>
        rw [hother] at hok' htwo
        rw [PhaseOk] at hok' ⊢
        split at hok'
        · next hclaims' =>
          rw [if_pos hclaims']
          intro hsub
          rw [← claims_of_together (htwo hsub rfl), hclaims] at hclaims'
          cases hclaims'
        · next hclaims' =>
          rw [if_neg hclaims']
          obtain ⟨hsub, ⟨-, hempty⟩ | ⟨hlive, first, hfirst, hkept, -⟩⟩ := hok'
          · exact absurd hempty hsome
          · refine ⟨hsub, .inr ⟨hlive, first, hfirst, hkept, ?_⟩⟩
            rw [hanswers first (by rw [hfirst]; exact mem_singleton_self first)]
            exact hstored
      | storing answer' =>
        rw [hother, PhaseOk] at hok'
        rw [PhaseOk]
        split at hok'
        · rw [hrow] at hok'; cases hok'.1
        · next hclaims' =>
          rw [if_neg hclaims']
          obtain ⟨hsub, first, hfirst, heq, hkept, -⟩ := hok'
          refine ⟨hsub, first, hfirst, heq, hkept, ?_⟩
          rw [← heq, hanswers first (by rw [hfirst]; exact mem_singleton_self first)]
          exact hstored
    · refine (hs.slots call.intent.key).stored hi rfl hnot (by rw [hslot]) (by rw [hslot])
        (congrArg KeySlot.row hslot) rfl hanswers ?_ fun _ => hsome
      rw [if_pos hsubmitted]
      exact hsome

theorem Valid.carried (hs : s.Valid) (hi : s.calls[i]? = some call)
    (hphase : call.phase = .executing) (hsubmitted : call.intent.submitted)
    (hclaims : call.intent.claims s.live = false) (hrow : (s.slot call.intent.key).row = none)
    (hruns : (s.slot call.intent.key).runs = [])
    (hcalls : s'.calls = s.calls.set i ⟨call.intent, .storing answer⟩) (hlive : s'.live = s.live)
    (hslot : ∀ key, call.intent.key ≠ key → s'.slot key = s.slot key) {guard : Option String}
    (hown : s'.slot call.intent.key = ⟨none, guard, [⟨i, call.intent, answer⟩]⟩)
    (hguard : s.live → guard = some answer)
    (hkept : ∀ orderId, guard = some orderId → orderId = answer) : s'.Valid := by
  have hprogress : call.phase.inProgress := by rw [hphase]; rfl
  refine hs.advance hi hcalls hlive hslot ?_ ?_ (fun _ => .inl hprogress)
    (fun _ h => by rw [hclaims] at h; cases h) ?_
  · rw [hown, PhaseOk, if_neg (by simp [hclaims])]
    exact ⟨hsubmitted, _, rfl, rfl, hguard, fun _ => nofun⟩
  · intro j other hji hj hkey hok
    have htwo := hs.together_of_progress hi hsubmitted hprogress hji hj hkey
    rw [hown]
    cases hother : other.phase with
    | arrived => rwa [hother] at hok
    | answered result => trivial
    | claimed => rw [hother, PhaseOk, hrow] at hok; cases hok.2.1
    | executing =>
      rw [hother] at hok htwo
      rw [PhaseOk] at hok ⊢
      split at hok
      · next hclaims' =>
        rw [if_pos hclaims']
        intro hsub
        rw [← claims_of_together (htwo hsub rfl), hclaims] at hclaims'
        cases hclaims'
      · next hclaims' =>
        rw [if_neg hclaims']
        have hlive' := live_of_together (htwo hok.1 rfl)
        exact ⟨hok.1, .inr ⟨hlive', _, rfl, hguard hlive', fun _ => nofun⟩⟩
    | storing answer' =>
      rw [hother, PhaseOk] at hok
      split at hok
      · rw [hrow] at hok; cases hok.1
      · obtain ⟨-, run, hrun, -⟩ := hok
        rw [hruns] at hrun
        cases hrun
  · refine SlotOk.carried hi hcalls (congrArg KeySlot.runs hown) rfl ?_ ?_
    · rw [hown]
      exact fun _ => nofun
    · rw [hown]
      exact hkept

theorem Valid.callService (hs : s.Valid) (hi : s.calls[i]? = some call)
    (hphase : call.phase = .executing) (hclaims : call.intent.claims s.live = false)
    (answer : String) : (s.callService i call.intent answer).Valid := by
  have hok := hs.calls i call hi
  rw [hphase, PhaseOk, if_neg (by simp [hclaims])] at hok
  obtain ⟨hsubmitted, hbefore⟩ := hok
  have hnot : call.phase ≠ .claimed := by rw [hphase]; decide
  have hprogress : call.phase.inProgress := by rw [hphase]; rfl
  have hruns : ∀ slot : KeySlot, slot.runs = [] → slot.runs ++
      (if call.intent.key = call.intent.key ∧ call.intent.submitted then
        [⟨i, call.intent, answer⟩] else []) = [⟨i, call.intent, answer⟩] := by
    intro slot h
    rw [h, if_pos ⟨rfl, hsubmitted⟩, nil_append]
  unfold IntentDesk.callService
  split
  · next hlive =>
    split
    · next orderId hguard =>
      -- the guard of the key answers with the order that was placed
      obtain ⟨run, hrun, heq⟩ := (hs.slots _).guarded orderId hguard
      refine hs.quiet hi hnot ?_ (fun _ => .inl hprogress) (fun _ => hclaims)
        (hs.run_call_ne hi (.inr hphase)) fun _ => nofun
      rw [PhaseOk, if_neg (by simp [hclaims])]
      refine ⟨hsubmitted, run, hrun, heq, fun _ => hguard, ?_⟩
      obtain ⟨-, hempty⟩ | ⟨-, first, hfirst, -, hfinal⟩ := hbefore
      · rw [hrun] at hempty
        cases hempty
      · rw [hfirst, List.cons.injEq] at hrun
        rw [← heq, ← hrun.1]
        exact hfinal
    · next hguard =>
      obtain ⟨hrow, hempty⟩ | ⟨-, first, -, hkept, -⟩ := hbefore
      · have hset : ∀ key, slot { s with guard := s.guard.set call.intent.key answer } key =
            { s.slot key with
              guard := if call.intent.key = key then some answer else (s.slot key).guard } := by
          intro key
          simp only [slot, Dict.get?_set]
        refine hs.carried hi hphase hsubmitted hclaims hrow hempty rfl rfl (fun key hne => ?_) ?_
          (fun _ => rfl) fun orderId h => (Option.some.inj h).symm
        · rw [slot_carryOut_of_ne hne, hset, if_neg hne]
        · rw [slot_carryOut, hset, if_pos rfl, hruns _ hempty]
          exact congrArg (KeySlot.mk · _ _) hrow
      · rw [show s.guard.get? call.intent.key = some first.answer from hkept] at hguard
        cases hguard
  · next hlive =>
    obtain ⟨hrow, hempty⟩ | ⟨h, -⟩ := hbefore
    · have hguard : (s.slot call.intent.key).guard = none := by
        refine Option.eq_none_iff_forall_not_mem.mpr fun orderId horder => ?_
        obtain ⟨run, hrun, -⟩ := (hs.slots _).guarded orderId horder
        rw [hempty] at hrun
        cases hrun
      have hown : (s.carryOut i call.intent answer).slot call.intent.key =
          ⟨none, none, [⟨i, call.intent, answer⟩]⟩ := by
        rw [slot_carryOut, hruns _ hempty, ← hrow, ← hguard]
      exact hs.carried hi hphase hsubmitted hclaims hrow hempty rfl rfl
        (fun key hne => slot_carryOut_of_ne hne answer) hown (fun h => absurd h hlive)
        fun _ => nofun
    · exact absurd h hlive

theorem Valid.stepCall (hs : s.Valid) (hi : s.calls[i]? = some call)
    (happart : Apart (.step i answer) s) : (s.stepCall i call answer).Valid := by
  unfold IntentDesk.stepCall
  cases hphase : call.phase with
  | arrived => exact hs.lookUp hi hphase happart
  | executing =>
    simp only
    split
    · next hclaims => exact hs.beginIntent hi hphase hclaims happart
    · next hclaims => exact hs.callService hi hphase (by simpa using hclaims) answer
  | claimed => exact hs.carryOut hi hphase answer
  | storing answer =>
    simp only
    split
    · next hclaims => exact hs.finalizeIntentResult hi hphase hclaims
    · next hclaims => exact hs.saveIntentResult hi hphase (by simpa using hclaims)
  | answered result => exact hs

theorem Valid.arrive (hs : s.Valid) {new : IntentCall}
    (hok : PhaseOk s.live (s.slot new.intent.key) s.calls.length new.intent new.phase)
    (hfree : new.phase.holding = false)
    (hidle : new.intent.submitted → new.phase.inProgress = false)
    (hnew : ∀ result, new.phase ≠ .answered result) : Valid { s with calls := s.calls ++ [new] } := by
  have hat : ∀ (j : Nat) other, (s.calls ++ [new])[j]? = some other →
      (j = s.calls.length ∧ other = new) ∨ s.calls[j]? = some other := by
    intro j other hj
    rw [getElem?_append] at hj
    split at hj
    · exact .inr hj
    · next hlt =>
      obtain ⟨hlength, -⟩ := List.getElem?_eq_some_iff.mp hj
      rw [length_singleton] at hlength
      exact .inl ⟨by omega, mem_singleton.mp (mem_of_getElem? hj)⟩
  have hkeep : ∀ (j : Nat) other, s.calls[j]? = some other → (s.calls ++ [new])[j]? = some other := by
    intro j other hj
    rw [getElem?_append_left (List.getElem?_eq_some_iff.mp hj).1, hj]
  have hclaimed : ∀ key, s.ClaimedFor key → ClaimedFor { s with calls := s.calls ++ [new] } key := by
    rintro key ⟨j, other, hj, hkey, hsub⟩
    exact ⟨j, other, hkeep j _ hj, hkey, hsub⟩
  refine ⟨fun j other hj => ?_, ?_, ?_, fun key => ?_⟩
  · obtain ⟨rfl, rfl⟩ | hj := hat j other hj
    · exact hok
    · exact hs.calls j other hj
  · intro j k a b hjk ha hb hkey hsa hsb hpa hpb
    obtain ⟨-, rfl⟩ | hj := hat j a ha
    · rw [hidle hsa] at hpa
      cases hpa
    · obtain ⟨-, rfl⟩ | hk := hat k b hb
      · rw [hidle hsb] at hpb
        cases hpb
      · exact hs.apart j k a b hjk hj hk hkey hsa hsb hpa hpb
  · intro j k a b ha hb hkey hca hcb hpa hpb
    obtain ⟨-, rfl⟩ | hj := hat j a ha
    · rw [hfree] at hpa
      cases hpa
    · obtain ⟨-, rfl⟩ | hk := hat k b hb
      · rw [hfree] at hpb
        cases hpb
      · exact hs.holder j k a b hj hk hkey hca hcb hpa hpb
  · have hold := hs.slots key
    refine ⟨hold.once, fun run hrun => ?_, fun row hrow hsub =>
      (hold.submitted row hrow hsub).imp_right (hclaimed key), hold.previewed, hold.guarded,
      fun j intent result hj hkey hsub => ?_⟩
    · obtain ⟨phase', hphase, hstored⟩ := hold.ran run hrun
      exact ⟨phase', hkeep _ _ hphase, hstored⟩
    · obtain ⟨-, heq⟩ | hj := hat j _ hj
      · exact absurd (congrArg IntentCall.phase heq).symm (hnew result)
      · exact (hold.executed j intent result hj hkey hsub).imp_right (hclaimed key)

theorem placeOrder_of_live {live : Bool} (hlive : live)
    (hclaims : ¬ intent.claims live) : intent.type = .placeOrder := by
  cases htype : intent.type with
  | placeOrder => rfl
  | placeBasket => exact absurd (by rw [Intent.claims, hlive, htype]; rfl) hclaims

theorem Valid.expire (hs : s.Valid) (expired : String) (happart : Apart (.expire expired) s) :
    Valid { s with guard := s.guard.erase expired } := by
  have hslot : ∀ key, slot { s with guard := s.guard.erase expired } key =
      { s.slot key with guard := if expired = key then none else (s.slot key).guard } := by
    intro key
    simp only [slot, Dict.get?_erase]
  refine ⟨fun j other hj => ?_, hs.apart, hs.holder, fun key => ?_⟩
  · have hok := hs.calls j other hj
    have hidle := happart other (mem_of_getElem? hj)
    rw [hslot]
    by_cases hkey : expired = other.intent.key
    · cases hphase : other.phase with
      | arrived => rwa [hphase] at hok
      | answered result => trivial
      | claimed => rwa [hphase] at hok
      | executing =>
        rw [hphase] at hok hidle
        rw [PhaseOk] at hok ⊢
        split
        · next hclaims => rwa [if_pos hclaims] at hok
        · next hclaims =>
          rw [if_neg hclaims] at hok
          obtain ⟨hsub, hfirst | ⟨hlive, -⟩⟩ := hok
          · exact ⟨hsub, .inl hfirst⟩
          · exact absurd (placeOrder_of_live hlive hclaims) (hidle hkey.symm hsub rfl)
      | storing answer =>
        rw [hphase] at hok hidle
        rw [PhaseOk] at hok ⊢
        split
        · next hclaims => rwa [if_pos hclaims] at hok
        · next hclaims =>
          rw [if_neg hclaims] at hok
          obtain ⟨hsub, run, hrun, heq, -, hfinal⟩ := hok
          exact ⟨hsub, run, hrun, heq, fun hlive =>
            absurd (placeOrder_of_live hlive hclaims) (hidle hkey.symm hsub rfl), hfinal⟩
    · rw [if_neg hkey]
      exact hok
  · have hold := hs.slots key
    refine ⟨hold.once, hold.ran, hold.submitted, hold.previewed, fun orderId horder => ?_, hold.executed⟩
    rw [hslot] at horder
    by_cases hkey : expired = key
    · simp [hkey] at horder
    · rw [if_neg hkey] at horder
      exact hold.guarded orderId horder

theorem Valid.step (hs : s.Valid) (e : IntentEvent) (happart : Apart e s) : (step e s).Valid := by
  cases e with
  | submit key type dryRun =>
    exact hs.arrive rfl rfl (fun _ => rfl) fun _ => nofun
  | preview key =>
    show (if s.live then _ else s : IntentDesk).Valid
    split
    · next hlive =>
      refine hs.arrive ?_ rfl nofun fun _ => nofun
      rw [PhaseOk, if_pos (by rw [Intent.claims, hlive]; rfl)]
      nofun
    · exact hs
  | step i answer =>
    show (match s.calls[i]? with
      | some call => s.stepCall i call answer
      | none => s : IntentDesk).Valid
    cases hi : s.calls[i]? with
    | none => exact hs
    | some call => exact hs.stepCall hi happart
  | expire key => exact hs.expire key happart

theorem valid_empty (live : Bool) : Valid { live := live } := by
  refine ⟨fun i call h => by simp at h, fun i j a b _ h => by simp at h, fun i j a b h => by simp at h,
    fun key => ?_⟩
  constructor <;> simp [slot]

theorem Valid.onceForEach (hs : s.Valid) : s.Once where
  effects key := by
    refine Nat.le_trans (List.Sublist.length_le ?_) (hs.slots key).once
    refine monotone_filter_right _ fun run hrun => ?_
    simp only [decide_eq_true_eq] at hrun ⊢
    refine ⟨hrun.1, ?_⟩
    cases hintent : run.intent with
    | submission key type dryRun => rfl
    | preview key => rw [hintent] at hrun; cases hrun.2
  executed i intent result hi hsubmitted :=
    (hs.slots intent.key).executed i intent result hi rfl hsubmitted

/-- Where the step answers the call, it answers with the row that it leaves, and carries nothing
out. -/
def AnswersRow (s s' : IntentDesk) (i : Nat) (intent : Intent) : Prop :=
  ∀ result, s'.calls[i]? = some ⟨intent, .answered result⟩ →
    (s'.intents.get? intent.key).map IntentRow.result = some result ∧ s'.runs = s.runs

section Answers

variable {t : IntentDesk} (hi : s.calls[i]? = some call) (hcalls : t.calls = s.calls)

include hi hcalls

theorem answersRow_of_open (hopen : ∀ result, phase ≠ .answered result) :
    AnswersRow s (t.goTo i call.intent phase) i call.intent := by
  intro result hanswered
  rw [calls_set_self (s := s) (by rw [goTo, hcalls]) hi, Option.some.injEq,
    IntentCall.mk.injEq] at hanswered
  exact absurd hanswered.2 (hopen result)

theorem answersRow_of_row (hruns : t.runs = s.runs) {row : IntentRow}
    (hrow : t.intents.get? call.intent.key = some row) :
    AnswersRow s (t.goTo i call.intent (.answered row.result)) i call.intent := by
  intro result hanswered
  rw [calls_set_self (s := s) (by rw [goTo, hcalls]) hi, Option.some.injEq,
    IntentCall.mk.injEq, IntentPhase.answered.injEq] at hanswered
  refine ⟨?_, hruns⟩
  rw [← hanswered.2]
  exact congrArg (Option.map IntentRow.result) hrow

end Answers

theorem answersRow_stepCall (hi : s.calls[i]? = some call) (answer : String)
    (hopen : ∀ result, call.phase ≠ .answered result) :
    AnswersRow s (s.stepCall i call answer) i call.intent := by
  unfold IntentDesk.stepCall
  cases hphase : call.phase with
  | answered result => exact absurd hphase (hopen result)
  | arrived =>
    simp only [IntentDesk.lookUp]
    split
    · next row hrow => exact answersRow_of_row hi rfl rfl hrow
    · exact answersRow_of_open hi rfl fun _ => nofun
  | claimed => exact answersRow_of_open hi rfl fun _ => nofun
  | executing =>
    simp only [IntentDesk.beginIntent, IntentDesk.callService]
    split
    · split
      · next row hrow => exact answersRow_of_row hi rfl rfl hrow
      · exact answersRow_of_open hi rfl fun _ => nofun
    · split
      · split
        · exact answersRow_of_open hi rfl fun _ => nofun
        · exact answersRow_of_open hi rfl fun _ => nofun
      · exact answersRow_of_open hi rfl fun _ => nofun
  | storing answer' =>
    have hstored : ∀ row : IntentRow, AnswersRow s ({ s with
        intents := s.intents.set call.intent.key row }.goTo i call.intent (.answered row.result)) i
          call.intent := fun row =>
      answersRow_of_row (t := { s with intents := s.intents.set call.intent.key row }) hi rfl rfl
        (Dict.get?_set_self s.intents call.intent.key row)
    simp only [IntentDesk.finalizeIntentResult, IntentDesk.saveIntentResult]
    split
    · split
      · next row hrow => exact hstored { row with result := .final answer' }
      · intro result hanswered
        rw [hi, Option.some.injEq] at hanswered
        exact absurd (congrArg IntentCall.phase hanswered) (hopen result)
    · split
      · next row hrow => exact answersRow_of_row hi rfl rfl hrow
      · exact hstored ⟨call.intent, .final answer'⟩

theorem stepCall_calls_ne (answer : String) {j : Nat} (hji : j ≠ i) :
    (s.stepCall i call answer).calls[j]? = s.calls[j]? := by
  have hset : ∀ new : IntentCall, (s.calls.set i new)[j]? = s.calls[j]? := fun new =>
    getElem?_set_ne fun h => hji h.symm
  unfold IntentDesk.stepCall IntentDesk.lookUp IntentDesk.beginIntent IntentDesk.callService
    IntentDesk.carryOut IntentDesk.finalizeIntentResult IntentDesk.saveIntentResult goTo
  repeat' split
  all_goals first | exact hset _ | rfl

theorem Valid.answersStored (hs : s.Valid) (e : IntentEvent) (happart : Apart e s) :
    AnswersStored e s := by
  rintro i answer call result rfl hi hphase hanswered run hrun hdone
  have hopen : ∀ result, call.phase ≠ .answered result := by
    intro result hclosed
    rw [hclosed] at hphase
    obtain h | h := hphase <;> cases h
  have hstep : IntentDesk.step (.step i answer) s = s.stepCall i call answer := by
    show (match s.calls[i]? with
      | some call => s.stepCall i call answer
      | none => s) = _
    rw [hi]
  have hslot := (hs.step (.step i answer) happart).slots call.intent.key
  rw [hstep] at hanswered hslot ⊢
  obtain ⟨hrow, hruns⟩ := answersRow_stepCall hi answer hopen result hanswered
  have hmem : run ∈ ((s.stepCall i call answer).slot call.intent.key).runs := by
    show run ∈ filter _ (s.stepCall i call answer).runs
    rw [hruns]
    exact hrun
  obtain ⟨phase', hat, hstored⟩ := hslot.ran run hmem
  -- the call that the order service answered is not waiting to store its answer any more
  have hfinal : ∃ row, ((s.stepCall i call answer).slot call.intent.key).row = some row ∧
      row.result = .final run.answer := by
    refine hstored.resolve_left ?_
    rintro rfl
    obtain hcall | ⟨stored, hdone⟩ := hdone
    · rw [hcall, hanswered, Option.some.injEq, IntentCall.mk.injEq] at hat
      cases hat.2
    · have hne : run.call ≠ i := by
        intro hcall
        rw [hcall, hi, Option.some.injEq] at hdone
        exact hopen stored (congrArg IntentCall.phase hdone)
      rw [stepCall_calls_ne answer hne, hdone, Option.some.injEq, IntentCall.mk.injEq] at hat
      cases hat.2
  obtain ⟨row, hsome, hresult⟩ := hfinal
  have heq : (some row).map IntentRow.result = some result := hsome ▸ hrow
  refine ⟨?_, hrow⟩
  rw [← hresult]
  exact (Option.some.inj heq).symm

theorem Valid.run (hs : s.Valid) (events : List IntentEvent)
    (happart : machine.Along (fun e _ s => Apart e s) events s) :
    machine.Along (fun e _ s => AnswersStored e s) events s ∧ (machine.run events s).Valid := by
  induction events generalizing s with
  | nil => exact ⟨trivial, hs⟩
  | cons e rest ih =>
    obtain ⟨hanswers, hlast⟩ := ih (hs.step e happart.1) happart.2
    exact ⟨⟨hs.answersStored e happart.1, hanswers⟩, hlast⟩

end IntentDesk

open IntentDesk

/-- Where submissions and previews of a key keep apart, every answer given after its submission
was answered is the stored result, no key's orders are placed twice, and every key that was
submitted is carried out for a submission. -/
theorem intents_once (live : Bool) (events : List IntentEvent)
    (happart : machine.Along (fun e _ s => Apart e s) events { live := live }) :
    machine.Along (fun e _ s => AnswersStored e s) events { live := live } ∧
      (machine.run events { live := live }).Once := by
  obtain ⟨hanswers, hlast⟩ := (valid_empty live).run events happart
  exact ⟨hanswers, hlast.onceForEach⟩

/-! ### runs -/

/-- Two baskets of one key overlap, and a live order is retried. -/
def overlapping : List IntentEvent :=
  [.submit "basket" .placeBasket false, .submit "basket" .placeBasket false, .step 0 "", .step 1 "",
    .step 0 "", .step 1 "", .step 0 "placed", .step 0 "", .submit "order" .placeOrder false,
    .step 2 "", .step 2 "240102000000001", .step 2 "", .submit "order" .placeOrder false,
    .step 3 "", .preview "basket", .step 4 ""]

/-- A preview without a key of its own, and a basket submitted with the preview's key. -/
def previewedFirst : List IntentEvent :=
  [.preview "basket", .step 0 "", .step 0 "margins", .step 0 "",
    .submit "basket" .placeBasket false, .step 1 ""]

instance decidableApart (s : IntentDesk) : ∀ e, Decidable (Apart e s)
  | .submit _ _ _ | .preview _ => isTrue trivial
  | .expire key => inferInstanceAs (Decidable (∀ call ∈ s.calls, call.intent.key = key →
      call.intent.submitted = true → call.phase.inProgress = true → call.intent.type ≠ .placeOrder))
  | .step i answer =>
    match h : s.calls[i]? with
    | none => isTrue fun call hcall => by rw [h] at hcall; cases hcall
    | some ⟨intent, .arrived⟩ =>
      decidable_of_iff
        ((∀ row ∈ s.intents.get? intent.key, row.request.submitted = true) ∧
          (s.intents.get? intent.key = none → ∀ other ∈ s.calls, other.intent.key = intent.key →
            other.intent.submitted = true → other.phase.inProgress = true →
              together s.live intent other.intent = true))
        (by simp [Apart, h])
    | some ⟨intent, .executing⟩ =>
      decidable_of_iff
        (intent.submitted = false → s.intents.get? intent.key = none → ∀ other ∈ s.calls,
          other.intent.key = intent.key → other.intent.submitted = true → other.phase.inProgress = false)
        (by simp [Apart, h])
    | some ⟨_, .claimed⟩ | some ⟨_, .storing _⟩ | some ⟨_, .answered _⟩ =>
      isTrue (by simp [Apart, h])

theorem intents_once_overlapping :
    machine.Along (fun e _ s => AnswersStored e s) overlapping { live := true } ∧
      (machine.run overlapping { live := true }).Once :=
  intents_once true overlapping (by decide +kernel)

theorem preview_swallows_basket : ¬ ∀ (live : Bool) (events : List IntentEvent),
    machine.Along (fun e _ s => AnswersStored e s) events { live := live } ∧
      (machine.run events { live := live }).Once := by
  intro h
  have hexecuted := (h true previewedFirst).2.executed 1 (.submission "basket" .placeBasket false)
    (.final "margins") (by decide +kernel) rfl
  obtain hruns | ⟨j, other, hj, -⟩ := hexecuted
  · exact absurd (by decide +kernel) hruns
  · have hclaimed : ∀ call ∈ (machine.run previewedFirst { live := true }).calls,
        call.phase ≠ .claimed := by decide +kernel
    exact absurd rfl (hclaimed _ (List.mem_of_getElem? hj))

end KiteAlgo
