import KiteAlgo.Lib.Recent
import KiteAlgo.Lib.Run

/-!
# KiteAlgo.Algo

The actions of algo modules (`algo_runtime/models.py`) and the intent bridge
(`algo_runtime/intent_bridge.py`), which hands the order intents of an evaluation to
the handler of the execution mode and answers intents that carry a dedupe key from
the results it remembers.

`execute` is a coroutine: it is modelled by what happens between two awaits.  Any
number of executions share one bridge, and `Event` is what the event loop does: an
execution is started and runs to its first await, or the call it awaits ends and it
runs to the next one.
-/

namespace KiteAlgo.Algo

inductive ExecutionMode where
  | live
  | paper
  | dryRun
  deriving DecidableEq, Repr

def ExecutionMode.value : ExecutionMode → String
  | .live => "live"
  | .paper => "paper"
  | .dryRun => "dry_run"

/-- `OrderIntent`, without the payload that only the handler reads. -/
structure OrderIntent where
  intentType : String
  dedupeKey : Option String := none
  deriving DecidableEq, Repr

/-- What tells deduplicated intents apart: mode, instance and dedupe key. -/
abbrev Triple := ExecutionMode × String × String

/-- `IntentBridge`, with the results of the handlers in `R`. -/
structure IntentBridge (R : Type) where
  dedupeCacheLimit : Nat
  dedupeResults : Dict String R := []

/-- `IntentBridge(dedupe_cache_limit=limit)`. -/
def IntentBridge.new {R : Type} (limit : Int) : IntentBridge R :=
  ⟨(max 100 limit).toNat, []⟩

/-- The dedupe key of an intent, when it has one. -/
def OrderIntent.key? (intent : OrderIntent) : Option String :=
  intent.dedupeKey.filter fun key => decide (key ≠ "")

def cacheKey (t : Triple) : String := t.1.value ++ ":" ++ t.2.1 ++ ":" ++ t.2.2

def OrderIntent.triple? (intent : OrderIntent) (mode : ExecutionMode) (instanceId : String) :
    Option Triple :=
  intent.key?.map fun key => (mode, instanceId, key)

def OrderIntent.dedupeCacheKey (intent : OrderIntent) (mode : ExecutionMode) (instanceId : String) :
    Option String :=
  (intent.triple? mode instanceId).map cacheKey

section Bridge

variable {R : Type}

/-- A call of `execute`: its mode, the instance of its context, whether the mode has a
handler, and what is still to be done.  How a call of a handler ends is given with what
is handed to it: a notification is sent or raises, an intent has a result or raises. -/
structure Execution (R : Type) where
  mode : ExecutionMode
  instanceId : String
  handlerConfigured : Bool := true
  notifications : List Bool := []
  intents : List (OrderIntent × Option R)
  deriving DecidableEq

inductive Outcome (R : Type) where
  /-- `"executed"`: the handler returned a result. -/
  | executed (result : R)
  /-- `"deduped"`: a remembered result. -/
  | deduped (result : R)
  /-- The handler raised, or none is configured. -/
  | raised
  deriving DecidableEq, Repr

/-- An entry of `order_results`, or the exception that `execute` ends with. -/
structure Answer (R : Type) where
  mode : ExecutionMode
  instanceId : String
  intent : OrderIntent
  outcome : Outcome R
  deriving DecidableEq

def Answer.triple? (a : Answer R) : Option Triple := a.intent.triple? a.mode a.instanceId

namespace Execution

/-- The cache key of an intent of the execution. -/
def key? (x : Execution R) (intent : OrderIntent) : Option String :=
  intent.dedupeCacheKey x.mode x.instanceId

/-- An answer to an intent of the execution. -/
def answer (x : Execution R) (intent : OrderIntent) (outcome : Outcome R) : Answer R :=
  ⟨x.mode, x.instanceId, intent, outcome⟩

def finish (x : Execution R) : Execution R := { x with notifications := [], intents := [] }

/-- The loop over the intents up to the next call of a handler: intents with a remembered
result are answered with it, which makes the result the last used one. -/
def proceed (x : Execution R) :
    List (OrderIntent × Option R) → Dict String R → List (Answer R) × Dict String R × Execution R
  | [], cache => ([], cache, x.finish)
  | (intent, ending) :: rest, cache =>
    match (x.key? intent).bind fun key => (cache.get? key).map fun result => (key, result) with
    | some (key, result) =>
      let next := proceed x rest (cache.moveToEnd key)
      (x.answer intent (.deduped result) :: next.1, next.2)
    | none =>
      if x.handlerConfigured then
        ([], cache, { x with notifications := [], intents := (intent, ending) :: rest })
      else ([x.answer intent .raised], cache, x.finish)

/-- The execution runs until it awaits a handler. -/
def begin (x : Execution R) (cache : Dict String R) :
    List (Answer R) × Dict String R × Execution R :=
  if x.notifications = [] then x.proceed x.intents cache else ([], cache, x)

/-- The awaited call ends and the execution runs to its next await: a notification has been
sent or raised, or an intent has its result, which is remembered, or raised. -/
def resume (limit : Nat) (x : Execution R) (cache : Dict String R) :
    List (Answer R) × Dict String R × Execution R :=
  match x.notifications, x.intents with
  | true :: rest, _ => { x with notifications := rest }.begin cache
  | false :: _, _ => ([], cache, x.finish)
  | [], [] => ([], cache, x)
  | [], (intent, some result) :: rest =>
    let cache := match x.key? intent with
      | some key => cache.remember limit key result
      | none => cache
    let next := x.proceed rest cache
    (x.answer intent (.executed result) :: next.1, next.2)
  | [], (intent, none) :: _ => ([x.answer intent .raised], cache, x.finish)

/-- The handler call in flight that will return a result, by its cache key. -/
def inFlight (x : Execution R) : Option String :=
  match x.notifications, x.intents with
  | [], (intent, some _) :: _ => x.key? intent
  | _, _ => none

/-- The triples of the intents still to be answered. -/
def triples (x : Execution R) : List Triple :=
  x.intents.filterMap fun entry => entry.1.triple? x.mode x.instanceId

end Execution

inductive Event (R : Type) where
  | start (x : Execution R)
  | resume (i : Nat)
  deriving DecidableEq

/-- The bridge and the executions started on it. -/
structure Executions (R : Type) where
  bridge : IntentBridge R
  calls : List (Execution R) := []

/-- The executions over one bridge as a machine that records the answers. -/
def executions : Machine (Event R) (Executions R) (Answer R) where
  step
    | .start x, s =>
      let next := x.begin s.bridge.dedupeResults
      ⟨{ s.bridge with dedupeResults := next.2.1 }, s.calls ++ [next.2.2]⟩
    | .resume i, s =>
      match s.calls[i]? with
      | none => s
      | some x =>
        let next := x.resume s.bridge.dedupeCacheLimit s.bridge.dedupeResults
        ⟨{ s.bridge with dedupeResults := next.2.1 }, s.calls.set i next.2.2⟩
  out
    | .start x, s => (x.begin s.bridge.dedupeResults).1
    | .resume i, s =>
      match s.calls[i]? with
      | none => []
      | some x => (x.resume s.bridge.dedupeCacheLimit s.bridge.dedupeResults).1

end Bridge

end KiteAlgo.Algo
