import KiteAlgo.Algo
import KiteAlgo.Lib.Calls
import KiteAlgo.Value

/-!
# KiteAlgo.Algo.Kernel

The algo kernel (`algo_runtime/kernel.py`) for one instance: `dispatch_trigger`, and the
operations that change the status of the instance from outside.

A dispatch goes from await to await: `Stage` says which call it awaits, and `Call.step` is
the end of that call with the code up to the next one.  What the kernel, the state store
and the repository hold of the instance is an `Instance`.
-/

namespace KiteAlgo.Algo

/-- `AlgoLifecycleState`. -/
inductive LifecycleState where
  | enabled
  | running
  | paused
  | stopped
  | error
  deriving DecidableEq, Repr

namespace LifecycleState

def value : LifecycleState → String
  | enabled => "enabled"
  | running => "running"
  | paused => "paused"
  | stopped => "stopped"
  | error => "error"

/-- `AlgoLifecycleState(text)`; `none` is its `ValueError`. -/
def ofText (text : String) : Option LifecycleState :=
  [enabled, running, paused, stopped, error].find? fun status => status.value = text

/-- Instances with this status are evaluated. -/
def isEvaluated : LifecycleState → Bool
  | enabled | running => true
  | paused | stopped | error => false

/-- Instances with this status are loaded (`list_active_instances`). -/
def isActive : LifecycleState → Bool
  | enabled | running | paused => true
  | stopped | error => false

end LifecycleState

section Kernel

variable {F : Type}

abbrev HotState (F : Type) := Dict String (PyVal F)

inductive Action (F : Type) where
  | notify
  | orderIntent (intent : OrderIntent)
  | statePatch (patch : HotState F)
  | noop

/-- The patches among the actions of an evaluation. -/
def patchesOf (actions : List (Action F)) : List (HotState F) :=
  actions.filterMap fun
    | .statePatch patch => some patch
    | _ => none

/-- `pending_state`: the patches written over the state that was read. -/
def pendingState (original : HotState F) (actions : List (Action F)) : HotState F :=
  (patchesOf actions).foldl Dict.update original

/-- `AlgoCheckpoint` of an instance. -/
structure Checkpoint (F : Type) where
  lastEvaluatedAt : Int
  lastAction : Option (Action F)
  state : HotState F

/-- What is kept of an instance: hot state and checkpoint in the state store, checkpoint and
row in the repository, and the loaded instance and its module in the kernel. -/
structure Instance (F : Type) where
  hotState : HotState F := []
  checkpoint : Option (Checkpoint F) := none
  savedCheckpoint : Option (Checkpoint F) := none
  row : Option LifecycleState
  loaded : Option LifecycleState
  moduleLoaded : Bool := true

section Status

variable [PyFloat F]

/-- `bool(value)`. -/
def truthy : PyVal F → Bool
  | .none => false
  | .bool b => b
  | .int n => decide (n ≠ 0)
  | .float f => !PyFloat.eqQ f 0
  | .str s => decide (s ≠ "")
  | .list xs => !xs.isEmpty
  | .dict d => !d.isEmpty
  | .atom _ _ => true

/-- The key of a state under which a module asks for a status. -/
def statusKey : String := "_instance_status"

/-- The status that a state asks for: a value that is set and names a status. -/
def requestedStatus (state : HotState F) : Option LifecycleState :=
  (state.get? statusKey).bind fun value =>
    if truthy value then LifecycleState.ofText value.toText else none

end Status

/-! ## one dispatch -/

/-- The calls that a dispatch awaits and that may raise. -/
inductive Await where
  | evaluate
  | execute
  | setHotState
  | setCheckpoint
  | saveCheckpoint
  | updateStatus
  deriving DecidableEq, Repr

/-- A `dispatch_trigger` call: whether the trigger matches the dependencies of the instance,
what the module returns on the state it is given, the time, and how the awaited calls end. -/
structure Dispatch (F : Type) where
  triggers : Bool := true
  evaluate : HotState F → List (Action F)
  now : Int := 0
  ends : Await → Ending := fun _ => .returns

/-- Where a dispatch is: the call it awaits, or how it ended. -/
inductive Stage where
  /-- The snapshot is built and the module evaluated. -/
  | evaluate
  | execute
  | setHotState
  | setCheckpoint
  | saveCheckpoint
  | updateStatus
  /-- The updated instance is put into the kernel. -/
  | adopt
  | returned
  | failed
  /-- The instance is not evaluated on this trigger. -/
  | skipped
  deriving DecidableEq, Repr

def Stage.isOver : Stage → Bool
  | .returned | .failed | .skipped => true
  | _ => false

/-- A dispatch under way, with the status and the hot state it found. -/
structure Call (F : Type) where
  request : Dispatch F
  status : LifecycleState
  original : HotState F
  stage : Stage

namespace Call

def actions (c : Call F) : List (Action F) := c.request.evaluate c.original

def pending (c : Call F) : HotState F := pendingState c.original c.actions

def checkpoint (c : Call F) : Checkpoint F := ⟨c.request.now, c.actions.getLast?, c.pending⟩

/-- An awaited call that writes ends: the dispatch goes on, or fails with what it raises. -/
def await (c : Call F) (label : Await) (write : Instance F → Instance F) (next : Stage)
    (s : Instance F) : Call F × Instance F :=
  match c.request.ends label with
  | .returns => ({ c with stage := next }, write s)
  | .raises true => ({ c with stage := .failed }, write s)
  | .raises false => ({ c with stage := .failed }, s)

theorem await_returns {c : Call F} {label : Await} (h : c.request.ends label = .returns)
    (write : Instance F → Instance F) (next : Stage) (s : Instance F) :
    c.await label write next s = ({ c with stage := next }, write s) := by
  rw [Call.await, h]

theorem await_id (c : Call F) (label : Await) (next : Stage) (s : Instance F) :
    (c.await label id next s).2 = s ∧
      ((c.await label id next s).1.stage = next ∨ (c.await label id next s).1.stage = .failed) := by
  unfold Call.await
  split
  · exact ⟨rfl, .inl rfl⟩
  · exact ⟨rfl, .inr rfl⟩
  · exact ⟨rfl, .inr rfl⟩

variable [PyFloat F]

/-- The status to change to: requested in the written state and not the one found. -/
def desired (c : Call F) : Option LifecycleState :=
  (requestedStatus c.pending).filter fun status => decide (status ≠ c.status)

/-- The awaited call ends and the dispatch runs to its next await. -/
def step (c : Call F) (s : Instance F) : Call F × Instance F :=
  match c.stage with
  | .evaluate => c.await .evaluate id .execute s
  | .execute => c.await .execute id .setHotState s
  | .setHotState =>
    c.await .setHotState (fun s => { s with hotState := c.pending }) .setCheckpoint s
  | .setCheckpoint =>
    c.await .setCheckpoint (fun s => { s with checkpoint := some c.checkpoint }) .saveCheckpoint s
  | .saveCheckpoint =>
    c.await .saveCheckpoint (fun s => { s with savedCheckpoint := some c.checkpoint })
      (if c.desired.isSome then .updateStatus else .returned) s
  | .updateStatus =>
    -- without a row `update_status` returns `None`
    c.await .updateStatus (fun s => { s with row := s.row.bind fun _ => c.desired })
      (if s.row.isSome then .adopt else .returned) s
  | .adopt => ({ c with stage := .returned }, { s with loaded := c.desired })
  | .returned | .failed | .skipped => (c, s)

end Call

/-- A dispatch reaches the instance: it is skipped, or reads the hot state and evaluates. -/
def Dispatch.begin (d : Dispatch F) (s : Instance F) : Call F :=
  match s.loaded with
  | none => ⟨d, .stopped, s.hotState, .skipped⟩
  | some status =>
    if status.isEvaluated && d.triggers && s.moduleLoaded then
      ⟨d, status, s.hotState, .evaluate⟩
    else ⟨d, status, s.hotState, .skipped⟩

end Kernel

end KiteAlgo.Algo
