import KiteAlgo.Value

/-!
# KiteAlgo.Workers

The row of `algo_worker_runs` that a worker run is (`algo_worker_repo.py`).  Workers,
recovery, backend protection and the control plane all read and write it: its session
columns (`KiteAlgo.Workers.Sessions`) and the JSON object of its runtime state, one column
with a key for each of them.
-/

namespace KiteAlgo

abbrev Json := PyVal ℚ

/-- The JSON object `runtime_state_json`. -/
abbrev RuntimeState := Dict String Json

/-- The object under a key, empty where there is none: `dict(value or {})`. -/
def Json.object (value : Option Json) : Dict Key Json := (value.map PyVal.entries).getD []

/-- `COALESCE((object ->> key)::BOOLEAN, FALSE)`, `bool(object.get(key))` of a flag. -/
def Json.flag (object : Dict Key Json) (key : String) : Bool :=
  match object.get? (.str key) with
  | some (.bool b) => b
  | _ => false

/-- A row of `algo_worker_runs`. -/
structure WorkerRun where
  strategyRunId : String
  accountScope : String
  executionMode : String
  status : String := "open"
  runtimeState : RuntimeState := []
  riskSchema : List (Dict Key Json) := []
  workerSessionNonce : Option String := none
  workerSessionClaimedAt : Option Int := none
  lastHeartbeatAt : Option Int := none
  closedAt : Option Int := none

namespace WorkerRun

/-- `runtime_state -> 'backend_protection'`. -/
def backendProtection (run : WorkerRun) : Dict Key Json :=
  Json.object (run.runtimeState.get? "backend_protection")

/-- Is a stale worker left to the backend protection? -/
def staleOwned (run : WorkerRun) : Bool :=
  Json.flag run.backendProtection "enabled" &&
    Json.flag (Json.object (run.backendProtection.get? (.str "operations"))) "exit_on_worker_stale"

end WorkerRun

def seconds (n : Int) : Int := n * 1000000

end KiteAlgo
