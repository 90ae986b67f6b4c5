import KiteAlgo.Lib.Run
import KiteAlgo.Shards.Allocator
import KiteAlgo.Shards.Registry

/-!
# KiteAlgo.Shards.Service

The calls that change subscriptions (`service.go`): an owner sets or deletes its entry, the
janitor removes owners that were not heard of.  Each then reconciles: it reads the effective
subscriptions, has them allocated, and applies the allocation to the shards.

The registry, the allocator and the shards each have their own mutex, and a call holds none of
them from one section to the next.  So a call is a `Phase`, and a run advances any call by one
section at a time.  A call is in the list from its start and stays there when it has returned.
-/

namespace KiteAlgo.Shards

/-! ## the service -/

/-- `config.Config`, as far as the calls read it. -/
structure Config where
  limits : Limits
  ownerLeaseTtl : Int := 0

structure Service where
  registry : SubscriptionRegistry := {}
  assignments : Table UInt32 Nat := .empty
  shards : Table Nat KiteShard := .empty
  currentToken : String := ""
  exhausted : Bool := false

def isSpace (c : Char) : Bool :=
  c.val ∈ [0x20, 0x85, 0xA0, 0x1680, 0x2028, 0x2029, 0x202F, 0x205F, 0x3000] ||
    (0x09 ≤ c.val && c.val ≤ 0x0D) || (0x2000 ≤ c.val && c.val ≤ 0x200A)

/-- `strings.TrimSpace(owner) == ""`. -/
def blank (owner : String) : Bool := owner.toList.all isSpace

section Apply

variable (subscribed : Option Mode → Mode)

/-- One shard is brought to its part of an allocation; the first error is kept. -/
def applyShard (token : String) (byShard : Table Nat OwnerSubscriptions) (refusals : Nat → Refusals)
    (acc : Table Nat KiteShard × Option String) (shardId : Nat) : Table Nat KiteShard × Option String :=
  let desired := (byShard.get? shardId).getD .empty
  if !desired.rows.isEmpty || decide (shardId = 1) || (acc.1.get? shardId).isSome then
    let shard := (acc.1.get? shardId).getD {}
    let shard := if token = "" then shard else shard.start token
    let (shard, error) := shard.applySubscriptions subscribed desired (refusals shardId)
    let shards :=
      if desired.rows.isEmpty && decide (1 < shardId) then acc.1.erase shardId
      else acc.1.upsert shardId shard
    (shards, acc.2.or error)
  else acc

/-- The loop of `reconcile` over the shards. -/
def applyShards (limits : Limits) (token : String) (byShard : Table Nat OwnerSubscriptions)
    (refusals : Nat → Refusals) (shards : Table Nat KiteShard) : Table Nat KiteShard × Option String :=
  limits.shardIds.foldl (applyShard subscribed token byShard refusals) (shards, none)

end Apply

/-! ## calls -/

inductive Write where
  | set (owner : String) (subscriptions : OwnerSubscriptions)
  | delete (owner : String)

namespace Write

def owner : Write → String
  | .set owner _ => owner
  | .delete owner => owner

def subscriptions : Write → OwnerSubscriptions
  | .set _ subscriptions => subscriptions
  | .delete _ => .empty

def exec (now : Int) (r : SubscriptionRegistry) : Write → SubscriptionRegistry
  | .set owner subscriptions => r.setOwner owner subscriptions now
  | .delete owner => r.deleteOwner owner

end Write

/-- Where a call is.  `undo` is the entry it restores when its `reconcile` fails. -/
inductive Phase where
  | lookup (write : Write)
  | write (write : Write) (previous : OwnerSubscriptions)
  | sweep
  | read (undo : Option (String × OwnerSubscriptions))
  | allocate (undo : Option (String × OwnerSubscriptions)) (effective : OwnerSubscriptions)
  | apply (undo : Option (String × OwnerSubscriptions)) (effective : OwnerSubscriptions)
      (allocation : Except String (Table Nat OwnerSubscriptions))
  | restore (owner : String) (previous : OwnerSubscriptions)
  | returned

inductive Request where
  | setOwnerSubscriptions (owner : String) (subscriptions : OwnerSubscriptions)
  | deleteOwner (owner : String)
  | ownerJanitor

def Request.begin : Request → Phase
  | .setOwnerSubscriptions owner subscriptions =>
    if blank owner then .returned else .lookup (.set owner subscriptions)
  | .deleteOwner owner => .lookup (.delete owner)
  | .ownerJanitor => .sweep

/-- A failed `reconcile` is undone once. -/
def failed : Option (String × OwnerSubscriptions) → Phase
  | some (owner, previous) => .restore owner previous
  | none => .returned

def advance (subscribed : Option Mode → Mode) (config : Config) (now : Int)
    (refusals : Nat → Refusals) (phase : Phase) (s : Service) : Phase × Service :=
  match phase with
  | .lookup write => (.write write (s.registry.getOwner write.owner), s)
  | .write write previous =>
    (.read (some (write.owner, previous)), { s with registry := write.exec now s.registry })
  | .sweep =>
    let (deleted, registry) := s.registry.deleteExpired config.ownerLeaseTtl now
    (if deleted.isEmpty then .returned else .read none, { s with registry })
  | .read undo => (.allocate undo s.registry.effective, s)
  | .allocate undo effective =>
    match reconcile config.limits effective s.assignments with
    | .ok (byShard, assignments) => (.apply undo effective (.ok byShard), { s with assignments })
    | .error error => (.apply undo effective (.error error), s)
  | .apply undo _ (.error _) => (failed undo, { s with exhausted := true })
  | .apply undo _ (.ok byShard) =>
    let (shards, error) :=
      applyShards subscribed config.limits s.currentToken byShard refusals s.shards
    (if error.isNone then .returned else failed undo, { s with exhausted := false, shards })
  | .restore owner previous =>
    (.read none, { s with registry := s.registry.setOwner owner previous now })
  | .returned => (.returned, s)

/-- The entries a section writes for a caller or the janitor. -/
def written (config : Config) (now : Int) (phase : Phase) (s : Service) :
    List (String × OwnerSubscriptions) :=
  match phase with
  | .write write _ => [(write.owner, write.subscriptions)]
  | .sweep => (s.registry.deleteExpired config.ownerLeaseTtl now).1.map fun owner => (owner, .empty)
  | _ => []

/-! ## runs -/

structure System where
  service : Service
  calls : List Phase := []
  /-- The entries written so far, by owner. -/
  writes : List (String × OwnerSubscriptions) := []

/-- A call starts, or one takes its next section. -/
inductive Move where
  | start (request : Request)
  | advance (call : Nat) (now : Int) (refusals : Nat → Refusals)

namespace System

def step (subscribed : Option Mode → Mode) (config : Config) (move : Move) (s : System) : System :=
  match move with
  | .start request => { s with calls := s.calls ++ [request.begin] }
  | .advance i now refusals =>
    match s.calls[i]? with
    | none => s
    | some phase =>
      let (next, service) := advance subscribed config now refusals phase s.service
      { service, calls := s.calls.set i next
        writes := s.writes ++ written config now phase s.service }

def run (subscribed : Option Mode → Mode) (config : Config) (moves : List Move) (s : System) : System :=
  moves.foldl (fun s move => s.step subscribed config move) s

theorem run_concat (subscribed : Option Mode → Mode) (config : Config) (moves : List Move)
    (move : Move) (s : System) :
    s.run subscribed config (moves ++ [move]) =
      (s.run subscribed config moves).step subscribed config move := by
  simp [run]

end System

end KiteAlgo.Shards
