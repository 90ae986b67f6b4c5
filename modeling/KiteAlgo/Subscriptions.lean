import KiteAlgo.Breadth
import KiteAlgo.Lib.Run
import KiteAlgo.Parser

/-!
# KiteAlgo.Subscriptions

The rows of `alert_subscriptions` (`workflows/service.py`): `ensure_subscriptions`
materializes the explicit instruments of a revision, `sync_universe_members` the
members of its universe.

The table is unique on revision, alert and instrument, so adding a second row of
a key is an `IntegrityError` and rolls the whole call back.  Row ids, timestamps
and the advisory lock are left out.  The catalog and `str.upper` are parameters.
-/

namespace KiteAlgo

/-! ## rows -/

inductive SubscriptionState where
  | active
  | paused
  | expired
  | completed
  deriving DecidableEq, Repr

structure SubscriptionKey where
  revisionId : String
  alertId : String
  instrumentKey : String
  deriving DecidableEq, Repr

section Types

variable (F : Type)

/-- The `config` of a subscription: the alert's own entries, and those the service
adds. -/
structure SubscriptionConfig where
  alert : Dict String (PyVal F)
  instrumentBinding : Option (Dict Key (PyVal F)) := none
  universeMember : Bool := false
  universeDeparted : Bool := false
  universeRevision : Option Int := none

/-- `AlertSubscription`, apart from its key. -/
structure SubscriptionRow where
  stageId : String
  instrumentSymbol : String
  instrumentExchange : String
  trigger : String
  config : SubscriptionConfig F
  state : SubscriptionState := .active

structure SubscriptionDb where
  rows : Table SubscriptionKey (SubscriptionRow F) := .empty
  breadth : BreadthDb := .empty

/-- A revision, as far as the calls read it. -/
structure Revision where
  id : String
  workflowId : String
  document : PyVal F

/-- The arguments of a membership sync, with the catalog and the case mapping in
force. -/
structure SyncArgs where
  members : List String
  universeRevision : Option Int := none
  ownerId : Option String := none
  binding : String → Option (Dict Key (PyVal F)) := fun _ => none
  upper : String → String := Text.upper

end Types

/-- What a sync returns; `integrity` marks the `IntegrityError` branch. -/
structure SyncResult where
  created : Nat
  departed : Nat
  readmitted : Nat
  integrity : Bool := false
  deriving DecidableEq, Repr

variable {F : Type}

def alertConfig (alert : AlertSpec F) : Dict String (PyVal F) :=
  [("cooldown_s", optInt alert.cooldownS), ("rearm_level", optFloat alert.rearmLevel),
   ("rearm_direction", optStr (alert.rearmDirection.map Named.name)),
   ("reminder_interval_s", optInt alert.reminderIntervalS),
   ("notify_if_already_true", .bool alert.notifyIfAlreadyTrue),
   ("expires_at", optStr alert.expiresAt),
   ("channels", .list (alert.channels.map .str)),
   ("message", optStr alert.message)]

/-- A binding that the catalog knows replaces the stored one. -/
def SubscriptionConfig.rebind (config : SubscriptionConfig F)
    (binding : Option (Dict Key (PyVal F))) : SubscriptionConfig F :=
  { config with instrumentBinding := binding.or config.instrumentBinding }

/-- One (alert, instrument) pair of `ensure_subscriptions`: a row that was there
before the call is bound again, a missing one is created. -/
def ensureRow (revisionId : String) (binding : String → Option (Dict Key (PyVal F)))
    (existing : Table SubscriptionKey (SubscriptionRow F)) (alert : AlertSpec F)
    (acc : Table SubscriptionKey (SubscriptionRow F) × Nat) (instrument : InstrumentRef) :
    Table SubscriptionKey (SubscriptionRow F) × Nat :=
  let key : SubscriptionKey := ⟨revisionId, alert.id, instrument.key⟩
  match acc.1.get? key with
  | some row =>
    if (existing.get? key).isSome then
      (acc.1.upsert key { row with config := row.config.rebind (binding instrument.key) }, acc.2)
    else acc
  | none =>
    (acc.1.upsert key
      { stageId := alert.source
        instrumentSymbol := instrument.symbol
        instrumentExchange := instrument.exchange
        trigger := alert.trigger.text
        config := ({ alert := alertConfig alert } : SubscriptionConfig F).rebind
          (binding instrument.key) },
     acc.2 + 1)

/-- The rows after `ensure_subscriptions`, with the number created. -/
def ensureRows (revisionId : String) (document : WorkflowDocument F)
    (binding : String → Option (Dict Key (PyVal F)))
    (rows : Table SubscriptionKey (SubscriptionRow F)) :
    Table SubscriptionKey (SubscriptionRow F) × Nat :=
  (document.alerts.flatMap fun alert => document.instruments.map fun i => (alert, i)).foldl
    (fun acc pair => ensureRow revisionId binding rows pair.1 acc pair.2) (rows, 0)

/-! ## universe members -/

/-- `str(member).strip().upper()`. -/
def SyncArgs.memberKey (args : SyncArgs F) (member : String) : String :=
  args.upper (Text.strip member)

/-- `wanted`: every alert with every member, and the parts of the member's key. -/
def wantedMembers (alerts : List (AlertSpec F)) (args : SyncArgs F) :
    Dict (String × String) (String × String) :=
  (alerts.flatMap fun alert => args.members.map fun m => (alert.id, args.memberKey m)).foldl
    (fun wanted pair =>
      let parts := Text.partition pair.2 ':'
      Dict.set wanted pair (parts.2, parts.1)) []

def isMember (row : Option (SubscriptionRow F)) : Bool := row.any fun r => r.config.universeMember

structure SyncProgress (F : Type) where
  rows : Table SubscriptionKey (SubscriptionRow F)
  created : Nat := 0
  readmitted : Nat := 0
  breadthResets : List (String × String) := []

def isBreadthStage (document : WorkflowDocument F) (stageId : String) : Bool :=
  document.stages.any fun s => decide (s.id = stageId) && s.breadth.isSome

/-- A breadth stage forgets what the member contributed. -/
def SyncProgress.reset (progress : SyncProgress F) (document : WorkflowDocument F)
    (alert : AlertSpec F) (member : String) : SyncProgress F :=
  if isBreadthStage document alert.source then
    { progress with breadthResets := progress.breadthResets ++ [(alert.source, member)] }
  else progress

/-- A known member: a departed row is resumed. -/
def resumeMember (revisionId : String) (document : WorkflowDocument F) (args : SyncArgs F)
    (alert : AlertSpec F) (member : String) (progress : SyncProgress F) : SyncProgress F :=
  let key : SubscriptionKey := ⟨revisionId, alert.id, member⟩
  match progress.rows.get? key with
  | none => progress
  | some row =>
    if row.config.universeDeparted then
      let config :=
        { row.config with
          universeDeparted := false
          universeRevision := args.universeRevision.or row.config.universeRevision }
      ({ progress with
        rows := progress.rows.upsert key { row with config, state := .active }
        readmitted := progress.readmitted + 1 } : SyncProgress F).reset document alert member
    else progress

/-- A new member: a second row of its key is an `IntegrityError`. -/
def addMember (revisionId : String) (document : WorkflowDocument F) (args : SyncArgs F)
    (alert : AlertSpec F) (member : String) (parts : String × String) (progress : SyncProgress F) :
    Except PyErr (SyncProgress F) :=
  let key : SubscriptionKey := ⟨revisionId, alert.id, member⟩
  if (progress.rows.get? key).isSome then .error .integrity
  else
    let row : SubscriptionRow F :=
      { stageId := alert.source
        instrumentSymbol := parts.1
        instrumentExchange := parts.2
        trigger := alert.trigger.text
        config :=
          { alert := alertConfig alert
            instrumentBinding := args.binding member
            universeMember := true
            universeRevision := args.universeRevision } }
    .ok (({ progress with
      rows := progress.rows.upsert key row
      created := progress.created + 1 } : SyncProgress F).reset document alert member)

/-- One entry of `wanted` for one alert.  Whether the member is known is read off
the rows from before the call, and the entry's own alert id is ignored. -/
def syncItem (revisionId : String) (document : WorkflowDocument F) (args : SyncArgs F)
    (before : Table SubscriptionKey (SubscriptionRow F)) (alert : AlertSpec F)
    (progress : SyncProgress F) (item : (String × String) × (String × String)) :
    Except PyErr (SyncProgress F) :=
  if isMember (before.get? ⟨revisionId, alert.id, item.1.2⟩) then
    .ok (resumeMember revisionId document args alert item.1.2 progress)
  else addMember revisionId document args alert item.1.2 item.2 progress

/-- The loop over the alerts and all of `wanted`. -/
def syncItems (revisionId : String) (document : WorkflowDocument F) (args : SyncArgs F)
    (before : Table SubscriptionKey (SubscriptionRow F)) : Except PyErr (SyncProgress F) :=
  let wanted := wantedMembers document.alerts args
  (document.alerts.flatMap fun alert => wanted.map fun item => (alert, item)).foldlM
    (fun progress pair => syncItem revisionId document args before pair.1 progress pair.2)
    { rows := before }

/-- The member row is active and no longer wanted. -/
def departs (revisionId : String) (wanted : Dict (String × String) (String × String))
    (before : Table SubscriptionKey (SubscriptionRow F)) (key : SubscriptionKey)
    (row : SubscriptionRow F) : Bool :=
  decide (key.revisionId = revisionId) && isMember (before.get? key) &&
    !wanted.contains (key.alertId, key.instrumentKey) && decide (row.state = .active)

/-- A departed member is paused with a visible reason. -/
def SubscriptionRow.depart (row : SubscriptionRow F) : SubscriptionRow F :=
  { row with config := { row.config with universeDeparted := true }, state := .paused }

def clearBreadthContributions (revision : Revision F) (ownerId : Option String)
    (pairs : List (String × String)) (db : BreadthDb) : BreadthDb :=
  { db with
    triggers := pairs.foldl (fun triggers pair =>
      triggers.erase (⟨ownerId.getD "", revision.workflowId, revision.id, pair.1⟩, pair.2))
      db.triggers }

/-- The transaction of `sync_universe_members`. -/
def syncTransaction (revision : Revision F) (document : WorkflowDocument F) (args : SyncArgs F)
    (db : SubscriptionDb F) : Except PyErr (SyncResult × SubscriptionDb F) := do
  let progress ← syncItems revision.id document args db.rows
  let leaving := departs revision.id (wantedMembers document.alerts args) db.rows
  .ok
    ({ created := progress.created
       departed := (progress.rows.select leaving).length
       readmitted := progress.readmitted },
     { rows := progress.rows.mapRows fun key row => if leaving key row then row.depart else row
       breadth := clearBreadthContributions revision args.ownerId progress.breadthResets db.breadth })

variable [PyFloat F]

/-- The revision's document; none when it does not parse. -/
def Revision.parsed (revision : Revision F) : Except PyErr (Option (WorkflowDocument F)) :=
  match Parse.parseWorkflowDict revision.document with
  | .ok p => .ok (some p.document)
  | .error (.workflowParse _) | .error (.value _) | .error (.type _) => .ok none
  | .error e => .error e

/-- `ensure_subscriptions`: the number of rows created. -/
def ensureSubscriptions (revision : Revision F)
    (binding : String → Option (Dict Key (PyVal F))) (db : SubscriptionDb F) :
    Except PyErr (Nat × SubscriptionDb F) := do
  let document ← revision.parsed
  match document with
  | none => .ok (0, db)
  | some document =>
    let out := ensureRows revision.id document binding db.rows
    .ok (out.2, { db with rows := out.1 })

/-- `sync_universe_members`: a violated constraint rolls back and reports nothing. -/
def syncUniverseMembers (revision : Revision F) (args : SyncArgs F) (db : SubscriptionDb F) :
    Except PyErr (SyncResult × SubscriptionDb F) := do
  let document ← revision.parsed
  match document with
  | none => .ok (⟨0, 0, 0, false⟩, db)
  | some document =>
    match syncTransaction revision document args db with
    | .error .integrity => .ok (⟨0, 0, 0, true⟩, db)
    | out => out

end KiteAlgo
