import KiteAlgo.Journal
import KiteAlgo.Lib.Run

/-!
# KiteAlgo.Journal.Projector

`LiveJournalProjector`: fills of the broker become facts of journal runs.  A fill with an
intent belongs to the run of the intent.  Any other fill is taken for the external exit of an
open run if it reduces the position of exactly one, and is imported otherwise. List Keyed

A run is closed after an external exit when its live fills add up to zero.  They are added
across instruments and products, so legs that offset each other pass for none
(`closed_run_flat_iff`).
-/

namespace KiteAlgo.Journal

/-! ## runs and their quantities -/

/-- What `find_live_order_intent` returns. -/
structure LiveOrderIntent where
  accountId : String
  strategyRunId : String
  journalRunId : Option Nat := none
  strategyFamily : String := ""
  strategyName : String := ""
  entrySurface : String := ""
  executionMode : String := ""
  /-- The entries of `attribution_json` that the projector reads. -/
  attributedRun : String := ""
  attributedSource : String := ""
  attributedToken : Option Int := none
  attributedProduct : Option String := none

/-- `value or default`. -/
def orElse (value default : String) : String := if value = "" then default else value

namespace JournalTables

variable (t : JournalTables)

/-- The facts of a run whose source type is `live_fill`. -/
def liveFacts (runId : Nat) : List ExecutionFact :=
  t.facts.rows.filter fun fact => fact.runId = runId ∧ fact.sourceType = .liveFill

def runQuantity (runId : Nat) : Int := ((t.liveFacts runId).map ExecutionFact.signed).sum

def runQuantityOf (runId : Nat) (holding : Option (Int × String)) : Int :=
  (((t.liveFacts runId).filter fun fact => fact.brokerFill = holding).map ExecutionFact.signed).sum

def nextRunId : Nat := (t.runs.rows.map JournalRun.id).foldl max 0 + 1

/-- `ensure_live_strategy_run_for_intent`; `none` is a `ValueError`. -/
def ensureLiveStrategyRunForIntent (intent : LiveOrderIntent) : Option Nat × JournalTables :=
  match intent.journalRunId with
  | some runId => (some runId, t)
  | none =>
    let strategyRunId := Text.strip intent.strategyRunId
    if intent.accountId = "" ∨ strategyRunId = "" then (none, t)
    else
      match t.links.get? strategyRunId with
      | some runId => (some runId, t)
      | none =>
        (some t.nextRunId, { t with
            runs := t.runs.upsert
              { id := t.nextRunId
                strategyFamily := orElse intent.strategyFamily "discretionary_strategy"
                strategyName := orElse intent.strategyName strategyRunId
                entrySurface := orElse intent.entrySurface "live_order"
                executionMode := orElse intent.executionMode "live"
                accountRef := intent.accountId
                status := .opened }
            links := t.links.set strategyRunId t.nextRunId })

/-- What `ensure_imported_broker_run` looks for. -/
def importedRun (accountId : String) (run : JournalRun) : Bool :=
  run.strategyFamily = "discretionary_strategy" ∧ run.strategyName = "Imported Broker Activity" ∧
    run.executionMode = "live" ∧ run.entrySurface = "broker_import" ∧ run.accountRef = accountId ∧
    run.status = .opened

/-- `ensure_imported_broker_run`; runs are in the order of `started_at`. -/
def ensureImportedBrokerRun (accountId : String) : Nat × JournalTables :=
  match (t.runs.rows.filter (importedRun accountId)).getLast? with
  | some run => (run.id, t)
  | none =>
    (t.nextRunId, { t with
        runs := t.runs.upsert
          { id := t.nextRunId
            strategyFamily := "discretionary_strategy"
            strategyName := "Imported Broker Activity"
            entrySurface := "broker_import"
            executionMode := "live"
            accountRef := accountId
            status := .opened } })

def findOpenLiveRunsForInstrument (accountId : String) (instrumentToken : Int) (product : String) :
    List (Nat × Int) :=
  ((t.runs.rows.filter fun run => run.executionMode = "live" ∧ run.status = .opened ∧
      run.accountRef = accountId).map fun run =>
    (run.id, t.runQuantityOf run.id (some (instrumentToken, product)))).filter fun row => row.2 ≠ 0

def markRunExternallyClosedIfFlat (runId : Nat) : JournalTables :=
  if t.runQuantity runId ≠ 0 then t
  else
    { t with
      runs := t.runs.modify runId (fun run => { run with status := .closed }) fun _ => rfl }

def listUnprojectedLiveFills (batchSize : Nat) : List LiveFill :=
  let unprojected := t.fills.rows.filter fun fill =>
    (t.facts.get? (.liveFill, fill.sourceKey)).isNone ∧
      (t.facts.get? (.brokerImport, fill.sourceKey)).isNone
  (sortBy (fun a b => decide (a.fillTimestamp < b.fillTimestamp ∨
    a.fillTimestamp = b.fillTimestamp ∧ a.tradeId ≤ b.tradeId)) unprojected).take (max 1 batchSize)

end JournalTables

/-! ## `live_projector.py` -/

def isReducingFill (netQuantity : Int) (side : String) (quantity : Int) : Bool :=
  if 0 < netQuantity ∧ Text.upper side = "SELL" then decide (quantity ≤ |netQuantity|)
  else if netQuantity < 0 ∧ Text.upper side = "BUY" then decide (quantity ≤ |netQuantity|)
  else false

/-- `resolve_external_fill_run` with its candidates: the run of an external exit. -/
def resolveExternalFillRun (candidates : List (Nat × Int)) (fill : LiveFill) : Option Nat :=
  match candidates.filter fun candidate =>
      isReducingFill candidate.2 fill.transactionType fill.quantity with
  | [candidate] => some candidate.1
  | _ => none

inductive Resolution where
  | liveIntent
  | externalExit
  | brokerImport
  deriving DecidableEq

inductive ProjectorCall where
  | findIntent
  | ensureRun
  | findRuns
  | importedRun
  | insertFact
  | record (call : RepositoryCall)
  | markClosed
  deriving DecidableEq

namespace LiveFill

/-- `f"{instrument_token or 'unknown'}:{product.upper()}"` with the attribution of the intent. -/
def instrumentKey (fill : LiveFill) (intent : Option LiveOrderIntent) : String :=
  let token := (intent.bind LiveOrderIntent.attributedToken).getD fill.instrumentToken
  let product := orElse ((intent.bind LiveOrderIntent.attributedProduct).getD fill.product)
    fill.product
  (if token = 0 then "unknown" else toString token) ++ ":" ++ Text.upper product

/-- The fact that `project` inserts first. -/
def fact (fill : LiveFill) (runId : Nat) (sourceType : SourceType) : ExecutionFact where
  runId := runId
  sourceType := sourceType
  sourceFactKey := fill.sourceKey
  orderId := some fill.orderId
  tradeId := some fill.tradeId
  fillTimestamp := fill.fillTimestamp
  side := fill.transactionType
  quantity := fill.quantity
  instrumentKey := fill.instrumentKey none
  brokerFill := some fill.holding

/-- The arguments of `record_v2_execution_fill`. -/
def record (fill : LiveFill) (intent : Option LiveOrderIntent) (runId : Nat)
    (sourceType : SourceType) : FillRecord where
  context :=
    { environmentId := "live:" ++ fill.accountId
      sourceSystem := orElse ((intent.map LiveOrderIntent.attributedSource).getD "") "live_projector"
      externalRunId :=
        orElse (Text.strip ((intent.map LiveOrderIntent.attributedRun).getD "")) (toString runId) }
  sourceType := sourceType
  sourceFactKey := fill.sourceKey
  side := fill.transactionType
  quantity := fill.quantity
  fillTimestamp := fill.fillTimestamp
  instrumentKey := fill.instrumentKey intent
  runId := some runId
  orderId := some fill.orderId
  tradeId := some fill.tradeId
  brokerFill := some fill.holding

end LiveFill

/-- The run of a fill, the source type of its fact, and why it is that run. -/
structure Attribution where
  runId : Nat
  sourceType : SourceType
  resolution : Resolution

def attributeFill (fill : LiveFill) (intent : Option LiveOrderIntent) :
    Calls ProjectorCall JournalTables Attribution :=
  match intent with
  | some intent => do
    match ← .call .ensureRun fun t => t.ensureLiveStrategyRunForIntent intent with
    | some runId => pure ⟨runId, .liveFill, .liveIntent⟩
    | none => .raise
  | none => do
    let candidates ← .read .findRuns fun t =>
      t.findOpenLiveRunsForInstrument fill.accountId fill.instrumentToken fill.product
    match resolveExternalFillRun candidates fill with
    | some runId => pure ⟨runId, .liveFill, .externalExit⟩
    | none => do
      let runId ← .call .importedRun fun t => t.ensureImportedBrokerRun fill.accountId
      pure ⟨runId, .brokerImport, .brokerImport⟩

def recordAttributed (fill : LiveFill) (intent : Option LiveOrderIntent) (now : Int)
    (attribution : Attribution) : Calls ProjectorCall JournalTables Resolution := do
  .write .insertFact fun t =>
    t.insertExecutionFact (fill.fact attribution.runId attribution.sourceType)
  let _ ← ((recordV2ExecutionFill (fill.record intent attribution.runId attribution.sourceType)
    now).rename .record).attempt
  if attribution.resolution = .externalExit then
    .write .markClosed fun t => t.markRunExternallyClosedIfFlat attribution.runId
  pure attribution.resolution

/-- One fill in the loop of `project`; `intent` is what `find_live_order_intent` finds. -/
def projectFill (fill : LiveFill) (intent : Option LiveOrderIntent) (now : Int) :
    Calls ProjectorCall JournalTables Resolution := do
  let intent ← .read .findIntent fun _ => intent
  let attribution ← attributeFill fill intent
  recordAttributed fill intent now attribution

/-- The calls of `project`. -/
inductive ProjectCall where
  | listFills
  | fill (key : String × String) (call : ProjectorCall)
  deriving DecidableEq

/-- The loop of `project`. -/
def projectAll (intentOf : LiveFill → Option LiveOrderIntent) (now : Int) :
    List LiveFill → Calls ProjectCall JournalTables (List Resolution)
  | [] => pure []
  | fill :: fills => do
    let resolution ← (projectFill fill (intentOf fill) now).rename (.fill fill.key)
    let resolutions ← projectAll intentOf now fills
    pure (resolution :: resolutions)

/-- `LiveJournalProjector.project`; the resolutions are what it counts. -/
def project (intentOf : LiveFill → Option LiveOrderIntent) (batchSize : Nat) (now : Int) :
    Calls ProjectCall JournalTables (List Resolution) := do
  let fills ← .read .listFills fun t => t.listUnprojectedLiveFills batchSize
  projectAll intentOf now fills

/-! ## what one fill changes -/

def ExecutionFact.tally (fact : ExecutionFact) : Nat × SourceType × Option (Int × String) × Int :=
  (fact.runId, fact.sourceType, fact.brokerFill, fact.signed)

namespace JournalTables

variable {t t' : JournalTables}

theorem map_tally_liveFacts (t : JournalTables) (runId : Nat) :
    (t.liveFacts runId).map ExecutionFact.tally = (t.facts.rows.map ExecutionFact.tally).filter fun tally =>
        tally.1 = runId ∧ tally.2.1 = .liveFill := by
  rw [List.filter_map]
  rfl

theorem runQuantity_congr (h : t'.facts.rows.map ExecutionFact.tally =
    t.facts.rows.map ExecutionFact.tally) (runId : Nat) :
    t'.runQuantity runId = t.runQuantity runId ∧
      ∀ holding, t'.runQuantityOf runId holding = t.runQuantityOf runId holding := by
  have hlive : (t'.liveFacts runId).map ExecutionFact.tally =
      (t.liveFacts runId).map ExecutionFact.tally := by
    rw [map_tally_liveFacts, map_tally_liveFacts, h]
  constructor
  · have hsigned := congrArg (List.map fun tally => tally.2.2.2) hlive
    rw [List.map_map, List.map_map] at hsigned
    exact congrArg List.sum hsigned
  · intro holding
    have hsigned := congrArg (fun tallies => (tallies.filter fun tally => tally.2.2.1 = holding).map
      fun tally => tally.2.2.2) hlive
    simp only [List.filter_map, List.map_map] at hsigned
    exact congrArg List.sum hsigned

def Recorded (t : JournalTables) (source : SourceKey)
    (tally : Nat × SourceType × Option (Int × String) × Int) : Prop :=
  ∃ old, t.facts.get? source = some old ∧ old.tally = tally

theorem Recorded.insert {source : SourceKey} {tally : Nat × SourceType × Option (Int × String) × Int}
    (h : t.Recorded source tally) (fact : ExecutionFact) (hkey : fact.key = source)
    (htally : fact.tally = tally) :
    (t.insertExecutionFact fact).Recorded source tally ∧
      (t.insertExecutionFact fact).facts.rows.map ExecutionFact.tally =
        t.facts.rows.map ExecutionFact.tally := by
  subst hkey htally
  obtain ⟨old, hold, htally⟩ := h
  have honto : (fact.onto old).key = fact.key := rfl
  unfold insertExecutionFact
  rw [hold]
  refine ⟨⟨fact.onto old, ?_, rfl⟩, ?_⟩
  · rw [← honto]
    exact Keyed.get?_upsert_self _ _
  · exact Keyed.map_upsert_of_same hold htally

theorem recorded_insert (t : JournalTables) (fact : ExecutionFact) :
    (t.insertExecutionFact fact).Recorded fact.key fact.tally := by
  unfold insertExecutionFact
  cases hget : t.facts.get? fact.key with
  | none => exact ⟨fact, Keyed.get?_upsert_self _ _, rfl⟩
  | some old =>
    have honto : (fact.onto old).key = fact.key := rfl
    refine ⟨fact.onto old, ?_, rfl⟩
    rw [← honto]
    exact Keyed.get?_upsert_self _ _

end JournalTables

theorem record_keeps_tallies (fill : LiveFill) (intent : Option LiveOrderIntent) (runId : Nat)
    (sourceType : SourceType) (now : Int) (ends : RepositoryCall → Ending) {t : JournalTables}
    (h : t.Recorded (fill.fact runId sourceType).key (fill.fact runId sourceType).tally) :
    let t' := (recordV2ExecutionFill (fill.record intent runId sourceType) now ends t).2
    t'.runs = t.runs ∧ t'.facts.rows.map ExecutionFact.tally = t.facts.rows.map ExecutionFact.tally := by
  have hkeeps : (recordV2ExecutionFill (fill.record intent runId sourceType) now).Keeps fun t' =>
      t'.Recorded (fill.fact runId sourceType).key (fill.fact runId sourceType).tally ∧ t'.runs = t.runs ∧
        t'.facts.rows.map ExecutionFact.tally = t.facts.rows.map ExecutionFact.tally := by
    refine recordV2ExecutionFill_keeps (fun _ _ h => h) (fun _ _ _ h => h) ?_
    rintro t' _ id intentId effect ⟨rfl⟩ ⟨hrecorded, hruns, htallies⟩
    obtain ⟨hagain, hsame⟩ := hrecorded.insert
      ((fill.record intent runId sourceType).fact runId id intentId effect) rfl rfl
    exact ⟨hagain, hruns, hsame.trans htallies⟩
  exact (hkeeps ends t ⟨h, rfl, rfl⟩).2

/-! ## one fill after another -/

/-- A fill with the intent that is found for it. -/
structure Projection where
  fill : LiveFill
  intent : Option LiveOrderIntent
  now : Int

namespace Projection

variable (q : Projection) (t : JournalTables)

/-- The fill is projected, and no call fails. -/
def outcome : Option Resolution × JournalTables := (projectFill q.fill q.intent q.now).run t

/-- The run that the fill is taken for an exit of. -/
def exitOf : Option Nat :=
  match q.intent with
  | some _ => none
  | none => resolveExternalFillRun (t.findOpenLiveRunsForInstrument q.fill.accountId
      q.fill.instrumentToken q.fill.product) q.fill

/-- The tables when the facts of the fill are recorded. -/
def recorded (attribution : Attribution) : JournalTables :=
  ((recordV2ExecutionFill
      (q.fill.record q.intent attribution.runId attribution.sourceType) q.now).run
    (t.insertExecutionFact (q.fill.fact attribution.runId attribution.sourceType))).2

theorem recordAttributed_run (attribution : Attribution) :
    (recordAttributed q.fill q.intent q.now attribution).run t = (some attribution.resolution,
        if attribution.resolution = .externalExit then
          (q.recorded t attribution).markRunExternallyClosedIfFlat attribution.runId
        else q.recorded t attribution) := by
  simp only [recordAttributed, recorded, Calls.run_bind, Calls.run_write, Calls.run_attempt,
    Calls.run_rename]
  by_cases h : attribution.resolution = .externalExit
  · simp only [if_pos h, Calls.run_bind, Calls.run_write, Calls.run_pure]
  · simp only [if_neg h, Calls.run_pure]

end Projection

def JournalTables.IsClosed (t : JournalTables) (runId : Nat) : Prop :=
  ∃ run ∈ t.runs.get? runId, run.status = .closed

instance (t : JournalTables) (runId : Nat) : Decidable (t.IsClosed runId) :=
  inferInstanceAs (Decidable (∃ run ∈ t.runs.get? runId, _))

variable {id : Nat}

theorem JournalTables.isClosed_upsert {t : JournalTables} {run : JournalRun}
    (hstatus : run.status = .opened) {links : Dict String Nat}
    (h : { t with runs := t.runs.upsert run, links := links }.IsClosed id) : t.IsClosed id := by
  obtain ⟨other, hother, hclosed⟩ := h
  rw [Option.mem_def, Keyed.get?_upsert] at hother
  split at hother
  · rw [Option.some.injEq] at hother
    rw [← hother, hstatus] at hclosed
    cases hclosed
  · exact ⟨other, hother, hclosed⟩

theorem JournalTables.isClosed_ensureLive {t : JournalTables} {intent : LiveOrderIntent}
    (h : (t.ensureLiveStrategyRunForIntent intent).2.IsClosed id) : t.IsClosed id := by
  unfold ensureLiveStrategyRunForIntent at h
  split at h
  · exact h
  · dsimp only at h
    split at h
    · exact h
    · split at h
      · exact h
      · exact isClosed_upsert rfl h

theorem JournalTables.isClosed_ensureImported {t : JournalTables} {accountId : String}
    (h : (t.ensureImportedBrokerRun accountId).2.IsClosed id) : t.IsClosed id := by
  unfold ensureImportedBrokerRun at h
  split at h
  · exact h
  · exact isClosed_upsert rfl h

theorem isClosed_record {fill : LiveFill} {intent : Option LiveOrderIntent} {runId : Nat}
    {sourceType : SourceType} {now : Int} {ends : RepositoryCall → Ending} {t : JournalTables} :
    (recordV2ExecutionFill (fill.record intent runId sourceType) now ends
        (t.insertExecutionFact (fill.fact runId sourceType))).2.IsClosed id ↔ t.IsClosed id := by
  have hruns := (record_keeps_tallies fill intent runId sourceType now ends
    (JournalTables.recorded_insert t (fill.fact runId sourceType))).1
  unfold JournalTables.IsClosed
  rw [hruns]
  rfl

namespace Projection

variable {q : Projection} {t : JournalTables}

theorem attributeFill_run (q : Projection) (t : JournalTables) :
    let result := (attributeFill q.fill q.intent).run t
    (∀ id, result.2.IsClosed id → t.IsClosed id) ∧
      ∀ attribution ∈ result.1, if attribution.resolution = .externalExit then
          q.exitOf t = some attribution.runId ∧ attribution.sourceType = .liveFill ∧ result.2 = t
        else q.exitOf t = none := by
  unfold attributeFill exitOf
  cases q.intent with
  | some intent =>
    dsimp only
    rw [Calls.run_bind, Calls.run_call]
    dsimp only
    have hclosed : ∀ id, (t.ensureLiveStrategyRunForIntent intent).2.IsClosed id →
        t.IsClosed id := fun _ => JournalTables.isClosed_ensureLive
    cases (t.ensureLiveStrategyRunForIntent intent).1 with
    | none => exact ⟨hclosed, nofun⟩
    | some runId =>
      refine ⟨hclosed, ?_⟩
      rintro attribution ⟨⟩
      rfl
  | none =>
    dsimp only
    rw [Calls.run_bind, Calls.run_read]
    dsimp only
    cases resolveExternalFillRun (t.findOpenLiveRunsForInstrument q.fill.accountId
        q.fill.instrumentToken q.fill.product) q.fill with
    | some runId =>
      refine ⟨fun _ h => h, ?_⟩
      rintro attribution ⟨⟩
      exact ⟨rfl, rfl, rfl⟩
    | none =>
      refine ⟨fun id => JournalTables.isClosed_ensureImported, ?_⟩
      rintro attribution ⟨⟩
      rfl

theorem outcome_eq (q : Projection) (t : JournalTables) :
    let result := (attributeFill q.fill q.intent).run t
    q.outcome t = match result.1 with
      | none => (none, result.2)
      | some attribution => (recordAttributed q.fill q.intent q.now attribution).run result.2 := by
  simp only [outcome, projectFill, Calls.run_bind, Calls.run_read]
  rcases (attributeFill q.fill q.intent).run t with ⟨_ | attribution, t'⟩ <;> rfl

/-- The tables in which the closing test of an exit is made: facts and runs. -/
def atTest (q : Projection) (t : JournalTables) (runId : Nat) : JournalTables :=
  t.insertExecutionFact (q.fill.fact runId .liveFill)

theorem recorded_quantities (q : Projection) (t : JournalTables) (runId : Nat)
    (resolution : Resolution) (id : Nat) :
    (q.recorded t ⟨runId, .liveFill, resolution⟩).runQuantity id = (q.atTest t runId).runQuantity id ∧
      ∀ holding, (q.recorded t ⟨runId, .liveFill, resolution⟩).runQuantityOf id holding =
        (q.atTest t runId).runQuantityOf id holding := by
  have hkeeps := record_keeps_tallies q.fill q.intent runId .liveFill q.now (fun _ => .returns)
    (JournalTables.recorded_insert t (q.fill.fact runId .liveFill))
  unfold recorded Calls.run atTest
  exact JournalTables.runQuantity_congr hkeeps.2 id

theorem isClosed_recorded {q : Projection} {t : JournalTables} {attribution : Attribution}
    {id : Nat} : (q.recorded t attribution).IsClosed id ↔ t.IsClosed id := by
  unfold recorded Calls.run
  exact isClosed_record

theorem runs_recorded (q : Projection) (t : JournalTables) (attribution : Attribution) :
    (q.recorded t attribution).runs = t.runs := by
  have hkeeps := record_keeps_tallies q.fill q.intent attribution.runId attribution.sourceType q.now
    (fun _ => .returns)
    (JournalTables.recorded_insert t (q.fill.fact attribution.runId attribution.sourceType))
  unfold recorded Calls.run
  exact hkeeps.1

-- from here on only what these lemmas say is used
attribute [irreducible] recorded

end Projection

theorem JournalTables.isClosed_mark {t : JournalTables} {runId id : Nat} :
    (t.markRunExternallyClosedIfFlat runId).IsClosed id ↔
      t.IsClosed id ∨ id = runId ∧ t.runQuantity runId = 0 ∧ (t.runs.get? runId).isSome := by
  unfold markRunExternallyClosedIfFlat IsClosed
  split
  · next hne => simp [hne]
  · next hzero =>
    rw [not_not] at hzero
    dsimp only
    rw [Keyed.get?_modify]
    by_cases hid : id = runId
    · subst hid
      rw [if_pos rfl]
      cases t.runs.get? id <;> simp [hzero]
    · simp [hid]

theorem JournalTables.runQuantityOf_mark (t : JournalTables) (runId id : Nat)
    (holding : Option (Int × String)) :
    (t.markRunExternallyClosedIfFlat runId).runQuantityOf id holding = t.runQuantityOf id holding := by
  unfold markRunExternallyClosedIfFlat
  split <;> rfl

/-! ## exits -/

/-- The fill makes the position smaller and does not take it through zero. -/
def Reduces (netQuantity : Int) (fill : LiveFill) : Prop :=
  0 < netQuantity ∧ 0 ≤ netQuantity + fill.change ∧ fill.change < 0 ∨
    netQuantity < 0 ∧ netQuantity + fill.change ≤ 0 ∧ 0 < fill.change

theorem reduces_of_isReducingFill {netQuantity : Int} {fill : LiveFill}
    (h : isReducingFill netQuantity fill.transactionType fill.quantity) :
    Reduces netQuantity fill := by
  have hpos := fill.quantity_pos
  unfold isReducingFill at h
  unfold Reduces TradeFill.change TradeFill.isBuy
  split at h
  · next hsell =>
    have hle := of_decide_eq_true h
    rw [abs_of_pos hsell.1] at hle
    rw [hsell.2]
    have hno : ("SELL" == "BUY") = false := by decide
    simp only [hno, Bool.false_eq_true, if_false]
    omega
  · split at h
    · next hbuy =>
      have hle := of_decide_eq_true h
      rw [abs_of_neg hbuy.1] at hle
      rw [hbuy.2]
      simp only [beq_self_eq_true, if_true]
      omega
    · cases h

namespace Projection

variable {q : Projection} {t : JournalTables} {runId : Nat}

theorem exitOf_spec (h : q.exitOf t = some runId) :
    (∃ run, t.runs.get? runId = some run ∧ run.status = .opened) ∧
      Reduces (t.runQuantityOf runId (some q.fill.holding)) q.fill := by
  unfold exitOf at h
  cases hintent : q.intent with
  | some intent =>
    rw [hintent] at h
    cases h
  | none =>
    rw [hintent] at h
    dsimp only at h
    unfold resolveExternalFillRun at h
    split at h
    · next candidate hone =>
      cases h
      have hmem : candidate ∈ [candidate] := List.mem_singleton.mpr rfl
      rw [← hone, List.mem_filter] at hmem
      obtain ⟨hcandidate, hreducing⟩ := hmem
      rw [JournalTables.findOpenLiveRunsForInstrument, List.mem_filter, List.mem_map] at hcandidate
      obtain ⟨⟨run, hrun, rfl⟩, -⟩ := hcandidate
      obtain ⟨hrow, hlive⟩ := List.mem_filter.mp hrun
      have hopen : run.status = .opened := (of_decide_eq_true hlive).2.1
      exact ⟨⟨run, Keyed.mem_rows_iff.mp hrow, hopen⟩, reduces_of_isReducingFill hreducing⟩
    · cases h

theorem exit_of_newly_closed (hnew : ¬ t.IsClosed runId) (hclosed : (q.outcome t).2.IsClosed runId) :
    q.exitOf t = some runId ∧ (q.atTest t runId).runQuantity runId = 0 := by
  obtain ⟨hkeep, hattributed⟩ := attributeFill_run q t
  have houtcome := q.outcome_eq t
  dsimp only at hkeep hattributed houtcome
  rcases hresult : (attributeFill q.fill q.intent).run t with ⟨attributed, t'⟩
  rw [hresult] at hkeep hattributed houtcome
  dsimp only at hkeep hattributed houtcome
  rw [houtcome] at hclosed
  cases attributed with
  | none => exact absurd (hkeep runId hclosed) hnew
  | some attribution =>
    have hcase := hattributed attribution rfl
    obtain ⟨id, sourceType, resolution⟩ := attribution
    dsimp only at hclosed hcase
    rw [recordAttributed_run] at hclosed
    by_cases hexit : resolution = .externalExit
    · rw [if_pos hexit] at hclosed hcase
      obtain ⟨hrun, rfl, rfl⟩ := hcase
      obtain hold | ⟨rfl, hzero, -⟩ := JournalTables.isClosed_mark.mp hclosed
      · exact absurd (isClosed_recorded.mp hold) hnew
      · exact ⟨hrun, ((q.recorded_quantities t' runId resolution runId).1).symm.trans hzero⟩
    · rw [if_neg hexit] at hclosed
      exact absurd (hkeep runId (isClosed_recorded.mp hclosed)) hnew

theorem exitOf_of_outcome (h : (q.outcome t).1 = some .externalExit) :
    ∃ runId, q.exitOf t = some runId := by
  obtain ⟨-, hattributed⟩ := attributeFill_run q t
  have houtcome := q.outcome_eq t
  dsimp only at hattributed houtcome
  rcases hresult : (attributeFill q.fill q.intent).run t with ⟨attributed, t'⟩
  rw [hresult] at hattributed houtcome
  rw [houtcome] at h
  cases attributed with
  | none => cases h
  | some attribution =>
    have hcase := hattributed attribution rfl
    dsimp only at h
    rw [recordAttributed_run, Option.some.injEq] at h
    rw [if_pos h] at hcase
    exact ⟨attribution.runId, hcase.1⟩

theorem outcome_of_exit (h : q.exitOf t = some runId) :
    ∃ resolution, q.outcome t = (some .externalExit,
      (q.recorded t ⟨runId, .liveFill, resolution⟩).markRunExternallyClosedIfFlat runId) := by
  refine ⟨.externalExit, ?_⟩
  have hattributed : (attributeFill q.fill q.intent).run t =
      (some ⟨runId, .liveFill, .externalExit⟩, t) := by
    unfold exitOf at h
    unfold attributeFill
    cases hintent : q.intent with
    | some intent =>
      rw [hintent] at h
      cases h
    | none =>
      rw [hintent] at h
      dsimp only at h ⊢
      rw [Calls.run_bind, Calls.run_read]
      dsimp only
      rw [h, Calls.run_pure]
  have houtcome := q.outcome_eq t
  rw [hattributed] at houtcome
  dsimp only at houtcome
  rw [houtcome, recordAttributed_run]
  rfl

end Projection

/-! ## closed runs are flat -/

/-- The closing test and the attribution of one fill are right. -/
structure ExitsSound (q : Projection) (t : JournalTables) : Prop where
  flat : ∀ runId, ¬ t.IsClosed runId → (q.outcome t).2.IsClosed runId →
    ∀ holding, (q.outcome t).2.runQuantityOf runId holding = 0
  reduces : (q.outcome t).1 = some .externalExit → ∃ runId, q.exitOf t = some runId ∧
    Reduces (t.runQuantityOf runId (some q.fill.holding)) q.fill

/-- The run has quantities in several instruments or products, which add up to zero. -/
structure JournalTables.Offsetting (t : JournalTables) (runId : Nat) : Prop where
  held : ∃ fact ∈ t.liveFacts runId, t.runQuantityOf runId fact.brokerFill ≠ 0
  offset : t.runQuantity runId = 0

theorem JournalTables.runQuantityOf_of_notMem {t : JournalTables} {runId : Nat}
    {holding : Option (Int × String)} (h : ∀ fact ∈ t.liveFacts runId, fact.brokerFill ≠ holding) :
    t.runQuantityOf runId holding = 0 := by
  rw [runQuantityOf, List.filter_eq_nil_iff.mpr fun fact hfact => by simpa using h fact hfact]
  rfl

theorem exits_sound_iff (q : Projection) (t : JournalTables) :
    ExitsSound q t ↔ ∀ runId ∈ q.exitOf t, ¬ (q.atTest t runId).Offsetting runId := by
  constructor
  · intro hsound runId hexit hoffsetting
    obtain ⟨resolution, houtcome⟩ := Projection.outcome_of_exit hexit
    obtain ⟨⟨run, hrun, hopen⟩, -⟩ := Projection.exitOf_spec hexit
    obtain ⟨fact, -, hheld⟩ := hoffsetting.held
    have hnew : ¬ t.IsClosed runId := by
      rintro ⟨other, hother, hclosed⟩
      rw [Option.mem_def, hrun, Option.some.injEq] at hother
      rw [← hother, hopen] at hclosed
      cases hclosed
    have hquantities := q.recorded_quantities t runId resolution runId
    have hclosed : (q.outcome t).2.IsClosed runId := by
      rw [houtcome, JournalTables.isClosed_mark]
      refine .inr ⟨rfl, hquantities.1.trans hoffsetting.offset, ?_⟩
      rw [Projection.runs_recorded, hrun]
      rfl
    have hflat := hsound.flat runId hnew hclosed fact.brokerFill
    rw [houtcome, JournalTables.runQuantityOf_mark, hquantities.2] at hflat
    exact hheld hflat
  · intro hclean
    refine ⟨fun runId hnew hclosed holding => ?_, fun hexit => ?_⟩
    · obtain ⟨hexit, hzero⟩ := Projection.exit_of_newly_closed hnew hclosed
      obtain ⟨resolution, houtcome⟩ := Projection.outcome_of_exit hexit
      rw [houtcome, JournalTables.runQuantityOf_mark, (q.recorded_quantities t runId resolution runId).2]
      by_cases hmem : ∃ fact ∈ (q.atTest t runId).liveFacts runId, fact.brokerFill = holding
      · obtain ⟨fact, hfact, rfl⟩ := hmem
        by_contra hheld
        exact hclean runId hexit ⟨⟨fact, hfact, hheld⟩, hzero⟩
      · exact JournalTables.runQuantityOf_of_notMem fun fact hfact heq => hmem ⟨fact, hfact, heq⟩
    · obtain ⟨runId, hrun⟩ := Projection.exitOf_of_outcome hexit
      exact ⟨runId, hrun, (Projection.exitOf_spec hrun).2⟩

def projections : Machine Projection JournalTables Unit where
  step q t := (q.outcome t).2
  out _ _ := []

/-- In every sequence of fills: runs are closed only when they are flat, and exits reduce a
position, exactly where no run that an exit is recorded for has quantities that offset each
other. -/
theorem closed_run_flat_iff (requests : List Projection) (t : JournalTables) :
    projections.Along (fun q _ t => ExitsSound q t) requests t ↔ projections.Along
        (fun q _ t => ∀ runId ∈ q.exitOf t, ¬ (q.atTest t runId).Offsetting runId) requests t :=
  Machine.along_congr (I := fun _ => True) (fun q _ t _ => exits_sound_iff q t) (fun _ _ _ _ _ => trivial)
    trivial

def demoTrade (tradeId orderId : String) (token : Int) (side : String) (quantity : Int)
    (instant : Int) : TradeFill :=
  ⟨"ACC1", tradeId, orderId, token, "NFO", "", "NRML", side, quantity, 100, instant, false⟩

/-- Twenty of one option bought and ten of another sold for a run; ten of the first sold outside. -/
def demoSpread : List Projection :=
  let intent : LiveOrderIntent := { accountId := "ACC1", strategyRunId := "spread" }
  [⟨⟨demoTrade "T1" "O1" 1 "BUY" 20 1, by decide, by decide⟩, some intent, 1⟩,
   ⟨⟨demoTrade "T2" "O2" 2 "SELL" 10 2, by decide, by decide⟩, some intent, 2⟩,
   ⟨⟨demoTrade "T3" "O3" 1 "SELL" 10 3, by decide, by decide⟩, none, 3⟩]

/-- The external sale leaves ten long and ten short, and the run is closed. -/
theorem offsetting_run_closed :
    let t := projections.run demoSpread {}
    (t.runs.get? 1).map JournalRun.status = some .closed ∧
      t.runQuantityOf 1 (some (1, "NRML")) = 10 ∧ t.runQuantityOf 1 (some (2, "NRML")) = -10 ∧
      ¬ projections.Along (fun q _ t => ExitsSound q t) demoSpread {} := by
  refine ⟨by decide +kernel, by decide +kernel, by decide +kernel, fun h => ?_⟩
  obtain ⟨-, -, hexit, -⟩ := h
  have hflat := hexit.flat 1 (by decide +kernel) (by decide +kernel) (some (1, "NRML"))
  exact absurd hflat (by decide +kernel)

end KiteAlgo.Journal
