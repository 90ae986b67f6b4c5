import KiteAlgo.Lib.Calls
import KiteAlgo.Lib.Table
import KiteAlgo.LiveOrders.TradeSync
import KiteAlgo.Workers

/-!
# KiteAlgo.Journal

The trading journal: the tables that fills are recorded in, the calls of its repository
(`legacy_repository.py`) and `record_v2_execution_fill`, which finds the episode of a fill,
writes the position map of the episode, and stores the fill as a fact of it.

These are separate transactions: what an earlier call has written stays when a later one
raises.  `additions` keeps count of the writes of a position map that carry a fill; no code
reads it.
-/

namespace KiteAlgo.Journal

/-! ## rows -/

inductive SourceType where
  | liveOrder
  | liveFill
  | brokerImport
  | paperStrategyRun
  | paperTrade
  | paperOrder
  | optionStrategyRun
  | algoInstance
  | investingStrategy
  deriving DecidableEq

/-- A source type with its `source_fact_key`. -/
abbrev SourceKey := SourceType × String

/-- `open` is `opens`. -/
inductive PositionEffect where
  | opens
  | add
  | reduce
  | close
  | flip
  deriving DecidableEq

/-- `open` is `opened`. -/
inductive EpisodeStatus where
  | draft
  | opening
  | opened
  | reducing
  | flatPendingConfirmation
  | closed
  | cancelled
  | unresolved
  deriving DecidableEq

/-- `status not in {"closed", "cancelled", "unresolved"}`. -/
def EpisodeStatus.active : EpisodeStatus → Bool
  | closed | cancelled | unresolved => false
  | _ => true

structure ExecutionContext where
  environmentId : String
  sourceSystem : String
  externalRunId : String
  deriving DecidableEq

/-- An episode is known by its context and its sequence number. -/
abbrev EpisodeId := ExecutionContext × Nat

/-- A row of `journal_episodes`. -/
structure Episode where
  context : ExecutionContext
  episodeSeq : Nat
  status : EpisodeStatus
  openedAt : Int
  closedAt : Option Int
  netQuantityByInstrument : Table String Int
  closeReason : Option String

namespace Episode

def id (episode : Episode) : EpisodeId := (episode.context, episode.episodeSeq)

/-- `ORDER BY opened_at DESC, episode_seq DESC`. -/
def before (a b : Episode) : Bool :=
  decide (b.openedAt < a.openedAt ∨ a.openedAt = b.openedAt ∧ b.episodeSeq ≤ a.episodeSeq)

/-- The row that `ensure_episode` inserts. -/
def new (context : ExecutionContext) (seq : Nat) (status : EpisodeStatus) (openedAt : Int)
    (map : Table String Int) : Episode where
  context := context
  episodeSeq := seq
  status := status
  openedAt := openedAt
  closedAt := none
  netQuantityByInstrument := map
  closeReason := none

/-- The row after `update_episode_status`; a new map or reason replaces the one of the metadata. -/
def updated (episode : Episode) (status : EpisodeStatus) (closedAt : Option Int)
    (map : Table String Int) (reason : Option String) : Episode :=
  { episode with
    status := status
    closedAt := closedAt.or episode.closedAt
    netQuantityByInstrument := map
    closeReason := reason.or episode.closeReason }

end Episode

/-- A row of `journal_execution_facts`; `instrumentKey` and `brokerFill` (instrument token and
product) are read from its payload. -/
structure ExecutionFact where
  runId : Nat
  environmentId : Option String := none
  episodeId : Option EpisodeId := none
  intentId : Option String := none
  sourceType : SourceType
  sourceFactKey : String
  orderId : Option String
  tradeId : Option String
  fillTimestamp : Int
  side : String
  quantity : Int
  positionEffect : Option PositionEffect := none
  instrumentKey : String
  brokerFill : Option (Int × String)
  deriving DecidableEq

namespace ExecutionFact

def key (fact : ExecutionFact) : SourceKey := (fact.sourceType, fact.sourceFactKey)

/-- `CASE WHEN UPPER(side) = 'BUY' THEN quantity ELSE -quantity END`. -/
def signed (fact : ExecutionFact) : Int :=
  if Text.upper fact.side = "BUY" then fact.quantity else -fact.quantity

/-- The row that `ON CONFLICT (source_type, source_fact_key) DO UPDATE` leaves. -/
def onto (fact old : ExecutionFact) : ExecutionFact :=
  { fact with
    environmentId := fact.environmentId.or old.environmentId
    episodeId := fact.episodeId.or old.episodeId
    intentId := fact.intentId.or old.intentId
    positionEffect := fact.positionEffect.or old.positionEffect }

end ExecutionFact

inductive ClaimStatus where
  | processing
  | projected
  | failed
  deriving DecidableEq

/-- A row of `journal_v2_projection_claims`. -/
structure ProjectionClaim where
  source : SourceKey
  status : ClaimStatus
  updatedAt : Int
  deriving DecidableEq

inductive RunStatus where
  | draft
  | opened
  | closed
  | cancelled
  | reviewed
  deriving DecidableEq

/-- A row of `journal_runs`. -/
structure JournalRun where
  id : Nat
  strategyFamily : String
  strategyName : String
  entrySurface : String
  executionMode : String
  accountRef : String
  status : RunStatus
  deriving DecidableEq

/-- A row of `order_trade_fills`: it buys or sells something. -/
structure LiveFill extends TradeFill where
  side_named : transactionType = "BUY" ∨ transactionType = "SELL"
  quantity_pos : 0 < quantity
  deriving DecidableEq

def LiveFill.key (fill : LiveFill) : String × String := fill.toTradeFill.key

/-- `account_id || ':' || trade_id`. -/
def LiveFill.sourceKey (fill : LiveFill) : String := fill.accountId ++ ":" ++ fill.tradeId

structure JournalTables where
  episodes : Keyed Episode.id := .empty
  facts : Keyed ExecutionFact.key := .empty
  claims : Keyed ProjectionClaim.source := .empty
  fills : Keyed LiveFill.key := .empty
  runs : Keyed JournalRun.id := .empty
  /-- The `live_order` links of `journal_source_links`. -/
  links : Dict String Nat := []
  additions : List SourceKey := []

namespace JournalTables

variable (t : JournalTables)

/-! ## claims and facts -/

def Claimable (source : SourceKey) (now : Int) : Prop :=
  ∀ claim ∈ t.claims.get? source, claim.status = .failed ∨ claim.updatedAt < now - seconds 300

instance (source : SourceKey) (now : Int) : Decidable (t.Claimable source now) :=
  inferInstanceAs (Decidable (∀ claim ∈ t.claims.get? source, _))

def claimV2ProjectionSource (source : SourceKey) (now : Int) : Bool × JournalTables :=
  if t.Claimable source now then
    (true, { t with claims := t.claims.upsert ⟨source, .processing, now⟩ })
  else (false, t)

def markV2ProjectionSource (source : SourceKey) (status : ClaimStatus) (now : Int) :
    JournalTables :=
  { t with
    claims := t.claims.modify source
      (fun claim => { claim with status := status, updatedAt := now }) fun _ => rfl }

def findV2ExecutionFactBySource (source : SourceKey) : Option ExecutionFact :=
  (t.facts.get? source).filter fun fact => fact.environmentId.isSome

def insertExecutionFact (fact : ExecutionFact) : JournalTables :=
  { t with
    facts := t.facts.upsert (match t.facts.get? fact.key with
      | none => fact
      | some old => fact.onto old) }

/-! ## episodes -/

def episodesOf (context : ExecutionContext) : List Episode :=
  t.episodes.rows.filter fun episode => episode.context = context

def listEpisodes (context : ExecutionContext) (limit : Nat) : List Episode :=
  (sortBy Episode.before (t.episodesOf context)).take (max 1 limit)

def updateEpisodeStatus (id : EpisodeId) (status : EpisodeStatus) (closedAt : Option Int)
    (map : Table String Int) (reason : Option String) : JournalTables :=
  { t with
    episodes := t.episodes.modify id (fun episode => episode.updated status closedAt map reason)
      fun _ => rfl }

def ensureEpisode (context : ExecutionContext) (seq : Nat) (status : EpisodeStatus) (openedAt : Int)
    (map : Table String Int) : EpisodeId × JournalTables :=
  ((context, seq), match t.episodes.get? (context, seq) with
    | some _ => t.updateEpisodeStatus (context, seq) status none map none
    | none => { t with episodes := t.episodes.upsert (.new context seq status openedAt map) })

@[simp] theorem ensureEpisode_facts (context : ExecutionContext) (seq : Nat)
    (status : EpisodeStatus) (openedAt : Int) (map : Table String Int) :
    (t.ensureEpisode context seq status openedAt map).2.facts = t.facts := by
  unfold ensureEpisode
  cases t.episodes.get? (context, seq) <;> rfl

@[simp] theorem ensureEpisode_claims (context : ExecutionContext) (seq : Nat)
    (status : EpisodeStatus) (openedAt : Int) (map : Table String Int) :
    (t.ensureEpisode context seq status openedAt map).2.claims = t.claims := by
  unfold ensureEpisode
  cases t.episodes.get? (context, seq) <;> rfl

/-- The fill of this source is in the map that was just written. -/
def carry (source : SourceKey) : JournalTables := { t with additions := source :: t.additions }

end JournalTables

/-- `quantity if side == "BUY" else -quantity`. -/
def signedQuantity (side : String) (quantity : Int) : Int :=
  if Text.upper side = "BUY" then quantity else -quantity

/-- `classify_position_effect`; `none` is a `ValueError`. -/
def classifyPositionEffect (previousQty : Int) (side : String) (quantity : Int) :
    Option PositionEffect :=
  if quantity ≤ 0 then none
  else
    let side := Text.upper (Text.strip side)
    if side ≠ "BUY" ∧ side ≠ "SELL" then none
    else
      let newQty := previousQty + if side = "BUY" then quantity else -quantity
      if previousQty = 0 then some .opens
      else if newQty = 0 then some .close
      else if 0 < previousQty then
        if side = "BUY" then some .add else if 0 < newQty then some .reduce else some .flip
      else if side = "SELL" then some .add
      else if newQty < 0 then some .reduce
      else some .flip

def nextEpisodeSequence (existing : List Nat) : Nat := existing.foldl max 0 + 1

def allPositionsFlat (map : Table String Int) : Bool := map.rows.all fun entry => entry.2 = 0

/-! ## `record_v2_execution_fill` -/

/-- The calls of `record_v2_execution_fill` to its repository. -/
inductive RepositoryCall where
  | claimSource
  | findFact
  | ensureContext
  | listEpisodes
  | ensureEpisode
  | episodeDetail
  | updateEpisode
  | createIntent
  | insertFact
  | markSource
  deriving DecidableEq

/-- The arguments of `record_v2_execution_fill`. -/
structure FillRecord where
  context : ExecutionContext
  sourceType : SourceType
  sourceFactKey : String
  side : String
  quantity : Int
  fillTimestamp : Int
  instrumentKey : String
  runId : Option Nat
  orderId : Option String := none
  tradeId : Option String := none
  brokerFill : Option (Int × String) := none

def FillRecord.source (r : FillRecord) : SourceKey := (r.sourceType, r.sourceFactKey)

/-- The result of `record_v2_execution_fill`. -/
structure RecordResult where
  environmentId : Option String
  episodeId : Option EpisodeId
  intentId : Option String
  positionEffect : Option PositionEffect
  duplicate : Bool := false
  pending : Bool := false

/-- The open episode of the context, or a new one; with the quantity it had. -/
def activeEpisode (r : FillRecord) (episodes : List Episode) (sequence : Nat) :
    Calls RepositoryCall JournalTables (Episode × Int) :=
  match episodes.find? fun episode => episode.status.active with
  | some episode =>
    pure (episode, (episode.netQuantityByInstrument.get? r.instrumentKey).getD 0)
  | none => do
    let id ← .call .ensureEpisode fun t =>
      t.ensureEpisode r.context sequence .opened r.fillTimestamp
        (Table.empty.upsert r.instrumentKey 0)
    match ← .read .episodeDetail fun t => t.episodes.get? id with
    | some episode => pure (episode, 0)
    | none => .raise

/-- What an episode that held `previousQty` of the fill's instrument holds after it. -/
def FillRecord.after (r : FillRecord) (previousQty : Int) : Int :=
  previousQty + signedQuantity r.side r.quantity

/-- The rest of `_resolve_episode_for_fill`, with the episode to record in. -/
def settleFill (r : FillRecord) (sequence : Nat) (active : Episode) (previousQty : Int) :
    Calls RepositoryCall JournalTables (EpisodeId × PositionEffect) :=
  match classifyPositionEffect previousQty r.side r.quantity with
  | none => .raise
  | some effect =>
    let map := active.netQuantityByInstrument
    if effect = .flip then
      let others := map.upsert r.instrumentKey 0
      if !allPositionsFlat others then do
        .write .updateEpisode fun t =>
          (t.updateEpisodeStatus active.id .opened none
            (map.upsert r.instrumentKey (r.after previousQty)) none).carry r.source
        pure (active.id, effect)
      else do
        .write .updateEpisode fun t =>
          t.updateEpisodeStatus active.id .closed (some r.fillTimestamp) others
            (some "position_flip")
        let next ← .call .ensureEpisode fun t =>
          let (id, t') := t.ensureEpisode r.context sequence .opened r.fillTimestamp
            (Table.empty.upsert r.instrumentKey (signedQuantity r.side r.quantity))
          (id, t'.carry r.source)
        pure (next, effect)
    else do
      let updated := map.upsert r.instrumentKey (r.after previousQty)
      let flat := allPositionsFlat updated
      .write .updateEpisode fun t =>
        (t.updateEpisodeStatus active.id (if flat then .closed else .opened)
          (if flat then some r.fillTimestamp else none) updated none).carry r.source
      pure (active.id, effect)

def resolveEpisodeForFill (r : FillRecord) :
    Calls RepositoryCall JournalTables (EpisodeId × PositionEffect) := do
  let episodes ← .read .listEpisodes fun t => t.listEpisodes r.context 200
  let sequence := nextEpisodeSequence (episodes.map Episode.episodeSeq)
  let (active, previousQty) ← activeEpisode r episodes sequence
  settleFill r sequence active previousQty

def FillRecord.fact (r : FillRecord) (runId : Nat) (episodeId : EpisodeId) (intentId : String)
    (effect : PositionEffect) : ExecutionFact where
  runId := runId
  environmentId := some r.context.environmentId
  episodeId := some episodeId
  intentId := some intentId
  sourceType := r.sourceType
  sourceFactKey := r.sourceFactKey
  orderId := r.orderId
  tradeId := r.tradeId
  fillTimestamp := r.fillTimestamp
  side := r.side
  quantity := r.quantity
  positionEffect := some effect
  instrumentKey := r.instrumentKey
  brokerFill := r.brokerFill

/-- The part of `record_v2_execution_fill` after the checks for an earlier recording. -/
def recordEpisodeFill (r : FillRecord) (now : Int) :
    Calls RepositoryCall JournalTables RecordResult := do
  .write .ensureContext id
  let (episodeId, effect) ← resolveEpisodeForFill r
  let intentId ← .read .createIntent fun _ => r.sourceFactKey ++ ":intent"
  match r.runId with
  | none => .raise
  | some runId =>
    .write .insertFact fun t => t.insertExecutionFact (r.fact runId episodeId intentId effect)
    .write .markSource fun t => t.markV2ProjectionSource r.source .projected now
    pure
      { environmentId := some r.context.environmentId
        episodeId := some episodeId
        intentId := some intentId
        positionEffect := some effect }

/-- The result for a fill that is recorded, or being recorded, already. -/
def RecordResult.duplicateOf (existing : Option ExecutionFact) : RecordResult where
  environmentId := existing.bind ExecutionFact.environmentId
  episodeId := existing.bind ExecutionFact.episodeId
  intentId := existing.bind ExecutionFact.intentId
  positionEffect := existing.bind ExecutionFact.positionEffect
  duplicate := true
  pending := existing.isNone

/-- `record_v2_execution_fill`, at the time `now` of the database. -/
def recordV2ExecutionFill (r : FillRecord) (now : Int) :
    Calls RepositoryCall JournalTables RecordResult :=
  if Text.strip r.context.externalRunId = "" then .raise
  else do
    let claimed ← .call .claimSource fun t => t.claimV2ProjectionSource r.source now
    let existing ← .read .findFact fun t => t.findV2ExecutionFactBySource r.source
    if !claimed || existing.isSome then pure (.duplicateOf existing)
    else recordEpisodeFill r now

section Keeps

variable {I : JournalTables → Prop} {r : FillRecord} {now : Int}

theorem settleFill_keeps (sequence : Nat) (active : Episode) (previousQty : Int)
    (hepisodes : ∀ t episodes additions, I t → I { t with episodes := episodes, additions := additions }) :
    (settleFill r sequence active previousQty).Keeps I := by
  have hensure : ∀ t context seq status openedAt map, I t →
      I ((JournalTables.ensureEpisode t context seq status openedAt map).2.carry r.source) := by
    intro t context seq status openedAt map ht
    unfold JournalTables.ensureEpisode
    cases t.episodes.get? (context, seq) <;> exact hepisodes t _ _ ht
  unfold settleFill
  split
  · exact .raise
  · split
    · dsimp only
      split
      · exact .bind (.write fun t ht => hepisodes t _ _ ht) fun _ => .pure _
      · refine .bind (.write fun t ht => ?_) fun _ =>
          .bind (.call fun t ht => hensure t _ _ _ _ _ ht) fun _ => .pure _
        exact hepisodes t _ t.additions ht
    · exact .bind (.write fun t ht => hepisodes t _ _ ht) fun _ => .pure _

theorem resolveEpisodeForFill_keeps
    (hepisodes : ∀ t episodes additions, I t → I { t with episodes := episodes, additions := additions }) :
    (resolveEpisodeForFill r).Keeps I := by
  have hactive : ∀ episodes sequence, (activeEpisode r episodes sequence).Keeps I := by
    intro episodes sequence
    unfold activeEpisode
    split
    · exact .pure _
    · refine .bind (.call fun t ht => ?_) fun _ => .bind .read fun found => ?_
      · unfold JournalTables.ensureEpisode
        cases t.episodes.get? (r.context, sequence) <;> exact hepisodes t _ t.additions ht
      · cases found
        · exact .raise
        · exact .pure _
  exact .bind .read fun episodes => .bind (hactive _ _) fun _ =>
    settleFill_keeps _ _ _ hepisodes

theorem recordV2ExecutionFill_keeps
    (hclaims : ∀ t claims, I t → I { t with claims := claims })
    (hepisodes : ∀ t episodes additions, I t → I { t with episodes := episodes, additions := additions })
    (hfact : ∀ t runId id intentId effect, r.runId = some runId → I t →
      I (t.insertExecutionFact (r.fact runId id intentId effect))) :
    (recordV2ExecutionFill r now).Keeps I := by
  have hclaim : ∀ t, I t → I (t.claimV2ProjectionSource r.source now).2 := by
    intro t ht
    unfold JournalTables.claimV2ProjectionSource
    split
    · exact hclaims t _ ht
    · exact ht
  unfold recordV2ExecutionFill recordEpisodeFill
  split
  · exact .raise
  · refine .bind (.call hclaim) fun claimed => .bind .read fun existing => ?_
    split
    · exact .pure _
    · refine .bind (.write fun t ht => ht) fun _ =>
        .bind (resolveEpisodeForFill_keeps hepisodes) fun _ => .bind .read fun _ => ?_
      split
      · exact .raise
      · next hrun =>
        exact .bind (.write fun t ht => hfact t _ _ _ _ hrun ht) fun _ =>
          .bind (.write fun t ht => hclaims t _ ht) fun _ => .pure _

end Keeps

end KiteAlgo.Journal
