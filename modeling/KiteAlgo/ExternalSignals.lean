import KiteAlgo.Lib.Except
import KiteAlgo.Lib.Run
import KiteAlgo.Time
import Mathlib.Data.List.Nodup
import Mathlib.Data.Prod.Lex

/-!
# KiteAlgo.ExternalSignals

The values of a registered external producer (`external_signals.py`): ingestion, the purge
of expired values and the lookup as of a cutoff.

A call of `ingest_value` is a sequence of statements, and the statements of different calls
interleave.  An insert and its commit are one step: no other call sees a row before it is
committed, and an insert with the same key waits for it.  Instants are microseconds.
-/

namespace KiteAlgo.ExternalSignals

open List
/-! ## producers and values -/

inductive FieldKind where
  | number
  | string
  | boolean
  deriving DecidableEq, Repr

def FieldKind.text : FieldKind → String
  | number => "number"
  | string => "string"
  | boolean => "boolean"

structure ExternalSignalProducer where
  name : String
  enabled : Bool := true
  revokedAt : Option Int := none
  valueSchema : Dict String FieldKind := []
  defaultTtlS : Int

structure ExternalSignalLimits where
  maxPayloadBytes : Nat := 8 * 1024
  maxFields : Nat := 32
  maxStringLength : Nat := 512
  maxRowsPerProducer : Nat := 100000

inductive ValueStatus where
  | accepted
  | late
  deriving DecidableEq, Repr

/-- `ExternalSignalValue`; identifiers are the numbers of their UUIDs. -/
structure ExternalSignalValue (F : Type) where
  id : Nat
  instrumentKey : Option String
  eventTime : Int
  receivedAt : Int
  expiresAt : Int
  status : ValueStatus
  value : Dict Key (PyVal F)
  contentHash : String
  idempotencyKey : Option String

inductive Failure where
  /-- `ExternalSignalError`. -/
  | externalSignal (message : String)
  /-- `ExternalSignalIdempotencyConflict`. -/
  | idempotencyConflict (message : String)
  /-- `ExternalSignalCapacityExceeded`. -/
  | capacityExceeded (message : String)
  /-- `IntegrityError`. -/
  | integrity
  /-- `OverflowError` of `float(n)`. -/
  | overflow
  deriving DecidableEq, Repr

/-! ## the table -/

variable {F : Type}

/-- The rows of one producer: the primary key, and `UNIQUE (producer_id, idempotency_key)`. -/
structure Values (F : Type) where
  rows : List (ExternalSignalValue F)
  ids : (rows.map ExternalSignalValue.id).Nodup
  keys : (rows.filterMap ExternalSignalValue.idempotencyKey).Nodup

namespace Values

def empty : Values F := ⟨[], List.nodup_nil, List.nodup_nil⟩

def find? (s : Values F) (key : String) : Option (ExternalSignalValue F) :=
  s.rows.find? fun row => decide (row.idempotencyKey = some key)

/-- No row has the identifier or the idempotency key. -/
def Admits (s : Values F) (row : ExternalSignalValue F) : Prop :=
  row.id ∉ s.rows.map ExternalSignalValue.id ∧
    ∀ key ∈ row.idempotencyKey, key ∉ s.rows.filterMap ExternalSignalValue.idempotencyKey

instance (s : Values F) (row : ExternalSignalValue F) : Decidable (s.Admits row) :=
  inferInstanceAs (Decidable (_ ∧ ∀ _ ∈ _, _))

theorem Admits.ids {s : Values F} {row : ExternalSignalValue F} (h : s.Admits row) :
    ((s.rows ++ [row]).map ExternalSignalValue.id).Nodup := by
  rw [map_append, nodup_append]
  refine ⟨s.ids, nodup_singleton _, fun id hid other hother => ?_⟩
  rw [map_singleton, mem_singleton] at hother
  rintro rfl
  exact h.1 (hother ▸ hid)

theorem Admits.keys {s : Values F} {row : ExternalSignalValue F} (h : s.Admits row) :
    ((s.rows ++ [row]).filterMap ExternalSignalValue.idempotencyKey).Nodup := by
  rw [filterMap_append, nodup_append]
  refine ⟨s.keys, ?_, fun key hkey other hother => ?_⟩
  · cases hrow : row.idempotencyKey <;> simp [hrow]
  · rintro rfl
    rw [mem_filterMap] at hother
    obtain ⟨r, hr, hkey'⟩ := hother
    rw [mem_singleton.mp hr] at hkey'
    exact h.2 key hkey' hkey

/-- An insert; `none` is a violated constraint. -/
def insert (s : Values F) (row : ExternalSignalValue F) : Option (Values F) :=
  if h : s.Admits row then some ⟨s.rows ++ [row], h.ids, h.keys⟩ else none

theorem ids_filter (s : Values F) (p : ExternalSignalValue F → Bool) :
    ((s.rows.filter p).map ExternalSignalValue.id).Nodup :=
  s.ids.sublist ((filter_sublist).map _)

theorem keys_filter (s : Values F) (p : ExternalSignalValue F → Bool) :
    ((s.rows.filter p).filterMap ExternalSignalValue.idempotencyKey).Nodup :=
  s.keys.sublist ((filter_sublist).filterMap _)

def purgeExpiredValues (s : Values F) (retentionS now : Int) : Values F where
  rows := s.rows.filter fun row => decide (now - retentionS * microsPerSecond ≤ row.expiresAt)
  ids := s.ids_filter _
  keys := s.keys_filter _

end Values

/-! ## the candidate of a lookup -/

def ExternalSignalValue.rank (row : ExternalSignalValue F) : Int ×ₗ Int ×ₗ Nat :=
  toLex (row.eventTime, toLex (row.receivedAt, row.id))

/-- The row comes no later than the other one in that order. -/
def ExternalSignalValue.notAfter (row other : ExternalSignalValue F) : Bool :=
  decide (other.rank ≤ row.rank)

/-- The value is addressed to the instrument, or to every instrument. -/
def ExternalSignalValue.visibleTo (row : ExternalSignalValue F) : Option String → Bool
  | none => true
  | some instrument =>
    decide (row.instrumentKey = some instrument) || decide (row.instrumentKey = none)

def newest (rows : List (ExternalSignalValue F)) : Option (ExternalSignalValue F) :=
  (sortBy ExternalSignalValue.notAfter rows).head?

def Values.candidates (s : Values F) (instrument : Option String) (cutoff : Int) :
    List (ExternalSignalValue F) :=
  s.rows.filter fun row => decide (row.eventTime ≤ cutoff) && row.visibleTo instrument

/-- `candidate` of `lookup_value`. -/
def Values.candidate (s : Values F) (instrument : Option String) (cutoff : Int) :
    Option (ExternalSignalValue F) :=
  newest (s.candidates instrument cutoff)

section Newest

variable {rows : List (ExternalSignalValue F)} {row : ExternalSignalValue F}

theorem newest_eq_none_iff : newest rows = none ↔ rows = [] := head?_sortBy_eq_none

theorem newest_of_some (h : newest rows = some row) :
    row ∈ rows ∧ ∀ other ∈ rows, other.rank ≤ row.rank := by
  obtain ⟨hmem, hle⟩ := least_of_head?_sortBy
    (fun a b => by simpa [ExternalSignalValue.notAfter] using le_total b.rank a.rank)
    (fun a b c hab hbc => by
      simp only [ExternalSignalValue.notAfter, decide_eq_true_eq] at hab hbc ⊢
      exact le_trans hbc hab) h
  exact ⟨hmem, fun other hother => by
    simpa [ExternalSignalValue.notAfter] using hle other hother⟩

theorem eq_of_rank_eq (hids : (rows.map ExternalSignalValue.id).Nodup)
    {other : ExternalSignalValue F} (hrow : row ∈ rows) (hother : other ∈ rows)
    (h : row.rank = other.rank) : row = other := by
  refine inj_on_of_nodup_map hids hrow hother ?_
  simp only [ExternalSignalValue.rank, EmbeddingLike.apply_eq_iff_eq, Prod.mk.injEq] at h
  exact h.2.2

theorem newest_eq_some_iff (hids : (rows.map ExternalSignalValue.id).Nodup) :
    newest rows = some row ↔ row ∈ rows ∧ ∀ other ∈ rows, other.rank ≤ row.rank := by
  refine ⟨newest_of_some, fun ⟨hmem, hle⟩ => ?_⟩
  cases hnewest : newest rows with
  | none => rw [newest_eq_none_iff.mp hnewest] at hmem; cases hmem
  | some other =>
    obtain ⟨hother, hlast⟩ := newest_of_some hnewest
    rw [eq_of_rank_eq hids hmem hother (le_antisymm (hlast row hmem) (hle other hother))]

theorem Values.candidate_eq_some_iff {s : Values F} {instrument : Option String} {cutoff : Int} :
    s.candidate instrument cutoff = some row ↔ row ∈ s.candidates instrument cutoff ∧
      ∀ other ∈ s.candidates instrument cutoff, other.rank ≤ row.rank :=
  newest_eq_some_iff (s.ids_filter _)

end Newest

/-! ## the payload -/

variable [PyFloat F]

/-- `type(value).__name__` of a JSON value. -/
def typeName : PyVal F → String
  | .none => "NoneType"
  | .bool _ => "bool"
  | .int _ => "int"
  | .float _ => "float"
  | .str _ => "str"
  | .list _ => "list"
  | .dict _ => "dict"
  | .atom _ _ => "object"

/-- The start of the messages about a field. -/
def fieldText (name : String) : String :=
  s!"field {PyVal.apostrophe}{name}{PyVal.apostrophe}"

/-- The kind of a field in `validate_payload`. -/
def kindOf (limits : ExternalSignalLimits) (name : String) : PyVal F → Except Failure FieldKind
  | .bool _ => .ok .boolean
  | .int n =>
    match (PyFloat.ofInt n : Option F) with
    | none => .error .overflow
    | some _ => .ok .number
  | .float f =>
    if PyFloat.isFinite f then .ok .number
    else .error (.externalSignal s!"{fieldText name} must be a finite number")
  | .str s =>
    if limits.maxStringLength < s.length then
      .error (.externalSignal
        s!"{fieldText name} exceeds the {limits.maxStringLength} character limit")
    else .ok .string
  | v => .error (.externalSignal
      s!"{fieldText name} must be a number, string or boolean (got {typeName v})")

def validateField (schema : Dict String FieldKind) (limits : ExternalSignalLimits) :
    Key × PyVal F → Except Failure PUnit
  | (.other r, _) => .error (.externalSignal s!"invalid field name {r}")
  | (.str name, v) => do
    ensure (!name.isEmpty && decide (name.length ≤ 64))
      (.externalSignal s!"invalid field name {PyVal.reprStr name}")
    let kind ← kindOf limits name v
    match schema.get? name with
    | none => .ok ⟨⟩
    | some expected =>
      ensure (decide (expected = kind)) (.externalSignal
        (s!"{fieldText name} is declared {PyVal.reprStr expected.text} " ++
          s!"but was sent as {kind.text}"))

def validatePayload (schema : Dict String FieldKind) (limits : ExternalSignalLimits) :
    PyVal F → Except Failure (Dict Key (PyVal F))
  | .dict payload => do
    ensure (decide ((PyVal.jsonDumps true (.dict payload)).utf8ByteSize ≤ limits.maxPayloadBytes))
      (.externalSignal s!"value exceeds the {limits.maxPayloadBytes} byte payload limit")
    ensure (decide (payload.length ≤ limits.maxFields))
      (.externalSignal
        s!"value declares {payload.length} fields; the maximum is {limits.maxFields}")
    payload.forM (validateField schema limits)
    let missing := schema.keys.filter fun name => !Dict.contains payload (.str name)
    ensure missing.isEmpty (.externalSignal
      ("value is missing declared field(s): " ++ Text.join ", " (sortBy Text.le missing)))
    return payload
  | _ => .error (.externalSignal "value must be a mapping of field -> scalar")

/-! ## ingestion -/

/-- The arguments of `ingest_value`, its clock and the identifier it draws. -/
structure Request (F : Type) where
  id : Nat
  now : Int
  payload : PyVal F
  eventTime : Int
  instrumentKey : Option String := none
  expiresAt : Option Int := none
  idempotencyKey : Option String := none
  maxFutureSkewS : Int := 300
  maxLatenessS : Int := 86400

/-- The service of one producer; `sha256` is the hash of a text. -/
structure Service where
  producer : ExternalSignalProducer
  limits : ExternalSignalLimits := {}
  sha256 : String → String

def Service.canonicalContentHash (svc : Service) (payload : PyVal F) : String :=
  svc.sha256 (PyVal.jsonDumps true payload)

namespace Request

/-- `skew > max_future_skew_s`. -/
def tooFarAhead (r : Request F) : Bool :=
  decide (r.maxFutureSkewS * microsPerSecond < r.eventTime - r.now)

def status (r : Request F) : ValueStatus :=
  if r.maxLatenessS * microsPerSecond < max 0 (r.now - r.eventTime) then .late else .accepted

def resolvedExpiry (svc : Service) (r : Request F) : Int :=
  r.expiresAt.getD (r.now + svc.producer.defaultTtlS * microsPerSecond)

/-- The stripped idempotency key, unless it is blank. -/
def key (r : Request F) : Option String :=
  r.idempotencyKey.bind fun text =>
    if (Text.strip text).isEmpty then none else some (Text.strip text)

def validate (svc : Service) (r : Request F) : Except Failure PUnit := do
  let _ ← validatePayload svc.producer.valueSchema svc.limits r.payload
  ensure (!r.tooFarAhead) (.externalSignal
    (s!"event_time is {(r.eventTime - r.now).tdiv microsPerSecond}s in the future; " ++
      s!"the maximum allowed skew is {r.maxFutureSkewS}s"))
  ensure (decide (r.now < r.resolvedExpiry svc)) (.externalSignal "expires_at is already in the past")
  ensure (r.key.all fun key => decide (key.length ≤ 160))
    (.externalSignal "idempotency_key must be at most 160 characters")

def row (svc : Service) (r : Request F) : ExternalSignalValue F where
  id := r.id
  instrumentKey := r.instrumentKey
  eventTime := r.eventTime
  receivedAt := r.now
  expiresAt := r.resolvedExpiry svc
  status := r.status
  value := r.payload.entries
  contentHash := svc.canonicalContentHash r.payload
  idempotencyKey := r.key

end Request

/-- What a call of `ingest_value` does next, or how it ended. -/
inductive Stage (r : Request F) where
  /-- It looks its idempotency key up. -/
  | find (key : String) (keyed : r.key = some key)
  /-- It counts the rows of the producer. -/
  | count
  | insert
  /-- It looks the winner of its key up. -/
  | reread (key : String) (keyed : r.key = some key)
  | returned (row : ExternalSignalValue F) (deduplicated : Bool)
  | raised (failure : Failure)

structure Call (F : Type) [PyFloat F] where
  request : Request F
  stage : Stage request

def Request.start (svc : Service) (r : Request F) : Call F where
  request := r
  stage :=
    match r.validate svc with
    | .error failure => .raised failure
    | .ok _ =>
      match h : r.key with
      | some key => .find key h
      | none => .count

/-- What the call makes of the row with its key. -/
def Request.onExisting (svc : Service) (r : Request F) (row : ExternalSignalValue F)
    (message : String) : Stage r :=
  if row.contentHash = svc.canonicalContentHash r.payload then .returned row true
  else .raised (.idempotencyConflict message)

/-- The message about an earlier value with the key. -/
def ExternalSignalValue.conflictMessage (row : ExternalSignalValue F) : String :=
  "idempotency_key was already used with different content (original value " ++
    toString row.id ++ " at " ++ isoformat row.eventTime ++ ")"

/-- The message about a value that came in between. -/
def concurrentMessage : String := "idempotency_key was used concurrently with different content"

def Service.capacityMessage (svc : Service) (rows : Nat) : String :=
  s!"producer {PyVal.apostrophe}{svc.producer.name}{PyVal.apostrophe} holds {rows} values; the limit is " ++
    s!"{svc.limits.maxRowsPerProducer}. Expired values are purged automatically; " ++
    "reduce the submission rate or the TTL."

def Call.step (svc : Service) (c : Call F) (s : Values F) : Call F × Values F :=
  match c.stage with
  | .find key _ =>
    match s.find? key with
    | some row =>
      ({ c with stage := c.request.onExisting svc row row.conflictMessage }, s)
    | none => ({ c with stage := .count }, s)
  | .count =>
    if svc.limits.maxRowsPerProducer ≤ s.rows.length then
      ({ c with stage := .raised (.capacityExceeded (svc.capacityMessage s.rows.length)) }, s)
    else ({ c with stage := .insert }, s)
  | .insert =>
    match s.insert (c.request.row svc) with
    | some s' => ({ c with stage := .returned (c.request.row svc) false }, s')
    | none =>
      match h : c.request.key with
      | none => ({ c with stage := .raised .integrity }, s)
      | some key => ({ c with stage := .reread key h }, s)
  | .reread key _ =>
    match s.find? key with
    | some row => ({ c with stage := c.request.onExisting svc row concurrentMessage }, s)
    | none => ({ c with stage := .raised (.idempotencyConflict concurrentMessage) }, s)
  | .returned _ _ | .raised _ => (c, s)

/-- The table and the calls, in the order of their starts. -/
structure State (F : Type) [PyFloat F] where
  values : Values F := .empty
  calls : List (Call F) := []

/-- A call starts or goes on, or `purge_expired_values` runs. -/
inductive Event (F : Type) where
  | start (request : Request F)
  | resume (i : Nat)
  | purge (retentionS now : Int)

/-- The producer's table under its calls; a step records nothing. -/
def ingestion (svc : Service) : Machine (Event F) (State F) Unit where
  step
    | .start request, s => { s with calls := s.calls ++ [request.start svc] }
    | .resume i, s =>
      match s.calls[i]? with
      | none => s
      | some c => ⟨(c.step svc s.values).2, s.calls.set i (c.step svc s.values).1⟩
    | .purge retentionS now, s => { s with values := s.values.purgeExpiredValues retentionS now }
  out _ _ := []

structure ExternalLookup (F : Type) where
  value : Option F := none
  reason : Option String
  valueId : Option Nat := none
  eventTime : Option Int := none
  expiresAt : Option Int := none
  acquiredAt : Option Int := none
  usable : Bool := false

def ExternalSignalValue.lookup (row : ExternalSignalValue F) (field : String) (cutoff : Int) :
    Except Failure (ExternalLookup F) :=
  if row.status ≠ .accepted then
    .ok { reason := some "external_late", valueId := some row.id, eventTime := some row.eventTime
          expiresAt := some row.expiresAt, acquiredAt := some row.receivedAt }
  else if row.expiresAt < cutoff then
    .ok { reason := some "external_expired", valueId := some row.id
          eventTime := some row.eventTime, expiresAt := some row.expiresAt
          acquiredAt := some row.receivedAt }
  else
    match row.value.get? (.str field) with
    | some (.str _) => .ok { reason := some "external_non_numeric" }
    | some raw =>
      if raw.isNumber then
        match raw.toFloat? with
        | none => .error .overflow
        | some value =>
          .ok { value := some value, reason := none, valueId := some row.id
                eventTime := some row.eventTime, expiresAt := some row.expiresAt
                acquiredAt := some row.receivedAt, usable := true }
      else .ok { reason := some "external_missing_field" }
    | none => .ok { reason := some "external_missing_field" }

def lookupValue (producer : Option ExternalSignalProducer) (s : Values F) (field : String)
    (cutoff : Int) (instrument : Option String) : Except Failure (ExternalLookup F) :=
  match producer with
  | none => .ok { reason := some "external_missing" }
  | some producer =>
    if !producer.enabled || producer.revokedAt.isSome then
      .ok { reason := some "external_revoked" }
    else
      match s.candidate instrument cutoff with
      | none =>
        let anyFuture := s.rows.any fun row => decide (cutoff < row.eventTime)
        .ok { reason := some (if anyFuture then "external_future" else "external_missing") }
      | some candidate => candidate.lookup field cutoff

end KiteAlgo.ExternalSignals
