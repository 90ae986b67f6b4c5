import KiteAlgo.LiveOrders.TradeSync
import KiteAlgo.Lib.Run
import KiteAlgo.Workers
import Mathlib.Algebra.Order.BigOperators.Group.List

/-!
# KiteAlgo.Workers.LiveExit

Exits of one live worker run (`_exit_live_worker_run` of `worker_execution.py`).  A call lists
the open legs of the run from the stored fills of its orders, and places a market order against
each.  Workers, the control plane and backend protection call it, each with its own key.

`ExitDesk` is the run with its exit orders and the calls on them, each advanced one await at a
time, while the broker fills or rejects the orders and fills are stored.  The exit orders of a
leg never come to more than was attributed to the run exactly as long as each is placed on what
is still listed, with none of the leg's exit orders on its way (`exits_within_iff`).
-/

namespace KiteAlgo

open List
structure LegKey where
  exchange : String
  tradingsymbol : String
  product : String
  instrumentToken : Int
  deriving DecidableEq

structure LegFill where
  leg : LegKey
  transactionType : TransactionType
  quantity : Nat
  deriving DecidableEq

namespace LegFill

def signed (fill : LegFill) : Int :=
  match fill.transactionType with
  | .buy => fill.quantity
  | .sell => -fill.quantity

/-- `SUM(…) AS net_quantity` of a leg. -/
def netQuantity (fills : List LegFill) (leg : LegKey) : Int :=
  ((fills.filter fun fill => fill.leg = leg).map signed).sum

end LegFill

/-- A row of `list_live_strategy_open_legs`. -/
structure OpenLeg where
  key : LegKey
  netQuantity : Int
  brokerNetQuantity : Option Int
  deriving DecidableEq

namespace OpenLeg

/-- One round of `_validate_live_exit_legs`, the detail of the 409 where it raises. -/
def validate (leg : OpenLeg) : Option String :=
  if leg.key.exchange = "" ∨ leg.key.tradingsymbol = "" ∨ leg.key.product = "" ∨
      leg.key.instrumentToken = 0 then
    some "Live exit cannot proceed because one or more attributed legs is missing broker instrument metadata"
  else
    match leg.brokerNetQuantity with
    | none =>
      some ("Live exit cannot proceed because broker position is missing for " ++
        leg.key.exchange ++ ":" ++ leg.key.tradingsymbol ++ " " ++ leg.key.product)
    | some brokerNet =>
      if 0 < leg.netQuantity ∧ brokerNet < leg.netQuantity then
        some ("Live exit cannot proceed because broker net quantity for " ++
          leg.key.tradingsymbol ++ " is lower than the attributed long quantity")
      else if leg.netQuantity < 0 ∧ leg.netQuantity < brokerNet then
        some ("Live exit cannot proceed because broker net quantity for " ++
          leg.key.tradingsymbol ++ " is lower than the attributed short quantity")
      else none

def exitSide (leg : OpenLeg) : TransactionType := if 0 < leg.netQuantity then .sell else .buy

/-- The leg as the idempotency key normalizes it. -/
def normalized (leg : OpenLeg) : Json :=
  .dict [(.str "instrument_token", .int leg.key.instrumentToken),
    (.str "product", .str leg.key.product), (.str "net_quantity", .int leg.netQuantity)]

end OpenLeg

/-- `_validate_live_exit_legs`: the first leg that raises. -/
def validateLiveExitLegs (legs : List OpenLeg) : Option String := legs.findSome? OpenLeg.validate

/-- `_live_exit_idempotency_key`, with the hexadecimal digest of `hashlib.sha1`. -/
def liveExitIdempotencyKey (sha1 : String → String) (runId : String) (legs : List OpenLeg)
    (suppliedKey : Option String) : String :=
  let derived := "live-exit:" ++ String.ofList ((sha1 runId).toList.take 8) ++ ":" ++ String.ofList
      ((sha1 ((PyVal.list (legs.map OpenLeg.normalized) : Json).jsonDumps true)).toList.take 12)
  match suppliedKey with
  | some key => if key = "" then derived else key
  | none => derived

/-- `WorkerExitRequest`, with the id of the token that the caller exits with. -/
structure ExitRequest where
  tokenId : String
  reason : Option String
  idempotencyKey : Option String
  dryRun : Bool
  deriving DecidableEq

/-- `payload.reason or "live_worker_exit"`. -/
def ExitRequest.exitReason (request : ExitRequest) : String :=
  match request.reason with
  | some reason => if reason = "" then "live_worker_exit" else reason
  | none => "live_worker_exit"

/-- An exit order as it is placed; what all exit orders of the run share is left out. -/
structure ExitOrderBody where
  exchange : String
  tradingsymbol : String
  transactionType : TransactionType
  product : String
  quantity : Nat
  idempotencyKey : String
  tokenId : String
  exitReason : String
  deriving DecidableEq

/-- How an exit order stands: at the broker, filled there, with its fill stored, or rejected. -/
inductive ExitOrderStatus where
  | working
  | filled
  | stored
  | rejected
  deriving DecidableEq

namespace ExitOrderStatus

def executed : ExitOrderStatus → Bool
  | filled | stored => true
  | working | rejected => false

/-- The order can still change what is stored. -/
def onItsWay : ExitOrderStatus → Bool
  | working | filled => true
  | stored | rejected => false

end ExitOrderStatus

structure ExitOrder where
  sessionId : String
  key : String
  body : ExitOrderBody
  leg : LegKey
  status : ExitOrderStatus
  deriving DecidableEq

def ExitOrder.fill (order : ExitOrder) : LegFill :=
  ⟨order.leg, order.body.transactionType, order.body.quantity⟩

/-- `runtime_state["live_exit"]`: its key, and whether it carries an `order_result`. -/
structure LiveExitState where
  idempotencyKey : String
  orderResult : Bool
  deriving DecidableEq

/-- Where a call is: it has the run, it found no legs, it is about to close the run, it has
planned its orders, it places them, it has listed what remains, or it has ended. -/
inductive ExitPhase where
  | called (status : String) (liveExit : Option LiveExitState)
  | flat
  | closing
  | planned (key : String) (legs : List OpenLeg)
  | placing (key : String) (index : Nat) (legs : List OpenLeg)
  | finishing (key : String) (flat : Bool)
  | answered (status : String)
  | refused (detail : String)
  | raised
  deriving DecidableEq

/-- The legs that a call has still to place orders for. -/
def ExitPhase.legs : ExitPhase → List OpenLeg
  | planned _ legs | placing _ _ legs => legs
  | called _ _ | flat | closing | finishing _ _ | answered _ | refused _ | raised => []

structure ExitCall where
  request : ExitRequest
  phase : ExitPhase
  deriving DecidableEq

/-- One run: the fills that its exits start from, its row, the account's positions as they are
stored, its exit orders and the calls. -/
structure ExitDesk where
  runId : String
  attributed : List LegFill
  status : String := "open"
  liveExit : Option LiveExitState := none
  positions : Dict LegKey Int := []
  orders : List ExitOrder := []
  calls : List ExitCall := []

/-- What happens: a caller reads the run, a call goes on or raises, the broker fills or rejects
an exit order, its fill is stored, positions are reconciled, or someone else writes the row.
`yes` says whether the broker shows exposure, or accepts the order, where the call asks. -/
inductive ExitEvent where
  | request (request : ExitRequest)
  | step (call : Nat) (yes : Bool)
  | fail (call : Nat)
  | fill (order : Nat)
  | reject (order : Nat)
  | store (order : Nat)
  | reconcile (positions : Dict LegKey Int)
  | write (status : String) (liveExit : Option LiveExitState)
  deriving DecidableEq

namespace ExitDesk

variable (sha1 : String → String)

/-- The fills of the run's orders: those attributed, and those of the exit orders that are as
`p` asks. -/
def fillsOf (s : ExitDesk) (p : ExitOrderStatus → Bool) : List LegFill :=
  s.attributed ++ (s.orders.filter fun order => p order.status).map ExitOrder.fill

def storedFills (s : ExitDesk) : List LegFill := s.fillsOf (· = .stored)

/-- `ORDER BY exchange, tradingsymbol, product`. -/
def legOrder (a b : LegKey) : Bool :=
  a.exchange < b.exchange || (a.exchange = b.exchange &&
    (a.tradingsymbol < b.tradingsymbol || (a.tradingsymbol = b.tradingsymbol &&
      decide (a.product ≤ b.product))))

/-- `list_live_strategy_open_legs`. -/
def openLegs (s : ExitDesk) : List OpenLeg :=
  (sortBy legOrder (s.storedFills.map LegFill.leg).dedup).filterMap fun key =>
    if LegFill.netQuantity s.storedFills key = 0 then none
    else some ⟨key, LegFill.netQuantity s.storedFills key, s.positions.get? key⟩

def goTo (s : ExitDesk) (i : Nat) (request : ExitRequest) (phase : ExitPhase) : ExitDesk :=
  { s with calls := s.calls.set i ⟨request, phase⟩ }

/-- From the status of the run to the planned orders. -/
def plan (s : ExitDesk) (request : ExitRequest) (status : String) (liveExit : Option LiveExitState) :
    ExitPhase :=
  if status = "closed" then .answered "closed"
  else if s.openLegs = [] then .flat
  else
    match validateLiveExitLegs s.openLegs with
    | some detail => .refused detail
    | none =>
      let key := liveExitIdempotencyKey sha1 s.runId s.openLegs request.idempotencyKey
      if liveExit = some ⟨key, true⟩ then .answered (if status = "" then "exiting" else status)
      else if request.dryRun then .answered "dry_run"
      else .planned key s.openLegs

/-- `worker_session_id`. -/
def sessionId (s : ExitDesk) (request : ExitRequest) : String :=
  "worker:" ++ request.tokenId ++ ":" ++ s.runId ++ ":exit"

/-- `_live_exit_orders_from_legs` for one leg. -/
def exitOrderBody (request : ExitRequest) (key : String) (leg : OpenLeg) : ExitOrderBody where
  exchange := leg.key.exchange
  tradingsymbol := leg.key.tradingsymbol
  transactionType := leg.exitSide
  product := leg.key.product
  quantity := leg.netQuantity.natAbs
  idempotencyKey := key
  tokenId := request.tokenId
  exitReason := request.exitReason

/-- The order that `place_basket` places for its leg `index`. -/
def exitOrder (s : ExitDesk) (request : ExitRequest) (key : String) (index : Nat) (leg : OpenLeg) :
    ExitOrder where
  sessionId := s.sessionId request
  key := key ++ ":" ++ toString index
  body := exitOrderBody request key leg
  leg := leg.key
  status := .working

/-- The session, key and body have an order already. -/
def Placed (s : ExitDesk) (order : ExitOrder) : Prop :=
  ∃ placed ∈ s.orders, placed.sessionId = order.sessionId ∧ placed.key = order.key ∧
    placed.body = order.body

instance (s : ExitDesk) (order : ExitOrder) : Decidable (s.Placed order) :=
  inferInstanceAs (Decidable (∃ placed ∈ s.orders, _))

/-- `place_order`: one broker order for a session, key and body, where the broker accepts it. -/
def placeOrder (s : ExitDesk) (order : ExitOrder) (accepted : Bool) : ExitDesk :=
  if accepted = true ∧ ¬s.Placed order then { s with orders := s.orders ++ [order] } else s

def stepCall (s : ExitDesk) (i : Nat) (request : ExitRequest) (yes : Bool) : ExitPhase → ExitDesk
  | .called status liveExit => s.goTo i request (s.plan sha1 request status liveExit)
  | .flat => s.goTo i request (if yes then .answered "deferred" else .closing)
  | .closing => { s with status := "closed" }.goTo i request (.answered "closed")
  | .planned key legs =>
    { s with status := "exiting", liveExit := some ⟨key, false⟩ }.goTo i request
      (.placing key 0 legs)
  | .placing key index (leg :: legs) =>
    (s.placeOrder (s.exitOrder request key index leg) yes).goTo i request
      (.placing key (index + 1) legs)
  | .placing key _ [] => s.goTo i request (.finishing key (s.openLegs = []))
  | .finishing key flat =>
    let status := if flat then "closed" else "exiting"
    { s with status := status, liveExit := some ⟨key, true⟩ }.goTo i request (.answered status)
  | .answered _ | .refused _ | .raised => s

/-- The exit orders after one goes from a status to another. -/
def move (s : ExitDesk) (n : Nat) (source target : ExitOrderStatus) : ExitDesk :=
  match s.orders[n]? with
  | some order =>
    if order.status = source then
      { s with orders := s.orders.set n { order with status := target } }
    else s
  | none => s

def step (e : ExitEvent) (s : ExitDesk) : ExitDesk :=
  match e with
  | .request request =>
    { s with calls := s.calls ++ [ExitCall.mk request (.called s.status s.liveExit)] }
  | .step i yes =>
    match s.calls[i]? with
    | some call => s.stepCall sha1 i call.request yes call.phase
    | none => s
  | .fail i =>
    match s.calls[i]? with
    | some call => s.goTo i call.request .raised
    | none => s
  | .fill n => s.move n .working .filled
  | .reject n => s.move n .working .rejected
  | .store n => s.move n .filled .stored
  | .reconcile positions => { s with positions := positions }
  | .write status liveExit => { s with status := status, liveExit := liveExit }

def machine : Machine ExitEvent ExitDesk Unit where
  step := step sha1
  out _ _ := []

/-! ## exits stay within what was attributed -/

/-- The quantity of the exit orders of a leg that are as `p` asks. -/
def exitQuantity (s : ExitDesk) (p : ExitOrderStatus → Bool) (leg : LegKey) : Nat :=
  (s.orders.map fun order =>
    if order.leg = leg ∧ p order.status = true then order.body.quantity else 0).sum

/-- The net quantity that was attributed to the run when its exits began. -/
def attributedQuantity (s : ExitDesk) (leg : LegKey) : Int := LegFill.netQuantity s.attributed leg

/-- The run's position: what was attributed and what the broker has filled since. -/
def position (s : ExitDesk) (leg : LegKey) : Int :=
  LegFill.netQuantity (s.fillsOf ExitOrderStatus.executed) leg

/-- The exit orders that were not rejected are within what was attributed, and the position
has the side it had or is flat. -/
def Within (s : ExitDesk) : Prop :=
  ∀ leg, s.exitQuantity (· ≠ .rejected) leg ≤ (s.attributedQuantity leg).natAbs ∧
    (s.position leg = 0 ∨ (s.position leg).sign = (s.attributedQuantity leg).sign)

/-- What a step that places an order has to find: what is stored of the leg is what was listed,
and none of its exit orders is on its way. -/
def Settled (s : ExitDesk) (leg : OpenLeg) : Prop :=
  LegFill.netQuantity s.storedFills leg.key = leg.netQuantity ∧
    ∀ order ∈ s.orders, order.leg = leg.key → order.status.onItsWay = false

instance (s : ExitDesk) (leg : OpenLeg) : Decidable (s.Settled leg) :=
  inferInstanceAs (Decidable (_ ∧ _))

/-- An event that places an exit order finds its leg settled. -/
def Clear (e : ExitEvent) (s : ExitDesk) : Prop :=
  ∀ (i : Nat) request key index leg legs, e = .step i true →
    s.calls[i]? = some ⟨request, .placing key index (leg :: legs)⟩ →
      ¬s.Placed (s.exitOrder request key index leg) → s.Settled leg

variable {sha1} {s s' : ExitDesk} {p q : ExitOrderStatus → Bool} {key : LegKey}

/-! ### quantities -/

theorem netQuantity_cons (fill : LegFill) (fills : List LegFill) (key : LegKey) :
    LegFill.netQuantity (fill :: fills) key =
      (if fill.leg = key then fill.signed else 0) + LegFill.netQuantity fills key := by
  unfold LegFill.netQuantity
  by_cases hleg : fill.leg = key
  · rw [filter_cons_of_pos (by simpa using hleg), if_pos hleg, map_cons, sum_cons]
  · rw [filter_cons_of_neg (by simpa using hleg), if_neg hleg, zero_add]

theorem netQuantity_append (fills more : List LegFill) (key : LegKey) :
    LegFill.netQuantity (fills ++ more) key =
      LegFill.netQuantity fills key + LegFill.netQuantity more key := by
  simp only [LegFill.netQuantity, filter_append, map_append, sum_append]

variable {a : α} {n : Nat} {xs : List α}

theorem sum_map_set (w : α → Nat) {b : α} (h : xs[n]? = some a) :
    ((xs.set n b).map w).sum + w a = (xs.map w).sum + w b := by
  induction xs generalizing n with
  | nil => simp at h
  | cons x xs ih =>
    cases n with
    | zero =>
      simp only [getElem?_cons_zero, Option.some.injEq] at h
      subst h
      simp only [set_cons_zero, map_cons, sum_cons]
      omega
    | succ n =>
      have htail := ih (by simpa using h)
      simp only [set_cons_succ, map_cons, sum_cons]
      omega

theorem sum_map_add_le {f g : α → Nat} (hle : ∀ x ∈ xs, f x ≤ g x) {c : Nat} (ha : a ∈ xs)
    (hc : f a + c ≤ g a) : (xs.map f).sum + c ≤ (xs.map g).sum := by
  induction xs with
  | nil => cases ha
  | cons x xs ih =>
    simp only [map_cons, sum_cons]
    rcases mem_cons.mp ha with rfl | ha
    · have hrest : (xs.map f).sum ≤ (xs.map g).sum :=
        sum_le_sum fun y hy => hle y (mem_cons_of_mem a hy)
      omega
    · have hx := hle x (.head _)
      have hrest := ih (fun y hy => hle y (mem_cons_of_mem x hy)) ha
      omega

theorem ite_le_ite_of_imp {c d : Prop} [Decidable c] [Decidable d] (h : c → d) (n : Nat) :
    (if c then n else 0) ≤ if d then n else 0 := by
  by_cases hc : c
  · rw [if_pos hc, if_pos (h hc)]
  · rw [if_neg hc]
    exact Nat.zero_le _

theorem exitQuantity_mono
    (hpq : ∀ order ∈ s.orders, order.leg = key → p order.status → q order.status) :
    s.exitQuantity p key ≤ s.exitQuantity q key :=
  sum_le_sum fun order horder =>
    ite_le_ite_of_imp (fun hp => ⟨hp.1, hpq order horder hp.1 hp.2⟩) order.body.quantity

variable {order : ExitOrder}

theorem exitQuantity_push (horders : s'.orders = s.orders ++ [order]) :
    s'.exitQuantity p key = s.exitQuantity p key +
      if order.leg = key ∧ p order.status then order.body.quantity else 0 := by
  rw [exitQuantity, horders, map_append, sum_append, map_singleton, sum_singleton]
  rfl

/-- Every exit order closes what was attributed to its leg, and has a quantity. -/
def Sided (s : ExitDesk) : Prop :=
  ∀ order ∈ s.orders, 0 < order.body.quantity ∧
    order.fill.signed = -(s.attributedQuantity order.leg).sign * order.body.quantity

theorem netQuantity_fillsOf (hsided : s.Sided) :
    LegFill.netQuantity (s.fillsOf p) key =
      s.attributedQuantity key - (s.attributedQuantity key).sign * s.exitQuantity p key := by
  rw [fillsOf, netQuantity_append, exitQuantity]
  generalize horders : s.orders = orders
  have hsign : ∀ order ∈ orders, order.leg = key →
      order.fill.signed = -(s.attributedQuantity key).sign * order.body.quantity := by
    rintro order horder rfl
    exact (hsided order (horders ▸ horder)).2
  clear hsided horders
  induction orders with
  | nil => simp [attributedQuantity, LegFill.netQuantity]
  | cons order orders ih =>
    have hrest := ih fun other hother => hsign other (mem_cons_of_mem order hother)
    have hfill : order.fill.leg = order.leg := rfl
    by_cases hp : p order.status
    · rw [filter_cons_of_pos (p := fun order : ExitOrder => p order.status) hp, map_cons,
        netQuantity_cons, hfill, map_cons, sum_cons]
      by_cases hleg : order.leg = key
      · rw [if_pos hleg, if_pos ⟨hleg, hp⟩, hsign order mem_cons_self hleg, Nat.cast_add,
          Int.mul_add, Int.neg_mul]
        omega
      · rw [if_neg hleg, if_neg fun h => hleg h.1, zero_add, Nat.zero_add]
        exact hrest
    · rw [filter_cons_of_neg (p := fun order : ExitOrder => p order.status) hp, map_cons,
        sum_cons, if_neg fun h => hp h.2, Nat.zero_add]
      exact hrest

theorem sign_sub_sign_mul {a : Int} {e : Nat} (h : e ≤ a.natAbs) :
    (a - a.sign * e).natAbs = a.natAbs - e ∧ (a - a.sign * e = 0 ∨ (a - a.sign * e).sign = a.sign) := by
  rcases lt_trichotomy a 0 with ha | rfl | ha
  · rw [Int.sign_eq_neg_one_of_neg ha]
    refine ⟨by omega, ?_⟩
    by_cases hzero : a - -1 * (e : Int) = 0
    · exact .inl hzero
    · exact .inr (Int.sign_eq_neg_one_of_neg (by omega))
  · simp at h
    simp [h]
  · rw [Int.sign_eq_one_of_pos ha]
    refine ⟨by omega, ?_⟩
    by_cases hzero : a - 1 * (e : Int) = 0
    · exact .inl hzero
    · exact .inr (Int.sign_eq_one_of_pos (by omega))

/-! ### the invariant -/

/-- A leg that was listed while no more of it was stored than now. -/
structure Listed (s : ExitDesk) (leg : OpenLeg) : Prop where
  nonzero : leg.netQuantity ≠ 0
  sign : leg.netQuantity.sign = (s.attributedQuantity leg.key).sign
  covers : (s.attributedQuantity leg.key).natAbs ≤
    leg.netQuantity.natAbs + s.exitQuantity (· = .stored) leg.key

/-- Exit orders close what was attributed and stay within it, and calls place orders for legs
that were listed. -/
structure Valid (s : ExitDesk) : Prop where
  sided : s.Sided
  bound : ∀ key, s.exitQuantity (· ≠ .rejected) key ≤ (s.attributedQuantity key).natAbs
  listed : ∀ call ∈ s.calls, ∀ leg ∈ call.phase.legs, s.Listed leg

def start (runId : String) (attributed : List LegFill) : ExitDesk :=
  { runId := runId, attributed := attributed }

theorem valid_start (runId : String) (attributed : List LegFill) :
    (start runId attributed).Valid := by
  constructor
  · intro order horder
    cases horder
  · intro key
    exact Nat.zero_le _
  · intro call hcall
    cases hcall

theorem Valid.storedQuantity (hs : s.Valid) (key : LegKey) :
    s.exitQuantity (· = .stored) key ≤ (s.attributedQuantity key).natAbs ∧
      LegFill.netQuantity s.storedFills key = s.attributedQuantity key -
        (s.attributedQuantity key).sign * s.exitQuantity (· = .stored) key := by
  refine ⟨le_trans (exitQuantity_mono fun order _ _ hstored => ?_) (hs.bound key),
    netQuantity_fillsOf hs.sided⟩
  rw [decide_eq_true_eq] at hstored ⊢
  rw [hstored]
  nofun

theorem Valid.within (hs : s.Valid) : s.Within := by
  intro key
  refine ⟨hs.bound key, ?_⟩
  rw [position, netQuantity_fillsOf hs.sided]
  refine (sign_sub_sign_mul (le_trans (exitQuantity_mono fun order _ _ hfilled => ?_)
    (hs.bound key))).2
  rw [decide_eq_true_eq]
  intro hrejected
  rw [hrejected] at hfilled
  cases hfilled

theorem attributedQuantity_congr (hattributed : s'.attributed = s.attributed) (key : LegKey) :
    s'.attributedQuantity key = s.attributedQuantity key := by
  rw [attributedQuantity, hattributed, attributedQuantity]

variable {leg : OpenLeg}

theorem Listed.mono (h : s.Listed leg) (hattributed : s'.attributed = s.attributed)
    (hstored : s.exitQuantity (· = .stored) leg.key ≤ s'.exitQuantity (· = .stored) leg.key) :
    s'.Listed leg := by
  have hsame := attributedQuantity_congr hattributed leg.key
  refine ⟨h.nonzero, by rw [hsame]; exact h.sign, ?_⟩
  have hcovers := h.covers
  rw [hsame]
  omega

theorem Valid.frame (hs : s.Valid) (hattributed : s'.attributed = s.attributed)
    (horders : s'.orders = s.orders)
    (hcalls : ∀ call ∈ s'.calls, ∀ leg ∈ call.phase.legs, s.Listed leg) : s'.Valid := by
  have hsame := attributedQuantity_congr hattributed
  have hquantity : ∀ p key, s'.exitQuantity p key = s.exitQuantity p key := by
    intro p key
    rw [exitQuantity, horders, exitQuantity]
  refine ⟨?_, ?_, ?_⟩
  · intro order horder
    rw [hsame]
    exact hs.sided order (horders ▸ horder)
  · intro key
    rw [hsame, hquantity]
    exact hs.bound key
  · intro call hcall leg hleg
    exact (hcalls call hcall leg hleg).mono hattributed (le_of_eq (hquantity _ _).symm)

variable {i : Nat} {phase : ExitPhase} {request : ExitRequest}

theorem Valid.goTo (hs : s.Valid) (hphase : ∀ leg ∈ phase.legs, s.Listed leg) :
    (s.goTo i request phase).Valid := by
  refine hs.frame rfl rfl fun call hcall => ?_
  obtain hcall | rfl := mem_or_eq_of_mem_set hcall
  · exact hs.listed call hcall
  · exact hphase

theorem mem_openLegs (h : leg ∈ s.openLegs) :
    leg.netQuantity = LegFill.netQuantity s.storedFills leg.key ∧ leg.netQuantity ≠ 0 := by
  obtain ⟨key, -, hleg⟩ := mem_filterMap.mp h
  split at hleg
  · cases hleg
  · next hne =>
    cases hleg
    exact ⟨rfl, hne⟩

theorem Valid.listed_openLegs (hs : s.Valid) (h : leg ∈ s.openLegs) : s.Listed leg := by
  obtain ⟨hnet, hne⟩ := mem_openLegs h
  obtain ⟨hle, hstored⟩ := hs.storedQuantity leg.key
  obtain ⟨habs, hsign⟩ := sign_sub_sign_mul hle
  rw [hstored] at hnet
  rw [← hnet] at habs hsign
  exact ⟨hne, hsign.resolve_left hne, by omega⟩

theorem plan_legs {status : String} {liveExit : Option LiveExitState}
    (h : leg ∈ (s.plan sha1 request status liveExit).legs) : leg ∈ s.openLegs := by
  rw [plan] at h
  split at h
  · cases h
  · split at h
    · cases h
    · split at h
      · cases h
      · simp only at h
        split at h
        · cases h
        · split at h
          · cases h
          · exact h

/-! ### placing an order -/

theorem Valid.settled_iff (hs : s.Valid) (hleg : s.Listed leg) :
    s.Settled leg ↔ s.exitQuantity (· ≠ .rejected) leg.key + leg.netQuantity.natAbs ≤
      (s.attributedQuantity leg.key).natAbs := by
  obtain ⟨hle, hstored⟩ := hs.storedQuantity leg.key
  obtain ⟨habs, hsign⟩ := sign_sub_sign_mul hle
  have hcovers := hleg.covers
  constructor
  · rintro ⟨hnet, hsettled⟩
    have hall : s.exitQuantity (· ≠ .rejected) leg.key ≤ s.exitQuantity (· = .stored) leg.key := by
      refine exitQuantity_mono fun order horder horderLeg hrejected => ?_
      have hway := hsettled order horder horderLeg
      rw [decide_eq_true_eq] at hrejected ⊢
      cases hstatus : order.status with
      | stored => rfl
      | rejected => exact absurd hstatus hrejected
      | working => rw [hstatus] at hway; cases hway
      | filled => rw [hstatus] at hway; cases hway
    rw [hstored] at hnet
    rw [hnet] at habs
    omega
  · intro hroom
    refine ⟨?_, fun order horder horderLeg => ?_⟩
    · -- What is stored of the leg has the listed size and side.
      have hmono : s.exitQuantity (· = .stored) leg.key ≤ s.exitQuantity (· ≠ .rejected) leg.key := by
        refine exitQuantity_mono fun order _ _ horder => ?_
        rw [decide_eq_true_eq] at horder ⊢
        rw [horder]
        nofun
      have hsize : (LegFill.netQuantity s.storedFills leg.key).natAbs = leg.netQuantity.natAbs := by
        rw [hstored]
        omega
      have hside : (LegFill.netQuantity s.storedFills leg.key).sign = leg.netQuantity.sign := by
        rw [← hstored] at hsign
        rw [hleg.sign]
        refine hsign.resolve_left fun hzero => hleg.nonzero ?_
        rw [hzero] at hsize
        exact Int.natAbs_eq_zero.mp hsize.symm
      rw [← Int.sign_mul_natAbs (LegFill.netQuantity s.storedFills leg.key), hsize, hside,
        Int.sign_mul_natAbs]
    · -- An order on its way would take more than the room that is left.
      by_contra hway
      have hquantity := (hs.sided order horder).1
      have hmore : s.exitQuantity (· = .stored) leg.key + order.body.quantity ≤
          s.exitQuantity (· ≠ .rejected) leg.key := by
        refine sum_map_add_le (fun other _ => ?_) horder ?_
        · cases other.status <;> simp
        · cases hstatus : order.status <;> simp_all [ExitOrderStatus.onItsWay]
      omega

theorem exitOrder_signed (request : ExitRequest) (key : String) (index : Nat)
    (hne : leg.netQuantity ≠ 0) : (s.exitOrder request key index leg).fill.signed =
      -leg.netQuantity.sign * leg.netQuantity.natAbs := by
  by_cases hlong : 0 < leg.netQuantity
  · have hside : leg.exitSide = .sell := if_pos hlong
    rw [ExitOrder.fill, LegFill.signed, exitOrder, exitOrderBody, hside, Int.sign_eq_one_of_pos hlong]
    show -(leg.netQuantity.natAbs : Int) = _
    omega
  · have hside : leg.exitSide = .buy := if_neg hlong
    rw [ExitOrder.fill, LegFill.signed, exitOrder, exitOrderBody, hside,
      Int.sign_eq_neg_one_of_neg (by omega)]
    show (leg.netQuantity.natAbs : Int) = _
    omega

/-- The step placed the exit order of a listed leg. -/
structure Places (s s' : ExitDesk) (leg : OpenLeg) (order : ExitOrder) : Prop where
  attributed : s'.attributed = s.attributed
  orders : s'.orders = s.orders ++ [order]
  listed : s.Listed leg
  closes : order.leg = leg.key
  quantity : order.body.quantity = leg.netQuantity.natAbs
  signed : order.fill.signed = -leg.netQuantity.sign * leg.netQuantity.natAbs
  working : order.status = .working
  calls : ∀ call ∈ s'.calls, ∀ leg ∈ call.phase.legs, s.Listed leg

theorem Places.exitQuantity (h : Places s s' leg order) :
    s'.exitQuantity (· ≠ .rejected) leg.key =
      s.exitQuantity (· ≠ .rejected) leg.key + leg.netQuantity.natAbs := by
  rw [exitQuantity_push h.orders, h.closes, h.working, h.quantity]
  simp

theorem Places.valid (h : Places s s' leg order) (hs : s.Valid)
    (hroom : s.exitQuantity (· ≠ .rejected) leg.key + leg.netQuantity.natAbs ≤
      (s.attributedQuantity leg.key).natAbs) : s'.Valid := by
  have hsame := attributedQuantity_congr h.attributed
  refine ⟨fun other hother => ?_, fun key => ?_, fun call hcall other hother => ?_⟩
  · rw [hsame]
    rw [h.orders, mem_append, mem_singleton] at hother
    obtain hother | rfl := hother
    · exact hs.sided other hother
    · rw [h.signed, h.closes, h.quantity, h.listed.sign]
      exact ⟨Int.natAbs_pos.mpr h.listed.nonzero, rfl⟩
  · rw [hsame]
    by_cases hkey : leg.key = key
    · subst hkey
      rw [h.exitQuantity]
      exact hroom
    · rw [exitQuantity_push h.orders, if_neg fun hleg => hkey (h.closes ▸ hleg.1)]
      exact hs.bound key
  · refine (h.calls call hcall other hother).mono h.attributed ?_
    rw [exitQuantity_push h.orders]
    omega

theorem Valid.move (hs : s.Valid) {source target : ExitOrderStatus}
    (hroom : target ≠ .rejected → source ≠ .rejected)
    (hstored : source = .stored → target = .stored) : (s.move n source target).Valid := by
  rw [ExitDesk.move]
  split
  · next order horder =>
    split
    · next hstatus =>
      have hsum : ∀ p key, exitQuantity { s with
            orders := s.orders.set n { order with status := target } } p key +
          (if order.leg = key ∧ p source then order.body.quantity else 0) = s.exitQuantity p key +
            if order.leg = key ∧ p target then order.body.quantity else 0 := by
        intro p key
        have h := sum_map_set (fun order : ExitOrder =>
          if order.leg = key ∧ p order.status then order.body.quantity else 0)
          (b := { order with status := target }) horder
        rw [hstatus] at h
        exact h
      refine ⟨fun other hother => ?_, fun key => ?_, fun call hcall leg hleg => ?_⟩
      · obtain hother | rfl := mem_or_eq_of_mem_set hother
        · exact hs.sided other hother
        · exact hs.sided order (mem_of_getElem? horder)
      · refine le_trans ?_ (hs.bound key)
        have h := hsum (· ≠ .rejected) key
        have hle := ite_le_ite_of_imp
          (c := order.leg = key ∧ decide (target ≠ .rejected))
          (d := order.leg = key ∧ decide (source ≠ .rejected))
          (fun hp => ⟨hp.1, decide_eq_true (hroom (of_decide_eq_true hp.2))⟩) order.body.quantity
        omega
      · refine (hs.listed call hcall leg hleg).mono rfl ?_
        have h := hsum (· = .stored) leg.key
        have hle := ite_le_ite_of_imp
          (c := order.leg = leg.key ∧ decide (source = .stored))
          (d := order.leg = leg.key ∧ decide (target = .stored))
          (fun hp => ⟨hp.1, decide_eq_true (hstored (of_decide_eq_true hp.2))⟩) order.body.quantity
        omega
    · exact hs
  · exact hs

/-! ### steps and runs -/

theorem Valid.stepCall (hs : s.Valid) (hcall : s.calls[i]? = some ⟨request, phase⟩)
    (hphase : ∀ key index leg legs, phase ≠ .placing key index (leg :: legs)) (yes : Bool) :
    (s.stepCall sha1 i request yes phase).Valid := by
  have hlisted := hs.listed _ (mem_of_getElem? hcall)
  have hrow : ∀ status liveExit, Valid { s with status := status, liveExit := liveExit } :=
    fun status liveExit => hs.frame rfl rfl hs.listed
  cases phase with
  | called status liveExit =>
    exact hs.goTo fun leg hleg => hs.listed_openLegs (plan_legs hleg)
  | flat =>
    refine hs.goTo fun leg hleg => ?_
    cases yes <;> cases hleg
  | closing => exact (hrow _ _).goTo fun _ => nofun
  | planned key legs =>
    exact (hrow _ _).goTo fun leg hleg => (hlisted leg hleg).mono rfl le_rfl
  | placing key index legs =>
    cases legs with
    | nil => exact hs.goTo fun _ => nofun
    | cons leg legs => exact absurd rfl (hphase key index leg legs)
  | finishing key flat => exact (hrow _ _).goTo fun _ => nofun
  | answered status => exact hs
  | refused detail => exact hs
  | raised => exact hs

theorem Valid.step_placing (hs : s.Valid) {key : String} {index : Nat} {legs : List OpenLeg}
    (hcall : s.calls[i]? = some ⟨request, .placing key index (leg :: legs)⟩) (yes : Bool) :
    (Clear (.step i yes) s ∧ (ExitDesk.step sha1 (.step i yes) s).Valid) ∨
      ∃ leg order, Places s (ExitDesk.step sha1 (.step i yes) s) leg order ∧
        (Clear (.step i yes) s ↔ s.Settled leg) := by
  have hlisted := hs.listed _ (mem_of_getElem? hcall)
  have hrest : ∀ other ∈ legs, s.Listed other := fun other hother =>
    hlisted other (mem_cons_of_mem leg hother)
  have hclear : Clear (.step i yes) s ↔
      (yes → ¬s.Placed (s.exitOrder request key index leg) → s.Settled leg) := by
    constructor
    · intro h hyes hplaced
      exact h i request key index leg legs (by rw [hyes]) hcall hplaced
    · intro h j request' key' index' leg' legs' he hj hplaced
      cases he
      rw [hcall] at hj
      cases hj
      exact h rfl hplaced
  have hstep : ExitDesk.step sha1 (.step i yes) s =
      (s.placeOrder (s.exitOrder request key index leg) yes).goTo i request
        (.placing key (index + 1) legs) := by
    rw [ExitDesk.step, hcall]
    rfl
  by_cases hplace : yes ∧ ¬s.Placed (s.exitOrder request key index leg)
  · refine .inr ⟨leg, s.exitOrder request key index leg, ?_, ?_⟩
    · rw [hstep, placeOrder, if_pos hplace]
      have hleg := hlisted leg (.head _)
      refine ⟨rfl, rfl, hleg, rfl, rfl, exitOrder_signed request key index hleg.nonzero, rfl, ?_⟩
      intro call hmem
      obtain hmem | rfl := mem_or_eq_of_mem_set hmem
      · exact hs.listed call hmem
      · exact hrest
    · rw [hclear]
      exact ⟨fun h => h hplace.1 hplace.2, fun h _ _ => h⟩
  · refine .inl ⟨hclear.mpr fun hyes hplaced => absurd ⟨hyes, hplaced⟩ hplace, ?_⟩
    rw [hstep, placeOrder, if_neg hplace]
    exact hs.goTo hrest

/-- What a step does: it keeps the invariant and is clear, or it places an order for a listed
leg, and is clear exactly when it finds the leg settled. -/
theorem Valid.step (hs : s.Valid) (e : ExitEvent) :
    (Clear e s ∧ (step sha1 e s).Valid) ∨
      ∃ leg order, Places s (ExitDesk.step sha1 e s) leg order ∧ (Clear e s ↔ s.Settled leg) := by
  have hother : (∀ i, e ≠ .step i true) → Clear e s := fun h i _ _ _ _ _ he => absurd he (h i)
  cases e with
  | request request =>
    refine .inl ⟨hother (fun _ => nofun), hs.frame rfl rfl ?_⟩
    intro call hcall leg hleg
    obtain hcall | hcall := mem_append.mp hcall
    · exact hs.listed call hcall leg hleg
    · rw [mem_singleton.mp hcall] at hleg
      cases hleg
  | fail i =>
    refine .inl ⟨hother (fun _ => nofun), ?_⟩
    rw [ExitDesk.step]
    split
    · exact hs.goTo fun _ => nofun
    · exact hs
  | fill n => exact .inl ⟨hother (fun _ => nofun), hs.move (by simp) (by simp)⟩
  | reject n => exact .inl ⟨hother (fun _ => nofun), hs.move (by simp) (by simp)⟩
  | store n => exact .inl ⟨hother (fun _ => nofun), hs.move (by simp) (by simp)⟩
  | reconcile positions =>
    exact .inl ⟨hother (fun _ => nofun), hs.frame rfl rfl hs.listed⟩
  | write status liveExit =>
    exact .inl ⟨hother (fun _ => nofun), hs.frame rfl rfl hs.listed⟩
  | step i yes =>
    cases hcall : s.calls[i]? with
    | none =>
      refine .inl ⟨fun j request key index leg legs h hj => ?_, ?_⟩
      · cases h
        rw [hcall] at hj
        cases hj
      · rw [ExitDesk.step, hcall]
        exact hs
    | some call =>
      obtain ⟨request, phase⟩ := call
      by_cases hphase : ∃ key index leg legs, phase = .placing key index (leg :: legs)
      · obtain ⟨key, index, leg, legs, rfl⟩ := hphase
        exact hs.step_placing hcall yes
      · refine .inl ⟨fun j request' key index leg legs he hj => ?_, ?_⟩
        · cases he
          rw [hcall] at hj
          cases hj
          exact absurd ⟨key, index, leg, legs, rfl⟩ hphase
        · rw [ExitDesk.step, hcall]
          exact hs.stepCall hcall
            (fun key index leg legs h => hphase ⟨key, index, leg, legs, h⟩) yes

theorem Valid.clear_iff (hs : s.Valid) (e : ExitEvent) :
    (Clear e s ↔ (ExitDesk.step sha1 e s).Within) ∧ (Clear e s → (ExitDesk.step sha1 e s).Valid) := by
  have hstep : (Clear e s ∧ (ExitDesk.step sha1 e s).Valid) ∨ ∃ leg order,
      Places s (ExitDesk.step sha1 e s) leg order ∧ (Clear e s ↔ s.Settled leg) := hs.step e
  obtain ⟨hclear, hvalid⟩ | ⟨leg, order, hplaces, hclear⟩ := hstep
  · exact ⟨⟨fun _ => hvalid.within, fun _ => hclear⟩, fun _ => hvalid⟩
  · have hsettled := hs.settled_iff hplaces.listed
    have hvalid : Clear e s → (ExitDesk.step sha1 e s).Valid := fun h =>
      hplaces.valid hs (hsettled.mp (hclear.mp h))
    refine ⟨⟨fun h => (hvalid h).within, fun hwithin => ?_⟩, hvalid⟩
    have hroom := (hwithin leg.key).1
    rw [hplaces.exitQuantity, attributedQuantity_congr hplaces.attributed] at hroom
    exact hclear.mpr (hsettled.mpr hroom)

/-- The exits of a run stay within what was attributed to it, and never turn its position,
exactly as long as every exit order finds its leg settled. -/
theorem exits_within_iff (sha1 : String → String) (runId : String) (attributed : List LegFill)
    (events : List ExitEvent) :
    (machine sha1).Along (fun e _ s => Clear e s) events (start runId attributed) ↔
      (machine sha1).Along (fun e _ s => (step sha1 e s).Within) events (start runId attributed) :=
  Machine.along_congr (I := Valid) (fun e _ _ hs => (hs.clear_iff e).1)
    (fun e _ _ hs => (hs.clear_iff e).2) (valid_start runId attributed)

def demoLeg : LegKey := ⟨"NFO", "NIFTY24JANFUT", "NRML", 8972290⟩

/-- Two exits with keys of their own: the second lists the legs while the order of the first is
working. -/
def twoExits : List ExitEvent :=
  [.request ⟨"worker", none, some "first", false⟩, .reconcile [(demoLeg, 10)], .step 0 true,
    .step 0 true, .step 0 true, .request ⟨"control-plane", none, some "second", false⟩,
    .reconcile [(demoLeg, 10)], .step 1 true, .step 1 true, .step 1 true, .fill 0, .fill 1]

/-- Ten were bought and twenty are sold. -/
theorem exits_overshoot : ¬ ∀ (sha1 : String → String) (runId : String)
    (attributed : List LegFill) (events : List ExitEvent),
    (machine sha1).Along (fun e _ s => (step sha1 e s).Within) events (start runId attributed) := by
  intro h
  have hside := (h id "run" [⟨demoLeg, .buy, 10⟩] twoExits).mono
    (Q := fun e _ s => (step id e s).position demoLeg = 0 ∨
      ((step id e s).position demoLeg).sign = ((step id e s).attributedQuantity demoLeg).sign)
    fun e _ s hwithin => (hwithin demoLeg).2
  revert hside
  decide +kernel

end ExitDesk

end KiteAlgo
