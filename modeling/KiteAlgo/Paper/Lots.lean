import KiteAlgo.Paper.Funds

/-!
# KiteAlgo.Paper.Lots

Lots against positions.

A buy opens a lot whatever the position is, and a sale consumes the lots that
`_ordered_lots_for_consumption` lists.  `consumeLotsUow_total` says what a consumption
takes, and `Covered.filled` that open lots add up to the long position after a fill if
the order was `Attributable`: a buy that finds no short position, or a sale whose lots
are not kept from it by `exit_for`.
-/

namespace KiteAlgo.Paper

open List Option Keyed
/-! ## quantities -/

/-- What an open lot has left for a position. -/
def Lot.openIn (key : PositionKey) (lot : Lot) : Int :=
  if lot.key = key ∧ 0 < lot.remainingQuantity then lot.remainingQuantity else 0

theorem Lot.openIn_of_nonneg {lot : Lot} (h : 0 ≤ lot.remainingQuantity) {key : PositionKey} :
    lot.openIn key = if lot.key = key then lot.remainingQuantity else 0 := by
  unfold Lot.openIn
  grind

def remainingOf (lots : List Lot) : Int := (lots.map Lot.remainingQuantity).sum

namespace Store

variable (s : Store) (key : PositionKey)

/-- The `net_quantity` of the stored position. -/
def netQuantity : Int := ((s.getPosition key).map Position.netQuantity).getD 0

/-- The sum of `remaining_quantity` over the open lots. -/
def openQuantity : Int := remainingOf (s.listOpenPositionLots key)

/-- The part of it in the lots of a strategy. -/
def strategyQuantity (strategy : String) : Int :=
  remainingOf ((s.listOpenPositionLots key).filter fun lot =>
    strategyIdentity lot.attribution = some strategy)

end Store

theorem remainingOf_filter (key : PositionKey) (lots : List Lot) :
    remainingOf (lots.filter fun lot => lot.key = key && 0 < lot.remainingQuantity) =
      (lots.map (Lot.openIn key)).sum := by
  induction lots with
  | nil => rfl
  | cons lot lots ih =>
    rw [filter_cons, map_cons, sum_cons, ← ih]
    by_cases hopen : lot.key = key ∧ 0 < lot.remainingQuantity
    · simp [remainingOf, Lot.openIn, hopen]
    · have hskip : (decide (lot.key = key) && decide (0 < lot.remainingQuantity)) = false := by
        simpa using hopen
      simp [remainingOf, Lot.openIn, hopen, hskip]

theorem Store.openQuantity_eq (s : Store) (key : PositionKey) :
    s.openQuantity key = (s.lots.rows.map (Lot.openIn key)).sum :=
  remainingOf_filter key s.lots.rows

theorem Store.openQuantity_upsert {s s' : Store} (lot : Lot) (h : s'.lots = s.lots.upsert lot)
    (key : PositionKey) :
    s'.openQuantity key = s.openQuantity key +
      (lot.openIn key - ((s.lots.get? lot.lotId).map (Lot.openIn key)).getD 0) := by
  rw [Store.openQuantity_eq, Store.openQuantity_eq, h]
  exact sum_upsert s.lots lot (Lot.openIn key)

theorem remainingOf_nonneg {lots : List Lot} (h : ∀ lot ∈ lots, 0 < lot.remainingQuantity) :
    0 ≤ remainingOf lots := by
  refine sum_nonneg fun quantity hquantity => ?_
  obtain ⟨lot, hlot, rfl⟩ := mem_map.mp hquantity
  exact (h lot hlot).le

theorem remainingOf_sublist {lots all : List Lot} (hsub : lots.Sublist all)
    (h : ∀ lot ∈ all, 0 < lot.remainingQuantity) : remainingOf lots ≤ remainingOf all := by
  induction hsub with
  | slnil => exact le_refl _
  | cons lot hsub ih =>
    have hrest := ih fun other hother => h other (.tail _ hother)
    have hlot := h lot (.head _)
    simp only [remainingOf, map_cons, sum_cons] at hrest ⊢
    omega
  | cons_cons lot hsub ih =>
    have hrest := ih fun other hother => h other (.tail _ hother)
    simp only [remainingOf, map_cons, sum_cons] at hrest ⊢
    omega

/-! ## consumption -/

namespace Service

/-- Open lots of one position, as stored, none twice. -/
structure Consumable (s : Store) (key : PositionKey) (lots : List Lot) : Prop where
  stored : ∀ lot ∈ lots, s.lots.get? lot.lotId = some lot
  ofKey : ∀ lot ∈ lots, lot.key = key
  isOpen : ∀ lot ∈ lots, 0 < lot.remainingQuantity
  distinct : (lots.map Lot.lotId).Nodup

theorem consumable_listOpenPositionLots (s : Store) (key : PositionKey) :
    Consumable s key (s.listOpenPositionLots key) := by
  have hlisted : ∀ lot ∈ s.listOpenPositionLots key,
      lot ∈ s.lots.rows ∧ lot.key = key ∧ 0 < lot.remainingQuantity := by
    intro lot hlot
    rw [Store.listOpenPositionLots, mem_filter] at hlot
    simpa using hlot
  refine ⟨fun lot hlot => ?_, fun lot hlot => (hlisted lot hlot).2.1,
    fun lot hlot => (hlisted lot hlot).2.2, ?_⟩
  · exact mem_rows_iff.mp (hlisted lot hlot).1
  · exact s.lots.unique.sublist (filter_sublist.map Lot.lotId)

variable {s : Store} {key : PositionKey} {lots : List Lot}

theorem Consumable.ordered (h : Consumable s key lots) (preferred : Option String) (strict : Bool) :
    Consumable s key (orderedLotsForConsumption lots preferred strict) := by
  have hsub : ∀ lot ∈ orderedLotsForConsumption lots preferred strict, lot ∈ lots := by
    intro lot hlot
    unfold orderedLotsForConsumption at hlot
    grind
  refine ⟨fun lot hlot => h.stored lot (hsub lot hlot), fun lot hlot => h.ofKey lot (hsub lot hlot),
    fun lot hlot => h.isOpen lot (hsub lot hlot), ?_⟩
  unfold orderedLotsForConsumption
  cases preferred with
  | none => exact h.distinct
  | some strategy =>
    simp only
    split
    · exact h.distinct.sublist (filter_sublist.map Lot.lotId)
    · have hperm : (lots.filter fun lot => strategyIdentity lot.attribution = some strategy) ++
          (lots.filter fun lot => strategyIdentity lot.attribution ≠ some strategy) |>.Perm lots := by
        have hsplit := filter_append_perm
          (fun lot : Lot => decide (strategyIdentity lot.attribution = some strategy)) lots
        simpa using hsplit
      exact (hperm.map Lot.lotId).nodup_iff.mpr h.distinct

theorem Consumable.head {lot : Lot} (h : Consumable s key (lot :: lots)) :
    s.lots.get? lot.lotId = some lot ∧ lot.key = key ∧ 0 < lot.remainingQuantity :=
  ⟨h.stored lot (.head _), h.ofKey lot (.head _), h.isOpen lot (.head _)⟩

theorem Consumable.tail {lot updated : Lot} (h : Consumable s key (lot :: lots))
    (hid : updated.lotId = lot.lotId) : Consumable (s.updateLot updated) key lots := by
  have hdistinct := h.distinct
  rw [map_cons, nodup_cons] at hdistinct
  refine ⟨fun other hother => ?_, fun other hother => h.ofKey other (.tail _ hother),
    fun other hother => h.isOpen other (.tail _ hother), hdistinct.2⟩
  have hne : updated.lotId ≠ other.lotId := by
    rw [hid]
    intro heq
    exact hdistinct.1 (heq ▸ mem_map_of_mem hother)
  rw [Store.updateLot, get?_upsert_of_ne hne]
  exact h.stored other (.tail _ hother)

theorem consumeLotsUow_total (h : Consumable s key lots) {remaining : Int} (hremaining : 0 ≤ remaining)
    (other : PositionKey) :
    (consumeLotsUow lots remaining s).openQuantity other =
      s.openQuantity other - if key = other then min (remainingOf lots) remaining else 0 := by
  induction lots generalizing remaining s with
  | nil =>
    have hnone : min (remainingOf []) remaining = 0 := min_eq_left hremaining
    rw [hnone, ite_self, sub_zero]
    rfl
  | cons lot lots ih =>
    obtain ⟨hstored, hkey, hopen⟩ := h.head
    have htail : 0 ≤ remainingOf lots :=
      remainingOf_nonneg fun rest hrest => h.isOpen rest (.tail _ hrest)
    have hsum : remainingOf (lot :: lots) = lot.remainingQuantity + remainingOf lots := rfl
    unfold consumeLotsUow
    split
    · next hdone =>
      have hzero : min (remainingOf (lot :: lots)) remaining = 0 := by omega
      rw [hzero, ite_self, sub_zero]
    · rw [if_neg (by omega)]
      have hleft : 0 ≤ (lot.consume remaining).2 := by
        simp only [Lot.consume]
        omega
      have hrest : Consumable (s.updateLot (lot.consume remaining).1) key lots := h.tail rfl
      have hwritten : (s.updateLot (lot.consume remaining).1).lots =
          s.lots.upsert (lot.consume remaining).1 := rfl
      rw [ih hrest hleft, Store.openQuantity_upsert _ hwritten,
        show (lot.consume remaining).1.lotId = lot.lotId from rfl, hstored]
      have hnonneg : 0 ≤ (lot.consume remaining).1.remainingQuantity := by
        simp only [Lot.consume]
        omega
      have hsame : (lot.consume remaining).1.key = key := hkey
      simp only [map_some, getD_some, Lot.openIn_of_nonneg hopen.le,
        Lot.openIn_of_nonneg hnonneg, hkey, hsame, hsum]
      simp only [Lot.consume]
      split
      · omega
      · omega

theorem consumeLotsUow_rows {P : Lot → Prop}
    (hconsume : ∀ lot : Lot, ∀ left, P lot → 0 ≤ left → left ≤ lot.remainingQuantity →
      P { lot with remainingQuantity := left })
    (h : Consumable s key lots) (hrows : ∀ lot ∈ s.lots.rows, P lot) (remaining : Int) :
    ∀ lot ∈ (consumeLotsUow lots remaining s).lots.rows, P lot := by
  induction lots generalizing remaining s with
  | nil => exact hrows
  | cons lot lots ih =>
    obtain ⟨hstored, hkey, hopen⟩ := h.head
    unfold consumeLotsUow
    split
    · exact hrows
    · rw [if_neg (by omega)]
      have hrest : Consumable (s.updateLot (lot.consume remaining).1) key lots := h.tail rfl
      refine ih hrest (fun row hrow => ?_) _
      rcases mem_rows_upsert hrow with rfl | ⟨hold, -⟩
      · exact hconsume lot _ (hrows lot (mem_rows_of_get? hstored)) (by omega) (by omega)
      · exact hrows row hold

end Service

/-! ## books of lots -/

/-- For every position the open lots add up to what it is long, and no lot has less than
nothing or more than it opened with. -/
structure LotsCover (s : Store) : Prop where
  total : ∀ key, s.openQuantity key = max (s.netQuantity key) 0
  bounds : ∀ lot ∈ s.lots.rows, 0 ≤ lot.remainingQuantity ∧ lot.remainingQuantity ≤ lot.openQuantity

/-- Lots cover positions and have drawn identifiers. -/
structure Covered (s : Store) : Prop extends LotsCover s where
  drawn : ∀ lot ∈ s.lots.rows, lot.lotId < s.clock

def Order.signedQuantity (order : Order) : Int :=
  match order.side with
  | .buy => order.quantity
  | .sell => -order.quantity

/-- The lots can follow the position: a buy finds it not short, and a sale that exits a
strategy finds enough lots of that strategy. -/
def Attributable (order : Order) (s : Store) : Prop :=
  match order.side with
  | .buy => 0 ≤ s.netQuantity order.key
  | .sell =>
    match textAt order.attribution "exit_for" with
    | none => True
    | some strategy =>
      min order.quantity (s.openQuantity order.key) ≤ s.strategyQuantity order.key strategy

instance (order : Order) (s : Store) : Decidable (Attributable order s) := by
  unfold Attributable
  split
  · infer_instance
  · split <;> infer_instance

theorem Service.fillPlan_netQuantity (svc : Service) (order : Order) (instrument : Instrument)
    (price : ℚ) (s : Store) :
    (svc.fillPlan order (requestFromPaperOrder order) instrument price
      (s.getPosition order.key)).position.netQuantity = s.netQuantity order.key + order.signedQuantity := by
  have htrade : ∀ (held : Holding) (side qty : Int), (held.trade side qty price).1 =
      held.netQuantity + side * qty := by
    intro held side qty
    simp only [Holding.trade]
    split <;> rfl
  have hheld : (((s.getPosition order.key).map Position.holding).getD {}).netQuantity =
      s.netQuantity order.key := by
    rw [Store.netQuantity]
    cases s.getPosition order.key <;> rfl
  simp only [Service.fillPlan, applyFillToPosition, htrade, hheld, requestFromPaperOrder]
  show s.netQuantity order.key + (if order.side.text = "BUY" then 1 else -1) * order.quantity =
    s.netQuantity order.key + order.signedQuantity
  unfold Order.signedQuantity
  cases hside : order.side with
  | buy => simp [Side.text]
  | sell => simp [Side.text]

theorem Store.netQuantity_upsert {s s' : Store} {row : Position}
    (h : s'.positions = s.positions.upsert row) (key : PositionKey) :
    s'.netQuantity key = if row.key = key then row.netQuantity else s.netQuantity key := by
  rw [Store.netQuantity, Store.getPosition, h, get?_upsert]
  split <;> rfl

namespace Covered

variable {s s' : Store}

theorem of_same (h : Covered s) (hlots : s'.lots = s.lots)
    (hnet : ∀ key, s'.netQuantity key = s.netQuantity key) (hclock : s.clock ≤ s'.clock) :
    Covered s' := by
  refine ⟨⟨fun key => ?_, ?_⟩, ?_⟩
  · rw [Store.openQuantity_eq, hlots, ← Store.openQuantity_eq, hnet]
    exact h.total key
  · rw [hlots]
    exact h.bounds
  · rw [hlots]
    exact fun lot hlot => Nat.lt_of_lt_of_le (h.drawn lot hlot) hclock

theorem of_positions (h : Covered s) (hlots : s'.lots = s.lots) (hpositions : s'.positions = s.positions)
    (hclock : s.clock ≤ s'.clock) : Covered s' := by
  refine h.of_same hlots (fun key => ?_) hclock
  rw [Store.netQuantity, Store.getPosition, hpositions]
  rfl

theorem attributed (h : Covered s) (order : Order) (tradeId : Nat) (price : ℚ)
    (hattributable : Attributable order s) (key : PositionKey) :
    (Service.attributeLotsUow order tradeId price s).openQuantity key = if order.key = key then
        max (s.netQuantity key + order.signedQuantity) 0
      else s.openQuantity key := by
  have hpos := order.quantity_pos
  have htotal := h.total key
  unfold Attributable at hattributable
  unfold Service.attributeLotsUow Order.signedQuantity
  cases hside : order.side with
  | buy =>
    simp only [hside] at hattributable ⊢
    have hfresh : s.lots.get? s.clock = none := by
      cases hget : s.lots.get? s.clock with
      | none => rfl
      | some lot =>
        have hid : lot.lotId = s.clock := key_of_get? hget
        have hdrawn := h.drawn lot (mem_rows_of_get? hget)
        omega
    have hlot : ({ order.lot tradeId price with lotId := s.clock } : Lot).openIn key =
        if order.key = key then order.quantity else 0 := by
      have hnonneg : 0 ≤ ({ order.lot tradeId price with lotId := s.clock } : Lot).remainingQuantity :=
        hpos.le
      rw [Lot.openIn_of_nonneg hnonneg]
      rfl
    rw [Store.openQuantity_upsert (s := s) { order.lot tradeId price with lotId := s.clock } rfl,
      hlot, hfresh]
    split
    · next heq =>
      subst heq
      simp only [map_none, getD_none]
      omega
    · simp
  | sell =>
    simp only [hside] at hattributable ⊢
    have hconsumable := Service.consumable_listOpenPositionLots s order.key
    have hordered := hconsumable.ordered (textAt order.attribution "exit_for")
      (textAt order.attribution "exit_for").isSome
    unfold Service.consumePositionLotsUow
    rw [if_neg (by omega), Service.consumeLotsUow_total hordered (by omega)]
    split
    · next heq =>
      subst heq
      have hall : min (remainingOf (s.listOpenPositionLots order.key)) order.quantity ≤
            remainingOf (orderedLotsForConsumption (s.listOpenPositionLots order.key)
              (textAt order.attribution "exit_for") (textAt order.attribution "exit_for").isSome) ∧
          remainingOf (orderedLotsForConsumption (s.listOpenPositionLots order.key)
              (textAt order.attribution "exit_for") (textAt order.attribution "exit_for").isSome) ≤
            remainingOf (s.listOpenPositionLots order.key) := by
        cases hexit : textAt order.attribution "exit_for" with
        | none => exact ⟨min_le_left _ _, le_refl _⟩
        | some strategy =>
          simp only [hexit] at hattributable
          refine ⟨?_, remainingOf_sublist filter_sublist hconsumable.isOpen⟩
          rw [min_comm]
          exact hattributable
      have hopen : remainingOf (s.listOpenPositionLots order.key) =
          max (s.netQuantity order.key) 0 := htotal
      have hopen' : s.openQuantity order.key = max (s.netQuantity order.key) 0 := htotal
      omega
    · simp

theorem drawn_attributed (h : Covered s) (order : Order) (tradeId : Nat) (price : ℚ) :
    ∀ lot ∈ (Service.attributeLotsUow order tradeId price s).lots.rows,
      lot.lotId < (Service.attributeLotsUow order tradeId price s).clock ∧
        0 ≤ lot.remainingQuantity ∧ lot.remainingQuantity ≤ lot.openQuantity := by
  have hpos := order.quantity_pos
  have hrows : ∀ lot ∈ s.lots.rows, lot.lotId < s.clock ∧
      0 ≤ lot.remainingQuantity ∧ lot.remainingQuantity ≤ lot.openQuantity :=
    fun lot hlot => ⟨h.drawn lot hlot, h.bounds lot hlot⟩
  unfold Service.attributeLotsUow
  cases hside : order.side with
  | buy =>
    intro lot hlot
    rcases mem_rows_upsert hlot with rfl | ⟨hold, -⟩
    · exact ⟨Nat.lt_succ_self _, hpos.le, le_refl _⟩
    · exact ⟨Nat.lt_succ_of_lt (hrows lot hold).1, (hrows lot hold).2⟩
  | sell =>
    have hordered := (Service.consumable_listOpenPositionLots s order.key).ordered
      (textAt order.attribution "exit_for") (textAt order.attribution "exit_for").isSome
    simp only [Service.consumePositionLotsUow]
    rw [if_neg (by omega), Service.consumeLotsUow_rest]
    refine Service.consumeLotsUow_rows (fun lot left hlot hleft hle => ?_) hordered hrows _
    exact ⟨hlot.1, hleft, hle.trans hlot.2.2⟩

theorem filled (h : Covered s) (svc : Service) {order : Order} {account : Account}
    {instrument : Instrument} {price : ℚ} {plan : FillPlan}
    (htoken : instrument.instrumentToken = order.instrumentToken)
    (hplan : plan = svc.fillPlan order (requestFromPaperOrder order) instrument price
      (s.getPosition order.key))
    (hfunded : s.Funded s' account)
    (hattributable : Attributable order (s'.updateOrder (order.completed price))) :
    Covered (Service.recordFillUow order price plan s').2 := by
  -- what the fill attributes lots in
  have hbefore : Covered ((s'.updateOrder (order.completed price)).insertTrade
      (order.trade price)).2 := by
    refine h.of_positions ?_ ?_ ?_
    · rw [Store.insertTrade_lots, Store.updateOrder_lots, hfunded.lots]
    · rw [Store.insertTrade_positions, Store.updateOrder_positions, hfunded.positions]
    · simp only [Store.insertTrade, Store.updateOrder_clock, hfunded.clock]
      omega
  have hopen := hbefore.attributed order (s'.updateOrder (order.completed price)).clock price hattributable
  have hrows := hbefore.drawn_attributed order (s'.updateOrder (order.completed price)).clock price
  obtain ⟨instant, hpositions⟩ := Service.recordFillUow_positions order price plan s'
  have hlots : (Service.recordFillUow order price plan s').2.lots =
      (Service.attributeLotsUow order (s'.updateOrder (order.completed price)).clock price
        ((s'.updateOrder (order.completed price)).insertTrade (order.trade price)).2).lots := rfl
  have hclock : (Service.recordFillUow order price plan s').2.clock =
      (Service.attributeLotsUow order (s'.updateOrder (order.completed price)).clock price
        ((s'.updateOrder (order.completed price)).insertTrade (order.trade price)).2).clock + 1 := rfl
  have hkey : ((plan.position.settled order plan.margin price).stamped instant).key = order.key := by
    rw [hplan]
    exact congrArg (fun token => PositionKey.mk order.scope token order.product) htoken
  have hheld : ∀ key, ((s'.updateOrder (order.completed price)).insertTrade
      (order.trade price)).2.netQuantity key = s.netQuantity key := by
    intro key
    rw [Store.netQuantity, Store.getPosition, Store.insertTrade_positions,
      Store.updateOrder_positions, hfunded.positions]
    rfl
  have hnet : ((plan.position.settled order plan.margin price).stamped instant).netQuantity =
      s.netQuantity order.key + order.signedQuantity := by
    rw [← svc.fillPlan_netQuantity order instrument price s, ← hplan]
    rfl
  refine ⟨⟨fun key => ?_, ?_⟩, ?_⟩
  · rw [Store.openQuantity_eq, hlots, ← Store.openQuantity_eq, hopen,
      Store.netQuantity_upsert hpositions, hkey, hnet]
    split
    · next heq => rw [hheld, heq]
    · rw [hbefore.total, hheld, Store.netQuantity, Store.netQuantity, Store.getPosition,
        Store.getPosition, hfunded.positions]
  · rw [hlots]
    exact fun lot hlot => (hrows lot hlot).2
  · rw [hlots, hclock]
    exact fun lot hlot => Nat.lt_succ_of_lt (hrows lot hlot).1

theorem marked (h : Covered s) {position : Position} {price : ℚ}
    (hrow : s.positions.get? position.key = some position) :
    Covered (s.upsertPosition (position.marked price)) := by
  have hpositions : (s.upsertPosition (position.marked price)).positions =
      s.positions.upsert ((position.marked price).stamped s.clock) := rfl
  refine h.of_same rfl (fun key => ?_) (Nat.le_succ _)
  rw [Store.netQuantity_upsert hpositions]
  split
  · next hkey =>
    have hstored : s.positions.get? key = some position := by
      rw [← hkey]
      exact hrow
    rw [Store.netQuantity, Store.getPosition, hstored]
    rfl
  · rfl

theorem move (h : Covered s) {svc : Service} (hmove : Moves svc Attributable s s') : Covered s' := by
  cases hmove with
  | opened _ => exact h.of_positions rfl rfl (Nat.le_refl _)
  | rejected _ => exact h.of_positions rfl rfl (Nat.le_succ _)
  | booked _ _ _ hfunded =>
    refine h.of_positions hfunded.lots hfunded.positions ?_
    rw [hfunded.clock]
    exact Nat.le_succ _
  | touched _ _ _ =>
    exact h.of_positions (Store.updateOrder_lots s _) (Store.updateOrder_positions s _)
      (Store.updateOrder_clock s _).ge
  | refused _ _ _ hfunded =>
    refine h.of_positions ?_ ?_ ?_
    · rw [hfunded.lots, Store.updateOrder_lots]
    · rw [hfunded.positions, Store.updateOrder_positions]
    · rw [hfunded.clock, Store.updateOrder_clock]
  | filled _ _ _ htoken hplan hfunded hcond => exact h.filled svc htoken hplan hfunded hcond
  | marked hrow => exact h.marked hrow

theorem moves (h : Covered s) {svc : Service} (hmoves : MovesTo svc Attributable s s') : Covered s' := by
  induction hmoves with
  | refl => exact h
  | tail _ hmove ih => exact ih.move hmove

end Covered

/-! ## serial runs -/

theorem Store.Fresh.covered {s : Store} (h : s.Fresh) : Covered s := by
  refine ⟨⟨fun key => ?_, fun lot hlot => ?_⟩, fun lot hlot => ?_⟩
  · rw [Store.openQuantity_eq, Store.netQuantity, Store.getPosition, get?, h.lots, h.positions]
    rfl
  · simp [h.lots] at hlot
  · simp [h.lots] at hlot

/-- After calls that run one after another, each of whose fills was attributable, lots
cover positions. -/
theorem lots_cover_positions (svc : Service) {s : Store} (hfresh : s.Fresh) (calls : List Call)
    (halong : SerialAlong svc Attributable calls s) : LotsCover (svc.serial calls s) :=
  (hfresh.covered.moves (moves_serial svc (hfresh.knowsOrders svc) halong)).toLotsCover

theorem lots_cover_positions_demo : LotsCover (demoService.serial demoTrades demoStore) :=
  lots_cover_positions demoService fresh_demoStore demoTrades (by decide +kernel)

/-- Ten are sold short and bought back: nothing is held, and a lot of ten is open. -/
def demoShort : List Call :=
  [.placeOrder demoScope (demoOrder "SELL" 10) [] (demoMarket 100),
    .placeOrder demoScope (demoOrder "BUY" 10) [] (demoMarket 100)]

theorem covered_short_leaves_lot :
    ((demoService.serial demoShort demoStore).netQuantity ⟨demoScope, 408065, "MIS"⟩ = 0 ∧
      (demoService.serial demoShort demoStore).openQuantity ⟨demoScope, 408065, "MIS"⟩ = 10) ∧
    ¬ LotsCover (demoService.serial demoShort demoStore) := by
  have hcounts : (demoService.serial demoShort demoStore).netQuantity ⟨demoScope, 408065, "MIS"⟩ = 0 ∧
      (demoService.serial demoShort demoStore).openQuantity ⟨demoScope, 408065, "MIS"⟩ = 10 := by
    decide +kernel
  refine ⟨hcounts, fun hcover => ?_⟩
  have htotal := hcover.total ⟨demoScope, 408065, "MIS"⟩
  rw [hcounts.1, hcounts.2] at htotal
  simp at htotal

end KiteAlgo.Paper
