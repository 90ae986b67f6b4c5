import KiteAlgo.Lib.Segments
import KiteAlgo.Paper.Lots
import KiteAlgo.Paper.RunState

/-!
# KiteAlgo.Paper.Exit

What an exit of one strategy does to the lots.

The orders of an exit name the strategy in `exit_for`, but the attribution that a fill reads is
merged from a list of keys without it (`mergedAttribution_exit`), so an exit consumes the lots of
its positions oldest first, whoever's they are.  `Attributed` says what fills do to the lots one
after another, `Attributed.of_covers` and `Attributed.covers` when they take from the strategy's
lots alone, and `exitStrategy_success` which fills a successful exit makes.
-/

namespace KiteAlgo.Paper

open List Prog Keyed
/-! ## first in, first out -/

def Lot.isOf (strategy : String) (lot : Lot) : Bool := strategyIdentity lot.attribution = some strategy

/-- What the strategy's lots hold that come before the first lot of another. -/
def frontOf (strategy : String) (lots : List Lot) : Int :=
  remainingOf (lots.takeWhile (Lot.isOf strategy))

def ownOf (strategy : String) (lots : List Lot) : Int := remainingOf (lots.filter (Lot.isOf strategy))

/-- The open lots after a quantity was consumed from the front. -/
def drain : List Lot → Int → List Lot
  | [], _ => []
  | lot :: lots, quantity =>
    if quantity ≤ 0 then lot :: lots
    else if quantity < lot.remainingQuantity then
      { lot with remainingQuantity := lot.remainingQuantity - quantity } :: lots
    else drain lots (quantity - lot.remainingQuantity)

section Drain

variable {strategy : String} {lot : Lot} {lots : List Lot} {quantity : Int}

theorem remainingOf_cons (lot : Lot) (lots : List Lot) :
    remainingOf (lot :: lots) = lot.remainingQuantity + remainingOf lots := rfl

theorem ownOf_cons (strategy : String) (lot : Lot) (lots : List Lot) :
    ownOf strategy (lot :: lots) =
      (if lot.isOf strategy = true then lot.remainingQuantity else 0) + ownOf strategy lots := by
  rw [ownOf, filter_cons]
  split
  · rfl
  · rw [zero_add]
    rfl

theorem frontOf_cons (strategy : String) (lot : Lot) (lots : List Lot) :
    frontOf strategy (lot :: lots) =
      if lot.isOf strategy = true then lot.remainingQuantity + frontOf strategy lots else 0 := by
  rw [frontOf, takeWhile_cons]
  split
  · rfl
  · rfl

theorem frontOf_nonneg (hopen : ∀ lot ∈ lots, 0 < lot.remainingQuantity) :
    0 ≤ frontOf strategy lots :=
  remainingOf_nonneg fun lot hlot => hopen lot ((takeWhile_sublist _).subset hlot)

theorem ownOf_drain_ge (hopen : ∀ lot ∈ lots, 0 < lot.remainingQuantity) (hquantity : 0 ≤ quantity) :
    ownOf strategy lots - quantity ≤ ownOf strategy (drain lots quantity) := by
  induction lots generalizing quantity with
  | nil =>
    rw [drain]
    omega
  | cons lot lots ih =>
    have hlot := hopen lot (.head _)
    rw [drain]
    split
    · omega
    · split
      · rw [ownOf_cons, ownOf_cons]
        show _ ≤ (if lot.isOf strategy = true then lot.remainingQuantity - quantity else 0) + _
        split <;> omega
      · have hleft : 0 ≤ quantity - lot.remainingQuantity := by omega
        have hrest := ih (fun other hother => hopen other (mem_cons_of_mem lot hother)) hleft
        rw [ownOf_cons]
        split <;> omega

theorem drain_front (hopen : ∀ lot ∈ lots, 0 < lot.remainingQuantity) (hquantity : 0 ≤ quantity)
    (hfront : quantity ≤ frontOf strategy lots) :
    ownOf strategy (drain lots quantity) = ownOf strategy lots - quantity ∧
      frontOf strategy (drain lots quantity) = frontOf strategy lots - quantity ∧
      (drain lots quantity).filter (fun lot => !lot.isOf strategy) =
        lots.filter fun lot => !lot.isOf strategy := by
  induction lots generalizing quantity with
  | nil =>
    have hzero : quantity = 0 := le_antisymm hfront hquantity
    rw [hzero]
    exact ⟨rfl, rfl, rfl⟩
  | cons lot lots ih =>
    have hlot := hopen lot (.head _)
    rw [drain]
    split
    · next hdone =>
      have hzero : quantity = 0 := le_antisymm hdone hquantity
      rw [hzero, sub_zero, sub_zero]
      exact ⟨rfl, rfl, rfl⟩
    · rw [frontOf_cons] at hfront ⊢
      split at hfront
      · next hown =>
        rw [if_pos hown, ownOf_cons, if_pos hown]
        split
        · refine ⟨?_, ?_, ?_⟩
          · rw [ownOf_cons]
            show (if lot.isOf strategy = true then lot.remainingQuantity - quantity else 0) + _ = _
            rw [if_pos hown]
            omega
          · rw [frontOf_cons]
            show (if lot.isOf strategy = true then
              lot.remainingQuantity - quantity + _ else 0) = _
            rw [if_pos hown]
            omega
          · have hsame : Lot.isOf strategy
                { lot with remainingQuantity := lot.remainingQuantity - quantity } = true := hown
            rw [filter_cons_of_neg (by simp [hsame]), filter_cons_of_neg (by simp [hown])]
        · have hleft : 0 ≤ quantity - lot.remainingQuantity := by omega
          obtain ⟨howned, hfirst, hothers⟩ := ih
            (fun other hother => hopen other (mem_cons_of_mem lot hother)) hleft (by omega)
          refine ⟨by omega, by omega, ?_⟩
          rw [hothers, filter_cons_of_neg (by simp [hown])]
      · omega

theorem front_of_drain (hopen : ∀ lot ∈ lots, 0 < lot.remainingQuantity) (hquantity : 0 ≤ quantity)
    (hown : ownOf strategy (drain lots quantity) = ownOf strategy lots - quantity) :
    quantity ≤ frontOf strategy lots := by
  induction lots generalizing quantity with
  | nil =>
    have hzero : (0 : Int) = 0 - quantity := hown
    show quantity ≤ 0
    omega
  | cons lot lots ih =>
    have hlot := hopen lot (.head _)
    have hrest : ∀ other ∈ lots, 0 < other.remainingQuantity := fun other hother =>
      hopen other (mem_cons_of_mem lot hother)
    rw [drain] at hown
    split at hown
    · exact le_trans ‹quantity ≤ 0› (frontOf_nonneg hopen)
    · have hfront : 0 ≤ frontOf strategy lots := frontOf_nonneg hrest
      rw [ownOf_cons] at hown
      rw [frontOf_cons]
      split at hown
      · rw [ownOf_cons] at hown
        change (if lot.isOf strategy = true then lot.remainingQuantity - quantity else 0) + _ = _
          at hown
        split at hown
        · next hmine =>
          rw [if_pos hmine]
          omega
        · omega
      · have hleft : 0 ≤ quantity - lot.remainingQuantity := by omega
        have hmore : ownOf strategy lots - (quantity - lot.remainingQuantity) ≤
            ownOf strategy (drain lots (quantity - lot.remainingQuantity)) :=
          ownOf_drain_ge hrest hleft
        split at hown
        · next hmine =>
          have hcover := ih hrest hleft (by omega)
          rw [if_pos hmine]
          omega
        · omega

end Drain

namespace Service

variable {s : Store} {key : PositionKey} {lots : List Lot} {quantity : Int}

theorem listOpenPositionLots_updateLot {lot updated : Lot}
    (hlots : s.listOpenPositionLots key = lot :: lots) (hid : updated.lotId = lot.lotId)
    (hkey : updated.key = lot.key) (other : PositionKey) :
    (s.updateLot updated).listOpenPositionLots other = if other = key then
        if 0 < updated.remainingQuantity then updated :: lots else lots
      else s.listOpenPositionLots other := by
  have hconsumable := hlots ▸ consumable_listOpenPositionLots s key
  obtain ⟨hstored, hlotKey, hopen⟩ := hconsumable.head
  split
  · next heq =>
    subst heq
    have hfilter := filter_upsertRows s.lots.unique hid.symm hlots
    rw [Store.listOpenPositionLots, Store.updateLot, upsert, hfilter]
    simp [hkey, hlotKey]
  · next hne =>
    refine filter_upsertRows_of_skipped ?_ fun row hrow hrowId => ?_
    · have hother : updated.key ≠ other := fun h => hne (by rw [← h, hkey, hlotKey])
      simp [hother]
    · have hsame : row = lot := by
        have hget := mem_rows_iff.mp hrow
        rw [hrowId, hid, hstored] at hget
        exact (Option.some.inj hget).symm
      have hother : row.key ≠ other := fun h => hne (by rw [← h, hsame, hlotKey])
      simp [hother]

theorem listOpenPositionLots_consumeLotsUow (hlots : s.listOpenPositionLots key = lots)
    (other : PositionKey) :
    (consumeLotsUow lots quantity s).listOpenPositionLots other =
      if other = key then drain lots quantity else s.listOpenPositionLots other := by
  induction lots generalizing quantity s with
  | nil =>
    rw [consumeLotsUow, drain]
    split
    · next heq => rw [heq, hlots]
    · rfl
  | cons lot lots ih =>
    have hconsumable := hlots ▸ consumable_listOpenPositionLots s key
    obtain ⟨hstored, hlotKey, hopen⟩ := hconsumable.head
    rw [consumeLotsUow, drain]
    split
    · split
      · next heq => rw [heq, hlots]
      · rfl
    · rw [if_neg (by omega)]
      have hid : (lot.consume quantity).1.lotId = lot.lotId := rfl
      have hlisted := listOpenPositionLots_updateLot hlots hid rfl
      by_cases hless : quantity < lot.remainingQuantity
      · -- The lot is left open, and nothing remains to be consumed.
        have hmin : min lot.remainingQuantity quantity = quantity := by omega
        have hdone : (lot.consume quantity).2 = 0 := by
          rw [Lot.consume, hmin]
          exact sub_self quantity
        have hleft : (lot.consume quantity).1 =
            { lot with remainingQuantity := lot.remainingQuantity - quantity } := by
          rw [Lot.consume, hmin]
        have hstop : consumeLotsUow lots 0 (s.updateLot (lot.consume quantity).1) =
            s.updateLot (lot.consume quantity).1 := by
          cases lots with
          | nil => rfl
          | cons next lots => rw [consumeLotsUow, if_pos le_rfl]
        have hopened : 0 < (lot.consume quantity).1.remainingQuantity := by
          rw [hleft]
          exact sub_pos.mpr hless
        rw [hdone, hstop, hlisted, if_pos hopened, if_pos hless, hleft]
      · have hmin : min lot.remainingQuantity quantity = lot.remainingQuantity := by omega
        have hdone : (lot.consume quantity).2 = quantity - lot.remainingQuantity := by
          rw [Lot.consume, hmin]
        have hclosed : ¬0 < (lot.consume quantity).1.remainingQuantity := by
          rw [Lot.consume, hmin]
          simp
        have hnext : (s.updateLot (lot.consume quantity).1).listOpenPositionLots key = lots := by
          rw [hlisted, if_pos rfl, if_neg hclosed]
        rw [hdone, ih hnext, if_neg hless, hlisted, if_neg hclosed]
        split
        · rfl
        · rfl

theorem get?_consumeLotsUow (hconsumable : Consumable s key lots) {id : Nat} (strategy : String)
    (hid : ∀ row, s.lots.get? id = some row → row.isOf strategy = false)
    (hquantity : quantity ≤ frontOf strategy lots) :
    (consumeLotsUow lots quantity s).lots.get? id = s.lots.get? id := by
  induction lots generalizing quantity s with
  | nil => rfl
  | cons lot lots ih =>
    obtain ⟨hstored, -, hopen⟩ := hconsumable.head
    rw [consumeLotsUow]
    split
    · rfl
    · rw [if_neg (by omega)]
      rw [frontOf_cons] at hquantity
      split at hquantity
      · next hown =>
        have hne : lot.lotId ≠ id := by
          intro heq
          have hforeign := hid lot (heq ▸ hstored)
          rw [hown] at hforeign
          cases hforeign
        have hkept : (s.updateLot (lot.consume quantity).1).lots.get? id = s.lots.get? id := by
          rw [Store.updateLot, get?_upsert_of_ne (show (lot.consume quantity).1.lotId ≠ id from hne)]
        have hfront : 0 ≤ frontOf strategy lots := frontOf_nonneg fun other hother =>
          hconsumable.isOpen other (mem_cons_of_mem lot hother)
        have htail : Consumable (s.updateLot (lot.consume quantity).1) key lots :=
          hconsumable.tail rfl
        have hrest : (lot.consume quantity).2 ≤ frontOf strategy lots := by
          simp only [Lot.consume]
          omega
        rw [← hkept] at hid
        exact (ih htail hid hrest).trans hkept
      · omega

end Service

/-! ## fills one after another -/

def Store.LotsDrawn (s : Store) : Prop := ∀ lot ∈ s.lots.rows, lot.lotId < s.clock

/-- What the strategy's lots hold that come first in a position. -/
def Store.frontQuantity (s : Store) (key : PositionKey) (strategy : String) : Int :=
  frontOf strategy (s.listOpenPositionLots key)

/-- Same lots, and no fewer identifiers drawn. -/
structure Store.SameLots (s s' : Store) : Prop where
  lots : s'.lots = s.lots
  clock : s.clock ≤ s'.clock

/-- `s'` has the lots that the fills of the orders leave, one after another. -/
inductive Attributed : List Order → Store → Store → Prop
  | done {s s' : Store} (h : s.SameLots s') : Attributed [] s s'
  | filled {s s₀ s' : Store} {order : Order} {orders : List Order} {tradeId : Nat} {price : ℚ}
      (hsame : s.SameLots s₀) (hrest : Attributed orders (Service.attributeLotsUow order tradeId price s₀) s') :
      Attributed (order :: orders) s s'

theorem Store.SameLots.refl (s : Store) : s.SameLots s := ⟨rfl, le_rfl⟩

theorem Store.SameLots.trans {s s' s'' : Store} (h : s.SameLots s') (h' : s'.SameLots s'') :
    s.SameLots s'' :=
  ⟨h'.lots.trans h.lots, h.clock.trans h'.clock⟩

theorem Store.SameLots.drawn {s s' : Store} (h : s.SameLots s') (hs : s.LotsDrawn) : s'.LotsDrawn := by
  intro lot hlot
  rw [h.lots] at hlot
  exact lt_of_lt_of_le (hs lot hlot) h.clock

theorem Store.SameLots.listing {s s' : Store} (h : s.SameLots s') (key : PositionKey) :
    s'.listOpenPositionLots key = s.listOpenPositionLots key := by
  rw [Store.listOpenPositionLots, h.lots, Store.listOpenPositionLots]

theorem Attributed.before {s s₀ s' : Store} {orders : List Order} (hsame : s.SameLots s₀)
    (h : Attributed orders s₀ s') : Attributed orders s s' := by
  cases h with
  | done h => exact .done (hsame.trans h)
  | filled h hrest => exact .filled (hsame.trans h) hrest

theorem Attributed.append {s s' s'' : Store} {orders more : List Order} (h : Attributed orders s s')
    (hmore : Attributed more s' s'') : Attributed (orders ++ more) s s'' := by
  induction h with
  | done h => exact hmore.before h
  | filled h _ ih => exact .filled h (ih hmore)

theorem Service.drawn_attributeLotsUow {s : Store} (hs : s.LotsDrawn) (order : Order) (tradeId : Nat)
    (price : ℚ) : (attributeLotsUow order tradeId price s).LotsDrawn ∧
      s.clock ≤ (attributeLotsUow order tradeId price s).clock := by
  unfold attributeLotsUow
  cases order.side with
  | buy =>
    refine ⟨fun lot hlot => ?_, Nat.le_succ _⟩
    rcases mem_rows_upsert hlot with rfl | ⟨hold, -⟩
    · exact Nat.lt_succ_self _
    · exact Nat.lt_succ_of_lt (hs lot hold)
  | sell =>
    simp only [consumePositionLotsUow]
    split
    · exact ⟨hs, le_rfl⟩
    · rw [consumeLotsUow_rest]
      have hordered := (consumable_listOpenPositionLots s order.key).ordered
        (textAt order.attribution "exit_for") (textAt order.attribution "exit_for").isSome
      exact ⟨consumeLotsUow_rows (fun lot left hlot _ _ => hlot) hordered hs _, le_rfl⟩

theorem Attributed.drawn {s s' : Store} {orders : List Order} (h : Attributed orders s s')
    (hs : s.LotsDrawn) : s'.LotsDrawn ∧ s.clock ≤ s'.clock := by
  induction h with
  | done h => exact ⟨h.drawn hs, h.clock⟩
  | @filled _ s₀ _ order _ tradeId price hsame _ ih =>
    obtain ⟨hdrawn, hclock⟩ := Service.drawn_attributeLotsUow (hsame.drawn hs) order tradeId price
    obtain ⟨hlast, hmore⟩ := ih hdrawn
    exact ⟨hlast, hsame.clock.trans (hclock.trans hmore)⟩

/-! ## what the fills of an exit take -/

def Order.sells (order : Order) (key : PositionKey) : Int :=
  if order.side = .sell ∧ order.key = key then order.quantity else 0

/-- An exit order as its fill reads it: the strategy's, without `exit_for`. -/
structure Order.Exits (order : Order) (strategy : String) : Prop where
  own : strategyIdentity order.attribution = some strategy
  unmarked : textAt order.attribution "exit_for" = none

namespace Service

variable {s : Store} {order : Order} {strategy : String} (tradeId : Nat) (price : ℚ)

theorem attributeLotsUow_sell (hexits : order.Exits strategy) (hside : order.side = .sell) :
    attributeLotsUow order tradeId price s =
      consumeLotsUow (s.listOpenPositionLots order.key) order.quantity s := by
  have hpos := order.quantity_pos
  have hmax : max 0 order.quantity = order.quantity := max_eq_right hpos.le
  rw [attributeLotsUow, hside, hexits.unmarked]
  show (if max 0 order.quantity ≤ 0 then s
    else consumeLotsUow (s.listOpenPositionLots order.key) (max 0 order.quantity) s) = _
  rw [hmax, if_neg (by omega)]

theorem strategyQuantity_buy (hexits : order.Exits strategy) (hside : order.side = .buy)
    (hs : s.LotsDrawn) (key : PositionKey) :
    (attributeLotsUow order tradeId price s).strategyQuantity key strategy =
      s.strategyQuantity key strategy + if order.key = key then order.quantity else 0 := by
  have hfresh : s.lots.get? s.clock = none := by
    cases hget : s.lots.get? s.clock with
    | none => rfl
    | some lot =>
      have hid : lot.lotId = s.clock := key_of_get? hget
      have hdrawn := hs lot (mem_rows_of_get? hget)
      omega
  have hrows : (attributeLotsUow order tradeId price s).lots.rows =
      s.lots.rows ++ [{ order.lot tradeId price with lotId := s.clock }] := by
    rw [attributeLotsUow, hside]
    exact rows_upsert_of_fresh hfresh
  rw [Store.strategyQuantity, Store.strategyQuantity, Store.listOpenPositionLots, hrows,
    Store.listOpenPositionLots, filter_append, filter_append, remainingOf, map_append,
    sum_append]
  congr 1
  by_cases hkey : order.key = key
  · have hlisted : ({ order.lot tradeId price with lotId := s.clock } : Lot).key = key := hkey
    have hopen : 0 < ({ order.lot tradeId price with lotId := s.clock } : Lot).remainingQuantity :=
      order.quantity_pos
    have hown : strategyIdentity ({ order.lot tradeId price with lotId := s.clock } : Lot).attribution =
        some strategy := hexits.own
    rw [filter_singleton, hlisted, if_pos hkey]
    simp only [decide_true, Bool.true_and, hopen, cond_true]
    rw [filter_singleton, hown]
    simp only [decide_true, cond_true, map_singleton, sum_singleton]
    rfl
  · have hother : ({ order.lot tradeId price with lotId := s.clock } : Lot).key ≠ key := hkey
    rw [filter_singleton, if_neg hkey]
    simp [hother]

theorem listOpenPositionLots_sell (hexits : order.Exits strategy) (hside : order.side = .sell)
    (key : PositionKey) :
    (attributeLotsUow order tradeId price s).listOpenPositionLots key =
      if key = order.key then drain (s.listOpenPositionLots order.key) order.quantity
      else s.listOpenPositionLots key := by
  rw [attributeLotsUow_sell tradeId price hexits hside]
  exact listOpenPositionLots_consumeLotsUow rfl key

theorem strategyQuantity_attribute_ge (hexits : order.Exits strategy) (hs : s.LotsDrawn)
    (key : PositionKey) :
    s.strategyQuantity key strategy - order.sells key ≤
      (attributeLotsUow order tradeId price s).strategyQuantity key strategy := by
  have hpos := order.quantity_pos
  cases hside : order.side with
  | buy =>
    rw [strategyQuantity_buy tradeId price hexits hside hs, Order.sells, hside,
      if_neg fun h => by cases h.1]
    split <;> omega
  | sell =>
    show _ ≤ ownOf strategy ((attributeLotsUow order tradeId price s).listOpenPositionLots key)
    rw [listOpenPositionLots_sell tradeId price hexits hside, Order.sells, hside]
    by_cases hkey : key = order.key
    · subst hkey
      rw [if_pos rfl, if_pos ⟨rfl, rfl⟩]
      exact ownOf_drain_ge (consumable_listOpenPositionLots s order.key).isOpen hpos.le
    · rw [if_neg hkey, if_neg fun h => hkey h.2.symm, sub_zero]
      exact le_rfl

/-- What an exit leaves of the lots of others. -/
structure OthersKept (strategy : String) (s s' : Store) : Prop where
  rows : ∀ id row, s.lots.get? id = some row → row.isOf strategy = false → s'.lots.get? id = some row
  listed : ∀ key, (s'.listOpenPositionLots key).filter (fun lot => !lot.isOf strategy) =
    (s.listOpenPositionLots key).filter fun lot => !lot.isOf strategy

theorem OthersKept.of_same {s' : Store} (h : s.SameLots s') : OthersKept strategy s s' :=
  ⟨fun id row hrow _ => by rw [h.lots]; exact hrow, fun key => by rw [h.listing]⟩

theorem OthersKept.trans {s' s'' : Store} (h : OthersKept strategy s s')
    (h' : OthersKept strategy s' s'') : OthersKept strategy s s'' :=
  ⟨fun id row hrow hother => h'.rows id row (h.rows id row hrow hother) hother,
    fun key => (h'.listed key).trans (h.listed key)⟩

theorem attribute_of_front (hexits : order.Exits strategy) (hside : order.side = .sell)
    (hfront : order.quantity ≤ s.frontQuantity order.key strategy) :
    OthersKept strategy s (attributeLotsUow order tradeId price s) ∧
      ∀ key, (attributeLotsUow order tradeId price s).strategyQuantity key strategy =
          s.strategyQuantity key strategy - order.sells key ∧
        (attributeLotsUow order tradeId price s).frontQuantity key strategy =
          s.frontQuantity key strategy - order.sells key := by
  have hpos := order.quantity_pos
  have hconsumable := consumable_listOpenPositionLots s order.key
  obtain ⟨hown, hfirst, hothers⟩ := drain_front hconsumable.isOpen hpos.le hfront
  have hlisting : ∀ key, (attributeLotsUow order tradeId price s).listOpenPositionLots key =
      if key = order.key then drain (s.listOpenPositionLots order.key) order.quantity
      else s.listOpenPositionLots key :=
    listOpenPositionLots_sell tradeId price hexits hside
  refine ⟨⟨fun id row hrow hother => ?_, fun key => ?_⟩, fun key => ?_⟩
  · rw [attributeLotsUow_sell tradeId price hexits hside, get?_consumeLotsUow hconsumable strategy _ hfront]
    · exact hrow
    · intro row' hrow'
      rw [hrow] at hrow'
      exact Option.some.inj hrow' ▸ hother
  · rw [hlisting]
    split
    · next hkey => rw [hothers, hkey]
    · rfl
  · show ownOf strategy ((attributeLotsUow order tradeId price s).listOpenPositionLots key) = _ ∧
      frontOf strategy ((attributeLotsUow order tradeId price s).listOpenPositionLots key) = _
    rw [hlisting, Order.sells, hside]
    by_cases hkey : key = order.key
    · subst hkey
      rw [if_pos rfl, if_pos ⟨rfl, rfl⟩]
      exact ⟨hown, hfirst⟩
    · rw [if_neg hkey, if_neg fun h => hkey h.2.symm, sub_zero, sub_zero]
      exact ⟨rfl, rfl⟩

theorem front_of_attribute (hexits : order.Exits strategy) (hs : s.LotsDrawn)
    (hown : (attributeLotsUow order tradeId price s).strategyQuantity order.key strategy =
      s.strategyQuantity order.key strategy - order.sells order.key) :
    order.side = .sell ∧ order.quantity ≤ s.frontQuantity order.key strategy := by
  have hpos := order.quantity_pos
  cases hside : order.side with
  | buy =>
    rw [strategyQuantity_buy tradeId price hexits hside hs, Order.sells, hside, if_pos rfl,
      if_neg fun h => by cases h.1] at hown
    omega
  | sell =>
    refine ⟨rfl, ?_⟩
    rw [Order.sells, hside, if_pos ⟨rfl, rfl⟩] at hown
    change ownOf strategy ((attributeLotsUow order tradeId price s).listOpenPositionLots order.key) =
      ownOf strategy (s.listOpenPositionLots order.key) - order.quantity at hown
    rw [listOpenPositionLots_sell tradeId price hexits hside, if_pos rfl] at hown
    exact front_of_drain (consumable_listOpenPositionLots s order.key).isOpen hpos.le hown

end Service

/-- What orders sell of a position together. -/
def soldBy (orders : List Order) (key : PositionKey) : Int :=
  (orders.map fun order => order.sells key).sum

/-- The orders sell only, and the strategy's lots come first for all that they sell. -/
structure Covers (strategy : String) (orders : List Order) (s : Store) : Prop where
  sells : ∀ order ∈ orders, order.side = .sell
  front : ∀ key, soldBy orders key ≤ s.frontQuantity key strategy

section Fills

variable {s s' : Store} {strategy : String} {orders : List Order}

theorem Order.sells_nonneg (order : Order) (key : PositionKey) : 0 ≤ order.sells key := by
  have hpos := order.quantity_pos
  unfold Order.sells
  split <;> omega

theorem soldBy_nonneg (orders : List Order) (key : PositionKey) : 0 ≤ soldBy orders key :=
  sum_nonneg fun quantity hquantity => by
    obtain ⟨order, -, rfl⟩ := mem_map.mp hquantity
    exact order.sells_nonneg key

theorem soldBy_cons (order : Order) (orders : List Order) (key : PositionKey) :
    soldBy (order :: orders) key = order.sells key + soldBy orders key := rfl

theorem Store.SameLots.quantities (h : s.SameLots s') (key : PositionKey) :
    s'.strategyQuantity key strategy = s.strategyQuantity key strategy ∧
      s'.frontQuantity key strategy = s.frontQuantity key strategy := by
  rw [Store.strategyQuantity, Store.frontQuantity, h.listing]
  exact ⟨rfl, rfl⟩

theorem Attributed.strategyQuantity_ge (h : Attributed orders s s') (hs : s.LotsDrawn)
    (hexits : ∀ order ∈ orders, order.Exits strategy) (key : PositionKey) :
    s.strategyQuantity key strategy - soldBy orders key ≤ s'.strategyQuantity key strategy := by
  induction h with
  | done h =>
    rw [(h.quantities key).1]
    exact sub_le_self _ (soldBy_nonneg [] key)
  | @filled s s₀ s' order orders tradeId price hsame hrest ih =>
    have hs₀ := hsame.drawn hs
    have hstep := Service.strategyQuantity_attribute_ge tradeId price
      (hexits order (.head _)) hs₀ key
    have hlater := ih (Service.drawn_attributeLotsUow hs₀ order tradeId price).1
      fun other hother => hexits other (mem_cons_of_mem order hother)
    rw [(hsame.quantities key).1] at hstep
    rw [soldBy_cons]
    omega

theorem Attributed.of_covers (h : Attributed orders s s')
    (hexits : ∀ order ∈ orders, order.Exits strategy) (hcovers : Covers strategy orders s) :
    Service.OthersKept strategy s s' ∧
      ∀ key, s'.strategyQuantity key strategy = s.strategyQuantity key strategy - soldBy orders key := by
  induction h with
  | done h =>
    refine ⟨.of_same h, fun key => ?_⟩
    rw [(h.quantities key).1]
    exact (sub_zero _).symm
  | @filled s s₀ s' order orders tradeId price hsame hrest ih =>
    have hmine := hexits order (.head _)
    have hside := hcovers.sells order (.head _)
    have hfront : order.quantity ≤ s₀.frontQuantity order.key strategy := by
      have hall := hcovers.front order.key
      have hlater := soldBy_nonneg orders order.key
      rw [soldBy_cons, Order.sells, hside, if_pos ⟨rfl, rfl⟩] at hall
      rw [(hsame.quantities order.key).2]
      omega
    obtain ⟨hkept, hquantities⟩ := Service.attribute_of_front tradeId price hmine hside hfront
    obtain ⟨hothers, howned⟩ := ih (fun other hother => hexits other (mem_cons_of_mem order hother))
      ⟨fun other hother => hcovers.sells other (mem_cons_of_mem order hother), fun key => by
        have hall := hcovers.front key
        rw [soldBy_cons] at hall
        rw [(hquantities key).2, (hsame.quantities key).2]
        omega⟩
    refine ⟨(Service.OthersKept.of_same hsame).trans (hkept.trans hothers), fun key => ?_⟩
    rw [howned, (hquantities key).1, (hsame.quantities key).1, soldBy_cons]
    omega

theorem Attributed.covers (h : Attributed orders s s') (hs : s.LotsDrawn)
    (hexits : ∀ order ∈ orders, order.Exits strategy)
    (hown : ∀ key, s'.strategyQuantity key strategy =
      s.strategyQuantity key strategy - soldBy orders key) : Covers strategy orders s := by
  induction h with
  | @done s s' h =>
    refine ⟨fun order horder => (not_mem_nil horder).elim, fun key => ?_⟩
    exact frontOf_nonneg (Service.consumable_listOpenPositionLots s key).isOpen
  | @filled s s₀ s' order orders tradeId price hsame hrest ih =>
    have hs₀ := hsame.drawn hs
    have hmine := hexits order (.head _)
    have hlater : ∀ other ∈ orders, other.Exits strategy := fun other hother =>
      hexits other (mem_cons_of_mem order hother)
    have hs₁ := (Service.drawn_attributeLotsUow hs₀ order tradeId price).1
    -- Neither the first fill nor the later ones can take less than they sell.
    have hexact : ∀ key, (Service.attributeLotsUow order tradeId price s₀).strategyQuantity key
          strategy = s₀.strategyQuantity key strategy - order.sells key ∧
        s'.strategyQuantity key strategy =
          (Service.attributeLotsUow order tradeId price s₀).strategyQuantity key strategy -
            soldBy orders key := by
      intro key
      have hfirst := Service.strategyQuantity_attribute_ge tradeId price hmine hs₀ key
      have hrest := hrest.strategyQuantity_ge hs₁ hlater key
      have hall := hown key
      rw [soldBy_cons, ← (hsame.quantities key).1] at hall
      omega
    obtain ⟨hside, hfront⟩ := Service.front_of_attribute tradeId price hmine hs₀ (hexact order.key).1
    obtain ⟨-, hquantities⟩ := Service.attribute_of_front tradeId price hmine hside hfront
    have hcovers := ih hs₁ hlater fun key => (hexact key).2
    refine ⟨fun other hother => ?_, fun key => ?_⟩
    · rcases mem_cons.mp hother with rfl | hother
      · exact hside
      · exact hcovers.sells other hother
    · have hrest := hcovers.front key
      rw [(hquantities key).2, (hsame.quantities key).2] at hrest
      rw [soldBy_cons]
      omega

end Fills

/-! ## the legs of a basket -/

def Service.Leg.key (scope : Scope) (leg : Service.Leg) : PositionKey :=
  ⟨scope, leg.instrument.instrumentToken, leg.request.product⟩

structure Order.Places (order : Order) (scope : Scope) (leg : Service.Leg) : Prop where
  key : order.key = leg.key scope
  quantity : order.quantity = leg.request.quantity
  side : sideOf? leg.request.transactionType = some order.side
  attribution : order.attribution = leg.attribution

def Service.Leg.sells (scope : Scope) (key : PositionKey) (leg : Service.Leg) : Int :=
  if leg.request.transactionType = "SELL" ∧ leg.key scope = key then leg.request.quantity else 0

def Placed.sells (key : PositionKey) : Placed → Int
  | .filled order _ _ => order.sells key
  | .accepted _ | .rejected _ _ => 0

theorem sideOf?_eq_sell {transactionType : String} {side : Side} (h : sideOf? transactionType = some side) :
    transactionType = "SELL" ↔ side = .sell := by
  rw [transactionType_of_sideOf? h]
  cases side <;> decide

theorem Order.Places.sells {order : Order} {scope : Scope} {leg : Service.Leg}
    (h : order.Places scope leg) (key : PositionKey) : leg.sells scope key = order.sells key := by
  rw [Service.Leg.sells, Order.sells, h.key, h.quantity]
  simp only [sideOf?_eq_sell h.side]

namespace Service

variable {svc : Service} {s s' : Store} {scope : Scope} {account account' : Account}
  {order : Order} {leg : Leg} {legs : List Leg} {result : Placed} {results : List Placed}

theorem sameLots_updateOrder (s : Store) (order : Order) : s.SameLots (s.updateOrder order) :=
  ⟨Store.updateOrder_lots s order, (Store.updateOrder_clock s order).ge⟩

theorem sameLots_applyAccountDeltaUow (account : Account) (delta : ℚ) (orderId : Nat) (s : Store) :
    s.SameLots (applyAccountDeltaUow account delta orderId s).2 := by
  unfold applyAccountDeltaUow
  split
  · exact .refl s
  · exact ⟨rfl, le_rfl⟩

theorem sameLots_applyCashDeltaUow (account : Account) (delta : ℚ) (entryType : EntryType)
    (orderId : Nat) (notes : String) (s : Store) :
    s.SameLots (applyCashDeltaUow account delta entryType orderId notes s).2 := by
  unfold applyCashDeltaUow
  split
  · exact .refl s
  · exact ⟨rfl, le_rfl⟩

theorem sameLots_settleFundsUow (order : Order) (account : Account) (plan : FillPlan) (s : Store) :
    s.SameLots (settleFundsUow order account plan s).2 := by
  have hadjust : s.SameLots (if plan.adjustment ≠ 0 then
      applyAccountDeltaUow account plan.adjustment order.orderId s else (account, s)).2 := by
    split
    · exact sameLots_applyAccountDeltaUow account plan.adjustment order.orderId s
    · exact .refl s
  rw [settleFundsUow]
  generalize (if plan.adjustment ≠ 0 then
    applyAccountDeltaUow account plan.adjustment order.orderId s else (account, s)) = adjusted
    at hadjust ⊢
  have hcharged := hadjust.trans (sameLots_applyCashDeltaUow adjusted.1 (-order.estimatedCharges)
    .debit order.orderId "paper_trade_charges" adjusted.2)
  simp only
  split
  · exact (hcharged.trans (sameLots_applyCashDeltaUow _ _ _ _ _ _)).trans ⟨rfl, le_rfl⟩
  · exact hcharged

theorem sameLots_persistUow (order : Order) (request : Request) (snapshot : Snapshot) (s : Store) :
    s.SameLots (persistStopLimitTriggerStateUow order request snapshot s).2 := by
  unfold persistStopLimitTriggerStateUow
  split
  · exact .refl s
  · split
    · exact .refl s
    · split
      · exact .refl s
      · exact sameLots_updateOrder s order.stopped

theorem attributed_recordFillUow (order : Order) (price : ℚ) (plan : FillPlan) (s : Store) :
    Attributed [order] s (recordFillUow order price plan s).2 := by
  have htraded : s.SameLots
      ((s.updateOrder (order.completed price)).insertTrade (order.trade price)).2 :=
    (sameLots_updateOrder s (order.completed price)).trans ⟨rfl, Nat.le_succ _⟩
  exact .filled htraded (.done ⟨rfl, Nat.le_succ _⟩)

variable {attribution : Attribution} {request : Request}

theorem isRejected_buildRejectedResult {reason : String}
    (h : buildRejectedResult scope request attribution reason = .ok result) :
    result.isRejected := by
  unfold buildRejectedResult at h
  cases hrejected : rejectedOrder scope request attribution reason with
  | error failure =>
    rw [hrejected] at h
    cases h
  | ok order =>
    rw [hrejected] at h
    cases h
    rfl

variable {existing : Option Position}

theorem fillOrderUow_lots {instrument : Instrument} {price : ℚ}
    (h : svc.fillOrderUow order account request instrument price existing s =
      .ok ((result, account'), s')) :
    result.isRejected ∧ s.SameLots s' ∨
      (∃ trade position, result = .filled (order.completed price) trade position) ∧
        Attributed [order] s s' := by
  unfold fillOrderUow at h
  simp only at h
  split at h
  · left
    cases hrejected : buildRejectedResult order.scope request order.attribution fillRejection with
    | error failure =>
      rw [hrejected] at h
      cases h
    | ok answer =>
      rw [hrejected] at h
      cases h
      exact ⟨isRejected_buildRejectedResult hrejected, .refl s⟩
  · right
    cases h
    exact ⟨⟨_, _, rfl⟩, (attributed_recordFillUow order price _ _).before
      (sameLots_settleFundsUow order account _ s)⟩

def LegLots (scope : Scope) (leg : Leg) (result : Placed) (s s' : Store) : Prop :=
  s.SameLots s' ∧ (result.isRejected = true ∨ shouldFillImmediately leg.request leg.snapshot = false) ∨
    ∃ order price trade position, result = .filled (Order.completed order price) trade position ∧
      order.Places scope leg ∧ Attributed [order] s s'

theorem places_persistUow (hplaces : order.Places scope leg) (s : Store) :
    (persistStopLimitTriggerStateUow order leg.request leg.snapshot s).1.Places scope leg := by
  unfold persistStopLimitTriggerStateUow
  repeat' split
  all_goals exact ⟨hplaces.key, hplaces.quantity, hplaces.side, hplaces.attribution⟩

theorem bookOrderUow_lots {reference : ℚ} (hplaces : order.Places scope leg)
    (h : svc.bookOrderUow order account leg existing reference s = .ok ((result, account'), s')) :
    LegLots scope leg result s s' := by
  have hinserted : s.SameLots (s.insertOrder order).2 := ⟨rfl, Nat.le_succ _⟩
  have hreserved := hinserted.trans (sameLots_applyAccountDeltaUow account
    (s.insertOrder order).1.reservedMargin (s.insertOrder order).1.orderId (s.insertOrder order).2)
  have hpersisted := hreserved.trans (sameLots_persistUow (s.insertOrder order).1 leg.request
    leg.snapshot _)
  have hplaced : (s.insertOrder order).1.Places scope leg :=
    ⟨hplaces.key, hplaces.quantity, hplaces.side, hplaces.attribution⟩
  have hstopped := places_persistUow hplaced
    (applyAccountDeltaUow account (s.insertOrder order).1.reservedMargin
      (s.insertOrder order).1.orderId (s.insertOrder order).2).2
  unfold bookOrderUow at h
  simp only at h
  split at h
  · next hwaits =>
    cases h
    exact .inl ⟨hpersisted.trans (sameLots_updateOrder _ _), .inr (by simpa using hwaits)⟩
  · obtain ⟨hrejected, hsame⟩ | ⟨⟨trade, position, hresult⟩, hattributed⟩ := fillOrderUow_lots h
    · exact .inl ⟨hpersisted.trans hsame, .inl hrejected⟩
    · exact .inr ⟨_, _, trade, position, hresult, hstopped, hattributed.before hpersisted⟩

theorem placeOrderLockedUow_lots
    (h : svc.placeOrderLockedUow scope account leg s = .ok ((result, account'), s')) :
    LegLots scope leg result s s' := by
  unfold placeOrderLockedUow at h
  simp only at h
  split at h
  · next reason hscreened =>
    cases hrejected : buildRejectedResult scope leg.request leg.attribution reason with
    | error failure =>
      rw [hrejected] at h
      cases h
    | ok answer =>
      rw [hrejected] at h
      cases h
      exact .inl ⟨.refl s, .inl (isRejected_buildRejectedResult hrejected)⟩
  · split at h
    · cases h
    · next order haccepted =>
      obtain ⟨side, orderType, hside, -, rfl⟩ := acceptedOrder_eq haccepted
      exact bookOrderUow_lots ⟨rfl, rfl, hside, rfl⟩ h

theorem placeLegsUow_lots (h : svc.placeLegsUow scope legs account s = .ok (results, s')) :
    ∃ orders, Attributed orders s s' ∧
      ((∀ leg ∈ legs, shouldFillImmediately leg.request leg.snapshot) →
        List.Forall₂ (fun order leg => order.Places scope leg) orders legs ∧
          ∀ key, (results.map (Placed.sells key)).sum = soldBy orders key) := by
  induction legs generalizing account s results with
  | nil =>
    rw [placeLegsUow] at h
    cases h
    exact ⟨[], .done (.refl _), fun _ => ⟨.nil, fun key => rfl⟩⟩
  | cons leg legs ih =>
    rw [placeLegsUow] at h
    split at h
    · cases h
    · next result account' s₁ hleg =>
      split at h
      · cases h
      · next hnotRejected =>
        cases hlegs : svc.placeLegsUow scope legs account' s₁ with
        | error abort =>
          rw [hlegs] at h
          cases h
        | ok rest =>
          rw [hlegs] at h
          cases h
          obtain ⟨orders, hattributed, hfilled⟩ := ih hlegs
          obtain ⟨hsame, hwhy⟩ | ⟨order, price, trade, position, rfl, hplaces, hone⟩ :=
            placeOrderLockedUow_lots hleg
          · refine ⟨orders, hattributed.before hsame, fun himmediate => ?_⟩
            rcases hwhy with hrejected | hwaits
            · exact absurd hrejected hnotRejected
            · rw [himmediate leg mem_cons_self] at hwaits
              cases hwaits
          · refine ⟨order :: orders, hone.append hattributed, fun himmediate => ?_⟩
            obtain ⟨hall, hsold⟩ := hfilled fun other hother =>
              himmediate other (mem_cons_of_mem leg hother)
            refine ⟨.cons hplaces hall, fun key => ?_⟩
            rw [map_cons, sum_cons, hsold, soldBy_cons]
            rfl

theorem sameLots_of_start {opened : Account}
    (h : s.accounts.get? scope ≠ none ∧ s' = s ∨
      s.accounts.get? scope = none ∧ s' = s.upsertAccount opened) : s.SameLots s' := by
  rcases h with ⟨-, rfl⟩ | ⟨-, rfl⟩
  · exact .refl s'
  · exact ⟨rfl, le_rfl⟩

theorem prepareLegs_ok {market : Nat → Int → Snapshot} {index : Nat} {payloads : List OrderPayload}
    (h : svc.prepareLegs scope attribution market index payloads = .ok legs) :
    ∀ leg ∈ legs, ∃ payload ∈ payloads, normalizeOrderRequest svc.upper payload = .ok leg.request ∧
      leg.attribution = mergedAttribution attribution payload.metadata := by
  induction payloads generalizing index legs with
  | nil =>
    cases h
    intro leg hleg
    cases hleg
  | cons payload payloads ih =>
    rw [prepareLegs] at h
    split at h
    · cases h
    · next request hrequest =>
      split at h
      · split at h
        · cases h
        · cases h
      · next instrument _ =>
        cases hrest : svc.prepareLegs scope attribution market (index + 1) payloads with
        | error abort =>
          rw [hrest] at h
          cases h
        | ok rest =>
          rw [hrest] at h
          cases h
          intro leg hleg
          rcases mem_cons.mp hleg with rfl | hleg
          · refine ⟨payload, (.head _), hrequest, ?_⟩
            dsimp only
          · obtain ⟨other, hother, hkept⟩ := ih hrest leg hleg
            exact ⟨other, mem_cons_of_mem payload hother, hkept⟩

theorem orderType_of_normalize {upper : String → String} {payload : OrderPayload}
    (h : normalizeOrderRequest upper payload = .ok request) :
    request.orderType = upper (payload.orderType.getD "") := by
  unfold normalizeOrderRequest at h
  simp only at h
  repeat' split at h
  all_goals first | (cases h; done) | (cases h; rfl)

end Service

/-! ## the orders of an exit -/

theorem exitAttribution_get? (strategy : String) (strategyTag algoInstanceId : Option String) :
    (exitAttribution strategy strategyTag algoInstanceId).get? "strategy_run_id" = some strategy ∧
      (exitAttribution strategy strategyTag algoInstanceId).get? "exit_for" = none := by
  cases strategyTag <;> cases algoInstanceId <;> exact ⟨rfl, rfl⟩

theorem mergedAttribution_exit {attribution : Attribution} {strategy : String}
    (hstrategy : strategy ≠ "") (hrun : attribution.get? "strategy_run_id" = some strategy)
    (hmark : attribution.get? "exit_for" = none) (metadata : Attribution) :
    (mergedAttribution attribution metadata).get? "strategy_run_id" = some strategy ∧
      (mergedAttribution attribution metadata).get? "exit_for" = none := by
  constructor
  · rw [get?_mergedAttribution, if_neg, hrun]
    rintro ⟨-, hmissing, -⟩
    rw [hrun] at hmissing
    simp [missing, hstrategy] at hmissing
  · rw [get?_mergedAttribution, if_neg, hmark]
    rintro ⟨hkey, -, -⟩
    revert hkey
    decide

namespace Service

open Repository

variable (svc : Service) (scope : Scope) (strategyId : String) (newest : List Attribution → Nat)
  (market : Nat → Int → Snapshot)

theorem readOnly_getRunState (strategy : String) : (getRunState scope strategy).ReadOnly :=
  .bind (readOnly_read _ _) fun _ => .bind (readOnly_read _ _) fun _ =>
    .bind (readOnly_read _ _) fun _ => trivial

theorem readOnly_legacyPositions (strategy : String) (orders : List Order) (trades : List Trade)
    (positions : List Position) :
    (legacyPositions newest strategy orders trades positions).ReadOnly := by
  induction positions with
  | nil => trivial
  | cons position positions ih =>
    refine .bind (readOnly_read _ _) fun lots => .bind ih fun rest => ?_
    split
    · trivial
    · trivial

theorem readOnly_resolveStrategyExitLotAmbiguity (strategy : String) (positions : List ExitPosition) :
    (resolveStrategyExitLotAmbiguity scope strategy positions).ReadOnly := by
  induction positions with
  | nil => trivial
  | cons position positions ih =>
    unfold resolveStrategyExitLotAmbiguity
    split
    · exact ih
    · exact .bind (readOnly_read _ _) fun lots => .bind ih fun reasons => trivial

theorem readOnly_addLegacyPositions (strategy : String) (legacy : List Position)
    (positions : ExitPositions) : (addLegacyPositions scope strategy legacy positions).ReadOnly := by
  induction legacy generalizing positions with
  | nil => trivial
  | cons position legacy ih => exact .bind (readOnly_read _ _) fun lots => ih _

theorem readOnly_planExit (strategy : String) : (planExit scope strategy newest).ReadOnly := by
  refine .bind (readOnly_getRunState scope strategy) fun state =>
    .bind (readOnly_read _ _) fun openPositions => .bind (readOnly_read _ _) fun orders =>
    .bind (readOnly_read _ _) fun trades =>
    .bind (readOnly_legacyPositions newest strategy orders trades openPositions) fun legacy => ?_
  simp only
  split
  · trivial
  · split
    · trivial
    · refine .bind (readOnly_resolveStrategyExitLotAmbiguity scope strategy _) fun reasons => ?_
      split
      · trivial
      · refine .bind (readOnly_addLegacyPositions scope strategy legacy _) fun positions => ?_
        split
        · trivial
        · trivial

theorem planExit_ok {strategy : String} {s : Store} {plan : ExitPlan}
    (h : ((planExit scope strategy newest).run s).1 = .ok plan) :
    (∃ strategyTag algoInstanceId, plan.attribution = exitAttribution strategy strategyTag algoInstanceId) ∧
      ∀ payload ∈ plan.orders, payload.orderType = some "MARKET" := by
  simp only [planExit, bind_eq, run_bind, pure_eq] at h
  split at h
  · cases h
  · split at h
    · cases h
    · simp only [run_bind] at h
      split at h
      · cases h
      · simp only [run_bind] at h
        split at h
        · cases h
        · rw [← Except.ok.inj h]
          refine ⟨⟨_, _, rfl⟩, fun payload hpayload => ?_⟩
          dsimp only at hpayload
          rw [mem_map] at hpayload
          obtain ⟨position, -, hposition⟩ := hpayload
          rw [← hposition, ExitPosition.orderPayload]

theorem planExit_error {strategy : String} {s : Store} {reply : ExitReply}
    (h : ((planExit scope strategy newest).run s).1 = .error reply) (result : BasketResult) :
    reply ≠ .placed result := by
  simp only [planExit, bind_eq, run_bind, pure_eq] at h
  intro hplaced
  subst hplaced
  split at h
  · cases h
  · split at h
    · cases h
    · simp only [run_bind] at h
      split at h
      · cases h
      · simp only [run_bind] at h
        split at h
        · cases h
        · cases h

/-- The legs that an exit places from a store: what the strategy holds there, looked up in the
catalog. -/
def exitLegs (s : Store) : List Leg :=
  match ((planExit scope (Text.strip strategyId) newest).run s).1 with
  | .error _ => []
  | .ok plan =>
    match svc.prepareLegs scope (mergedAttribution plan.attribution []) market 0 plan.orders with
    | .ok legs => legs
    | .error _ => []

variable {svc scope strategyId newest market}

theorem exitStrategy_placed {s : Store} {result : BasketResult}
    (h : ((svc.exitStrategy scope strategyId newest market).run s).1 = .ok (.placed result)) :
    ∃ plan, Text.strip strategyId ≠ "" ∧
      ((planExit scope (Text.strip strategyId) newest).run s).1 = .ok plan ∧
      (svc.placeBasketAllOrNoneAtomic scope plan.orders (mergedAttribution plan.attribution [])
        market).run s = (.ok result, ((svc.exitStrategy scope strategyId newest market).run s).2) := by
  have hread := (readOnly_planExit scope newest (Text.strip strategyId)).run s
  simp only [exitStrategy] at h ⊢
  split at h
  · cases h
  · next hnamed =>
    rw [if_neg hnamed]
    split at h
    · cases h
    · next hmanual =>
      rw [if_neg hmanual]
      split at h
      · cases h
      · next hunsupported =>
        rw [if_neg hunsupported]
        simp only [bind_eq, run_bind, hread] at h ⊢
        cases hplan : ((planExit scope (Text.strip strategyId) newest).run s).1 with
        | error reply =>
          rw [hplan] at h
          have hreply : reply = .placed result := Except.ok.inj h
          exact absurd hreply (planExit_error scope newest hplan result)
        | ok plan =>
          rw [hplan] at h
          refine ⟨plan, hnamed, rfl, ?_⟩
          simp only [run_bind] at h ⊢
          have hbasket : (svc.placeBasket scope { orders := plan.orders, allOrNone := true }
              plan.attribution market).run s = (svc.placeBasketAllOrNoneAtomic scope plan.orders
                (mergedAttribution plan.attribution []) market).run s := by
            rw [placeBasket, run_withLock]
            rfl
          rw [hbasket] at h ⊢
          refine Prod.ext ?_ rfl
          cases hresult : ((svc.placeBasketAllOrNoneAtomic scope plan.orders
              (mergedAttribution plan.attribution []) market).run s).1 with
          | error failure =>
            rw [hresult] at h
            cases h
          | ok placed =>
            rw [hresult] at h
            cases h
            rfl

theorem Abort.reply_status {abort : Abort} {result : BasketResult} (h : abort.reply = .ok result) :
    result.status ≠ .success := by
  cases abort with
  | raised failure => cases h
  | rejected placed =>
    cases h
    intro hstatus
    cases hstatus

theorem identity_of_run {attribution : Attribution} {strategy : String}
    (hnamed : Text.strip strategy ≠ "")
    (hrun : attribution.get? "strategy_run_id" = some (Text.strip strategy)) :
    strategyIdentity attribution = some (Text.strip strategy) := by
  have htext : textAt attribution "strategy_run_id" = some (Text.strip strategy) := by
    rw [textAt, hrun, Option.bind_some, Text.strip_strip, if_neg hnamed]
  rw [strategyIdentity, findSome?_cons, htext]

theorem exits_of_attribution {order : Order} {strategy : String} (hnamed : Text.strip strategy ≠ "")
    (hrun : order.attribution.get? "strategy_run_id" = some (Text.strip strategy))
    (hmark : order.attribution.get? "exit_for" = none) : order.Exits (Text.strip strategy) where
  own := identity_of_run hnamed hrun
  unmarked := by
    rw [textAt, hmark]
    rfl

theorem exitLegs_own {strategy : String} {s : Store} {plan : ExitPlan}
    (hmarket : svc.upper "MARKET" = "MARKET") (hnamed : Text.strip strategy ≠ "")
    (hplan : ((planExit scope (Text.strip strategy) newest).run s).1 = .ok plan) {legs : List Leg}
    (hlegs : svc.prepareLegs scope (mergedAttribution plan.attribution []) market 0 plan.orders =
      .ok legs) :
    ∀ leg ∈ legs, shouldFillImmediately leg.request leg.snapshot ∧
      leg.attribution.get? "strategy_run_id" = some (Text.strip strategy) ∧
        leg.attribution.get? "exit_for" = none := by
  obtain ⟨⟨strategyTag, algoInstanceId, hattribution⟩, hmarkets⟩ := planExit_ok scope newest hplan
  intro leg hleg
  obtain ⟨payload, hpayload, hrequest, hmerged⟩ := prepareLegs_ok hlegs leg hleg
  have htype : leg.request.orderType = "MARKET" := by
    rw [orderType_of_normalize hrequest, hmarkets payload hpayload]
    exact hmarket
  obtain ⟨hrun₀, hmark₀⟩ := exitAttribution_get? (Text.strip strategy) strategyTag algoInstanceId
  obtain ⟨hrun₁, hmark₁⟩ := mergedAttribution_exit hnamed hrun₀ hmark₀ []
  rw [hmerged, hattribution]
  exact ⟨by simp [shouldFillImmediately, htype],
    mergedAttribution_exit hnamed hrun₁ hmark₁ payload.metadata⟩

theorem exitStrategy_success {s : Store} {result : BasketResult}
    (hmarket : svc.upper "MARKET" = "MARKET")
    (h : ((svc.exitStrategy scope strategyId newest market).run s).1 = .ok (.placed result))
    (hsuccess : result.status = .success) :
    ∃ orders, Attributed orders s ((svc.exitStrategy scope strategyId newest market).run s).2 ∧
      (∀ order ∈ orders, order.Exits (Text.strip strategyId)) ∧
      List.Forall₂ (fun order leg => order.Places scope leg) orders
        (svc.exitLegs scope strategyId newest market s) ∧
      ∀ key, (result.results.map (Placed.sells key)).sum = soldBy orders key := by
  obtain ⟨plan, hnamed, hplan, hbasket⟩ := exitStrategy_placed h
  obtain ⟨account, s₀, -, hstart, hcase⟩ := svc.basketUow_start scope s
  rw [svc.run_placeBasketAllOrNoneAtomic hstart] at hbasket
  cases hlegs : svc.prepareLegs scope (mergedAttribution plan.attribution []) market 0 plan.orders with
  | error abort =>
    rw [hlegs] at hbasket
    exact absurd hsuccess (Abort.reply_status (congrArg Prod.fst hbasket))
  | ok legs =>
    rw [hlegs] at hbasket
    have hplaced : svc.exitLegs scope strategyId newest market s = legs := by
      rw [exitLegs, hplan]
      simp only [hlegs]
    cases hrun : svc.placeLegsUow scope legs account s₀ with
    | error abort =>
      simp only [Except.bind, hrun] at hbasket
      exact absurd hsuccess (Abort.reply_status (congrArg Prod.fst hbasket))
    | ok done =>
      obtain ⟨results, s'⟩ := done
      simp only [Except.bind, hrun, Prod.mk.injEq, Except.ok.injEq] at hbasket
      obtain ⟨rfl, hlast⟩ := hbasket
      obtain ⟨orders, hattributed, hfilled⟩ := placeLegsUow_lots hrun
      have hown := exitLegs_own hmarket hnamed hplan hlegs
      obtain ⟨hall, hsold⟩ := hfilled fun leg hleg => (hown leg hleg).1
      rw [← hlast, hplaced]
      refine ⟨orders, hattributed.before (sameLots_of_start hcase), fun order horder => ?_, hall, hsold⟩
      obtain ⟨leg, hleg, hplaces⟩ := exists_of_mem_right_of_forall₂ (List.Forall₂.flip hall) horder
      obtain ⟨-, hrun₁, hmark₁⟩ := hown leg hleg
      rw [← hplaces.attribution] at hrun₁ hmark₁
      exact exits_of_attribution hnamed hrun₁ hmark₁

end Service

end KiteAlgo.Paper
