import KiteAlgo.Paper.Outlook

/-!
# KiteAlgo.Paper.Books

The books of a position and of the legs of its strategies.  `_apply_fill_to_position` and the fold of
`get_run_state` average, close and flip a quantity each in its own way; a fill makes the same of the
same books (`LegBook.trade_eq`).  Prices are exact.
-/

namespace KiteAlgo.Paper

open List Option
/-! ## the legs of a run -/

/-- `_LegState` with its average price and realized profit. -/
structure LegBook where
  leg : LegState
  averagePrice : ℚ := 0
  realizedPnl : ℚ := 0

def LegBook.trade (book : LegBook) (side : Side) (quantity : Int) (price : ℚ) : LegBook :=
  let net := book.leg.netQuantity
  if net = 0 ∨ (0 < net ∧ side = .buy) ∨ (net < 0 ∧ side = .sell) then
    let combined := |net| + quantity
    { book with
      leg := book.leg.trade side quantity
      averagePrice :=
        if combined = 0 then price else (book.averagePrice * |net| + price * quantity) / combined }
  else
    let closing := min |net| quantity
    { leg := book.leg.trade side quantity
      averagePrice :=
        if 0 < |net| - closing then book.averagePrice
        else if 0 < quantity - closing then price
        else 0
      realizedPnl :=
        if 0 < net ∧ side = .sell then book.realizedPnl + (price - book.averagePrice) * closing
        else if net < 0 ∧ side = .buy then book.realizedPnl + (book.averagePrice - price) * closing
        else book.realizedPnl }

def legBookAfter (orders : List Order) (legs : Dict (Int × String) LegBook) (trade : Trade) :
    Dict (Int × String) LegBook :=
  let order := orders.find? fun order => order.orderId = trade.orderId
  let product := (order.map Order.product).getD trade.product
  let fresh : LegState :=
    { instrumentToken := trade.instrumentToken
      product := product
      exchange := (order.map Order.exchange).getD trade.exchange
      tradingsymbol := (order.map Order.tradingsymbol).getD trade.tradingsymbol }
  let book := (legs.get? (trade.instrumentToken, product)).getD { leg := fresh }
  legs.set (trade.instrumentToken, product) (book.trade trade.side trade.quantity trade.price)

/-- The legs of a strategy, from the trades that are listed. -/
def legBooks (orders : List Order) (strategy : String) (listed : List Trade) :
    Dict (Int × String) LegBook :=
  (sortBy (fun a b : Trade => a.tradeId ≤ b.tradeId)
    (listed.filter fun trade => strategyIdentity trade.attribution = some strategy)).foldl
      (legBookAfter orders) []

/-- The quantity, average price and realized profit of a leg. -/
def LegBook.books (book : LegBook) : Int × ℚ × ℚ :=
  (book.leg.netQuantity, book.averagePrice, book.realizedPnl)

/-- Those of the leg of a key, zeros where there is no leg. -/
def bookOf (legs : Dict (Int × String) LegBook) (key : Int × String) : Int × ℚ × ℚ :=
  ((legs.get? key).map LegBook.books).getD (0, 0, 0)

theorem bookOf_legBooks_fst (orders : List Order) (strategy : String) (listed : List Trade)
    (key : Int × String) :
    (bookOf (legBooks orders strategy listed) key).1 = netOf (legStates orders (listed.filter fun trade =>
      strategyIdentity trade.attribution = some strategy)) key := by
  have hfold : ∀ (sorted : List Trade) (books : Dict (Int × String) LegBook)
      (legs : Dict (Int × String) LegState), (∀ key, legs.get? key = (books.get? key).map LegBook.leg) →
      ∀ key, (sorted.foldl (legAfter orders) legs).get? key =
        ((sorted.foldl (legBookAfter orders) books).get? key).map LegBook.leg := by
    intro sorted
    induction sorted with
    | nil => exact fun _ _ h => h
    | cons trade sorted ih =>
      intro books legs h
      refine ih _ _ fun key => ?_
      simp only [legAfter, legBookAfter, Dict.get?_set, h]
      split
      · cases books.get? _ <;> simp only [LegBook.trade, map_some] <;> split <;> rfl
      · rfl
  rw [netOf, legStates_eq_foldl, hfold _ [] [] fun _ => rfl, legBooks, bookOf]
  cases Dict.get? (foldl (legBookAfter orders) [] _) key <;> rfl

/-! ## a position -/

def positionOf (scope : Scope) (instrument : Instrument) (fills : List (Request × ℚ)) : Option Position :=
  fills.foldl (fun position fill =>
    some (applyFillToPosition scope position fill.1 fill.2 instrument)) none

def heldIn (position : Option Position) : Holding := (position.map Position.holding).getD {}

/-- The quantity, average price and realized profit of a position. -/
def Holding.books (held : Holding) : Int × ℚ × ℚ := (held.netQuantity, held.averagePrice, held.realizedPnl)

structure Holding.Balanced (held : Holding) : Prop where
  netQuantity : held.netQuantity = held.buyQuantity - held.sellQuantity
  realizedPnl : held.realizedPnl = held.sellValue - held.buyValue + held.netQuantity * held.averagePrice
  averagePrice : held.netQuantity = 0 → held.averagePrice = 0

theorem Holding.trade_spec (held : Holding) {side qty : Int} (hside : side = 1 ∨ side = -1) (hqty : 0 < qty)
    (price : ℚ) :
    (held.trade side qty price).1 = held.netQuantity + side * qty ∧
      ((held.trade side qty price).1 = 0 → (held.trade side qty price).2.1 = 0) ∧
      (held.trade side qty price).2.2 -
          (held.trade side qty price).1 * (held.trade side qty price).2.1 =
        held.realizedPnl - held.netQuantity * held.averagePrice - side * qty * price := by
  obtain ⟨net, average, realized, buys, sells, bought, sold⟩ := held
  simp only [Holding.trade]
  by_cases hadds : net = 0 ∨ (0 < net ∧ 0 < side) ∨ (net < 0 ∧ side < 0)
  · obtain ⟨m, hm, rfl, habs⟩ : ∃ m : Int, 0 ≤ m ∧ net = side * m ∧ |side * m| = m := by
      refine ⟨|net|, abs_nonneg net, ?_⟩
      obtain rfl | rfl := hside <;> simp only [abs_eq_max_neg] <;> omega
    have hnew : |side * m + side * qty| = m + qty := by
      obtain rfl | rfl := hside <;> simp only [abs_eq_max_neg] <;> omega
    simp only [if_pos hadds, habs, hnew, true_and]
    refine ⟨fun h => ?_, ?_⟩
    · rw [h, abs_zero] at hnew
      omega
    · have hmq : (m : ℚ) + qty ≠ 0 := by exact_mod_cast (by omega : m + qty ≠ 0)
      split
      · next h =>
          rw [h]
          push_cast
          ring
      · push_cast
        field_simp
        ring
  · obtain ⟨m, hm, rfl, habs⟩ : ∃ m : Int, 0 < m ∧ net = -side * m ∧ |-side * m| = m := by
      refine ⟨|net|, ?_⟩
      obtain rfl | rfl := hside <;> simp only [abs_eq_max_neg] <;> omega
    have hsum : -side * m + side * qty = side * (qty - m) := by ring
    have hzero : side * (qty - m) = 0 ↔ qty = m := by
      obtain rfl | rfl := hside <;> omega
    have hflips : 0 < qty - min m qty ∧ ((0 < side * (qty - m) ∧ 0 < side) ∨
        (side * (qty - m) < 0 ∧ side < 0)) ↔ m < qty := by
      obtain rfl | rfl := hside <;> omega
    have hclosed : (if 0 < -side * m then realized + (price - average) * (min m qty : Int)
        else realized + (average - price) * (min m qty : Int)) =
        realized - side * (price - average) * (min m qty : Int) := by
      obtain rfl | rfl := hside <;> split <;> first | omega | (push_cast; ring)
    simp only [if_neg hadds, habs, hsum, hzero, hflips, hclosed, true_and]
    refine ⟨fun h => if_pos h, ?_⟩
    obtain hlt | rfl | hgt := lt_trichotomy qty m
    · rw [if_neg hlt.ne, if_neg hlt.not_gt, min_eq_right hlt.le]
      push_cast
      ring
    · simp
      ring
    · rw [if_neg hgt.ne', if_pos hgt, min_eq_left hgt.le]
      push_cast
      ring

variable {position : Option Position}

theorem Holding.Balanced.fill (h : (heldIn position).Balanced) (scope : Scope) (request : Request)
    (price : ℚ) (instrument : Instrument) :
    (heldIn (some (applyFillToPosition scope position request price instrument))).Balanced := by
  obtain ⟨hnet, hrealized, -⟩ := h
  have hside : (if request.transactionType = "BUY" then 1 else -1 : Int) = 1 ∨
      (if request.transactionType = "BUY" then 1 else -1 : Int) = -1 := by
    split <;> simp
  obtain ⟨hq, ha, hr⟩ := (heldIn position).trade_spec hside request.quantity_pos price
  rw [hrealized] at hr
  refine ⟨?_, ?_, ha⟩
  · refine hq.trans ?_
    simp only [heldIn, applyFillToPosition, map_some, getD_some, Position.holding] at *
    obtain h | h := hside <;> simp [h] <;> omega
  · refine (sub_eq_iff_eq_add.mp hr).trans ?_
    simp only [heldIn, applyFillToPosition, map_some, getD_some, Position.holding] at *
    obtain h | h := hside <;> simp [h] <;> ring

/-! ## both books -/

/-- The trade is that of the fill, in the position of the key. -/
structure Trade.IsFill (trade : Trade) (key : Int × String) (fill : Request × ℚ) : Prop where
  key : (trade.instrumentToken, trade.product) = key
  side : sideOf? fill.1.transactionType = some trade.side
  quantity : trade.quantity = fill.1.quantity
  price : trade.price = fill.2

theorem LegBook.trade_eq {book : LegBook} {held : Holding} (h : book.books = held.books) (side : Side)
    {qty : Int} (hqty : 0 < qty) (price : ℚ) :
    (book.trade side qty price).books = held.trade (match side with | .buy => 1 | .sell => -1) qty price := by
  obtain ⟨⟨token, product, exchange, symbol, net⟩, average, realized⟩ := book
  obtain ⟨net', average', realized', buys, sells, bought, sold⟩ := held
  cases h
  have hq : (0 : ℚ) < qty := by exact_mod_cast hqty
  cases side <;> obtain hneg | rfl | hpos := lt_trichotomy net 0
  · simp [LegBook.books, LegBook.trade, LegState.trade, Holding.trade, hneg, hneg.ne, hneg.not_gt,
      abs_of_neg hneg]
    grind
  · simp [LegBook.books, LegBook.trade, LegState.trade, Holding.trade, hq.ne', hqty.ne']
  · have hnet : (0 : ℚ) < net := by exact_mod_cast hpos
    simp [LegBook.books, LegBook.trade, LegState.trade, Holding.trade, hpos, hpos.ne', hpos.not_gt,
      abs_of_pos hpos, abs_of_pos (add_pos hnet hq)]
    grind
  · have hnet : (net : ℚ) < 0 := by exact_mod_cast hneg
    simp [LegBook.books, LegBook.trade, LegState.trade, Holding.trade, hneg, hneg.ne, hneg.not_gt,
      abs_of_neg hneg, abs_of_neg (add_neg hnet (neg_lt_zero.mpr hq))]
    grind
  · simp [LegBook.books, LegBook.trade, LegState.trade, Holding.trade, hq.ne', hqty.ne']
  · simp [LegBook.books, LegBook.trade, LegState.trade, Holding.trade, hpos, hpos.ne', hpos.not_gt,
      abs_of_pos hpos]
    grind

variable (scope : Scope) (instrument : Instrument) {key : Int × String} {orders : List Order}
  {trades listed : List Trade} {fills : List (Request × ℚ)}

variable {legs : Dict (Int × String) LegBook}

theorem bookOf_legBookAfter {trade : Trade} {fill : Request × ℚ} (hfill : trade.IsFill key fill)
    (hproduct : ∀ order ∈ orders, order.orderId = trade.orderId → order.product = trade.product)
    (h : bookOf legs key = (heldIn position).books) :
    bookOf (legBookAfter orders legs trade) key =
      (heldIn (some (applyFillToPosition scope position fill.1 fill.2 instrument))).books := by
  have hfind : ((orders.find? fun order => order.orderId = trade.orderId).map
      Order.product).getD trade.product = trade.product := by
    cases hfind : orders.find? fun order => order.orderId = trade.orderId with
    | none => rfl
    | some order =>
      exact hproduct order (mem_of_find?_eq_some hfind) (by simpa using find?_some hfind)
  have hside : (if fill.1.transactionType = "BUY" then 1 else -1 : Int) =
      match trade.side with | .buy => 1 | .sell => -1 := by
    have := hfill.side
    simp only [sideOf?] at this
    grind
  rw [bookOf, legBookAfter]
  simp only [hfind, hfill.key, Dict.get?_set, if_true, map_some, getD_some, hfill.quantity,
    hfill.price]
  rw [@LegBook.trade_eq _ (heldIn position) ?_ _ _ fill.1.quantity_pos, ← hside]
  · rfl
  · rw [← h, bookOf]
    cases legs.get? key <;> rfl

theorem legBooks_eq (hlisted : listed.Perm trades)
    (htimes : trades.Pairwise fun a b => a.tradeId < b.tradeId) {strategy : String}
    (hown : ∀ trade ∈ trades, strategyIdentity trade.attribution = some strategy) (orders : List Order) :
    legBooks orders strategy listed = trades.foldl (legBookAfter orders) [] := by
  rw [legBooks, filter_eq_self.mpr fun trade h => by simpa using hown trade (hlisted.mem_iff.mp h)]
  congr 1
  refine List.Perm.eq_of_pairwise ?_ (pairwise_sortBy (by simp [Nat.le_total]) (by simp; omega) _)
    (htimes.imp fun h => by simpa using h.le) ((perm_sortBy _ _).trans hlisted)
  have hids : (trades.map Trade.tradeId).Nodup := pairwise_map.mpr (htimes.imp Nat.ne_of_lt)
  intro a b ha hb hab hba
  rw [mem_sortBy, hlisted.mem_iff] at ha
  simp only [decide_eq_true_eq] at hab hba
  exact inj_on_of_nodup_map hids ha hb (by omega)

theorem bookOf_foldl (hfills : List.Forall₂ (fun trade fill => trade.IsFill key fill) trades fills)
    (hproducts : SameProducts orders trades) (h : bookOf legs key = (heldIn position).books) :
    bookOf (trades.foldl (legBookAfter orders) legs) key = (heldIn (fills.foldl (fun position fill =>
      some (applyFillToPosition scope position fill.1 fill.2 instrument)) position)).books := by
  induction hfills generalizing legs position with
  | nil => exact h
  | cons hfill _ ih =>
    exact ih (fun trade htrade => hproducts trade (.tail _ htrade))
      (bookOf_legBookAfter scope instrument hfill (hproducts _ (.head _)) h)

theorem netQuantity_foldl (hfills : List.Forall₂ (fun trade fill => trade.IsFill key fill) trades fills)
    (position : Option Position) :
    (heldIn (fills.foldl (fun position fill =>
      some (applyFillToPosition scope position fill.1 fill.2 instrument)) position)).netQuantity =
    (heldIn position).netQuantity + (trades.map Trade.signedQuantity).sum := by
  induction hfills generalizing position with
  | nil => simp
  | @cons trade fill _ _ hfill _ ih =>
    rw [foldl_cons, ih, map_cons, sum_cons, ← add_assoc]
    congr 1
    have hside := hfill.side
    refine ((heldIn position).trade_spec (by split <;> simp) fill.1.quantity_pos fill.2).1.trans ?_
    simp only [sideOf?, Trade.signedQuantity, hfill.quantity] at hside ⊢
    grind

/-- The books of a position balance, the leg of its one strategy has them too, and the legs of several
strategies add up to its quantity. -/
theorem books_agree (hfills : List.Forall₂ (fun trade fill => trade.IsFill key fill) trades fills)
    (hproducts : SameProducts orders trades) (hlisted : listed.Perm trades)
    (htimes : trades.Pairwise fun a b => a.tradeId < b.tradeId) :
    (heldIn (positionOf scope instrument fills)).Balanced ∧
      (∀ strategy, (∀ trade ∈ trades, strategyIdentity trade.attribution = some strategy) →
        bookOf (legBooks orders strategy listed) key = (heldIn (positionOf scope instrument fills)).books) ∧
      ∀ strategies : Finset String,
        (∀ trade ∈ trades, ∃ strategy ∈ strategies, strategyIdentity trade.attribution = some strategy) →
        ∑ strategy ∈ strategies, (bookOf (legBooks orders strategy listed) key).1 =
          (heldIn (positionOf scope instrument fills)).netQuantity := by
  refine ⟨?_, fun strategy hown => ?_, fun strategies hown => ?_⟩
  · refine List.foldlRecOn (motive := fun position => (heldIn position).Balanced) fills _
      ⟨by simp [heldIn], by simp [heldIn], fun _ => rfl⟩ fun position h fill _ => ?_
    exact h.fill scope fill.1 fill.2 instrument
  · rw [legBooks_eq hlisted htimes hown]
    exact bookOf_foldl scope instrument hfills hproducts rfl
  · have hkeys : ∀ trade ∈ trades, (trade.instrumentToken, trade.product) = key := by
      clear hproducts hlisted htimes hown
      induction hfills with
      | nil => simp
      | cons hfill _ ih => exact List.forall_mem_cons.mpr ⟨hfill.key, ih⟩
    have hnet : ∀ strategy, (bookOf (legBooks orders strategy listed) key).1 = (trades.map fun trade =>
        if strategyIdentity trade.attribution = some strategy then trade.signedQuantity else 0).sum := by
      intro strategy
      rw [bookOf_legBooks_fst, netOf_legStates, ((hlisted.filter _).map _).sum_eq]
      · clear hfills hproducts hlisted htimes hown
        induction trades with
        | nil => rfl
        | cons trade trades ih =>
          rw [List.forall_mem_cons] at hkeys
          rw [List.filter_cons, List.map_cons, List.sum_cons, ← ih hkeys.2]
          by_cases h : strategyIdentity trade.attribution = some strategy <;> simp [h, hkeys.1]
      · exact fun trade htrade => hproducts trade (hlisted.mem_iff.mp (List.mem_of_mem_filter htrade))
    rw [positionOf, netQuantity_foldl scope instrument hfills,
      Finset.sum_congr rfl fun strategy _ => hnet strategy]
    clear hfills hproducts hlisted htimes hkeys hnet
    induction trades with
    | nil => simp [heldIn]
    | cons trade trades ih =>
      obtain ⟨strategy, hmem, hid⟩ := hown trade List.mem_cons_self
      simp only [List.map_cons, List.sum_cons, Finset.sum_add_distrib, hid, Option.some.injEq]
      rw [ih fun trade htrade => hown trade (List.mem_cons_of_mem _ htrade), Finset.sum_ite_eq, if_pos hmem]
      omega

/-- A run buys two at 10 and sells three at 12. -/
def flippingTrades : List Trade :=
  let trade (tradeId : Nat) (side : Side) (quantity : Int) (price : ℚ) : Trade :=
    ⟨demoScope, tradeId, tradeId, 1, side, quantity, price, [("strategy_run_id", "run")], 0, "NFO", "FUT",
      "NRML"⟩
  [trade 1 .buy 2 10, trade 2 .sell 3 12]

def flippingFills : List (Request × ℚ) :=
  [(⟨"NFO", "FUT", "BUY", "NRML", "MARKET", 2, by decide, none, none⟩, 10),
    (⟨"NFO", "FUT", "SELL", "NRML", "MARKET", 3, by decide, none, none⟩, 12)]

/-- It is short one at 12 with a profit of 4. -/
theorem books_agree_flipping :
    bookOf (legBooks [] "run" flippingTrades.reverse) (1, "NRML") = (-1, 12, 4) := by
  have hfills : List.Forall₂ (fun trade fill => trade.IsFill (1, "NRML") fill) flippingTrades flippingFills :=
    .cons ⟨rfl, rfl, rfl, rfl⟩ (.cons ⟨rfl, rfl, rfl, rfl⟩ .nil)
  refine ((books_agree demoScope ⟨1, none, none, none⟩ hfills (fun _ _ _ h => ?_)
    flippingTrades.reverse_perm (by decide)).2.1 "run" (by decide +kernel)).trans (by decide +kernel)
  exact absurd h List.not_mem_nil

end KiteAlgo.Paper
