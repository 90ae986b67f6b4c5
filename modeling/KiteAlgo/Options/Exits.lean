import KiteAlgo.Options
import Mathlib.Algebra.Order.BigOperators.Group.List
import Mathlib.Data.List.Dedup
import Mathlib.Data.List.Induction
import Mathlib.Data.List.Perm.Basic

/-!
# KiteAlgo.Options.Exits

Whether the three readings of an option run agree.  The exit preview takes the side of a leg
from its first trade, so a leg whose exit went too far is exited on the wrong side; the exit
orders take every leg when none is completed and leave out legs without a symbol; and the open
quantity counts completed legs when everything traded is flat (`exits_agree_iff`).
-/

namespace KiteAlgo.Options

open Dict
/-! ## what is open -/

def netOf (trades : List Trade) (legId : String) : Int :=
  ((trades.filter fun trade => trade.legId = legId).map fun trade =>
    signedBy trade.transactionType trade.quantity).sum

structure Holding where
  legId : String
  tradingsymbol : String
  net : Int
  deriving DecidableEq

def Holding.exitSide (holding : Holding) : String := if 0 < holding.net then "SELL" else "BUY"

def legOf (legs : List Leg) (legId : String) : Leg :=
  (legs.filter fun leg => leg.legId = legId).getLast?.getD {}

def firstTrade (trades : List Trade) (legId : String) : Option Trade :=
  trades.find? fun trade => trade.legId = legId

def Trade.openingSide (trade : Trade) : String :=
  orText trade.entrySide
    (if 0 ≤ signedBy trade.transactionType trade.quantity then "BUY" else "SELL")

namespace OptionRunState

variable (run : OptionRunState)

/-- The side that is recorded for a leg: its own, or that of its first trade. -/
def recordedSide (legId : String) : String :=
  ((legOf run.legs legId).entrySide.or
    ((firstTrade run.trades legId).map Trade.openingSide)).getD ""

/-- The symbol of a leg: its own, or that of its first trade. -/
def symbolOf (legId : String) : String :=
  orText ((legOf run.legs legId).tradingsymbol.getD "")
    (((firstTrade run.trades legId).map Trade.tradingsymbol).getD "")

def tradedLegs : List String := ((run.trades.map Trade.legId).filter (· ≠ "")).dedup

def completed : List Leg := run.legs.filter fun leg => leg.legId ∈ run.completedLegs

/-- The legs with a position: by their trades, or the completed ones when there are none. -/
def holdings : List Holding :=
  if run.trades ≠ [] then
    (run.tradedLegs.filter fun legId => netOf run.trades legId ≠ 0).map fun legId =>
      ⟨legId, run.symbolOf legId, netOf run.trades legId⟩
  else
    (run.completed.zipIdx.map fun (leg, index) =>
      (⟨orText leg.legId ("leg_" ++ toString (index + 1)), leg.tradingsymbol.getD "",
        signedBy leg.transactionType leg.quantity⟩ : Holding)).filter fun holding =>
      holding.net ≠ 0

end OptionRunState

/-- The three readings of a run agree, and its exits leave nothing open. -/
structure ExitsAgree (run : OptionRunState) : Prop where
  plan : ((exitOrderPlan run).map fun item =>
    (item.legId, item.transactionType, item.quantity)).Perm
    (run.holdings.map fun holding => (holding.legId, holding.exitSide, |holding.net|))
  orders : ((buildRunExitOrders run).map fun order =>
    (order.tradingsymbol, order.transactionType, order.quantity)).Perm
    (run.holdings.map fun holding => (holding.tradingsymbol, holding.exitSide, |holding.net|))
  planFlat : ∀ legId,
    ((run.holdings.filter fun holding => holding.legId = legId).map Holding.net).sum +
      (((exitOrderPlan run).filter fun item => item.legId = legId).map fun item =>
        signedBy item.transactionType item.quantity).sum = 0
  ordersFlat : ∀ tradingsymbol,
    ((run.holdings.filter fun holding => holding.tradingsymbol = tradingsymbol).map
      Holding.net).sum +
      (((buildRunExitOrders run).filter fun order => order.tradingsymbol = tradingsymbol).map
        fun order => signedBy order.transactionType order.quantity).sum = 0
  openQuantity : (deriveOpenQuantity run = 0 ↔ exitOrderPlan run = []) ∧
    (deriveOpenQuantity run = 0 ↔ buildRunExitOrders run = [])

/-- The condition: the recorded sides are those of the positions, positions have symbols, and the
completed legs are what is open. -/
def Consistent (run : OptionRunState) : Prop :=
  if run.trades ≠ [] then
    (∀ holding ∈ run.holdings, (run.recordedSide holding.legId = "" ∨
        (run.recordedSide holding.legId = "BUY" ↔ 0 < holding.net)) ∧
      holding.tradingsymbol ≠ "") ∧
    (run.completedLegs = [] ∨ run.holdings ≠ [])
  else if run.completedLegs = [] then
    ∀ leg ∈ run.legs, 0 < leg.quantity → leg.tradingsymbol.getD "" ≠ "" →
      signedBy leg.transactionType leg.quantity = 0
  else
    run.holdings ≠ [] ∧ ∀ leg ∈ run.completed,
      signedBy leg.transactionType leg.quantity ≠ 0 → 0 < leg.quantity ∧ leg.tradingsymbol.getD "" ≠ ""

section Lists

variable {α β κ : Type}

theorem filterMap_if {p : α → Prop} [DecidablePred p] (f : α → β) (xs : List α) :
    xs.filterMap (fun x => if p x then none else some (f x)) = (xs.filter fun x => !p x).map f := by
  induction xs with
  | nil => rfl
  | cons x xs ih =>
    by_cases hx : p x
    · rw [List.filterMap_cons_none (by rw [if_pos hx]), ih, List.filter_cons_of_neg (by simp [hx])]
    · rw [List.filterMap_cons_some (by rw [if_neg hx]), ih,
        List.filter_cons_of_pos (by simp [hx]), List.map_cons]

variable {xs : List α}

theorem perm_map_iff (key : β → α) {f g : α → β} (hf : ∀ x, key (f x) = x)
    (hg : ∀ x, key (g x) = x) : (xs.map f).Perm (xs.map g) ↔ ∀ x ∈ xs, f x = g x := by
  constructor
  · intro hperm x hx
    obtain ⟨y, -, hy⟩ := List.mem_map.mp (hperm.mem_iff.mp (List.mem_map_of_mem hx))
    have hxy : y = x := by rw [← hg y, hy, hf]
    rw [← hy, hxy]
  · intro h
    rw [List.map_congr_left h]

variable {f g : α → Option β}

theorem length_filterMap_le_of (h : ∀ x ∈ xs, f x = none ∨ f x = g x) :
    (xs.filterMap f).length ≤ (xs.filterMap g).length ∧
      ((xs.filterMap f).length = (xs.filterMap g).length → ∀ x ∈ xs, f x = g x) := by
  induction xs with
  | nil => exact ⟨le_rfl, fun _ _ hx => absurd hx List.not_mem_nil⟩
  | cons x xs ih =>
    obtain ⟨hle, heq⟩ := ih fun y hy => h y (List.mem_cons_of_mem x hy)
    rcases hx : f x with _ | b
    · rw [List.filterMap_cons_none hx]
      rcases hgx : g x with _ | c
      · rw [List.filterMap_cons_none hgx]
        refine ⟨hle, fun hlength y hy => ?_⟩
        rcases List.mem_cons.mp hy with rfl | hy
        · rw [hx, hgx]
        · exact heq hlength y hy
      · rw [List.filterMap_cons_some hgx, List.length_cons]
        exact ⟨by omega, fun hlength => by omega⟩
    · have hgx : g x = some b := by
        rcases h x (.head _) with hnone | hsame
        · rw [hx] at hnone
          cases hnone
        · rw [← hsame, hx]
      rw [List.filterMap_cons_some hx, List.filterMap_cons_some hgx, List.length_cons, List.length_cons]
      refine ⟨by omega, fun hlength y hy => ?_⟩
      rcases List.mem_cons.mp hy with rfl | hy
      · rw [hx, hgx]
      · exact heq (by omega) y hy

theorem perm_filterMap_iff (h : ∀ x ∈ xs, f x = none ∨ f x = g x) :
    (xs.filterMap f).Perm (xs.filterMap g) ↔ ∀ x ∈ xs, f x = g x := by
  constructor
  · intro hperm
    exact (length_filterMap_le_of h).2 hperm.length_eq
  · intro hsame
    rw [List.filterMap_congr hsame]

end Lists

/-! ## the nets of the trades -/

theorem netOf_concat (trades : List Trade) (trade : Trade) (legId : String) :
    netOf (trades ++ [trade]) legId = netOf trades legId +
        if trade.legId = legId then signedBy trade.transactionType trade.quantity else 0 := by
  unfold netOf
  rw [List.filter_append, List.map_append, List.sum_append, List.filter_singleton]
  by_cases h : trade.legId = legId
  · simp [h]
  · simp [h]

theorem netOf_eq_zero {trades : List Trade} {legId : String}
    (h : ∀ trade ∈ trades, trade.legId ≠ legId) : netOf trades legId = 0 := by
  rw [netOf, List.filter_eq_nil_iff.mpr fun trade htrade => by simpa using h trade htrade]
  rfl

/-- A dictionary of the nets of the legs that trades carry. -/
structure Nets (trades : List Trade) (nets : Dict String Int) : Prop where
  nodup : nets.keys.Nodup
  named : ∀ legId ∈ nets.keys, legId ≠ ""
  net : ∀ legId, legId ≠ "" → (nets.get? legId).getD 0 = netOf trades legId

namespace Nets

variable {trades : List Trade} {nets : Dict String Int} {trade : Trade}

theorem nil : Nets [] [] := ⟨List.nodup_nil, nofun, fun _ _ => rfl⟩

theorem skip (h : Nets trades nets) (hid : trade.legId = "") : Nets (trades ++ [trade]) nets where
  nodup := h.nodup
  named := h.named
  net legId hnamed := by
    have hother : trade.legId ≠ legId := fun heq => hnamed (heq.symm.trans hid)
    rw [h.net legId hnamed, netOf_concat, if_neg hother, add_zero]

theorem set (h : Nets trades nets) (hid : trade.legId ≠ "") {value : Int}
    (hvalue : value = (nets.get? trade.legId).getD 0 + signedBy trade.transactionType trade.quantity) :
    Nets (trades ++ [trade]) (nets.set trade.legId value) where
  nodup := nodup_keys_set h.nodup _ _
  named legId hmem := by
    rcases mem_keys_set.mp hmem with rfl | hmem
    · exact hid
    · exact h.named legId hmem
  net legId hnamed := by
    rw [get?_set, netOf_concat]
    by_cases heq : trade.legId = legId
    · rw [if_pos heq, if_pos heq, Option.getD_some, hvalue, heq, h.net legId hnamed]
    · rw [if_neg heq, if_neg heq, h.net legId hnamed, add_zero]

theorem add (h : Nets trades nets) (hid : trade.legId ≠ "") :
    Nets (trades ++ [trade]) (trade.addTo nets) := by
  unfold Trade.addTo
  dsimp only
  split
  · next hbuy =>
    refine h.set hid ?_
    rw [signedBy, if_pos hbuy]
  · split
    · next hbuy hsell =>
      refine h.set hid ?_
      rw [signedBy, if_neg hbuy, if_pos hsell, sub_eq_add_neg]
    · next hbuy hsell =>
      refine ⟨h.nodup, h.named, fun legId hnamed => ?_⟩
      rw [netOf_concat, signedBy, if_neg hbuy, if_neg hsell, ite_self, add_zero, h.net legId hnamed]

theorem setDefault (h : Nets trades nets) {legId : String} (hid : legId ≠ "") :
    Nets trades (nets.setDefault legId 0) := by
  unfold Dict.setDefault
  split
  · exact h
  · next hnone =>
    have hget : nets.get? legId = none := by
      rw [contains, Bool.not_eq_true, Option.isSome_eq_false_iff, Option.isNone_iff_eq_none]
        at hnone
      exact hnone
    refine ⟨nodup_keys_set h.nodup _ _, fun other hmem => ?_, fun other hnamed => ?_⟩
    · rcases mem_keys_set.mp hmem with rfl | hmem
      · exact hid
      · exact h.named other hmem
    · rw [get?_set, ← h.net other hnamed]
      by_cases heq : legId = other
      · rw [if_pos heq, ← heq, hget]
        rfl
      · rw [if_neg heq]

theorem perm (h : Nets trades nets) :
    (nets.filter fun entry => !(entry.2 = 0 : Bool)).Perm
      ((((trades.map Trade.legId).filter (· ≠ "")).dedup.filter fun legId =>
        netOf trades legId ≠ 0).map fun legId => (legId, netOf trades legId)) := by
  have hnets : nets.Nodup := List.Nodup.of_map Prod.fst h.nodup
  have hlegs : ((trades.map Trade.legId).filter (· ≠ "")).dedup.Nodup := List.nodup_dedup _
  refine (List.perm_ext_iff_of_nodup (hnets.filter _) ((hlegs.filter _).map ?_)).mpr ?_
  · exact fun a b hab => congrArg Prod.fst hab
  · rintro ⟨legId, net⟩
    rw [List.mem_filter, mem_iff_get? h.nodup]
    constructor
    · rintro ⟨hget, hnet⟩
      have hnamed : legId ≠ "" := by
        refine h.named legId (contains_iff_mem_keys.mp ?_)
        rw [contains, hget]
        rfl
      have hvalue := h.net legId hnamed
      rw [hget, Option.getD_some] at hvalue
      have hnonzero : netOf trades legId ≠ 0 := by simpa [← hvalue] using hnet
      refine List.mem_map.mpr ⟨legId, List.mem_filter.mpr ⟨?_, by simpa using hnonzero⟩, by
        rw [hvalue]⟩
      rw [List.mem_dedup, List.mem_filter, List.mem_map]
      refine ⟨?_, by simpa using hnamed⟩
      by_contra hnone
      exact hnonzero (netOf_eq_zero fun trade htrade heq => hnone ⟨trade, htrade, heq⟩)
    · intro hmem
      obtain ⟨other, hother, heq⟩ := List.mem_map.mp hmem
      rw [Prod.mk.injEq] at heq
      obtain ⟨rfl, rfl⟩ := heq
      rw [List.mem_filter, List.mem_dedup, List.mem_filter] at hother
      obtain ⟨⟨-, hnamed⟩, hnonzero⟩ := hother
      have hvalue := h.net other (by simpa using hnamed)
      refine ⟨?_, by simpa using hnonzero⟩
      cases hget : nets.get? other with
      | none =>
        rw [hget] at hvalue
        simp only [Option.getD_none] at hvalue
        simp [← hvalue] at hnonzero
      | some value =>
        rw [hget, Option.getD_some] at hvalue
        rw [hvalue]

end Nets

theorem netByLeg_nets (trades : List Trade) : Nets trades (netByLeg trades) := by
  induction trades using List.reverseRecOn with
  | nil => exact .nil
  | append_singleton trades trade ih =>
    rw [netByLeg, List.foldl_concat, ← netByLeg]
    split
    · next hid => exact ih.skip hid
    · next hid => exact ih.add hid

/-! ## what the trades say of the legs -/

theorem legOf_concat (legs : List Leg) (leg : Leg) (legId : String) :
    legOf (legs ++ [leg]) legId = if leg.legId = legId then leg else legOf legs legId := by
  unfold legOf
  rw [List.filter_append, List.filter_singleton]
  by_cases h : leg.legId = legId
  · simp [h]
  · simp [h]

theorem get?_metaByLeg (legs : List Leg) {legId : String} (hnamed : legId ≠ "") :
    ((metaByLeg legs).get? legId).getD {} = legOf legs legId := by
  induction legs using List.reverseRecOn with
  | nil => rfl
  | append_singleton legs leg ih =>
    rw [metaByLeg, List.foldl_concat, ← metaByLeg, legOf_concat]
    by_cases hid : leg.legId = ""
    · have hother : leg.legId ≠ legId := fun heq => hnamed (heq.symm.trans hid)
      rw [if_pos hid, if_neg hother, ih]
    · rw [if_neg hid, get?_set]
      by_cases heq : leg.legId = legId
      · rw [if_pos heq, if_pos heq]
        rfl
      · rw [if_neg heq, if_neg heq, ih]

theorem firstTrade_concat (trades : List Trade) (trade : Trade) (legId : String) :
    firstTrade (trades ++ [trade]) legId =
      (firstTrade trades legId).or (if trade.legId = legId then some trade else none) := by
  unfold firstTrade
  rw [List.find?_append]
  by_cases h : trade.legId = legId
  · simp [h]
  · simp [h]

/-- A leg with what its first trade adds to it. -/
def Leg.described (leg : Leg) (trade : Option Trade) : Leg :=
  match trade with
  | none => leg
  | some trade =>
    { leg with
      tradingsymbol := leg.tradingsymbol.or (some trade.tradingsymbol)
      entrySide := leg.entrySide.or (some trade.openingSide) }

/-- The state of the loop after some trades. -/
structure Described (legs : List Leg) (trades : List Trade) (s : TradeState) : Prop where
  nets : Nets trades s.signed
  leg : ∀ legId, legId ≠ "" →
    (s.byLeg.get? legId).getD {} = (legOf legs legId).described (firstTrade trades legId)

theorem Described.add {legs : List Leg} {trades : List Trade} {s : TradeState}
    (h : Described legs trades s) (trade : Trade) : Described legs (trades ++ [trade]) (s.add trade) := by
  unfold TradeState.add
  by_cases hid : trade.legId = ""
  · rw [if_pos hid]
    refine ⟨h.nets.skip hid, fun legId hnamed => ?_⟩
    have hother : trade.legId ≠ legId := fun heq => hnamed (heq.symm.trans hid)
    rw [firstTrade_concat, if_neg hother, Option.or_none]
    exact h.leg legId hnamed
  · rw [if_neg hid]
    have hnets := h.nets.add hid
    constructor
    · dsimp only
      split
      · exact hnets.setDefault hid
      · exact hnets
    · intro legId hnamed
      dsimp only
      rw [get?_set, firstTrade_concat]
      by_cases heq : trade.legId = legId
      · subst heq
        rw [if_pos rfl, if_pos rfl, Option.getD_some, h.leg _ hid]
        cases hfirst : firstTrade trades trade.legId with
        | some first =>
          rw [Option.some_or]
          unfold Leg.described
          dsimp only
          rw [Option.or_assoc, Option.some_or, Option.or_assoc, Option.some_or]
        | none =>
          have hzero : netOf trades trade.legId = 0 := by
            refine netOf_eq_zero fun other hother hsame => ?_
            have hnone := List.find?_eq_none.mp hfirst other hother
            simp [hsame] at hnone
          have hside : orText trade.entrySide
              (if 0 ≤ ((trade.addTo s.signed).get? trade.legId).getD 0 then "BUY" else "SELL") =
              trade.openingSide := by
            rw [hnets.net _ hid, netOf_concat, if_pos rfl, hzero, zero_add]
            rfl
          rw [hside, Option.none_or]
          rfl
      · rw [if_neg heq, if_neg heq, Option.or_none]
        exact h.leg legId hnamed

theorem described_foldl (legs : List Leg) (trades : List Trade) :
    Described legs trades (trades.foldl TradeState.add { byLeg := metaByLeg legs }) := by
  induction trades using List.reverseRecOn with
  | nil => exact ⟨.nil, fun legId hnamed => get?_metaByLeg legs hnamed⟩
  | append_singleton trades trade ih =>
    rw [List.foldl_concat]
    exact ih.add trade

theorem sortOrdersBuyFirst_perm (orders : List PlanItem) : (sortOrdersBuyFirst orders).Perm orders := by
  unfold sortOrdersBuyFirst
  have hsell : ∀ xs : List PlanItem,
      (xs.filter fun order => Text.upper order.transactionType = "SELL") =
        (xs.filter fun order => !(Text.upper order.transactionType = "BUY" : Bool)).filter
          fun order => Text.upper order.transactionType = "SELL" := by
    intro xs
    rw [List.filter_filter]
    refine List.filter_congr fun order _ => ?_
    by_cases h : Text.upper order.transactionType = "SELL"
    · simp [h]
    · simp [h]
  have hrest : (orders.filter fun order => !(Text.upper order.transactionType = "BUY" ∨
      Text.upper order.transactionType = "SELL" : Bool)) =
      (orders.filter fun order => !(Text.upper order.transactionType = "BUY" : Bool)).filter
        fun order => !(Text.upper order.transactionType = "SELL" : Bool) := by
    rw [List.filter_filter]
    refine List.filter_congr fun order _ => ?_
    by_cases h : Text.upper order.transactionType = "BUY"
    · simp [h]
    · simp [h]
  rw [hsell, hrest, List.append_assoc]
  exact ((List.filter_append_perm _ _).append_left _).trans (List.filter_append_perm _ _)

def PlanItem.effect (item : PlanItem) : String × String × Int :=
  (item.legId, item.transactionType, item.quantity)

def OpenLeg.exit (leg : OpenLeg) : String × String × Int :=
  (leg.legId, if leg.entrySide = "BUY" then "SELL" else "BUY", leg.openQuantity)

theorem exitOrderPlan_perm {run : OptionRunState}
    (hpos : ∀ leg ∈ deriveOpenExitLegs run, 0 < leg.openQuantity) :
    ((exitOrderPlan run).map PlanItem.effect).Perm ((deriveOpenExitLegs run).map OpenLeg.exit) := by
  unfold exitOrderPlan
  refine ((sortOrdersBuyFirst_perm _).map _).trans ?_
  rw [List.filter_eq_self.mpr fun leg hleg => by simpa using hpos leg hleg, List.map_map]
  exact List.Perm.refl _

def ExitOrder.effect (order : ExitOrder) : String × String × Int :=
  (order.tradingsymbol, order.transactionType, order.quantity)

def Position.exit (position : Position) : Option (String × String × Int) :=
  if |position.netQuantity| = 0 ∨ position.tradingsymbol = "" then none
  else
    some (position.tradingsymbol, if (0 : Int) < position.netQuantity then "SELL" else "BUY",
      |position.netQuantity|)

theorem map_buildGroupedExitOrders (positions : List Position) (product : Option String) :
    (buildGroupedExitOrders positions product).map ExitOrder.effect =
      positions.filterMap Position.exit := by
  unfold buildGroupedExitOrders
  rw [List.map_filterMap]
  refine List.filterMap_congr fun position _ => ?_
  unfold Position.exit
  by_cases h : |position.netQuantity| = 0 ∨ position.tradingsymbol = ""
  · rw [if_pos h, if_pos h]
    rfl
  · rw [if_neg h, if_neg h]
    rfl

/-! ## runs with trades -/

theorem Leg.entrySide_described (leg : Leg) (trade : Option Trade) :
    (leg.described trade).entrySide = leg.entrySide.or (trade.map Trade.openingSide) := by
  cases trade with
  | none => exact Option.or_none.symm
  | some trade => rfl

section Traded

variable {run : OptionRunState}

/-- The legs that trades leave a position in. -/
def OptionRunState.openLegs (run : OptionRunState) : List String :=
  run.tradedLegs.filter fun legId => netOf run.trades legId ≠ 0

theorem mem_openLegs {legId : String} (h : legId ∈ run.openLegs) :
    legId ≠ "" ∧ netOf run.trades legId ≠ 0 := by
  rw [OptionRunState.openLegs, OptionRunState.tradedLegs, List.mem_filter, List.mem_dedup,
    List.mem_filter] at h
  simpa using And.intro h.1.2 h.2

theorem holdings_of_trades (htrades : run.trades ≠ []) :
    run.holdings = run.openLegs.map fun legId =>
      ⟨legId, run.symbolOf legId, netOf run.trades legId⟩ := by
  rw [OptionRunState.holdings, if_pos htrades, OptionRunState.openLegs]

theorem deriveOpenExitLegs_of_trades (htrades : run.trades ≠ []) :
    (deriveOpenExitLegs run).Perm (run.openLegs.map fun legId =>
      ((legOf run.legs legId).described (firstTrade run.trades legId)).opened legId
        (orText (run.recordedSide legId) (if 0 < netOf run.trades legId then "BUY" else "SELL"))
        |netOf run.trades legId|) := by
  have hdescribed := described_foldl run.legs run.trades
  unfold deriveOpenExitLegs
  rw [if_pos htrades]
  dsimp only
  rw [filterMap_if fun entry : String × Int =>
    ((((run.trades.foldl TradeState.add { byLeg := metaByLeg run.legs }).byLeg.get?
      entry.1).getD {}).opened entry.1 (orText ((((run.trades.foldl TradeState.add
        { byLeg := metaByLeg run.legs }).byLeg.get? entry.1).getD {}).entrySide.getD "")
          (if 0 < entry.2 then "BUY" else "SELL")) |entry.2|)]
  refine (hdescribed.nets.perm.map _).trans (List.Perm.of_eq ?_)
  rw [List.map_map]
  refine List.map_congr_left fun legId hmem => ?_
  have hopen : legId ∈ run.openLegs := hmem
  have hnamed := (mem_openLegs hopen).1
  rw [Function.comp_apply]
  dsimp only
  rw [hdescribed.leg legId hnamed, Leg.entrySide_described]
  rfl

theorem abs_pos_of_mem_openLegs {legId : String} (h : legId ∈ run.openLegs) :
    0 < |netOf run.trades legId| := abs_pos.mpr (mem_openLegs h).2

theorem plan_of_trades (htrades : run.trades ≠ []) :
    ((exitOrderPlan run).map PlanItem.effect).Perm (run.openLegs.map fun legId =>
      (legId, if orText (run.recordedSide legId)
          (if 0 < netOf run.trades legId then "BUY" else "SELL") = "BUY" then "SELL" else "BUY",
        |netOf run.trades legId|)) := by
  have hlegs := deriveOpenExitLegs_of_trades htrades
  refine (exitOrderPlan_perm fun leg hleg => ?_).trans ?_
  · obtain ⟨legId, hlegId, rfl⟩ := List.mem_map.mp (hlegs.mem_iff.mp hleg)
    exact abs_pos_of_mem_openLegs hlegId
  · refine (hlegs.map _).trans (List.Perm.of_eq ?_)
    rw [List.map_map]
    rfl

theorem plan_iff_of_trades (htrades : run.trades ≠ []) :
    ((exitOrderPlan run).map PlanItem.effect).Perm
        (run.holdings.map fun holding => (holding.legId, holding.exitSide, |holding.net|)) ↔
      ∀ holding ∈ run.holdings, run.recordedSide holding.legId = "" ∨
        (run.recordedSide holding.legId = "BUY" ↔ 0 < holding.net) := by
  rw [holdings_of_trades htrades, List.map_map, (plan_of_trades htrades).congr_left, Function.comp_def]
  rw [perm_map_iff Prod.fst (fun _ => rfl) fun _ => rfl]
  rw [List.forall_mem_map]
  refine forall₂_congr fun legId _ => ?_
  unfold Holding.exitSide orText
  dsimp only
  rw [Prod.mk.injEq, Prod.mk.injEq]
  grind

theorem orders_of_trades (htrades : run.trades ≠ []) :
    ((buildRunExitOrders run).map ExitOrder.effect).Perm (run.openLegs.filterMap fun legId =>
      if run.symbolOf legId = "" then none
      else some (run.symbolOf legId, if 0 < netOf run.trades legId then "SELL" else "BUY",
        |netOf run.trades legId|)) := by
  unfold buildRunExitOrders
  rw [if_pos htrades]
  dsimp only
  rw [map_buildGroupedExitOrders, filterMap_if fun entry : String × Int =>
    ((((metaByLeg run.legs).get? entry.1).getD {}).position
      (run.trades.find? fun trade => trade.legId = entry.1) entry.2 run.product),
    List.filterMap_map]
  refine ((netByLeg_nets run.trades).perm.filterMap _).trans (List.Perm.of_eq ?_)
  rw [List.filterMap_map]
  refine List.filterMap_congr fun legId hmem => ?_
  have hopen : legId ∈ run.openLegs := hmem
  obtain ⟨hnamed, hnet⟩ := mem_openLegs hopen
  rw [Function.comp_apply, Function.comp_apply]
  dsimp only
  rw [get?_metaByLeg _ hnamed]
  unfold Position.exit Leg.position
  dsimp only
  rw [← firstTrade, ← OptionRunState.symbolOf]
  simp [abs_eq_zero, hnet]

theorem orders_iff_of_trades (htrades : run.trades ≠ []) :
    ((buildRunExitOrders run).map ExitOrder.effect).Perm
        (run.holdings.map fun holding =>
          (holding.tradingsymbol, holding.exitSide, |holding.net|)) ↔
      ∀ holding ∈ run.holdings, holding.tradingsymbol ≠ "" := by
  rw [holdings_of_trades htrades, List.map_map, (orders_of_trades htrades).congr_left,
    Function.comp_def, List.forall_mem_map, ← List.filterMap_eq_map, perm_filterMap_iff]
  · refine forall₂_congr fun legId _ => ?_
    by_cases h : run.symbolOf legId = ""
    · simp [h]
    · simp [h, Holding.exitSide]
  · intro legId _
    by_cases h : run.symbolOf legId = ""
    · exact .inl (if_pos h)
    · exact .inr (if_neg h)

end Traded

/-! ## runs without trades -/

section Untraded

variable {run : OptionRunState}

/-- The name of a completed leg in the plan. -/
def Leg.planId (leg : Leg) (index : Nat) : String :=
  orText leg.legId ("leg_" ++ toString (index + 1))

def Leg.holding (leg : Leg) (index : Nat) : Holding :=
  ⟨leg.planId index, leg.tradingsymbol.getD "", signedBy leg.transactionType leg.quantity⟩

theorem holdings_of_completed {β : Type} (htrades : run.trades = []) (f : Holding → β) :
    run.holdings.map f = run.completed.zipIdx.filterMap fun entry =>
      if signedBy entry.1.transactionType entry.1.quantity = 0 then none
      else some (f (entry.1.holding entry.2)) := by
  rw [OptionRunState.holdings, if_neg (not_not_intro htrades), List.filter_map, List.map_map,
    filterMap_if fun entry : Leg × Nat => f (entry.1.holding entry.2)]
  refine congrArg₂ List.map rfl (List.filter_congr fun entry _ => ?_)
  simp [Function.comp_apply]

variable {quantity : Int} {side : String}

theorem signedBy_eq_zero (hbuy : Text.upper side ≠ "BUY") (hsell : Text.upper side ≠ "SELL") :
    signedBy side quantity = 0 := by
  rw [signedBy, if_neg hbuy, if_neg hsell]

theorem deriveOpenExitLegs_of_completed (htrades : run.trades = []) :
    deriveOpenExitLegs run = run.completed.zipIdx.filterMap fun entry =>
      if entry.1.quantity ≤ 0 ∨ signedBy entry.1.transactionType entry.1.quantity = 0 then none
      else some (entry.1.opened (entry.1.planId entry.2) (Text.upper entry.1.transactionType)
        entry.1.quantity) := by
  have hlegs : (if run.completedLegs = [] then []
      else run.legs.filter fun leg => leg.legId ∈ run.completedLegs) = run.completed := by
    unfold OptionRunState.completed
    split
    · next hnone => simp [hnone]
    · rfl
  unfold deriveOpenExitLegs
  rw [if_neg (not_not_intro htrades)]
  dsimp only
  rw [hlegs]
  refine List.filterMap_congr fun entry _ => ?_
  by_cases hquantity : entry.1.quantity ≤ 0
  · rw [if_pos hquantity, if_pos (.inl hquantity)]
  · rw [if_neg hquantity]
    by_cases hside : Text.upper entry.1.transactionType ≠ "BUY" ∧
        Text.upper entry.1.transactionType ≠ "SELL"
    · rw [if_pos hside, if_pos (.inr (signedBy_eq_zero hside.1 hside.2))]
    · rw [if_neg hside, if_neg]
      · rfl
      · unfold signedBy
        grind

theorem plan_of_completed (htrades : run.trades = []) :
    ((exitOrderPlan run).map PlanItem.effect).Perm
      (run.completed.zipIdx.filterMap fun entry =>
        if entry.1.quantity ≤ 0 ∨ signedBy entry.1.transactionType entry.1.quantity = 0 then none
        else some (entry.1.planId entry.2,
          if Text.upper entry.1.transactionType = "BUY" then "SELL" else "BUY", entry.1.quantity)) := by
  have hlegs := deriveOpenExitLegs_of_completed htrades
  refine (exitOrderPlan_perm fun leg hleg => ?_).trans (List.Perm.of_eq ?_)
  · rw [hlegs, List.mem_filterMap] at hleg
    obtain ⟨entry, -, hentry⟩ := hleg
    split at hentry
    · cases hentry
    · next hnot =>
      cases hentry
      exact not_le.mp fun hle => hnot (.inl hle)
  · rw [hlegs, List.map_filterMap]
    refine List.filterMap_congr fun entry _ => ?_
    split <;> rfl

theorem exit_of_positive (hpos : 0 < quantity) (hsigned : signedBy side quantity ≠ 0) :
    (if Text.upper side = "BUY" then "SELL" else "BUY") =
        (if 0 < signedBy side quantity then "SELL" else "BUY") ∧
      |signedBy side quantity| = quantity := by
  unfold signedBy at *
  split at hsigned
  · next hbuy => simp [hbuy, hpos, abs_of_pos]
  · next hbuy =>
    split at hsigned
    · next hsell =>
      simp [hsell, abs_of_pos hpos, hpos.le]
    · exact absurd rfl hsigned

theorem forall_mem_zipIdx {xs : List Leg} {P : Leg → Prop} :
    (∀ entry ∈ xs.zipIdx, P entry.1) ↔ ∀ leg ∈ xs, P leg := by
  rw [← List.forall_mem_map (f := Prod.fst), List.zipIdx_map_fst]

theorem plan_iff_of_completed (htrades : run.trades = []) :
    ((exitOrderPlan run).map PlanItem.effect).Perm
        (run.holdings.map fun holding => (holding.legId, holding.exitSide, |holding.net|)) ↔
      ∀ leg ∈ run.completed, signedBy leg.transactionType leg.quantity ≠ 0 → 0 < leg.quantity := by
  rw [holdings_of_completed htrades, (plan_of_completed htrades).congr_left]
  have hcases : ∀ entry : Leg × Nat,
      0 < entry.1.quantity → signedBy entry.1.transactionType entry.1.quantity ≠ 0 →
      (entry.1.planId entry.2, if Text.upper entry.1.transactionType = "BUY" then "SELL" else "BUY",
        entry.1.quantity) =
      ((entry.1.holding entry.2).legId, (entry.1.holding entry.2).exitSide,
        |(entry.1.holding entry.2).net|) := by
    intro entry hpos hsigned
    obtain ⟨hside, habs⟩ := exit_of_positive hpos hsigned
    rw [hside, Holding.exitSide, Leg.holding]
    dsimp only
    rw [habs]
  rw [perm_filterMap_iff, ← forall_mem_zipIdx]
  · refine forall₂_congr fun entry _ => ?_
    by_cases hsigned : signedBy entry.1.transactionType entry.1.quantity = 0
    · simp [hsigned]
    · by_cases hpos : 0 < entry.1.quantity
      · rw [if_neg hsigned, if_neg (by simp [hsigned, hpos]), hcases entry hpos hsigned]
        simp [hpos]
      · rw [if_neg hsigned, if_pos (.inl (not_lt.mp hpos))]
        simp [hpos, hsigned]
  · intro entry _
    by_cases hnot : entry.1.quantity ≤ 0 ∨ signedBy entry.1.transactionType entry.1.quantity = 0
    · exact .inl (if_pos hnot)
    · rw [not_or, not_le] at hnot
      refine .inr ?_
      rw [if_neg (by simp [hnot]), if_neg hnot.2, hcases entry hnot.1 hnot.2]

theorem orText_empty (text : String) : orText text "" = text := by
  unfold orText
  split
  · next h => exact h.symm
  · rfl

theorem orders_of_untraded (htrades : run.trades = []) :
    (buildRunExitOrders run).map ExitOrder.effect =
      (run.legs.filter fun leg => run.completedLegs = [] ∨ leg.legId ∈ run.completedLegs).filterMap
        fun leg =>
          if leg.quantity ≤ 0 ∨ leg.tradingsymbol.getD "" = "" ∨
              signedBy leg.transactionType leg.quantity = 0 then none
          else some (leg.tradingsymbol.getD "",
            if 0 < signedBy leg.transactionType leg.quantity then "SELL" else "BUY",
            |signedBy leg.transactionType leg.quantity|) := by
  unfold buildRunExitOrders
  rw [if_neg (not_not_intro htrades)]
  dsimp only
  rw [map_buildGroupedExitOrders, List.filterMap_filterMap]
  refine List.filterMap_congr fun leg _ => ?_
  by_cases hquantity : leg.quantity ≤ 0
  · rw [if_pos hquantity, if_pos (.inl hquantity)]
    rfl
  · have hpos := not_le.mp hquantity
    rw [if_neg hquantity]
    unfold signedBy
    by_cases hbuy : Text.upper leg.transactionType = "BUY"
    · rw [if_pos hbuy, if_pos hbuy, Option.bind_some, Position.exit, Leg.position]
      simp [orText_empty, abs_eq_zero, hquantity, hpos.ne']
    · rw [if_neg hbuy, if_neg hbuy]
      by_cases hsell : Text.upper leg.transactionType = "SELL"
      · rw [if_pos hsell, if_pos hsell, Option.bind_some, Position.exit, Leg.position]
        simp [orText_empty, abs_eq_zero, hquantity, hpos.ne']
      · rw [if_neg hsell, if_neg hsell]
        simp

theorem orders_iff_of_completed (htrades : run.trades = []) (hcompleted : run.completedLegs ≠ []) :
    ((buildRunExitOrders run).map ExitOrder.effect).Perm
        (run.holdings.map fun holding =>
          (holding.tradingsymbol, holding.exitSide, |holding.net|)) ↔
      ∀ leg ∈ run.completed, signedBy leg.transactionType leg.quantity ≠ 0 →
        0 < leg.quantity ∧ leg.tradingsymbol.getD "" ≠ "" := by
  have hlegs : (run.legs.filter fun leg =>
      run.completedLegs = [] ∨ leg.legId ∈ run.completedLegs) = run.completed := by
    refine List.filter_congr fun leg _ => ?_
    simp [hcompleted]
  have hfst : ∀ f : Leg → Option (String × String × Int),
      (run.completed.zipIdx.filterMap fun entry => f entry.1) = run.completed.filterMap f := by
    intro f
    have hmap := List.filterMap_map (f := Prod.fst) (g := f) (l := run.completed.zipIdx)
    rw [List.zipIdx_map_fst] at hmap
    exact hmap.symm
  rw [holdings_of_completed htrades, orders_of_untraded htrades, hlegs]
  unfold Leg.holding Holding.exitSide
  dsimp only
  rw [hfst fun leg => if signedBy leg.transactionType leg.quantity = 0 then none
    else some (leg.tradingsymbol.getD "",
      if 0 < signedBy leg.transactionType leg.quantity then "SELL" else "BUY",
      |signedBy leg.transactionType leg.quantity|), perm_filterMap_iff]
  · refine forall₂_congr fun leg _ => ?_
    by_cases hsigned : signedBy leg.transactionType leg.quantity = 0
    · simp [hsigned]
    · by_cases hstop : leg.quantity ≤ 0 ∨ leg.tradingsymbol.getD "" = ""
      · rw [if_pos (hstop.imp_right .inl), if_neg hsigned]
        simp only [reduceCtorEq, false_iff]
        intro h
        obtain ⟨hpos, hsymbol⟩ := h hsigned
        exact hstop.elim (fun hle => absurd hpos (not_lt.mpr hle)) hsymbol
      · have hgoes : ¬(leg.quantity ≤ 0 ∨ leg.tradingsymbol.getD "" = "" ∨
            signedBy leg.transactionType leg.quantity = 0) := by
          rw [← or_assoc, not_or]
          exact ⟨hstop, hsigned⟩
        rw [if_neg hgoes, if_neg hsigned]
        rw [not_or, not_le] at hstop
        simp [hstop]
  · intro leg _
    by_cases hstop : leg.quantity ≤ 0 ∨ leg.tradingsymbol.getD "" = "" ∨
        signedBy leg.transactionType leg.quantity = 0
    · exact .inl (if_pos hstop)
    · refine .inr ?_
      rw [if_neg hstop, if_neg fun hsigned => hstop (.inr (.inr hsigned))]

end Untraded

/-! ## agreement -/

theorem signedBy_exitSide (holding : Holding) :
    signedBy holding.exitSide |holding.net| = -holding.net := by
  unfold Holding.exitSide
  by_cases h : 0 < holding.net
  · rw [if_pos h, abs_of_pos h]
    rfl
  · rw [if_neg h, abs_of_nonpos (not_lt.mp h)]
    rfl

theorem flat_of_perm {holdings : List Holding} (key : Holding → String)
    {orders : List (String × String × Int)}
    (h : orders.Perm (holdings.map fun holding => (key holding, holding.exitSide, |holding.net|)))
    (k : String) :
    ((holdings.filter fun holding => key holding = k).map Holding.net).sum +
      ((orders.filter fun order => order.1 = k).map fun order =>
        signedBy order.2.1 order.2.2).sum = 0 := by
  rw [((h.filter _).map _).sum_eq, List.filter_map, List.map_map]
  have hneg : ((fun order : String × String × Int => signedBy order.2.1 order.2.2) ∘
      fun holding : Holding => (key holding, holding.exitSide, |holding.net|)) =
      fun holding => -holding.net := by
    funext holding
    rw [Function.comp_apply, signedBy_exitSide]
  have hsame : ((fun order : String × String × Int => decide (order.1 = k)) ∘
      fun holding : Holding => (key holding, holding.exitSide, |holding.net|)) =
      fun holding => decide (key holding = k) := rfl
  rw [hneg, hsame]
  induction holdings.filter fun holding => decide (key holding = k) with
  | nil => rfl
  | cons holding rest ih =>
    rw [List.map_cons, List.map_cons, List.sum_cons, List.sum_cons]
    omega

theorem sum_abs_eq_zero (nets : Dict String Int) :
    0 ≤ (nets.values.map fun net => |net|).sum ∧ ((nets.values.map fun net => |net|).sum = 0 ↔
        (nets.filter fun entry => !(entry.2 = 0 : Bool)) = []) := by
  induction nets with
  | nil => exact ⟨le_rfl, by simp [values]⟩
  | cons entry nets ih =>
    obtain ⟨hnonneg, hzero⟩ := ih
    rw [values, List.map_cons, List.map_cons, List.sum_cons, ← values]
    have habs := abs_nonneg entry.2
    refine ⟨by omega, ?_⟩
    by_cases h : entry.2 = 0
    · rw [List.filter_cons_of_neg (by simp [h]), h, abs_zero, zero_add]
      exact hzero
    · rw [List.filter_cons_of_pos (by simp [h])]
      have hpos := abs_pos.mpr h
      simp only [reduceCtorEq, iff_false]
      omega

theorem deriveOpenQuantity_eq_zero {run : OptionRunState} (htrades : run.trades ≠ []) :
    deriveOpenQuantity run = 0 ↔ run.holdings = [] ∧ run.completedLegs = [] := by
  obtain ⟨hnonneg, hzero⟩ := sum_abs_eq_zero (netByLeg run.trades)
  have hopen : run.holdings = [] ↔
      ((netByLeg run.trades).filter fun entry => !(entry.2 = 0 : Bool)) = [] := by
    have hlength := (netByLeg_nets run.trades).perm.length_eq
    rw [holdings_of_trades htrades, List.map_eq_nil_iff, ← List.length_eq_zero_iff,
      ← List.length_eq_zero_iff (l := (netByLeg run.trades).filter _), hlength, List.length_map]
    rfl
  rw [hopen, ← hzero, deriveOpenQuantity]
  by_cases hpos : 0 < ((netByLeg run.trades).values.map fun net => |net|).sum
  · rw [if_pos ⟨htrades, hpos⟩]
    exact ⟨fun h => absurd h hpos.ne', fun h => h.1⟩
  · rw [if_neg fun h => hpos h.2]
    have hsum : ((netByLeg run.trades).values.map fun net => |net|).sum = 0 := by omega
    rw [hsum, Int.natCast_eq_zero, List.length_eq_zero_iff]
    exact ⟨fun h => ⟨rfl, h⟩, fun h => h.2⟩

theorem deriveOpenQuantity_of_untraded {run : OptionRunState} (htrades : run.trades = []) :
    deriveOpenQuantity run = 0 ↔ run.completedLegs = [] := by
  rw [deriveOpenQuantity, if_neg fun h => h.1 htrades, Int.natCast_eq_zero, List.length_eq_zero_iff]

theorem exitsAgree_iff_parts (run : OptionRunState) :
    ExitsAgree run ↔ ((exitOrderPlan run).map PlanItem.effect).Perm
          (run.holdings.map fun holding => (holding.legId, holding.exitSide, |holding.net|)) ∧
        ((buildRunExitOrders run).map ExitOrder.effect).Perm
          (run.holdings.map fun holding =>
            (holding.tradingsymbol, holding.exitSide, |holding.net|)) ∧
        (deriveOpenQuantity run = 0 ↔ run.holdings = []) := by
  have hempty : ∀ {α β : Type} {f : α → β} {xs : List α} {g : Holding → β},
      (xs.map f).Perm (run.holdings.map g) → (xs = [] ↔ run.holdings = []) := by
    intro α β f xs g hperm
    have hlength := hperm.length_eq
    rw [List.length_map, List.length_map] at hlength
    rw [← List.length_eq_zero_iff, hlength, List.length_eq_zero_iff]
  constructor
  · intro h
    exact ⟨h.plan, h.orders, h.openQuantity.1.trans (hempty h.plan)⟩
  · rintro ⟨hplan, horders, hquantity⟩
    refine ⟨hplan, horders, fun legId => ?_, fun tradingsymbol => ?_,
      hquantity.trans (hempty hplan).symm, hquantity.trans (hempty horders).symm⟩
    · have hflat := flat_of_perm Holding.legId hplan legId
      simp only [List.filter_map, List.map_map, Function.comp_def, PlanItem.effect] at hflat
      exact hflat
    · have hflat := flat_of_perm Holding.tradingsymbol horders tradingsymbol
      simp only [List.filter_map, List.map_map, Function.comp_def, ExitOrder.effect] at hflat
      exact hflat

/-- The preview, the exit orders and the open quantity of a run agree, and either set of orders
flattens it, exactly when its record is consistent. -/
theorem exits_agree_iff (run : OptionRunState) : ExitsAgree run ↔ Consistent run := by
  rw [exitsAgree_iff_parts, Consistent]
  by_cases htrades : run.trades ≠ []
  · rw [if_pos htrades, plan_iff_of_trades htrades, orders_iff_of_trades htrades,
      deriveOpenQuantity_eq_zero htrades, ← and_assoc, ← forall₂_and]
    refine and_congr_right fun _ => ?_
    tauto
  · rw [if_neg htrades]
    have htrades := not_not.mp htrades
    by_cases hcompleted : run.completedLegs = []
    · have hnone : run.completed = [] := by
        rw [OptionRunState.completed, hcompleted]
        simp
      have hholdings : run.holdings = [] := by
        rw [← List.map_eq_nil_iff (f := fun holding : Holding => holding),
          holdings_of_completed htrades, hnone]
        rfl
      rw [if_pos hcompleted, plan_iff_of_completed htrades, deriveOpenQuantity_of_untraded htrades,
        orders_of_untraded htrades, hholdings, hnone, hcompleted]
      simp only [List.map_nil, List.perm_nil, List.filterMap_eq_nil_iff]
      grind
    · rw [if_neg hcompleted, plan_iff_of_completed htrades,
        orders_iff_of_completed htrades hcompleted, deriveOpenQuantity_of_untraded htrades]
      grind

/-- Five bought, eight sold: the exit went three too far. -/
def overExited : OptionRunState where
  product := some "NRML"
  legs :=
    [{ legId := "L1"
       tradingsymbol := some "NIFTY25JAN23000CE"
       transactionType := "BUY"
       quantity := 5 }]
  completedLegs := ["L1"]
  trades :=
    [{ legId := "L1", transactionType := "BUY", quantity := 5 },
     { legId := "L1", transactionType := "SELL", quantity := 8 }]

/-- The preview of a leg that is three short sells another three. -/
theorem over_exit_doubled :
    netOf overExited.trades "L1" = -3 ∧
      (exitOrderPlan overExited).map PlanItem.effect = [("L1", "SELL", 3)] ∧
      (buildRunExitOrders overExited).map ExitOrder.effect = [("NIFTY25JAN23000CE", "BUY", 3)] ∧
      ¬ ExitsAgree overExited := by
  have hplan : (exitOrderPlan overExited).map PlanItem.effect = [("L1", "SELL", 3)] := by
    decide +kernel
  refine ⟨by decide +kernel, hplan, by decide +kernel, fun h => ?_⟩
  have hperm := h.plan
  have hmem : ("L1", "SELL", (3 : Int)) ∈ overExited.holdings.map fun holding =>
      (holding.legId, holding.exitSide, |holding.net|) := by
    refine hperm.mem_iff.mp ?_
    show _ ∈ (exitOrderPlan overExited).map PlanItem.effect
    rw [hplan]
    exact List.mem_singleton_self _
  revert hmem
  decide +kernel

end KiteAlgo.Options
