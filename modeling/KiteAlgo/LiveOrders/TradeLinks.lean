import KiteAlgo.Lib.Run
import KiteAlgo.LiveOrders.TradeSync

/-!
# KiteAlgo.LiveOrders.TradeLinks

The links of fills to runs while orders are being placed.  `_store_trade_fills` stores a fill,
looks for the link of its order and writes the link of the trade, all in one transaction; the
placement writes the link of the order in another.  A pass looks only at fills that it has just
stored, so a fill that was stored before its order had a link stays without one.

Where no order gets its link after that, every fill of a linked order has one link, to the
order's run (`fills_linked`).
-/

namespace KiteAlgo

open List Option
/-! ## rows written together -/

namespace Keyed

variable {ρ κ : Type} {key : ρ → κ} [DecidableEq κ]

def upsertAll (t : Keyed key) (rows : List ρ) : Keyed key := rows.foldl upsert t

theorem upsertAll_concat (t : Keyed key) (rows : List ρ) (row : ρ) :
    t.upsertAll (rows ++ [row]) = (t.upsertAll rows).upsert row := foldl_concat ..

variable {k : κ} {rows : List ρ}

theorem get?_upsertAll_of_ne (h : ∀ row ∈ rows, key row ≠ k) (t : Keyed key) :
    (t.upsertAll rows).get? k = t.get? k := by
  induction rows generalizing t with
  | nil => rfl
  | cons row rows ih =>
    rw [upsertAll, foldl_cons, ← upsertAll, ih fun r hr => h r (mem_cons_of_mem row hr),
      get?_upsert_of_ne (h row (.head _))]

theorem get?_upsertAll_congr {t t' : Keyed key} (h : t'.get? k = t.get? k) (rows : List ρ) :
    (t'.upsertAll rows).get? k = (t.upsertAll rows).get? k := by
  induction rows generalizing t t' with
  | nil => exact h
  | cons row rows ih =>
    refine ih ?_
    rw [get?_upsert, get?_upsert, h]

theorem get?_upsertAll_eq_none {t : Keyed key} (h : (t.upsertAll rows).get? k = none) :
    t.get? k = none ∧ ∀ row ∈ rows, key row ≠ k := by
  induction rows generalizing t with
  | nil => exact ⟨h, fun _ hrow => absurd hrow not_mem_nil⟩
  | cons row rows ih =>
    obtain ⟨hrow, hrest⟩ := ih h
    rw [get?_upsert] at hrow
    by_cases hkey : key row = k
    · rw [if_pos hkey] at hrow
      cases hrow
    · rw [if_neg hkey] at hrow
      exact ⟨hrow, forall_mem_cons.mpr ⟨hkey, hrest⟩⟩

theorem mem_rows_upsertAll {t : Keyed key} {r : ρ} (h : r ∈ (t.upsertAll rows).rows) :
    r ∈ t.rows ∨ r ∈ rows := by
  induction rows generalizing t with
  | nil => exact .inl h
  | cons row rows ih =>
    rcases ih h with hmem | hmem
    · rcases mem_rows_upsert hmem with rfl | hmem
      · exact .inr (.head _)
      · exact .inl hmem.1
    · exact .inr (mem_cons_of_mem row hmem)

end Keyed

/-! ## the links -/

namespace TradeFill

/-- Where the link of the fill's order is kept. -/
def orderLinkKey (fill : TradeFill) : String × (String ⊕ String) :=
  (fill.accountId, .inl fill.orderId)

def tradeLinkKey (fill : TradeFill) : String × (String ⊕ String) :=
  (fill.accountId, .inr fill.tradeId)

end TradeFill

namespace ExecutionTables

def upsertOrderLink (t : ExecutionTables) (link : ExecutionLink) : ExecutionTables :=
  { t with
    links := t.links.upsert (match t.links.get? (link.accountId, .inl link.brokerOrderId) with
      | some old =>
        { old with
          strategyRunId := link.strategyRunId
          clientOrderRef := link.clientOrderRef.or old.clientOrderRef
          basketExecutionId := link.basketExecutionId.or old.basketExecutionId
          basketLegIndex := link.basketLegIndex.or old.basketLegIndex }
      | none => { link with tradeId := none }) }

/-- The link of a fill, with that of its order. -/
def tradeLink (t : ExecutionTables) (fill : TradeFill) (link : ExecutionLink) : ExecutionLink :=
  match t.links.get? fill.tradeLinkKey with
  | some old =>
    { old with
      strategyRunId := link.strategyRunId
      brokerOrderId := fill.orderId
      clientOrderRef := link.clientOrderRef.or old.clientOrderRef
      basketExecutionId := link.basketExecutionId.or old.basketExecutionId
      basketLegIndex := link.basketLegIndex.or old.basketLegIndex }
  | none =>
    { link with
      accountId := fill.accountId
      brokerOrderId := fill.orderId
      tradeId := some fill.tradeId }

variable (t : ExecutionTables) (fill : TradeFill) (link : ExecutionLink)

theorem tradeLink_run : (t.tradeLink fill link).strategyRunId = link.strategyRunId := by
  unfold tradeLink
  split <;> rfl

theorem tradeLink_key : (t.tradeLink fill link).key = fill.tradeLinkKey := by
  unfold tradeLink
  split
  · next old hold =>
    have hkey := Keyed.key_of_get? hold
    have haccount : old.accountId = fill.accountId := congrArg Prod.fst hkey
    have htrade : old.tradeId = some fill.tradeId := by
      have hsnd : old.key.2 = .inr fill.tradeId := congrArg Prod.snd hkey
      cases hid : old.tradeId with
      | none =>
        rw [ExecutionLink.key, hid] at hsnd
        cases hsnd
      | some tradeId =>
        rw [ExecutionLink.key, hid] at hsnd
        cases hsnd
        rfl
    simp [ExecutionLink.key, TradeFill.tradeLinkKey, haccount, htrade]
  · rfl

/-- Exactly one link is that of the fill, and it has the run of its order. -/
def FillLinked : Prop :=
  ∀ order ∈ t.links.get? fill.orderLinkKey, ∃ own ∈ t.links.rows,
    own.accountId = fill.accountId ∧ own.tradeId = some fill.tradeId ∧
      own.strategyRunId = order.strategyRunId ∧ ∀ other ∈ t.links.rows, other.accountId = fill.accountId →
        other.tradeId = some fill.tradeId → other = own

end ExecutionTables

/-! ## passes -/

/-- What a pass does with the fill that it has just stored. -/
inductive FillPhase where
  | idle
  | looking (fill : TradeFill)
  | linking (fill : TradeFill) (link : ExecutionLink)
  deriving DecidableEq

def FillPhase.current : FillPhase → Option TradeFill
  | idle => none
  | looking fill => some fill
  | linking fill _ => some fill

/-- A pass of `_store_trade_fills`: the trades that are left, and what the transaction has
written. -/
structure FillPass where
  accountId : String
  orderId : Option String
  markApplied : Bool
  left : List BrokerTrade
  phase : FillPhase := .idle
  stored : List TradeFill := []
  written : List ExecutionLink := []
  deriving DecidableEq

/-- The tables, and the pass that holds the lock. -/
structure LinkState where
  tables : ExecutionTables := {}
  pass : Option FillPass := none
  deriving DecidableEq

namespace FillPass

def view (pass : FillPass) (t : ExecutionTables) : ExecutionTables :=
  { t with fills := t.fills.upsertAll pass.stored, links := t.links.upsertAll pass.written }

def store (pass : FillPass) (t : ExecutionTables) (trade : BrokerTrade) (left : List BrokerTrade) :
    FillPass :=
  if Text.strip trade.tradeId = "" then { pass with left := left }
  else
    match (pass.view t).fills.get? (pass.accountId, Text.strip trade.tradeId) with
    | some _ => { pass with left := left }
    | none =>
      let fill := trade.toFill pass.accountId (trade.effectiveOrderId pass.orderId)
        pass.markApplied
      { pass with left := left, phase := .looking fill, stored := pass.stored ++ [fill] }

def look (pass : FillPass) (t : ExecutionTables) (fill : TradeFill) : FillPass :=
  match (pass.view t).links.get? fill.orderLinkKey with
  | none => { pass with phase := .idle }
  | some link => { pass with phase := .linking fill link }

def write (pass : FillPass) (t : ExecutionTables) (fill : TradeFill) (link : ExecutionLink) :
    FillPass :=
  { pass with
    phase := .idle
    written := pass.written ++ [(pass.view t).tradeLink fill link] }

def advance (pass : FillPass) (t : ExecutionTables) : FillPass :=
  match pass.phase, pass.left with
  | .idle, [] => pass
  | .idle, trade :: left => pass.store t trade left
  | .looking fill, _ => pass.look t fill
  | .linking fill link, _ => pass.write t fill link

end FillPass

/-- Orders get their links; passes begin, one at a time, go on, and end. -/
inductive LinkStep where
  | link (link : ExecutionLink)
  | begin (accountId : String) (orderId : Option String) (trades : List BrokerTrade)
      (markApplied : Bool)
  | advance
  | commit
  | rollback

def linking : Machine LinkStep LinkState Unit where
  step
    | .link link, s => { s with tables := s.tables.upsertOrderLink link }
    | .begin accountId orderId trades markApplied, s =>
      match s.pass with
      | some _ => s
      | none => { s with pass := some ⟨accountId, orderId, markApplied, trades, .idle, [], []⟩ }
    | .advance, s => { s with pass := s.pass.map fun pass => pass.advance s.tables }
    | .commit, s =>
      match s.pass with
      | none => s
      | some pass =>
        if pass.phase = .idle ∧ pass.left = [] then ⟨pass.view s.tables, none⟩ else s
    | .rollback, s => { s with pass := none }
  out _ _ := []

namespace FillPass

variable (pass : FillPass) (t : ExecutionTables)

theorem view_write (fill : TradeFill) (link : ExecutionLink) :
    (pass.write t fill link).view t = { pass.view t with
        links := (pass.view t).links.upsert ((pass.view t).tradeLink fill link) } := by
  unfold write view
  dsimp only
  rw [Keyed.upsertAll_concat]

end FillPass

/-! ## fills that have their links -/

/-- The run that the link of a fill carries, or is about to. -/
def FillPass.runOf (pass : FillPass) (t : ExecutionTables) (fill : TradeFill) : Option String :=
  let kept := ((pass.view t).links.get? fill.tradeLinkKey).map ExecutionLink.strategyRunId
  match pass.phase with
  | .linking current link => if current = fill then some link.strategyRunId else kept
  | _ => kept

/-- The order gets its link before any of its fills has been looked after, or the fills have
links to its run already. -/
def LinkState.InTime (s : LinkState) (link : ExecutionLink) : Prop :=
  (∀ fill ∈ s.tables.fills.rows, fill.orderLinkKey = (link.accountId, .inl link.brokerOrderId) →
    (s.tables.links.get? fill.tradeLinkKey).map ExecutionLink.strategyRunId = some link.strategyRunId) ∧
  ∀ pass ∈ s.pass, ∀ fill ∈ pass.stored,
    fill.orderLinkKey = (link.accountId, .inl link.brokerOrderId) →
      pass.phase = .looking fill ∨ pass.runOf s.tables fill = some link.strategyRunId

def LinkStep.InTime : LinkStep → LinkState → Prop
  | .link order, s => s.InTime order
  | _, _ => True

instance (s : LinkState) (link : ExecutionLink) : Decidable (s.InTime link) :=
  inferInstanceAs (Decidable ((∀ fill ∈ s.tables.fills.rows, _ → _) ∧
    ∀ pass ∈ s.pass, ∀ fill ∈ pass.stored, _ → (_ ∨ _)))

instance decidableInTime : ∀ (q : LinkStep) (s : LinkState), Decidable (q.InTime s)
  | .link order, s => inferInstanceAs (Decidable (s.InTime order))
  | .begin _ _ _ _, _ => isTrue trivial
  | .advance, _ => isTrue trivial
  | .commit, _ => isTrue trivial
  | .rollback, _ => isTrue trivial

/-- The stored fills of linked orders have links to the runs of these. -/
def ExecutionTables.Linked (t : ExecutionTables) : Prop :=
  ∀ fill ∈ t.fills.rows, ∀ order ∈ t.links.get? fill.orderLinkKey,
    (t.links.get? fill.tradeLinkKey).map ExecutionLink.strategyRunId = some order.strategyRunId

/-- What holds of a pass: it has written links for its own fills only, and those that it has
looked after have theirs. -/
structure FillPass.Valid (pass : FillPass) (t : ExecutionTables) : Prop where
  written : ∀ link ∈ pass.written, ∃ fill ∈ pass.stored, link.key = fill.tradeLinkKey
  fresh : ∀ fill ∈ pass.stored, t.fills.get? fill.key = none
  keys : (pass.stored.map TradeFill.key).Nodup
  current : ∀ fill ∈ pass.phase.current, fill ∈ pass.stored
  linked : ∀ fill ∈ pass.stored, pass.phase ≠ .looking fill →
    ∀ order ∈ t.links.get? fill.orderLinkKey, pass.runOf t fill = some order.strategyRunId

theorem TradeFill.tradeLinkKey_inj {fill other : TradeFill}
    (h : fill.tradeLinkKey = other.tradeLinkKey) : fill.key = other.key := by
  simp only [tradeLinkKey, Prod.mk.injEq, Sum.inr.injEq] at h
  rw [key, key, h.1, h.2]

namespace FillPass.Valid

variable {pass : FillPass} {t : ExecutionTables}

theorem orderLink (h : pass.Valid t) (fill : TradeFill) :
    (pass.view t).links.get? fill.orderLinkKey = t.links.get? fill.orderLinkKey := by
  refine Keyed.get?_upsertAll_of_ne (fun link hlink heq => ?_) _
  obtain ⟨other, -, hkey⟩ := h.written link hlink
  rw [hkey, TradeFill.tradeLinkKey, TradeFill.orderLinkKey, Prod.mk.injEq] at heq
  cases heq.2

theorem tradeLink (h : pass.Valid t) {fill : TradeFill} (hfill : fill ∈ t.fills.rows) :
    (pass.view t).links.get? fill.tradeLinkKey = t.links.get? fill.tradeLinkKey := by
  refine Keyed.get?_upsertAll_of_ne (fun link hlink heq => ?_) _
  obtain ⟨other, hother, hkey⟩ := h.written link hlink
  have hnone := h.fresh other hother
  rw [TradeFill.tradeLinkKey_inj (hkey.symm.trans heq), Keyed.mem_rows_iff.mp hfill] at hnone
  cases hnone

theorem store (h : pass.Valid t) (hphase : pass.phase = .idle) (trade : BrokerTrade)
    (left : List BrokerTrade) : (pass.store t trade left).Valid t := by
  have hsame : ∀ p : FillPass, p.phase = .idle → p.stored = pass.stored →
      p.written = pass.written → p.Valid t := by
    intro p hp hstored hwritten
    have hrun : ∀ fill, p.runOf t fill = pass.runOf t fill := by
      intro fill
      unfold FillPass.runOf FillPass.view
      rw [hp, hphase, hwritten]
    refine ⟨?_, ?_, ?_, ?_, ?_⟩
    · rw [hwritten, hstored]
      exact h.written
    · rw [hstored]
      exact h.fresh
    · rw [hstored]
      exact h.keys
    · rw [hp]
      nofun
    · intro fill hfill _ order horder
      rw [hrun]
      exact h.linked fill (hstored ▸ hfill) (by rw [hphase]; nofun) order horder
  unfold FillPass.store
  split
  · exact hsame _ hphase rfl rfl
  · split
    · exact hsame _ hphase rfl rfl
    · next hid hget =>
      dsimp only
      generalize hnew : trade.toFill pass.accountId (trade.effectiveOrderId pass.orderId)
        pass.markApplied = new
      have hkey : new.key = (pass.accountId, Text.strip trade.tradeId) := by
        rw [← hnew]
        rfl
      rw [← hkey] at hget
      obtain ⟨hfresh, hother⟩ := Keyed.get?_upsertAll_eq_none hget
      constructor
      · intro link hlink
        obtain ⟨fill, hfill, heq⟩ := h.written link hlink
        exact ⟨fill, mem_append_left _ hfill, heq⟩
      · intro fill hfill
        rcases mem_append.mp hfill with hfill | hfill
        · exact h.fresh fill hfill
        · rw [mem_singleton.mp hfill]
          exact hfresh
      · rw [map_append, nodup_append]
        refine ⟨h.keys, nodup_singleton _, ?_⟩
        rintro k hk other hmem rfl
        obtain ⟨fill, hfill, rfl⟩ := mem_map.mp hk
        exact hother fill hfill (mem_singleton.mp hmem)
      · rintro fill ⟨⟩
        exact mem_append_right _ (mem_singleton_self _)
      · intro fill hfill hnot order horder
        rcases mem_append.mp hfill with hfill | hfill
        · have hrun := h.linked fill hfill (by rw [hphase]; nofun) order horder
          unfold FillPass.runOf at hrun ⊢
          rw [hphase] at hrun
          exact hrun
        · rw [mem_singleton.mp hfill] at hnot
          exact absurd rfl hnot

variable {current : TradeFill}

theorem look (h : pass.Valid t) (hphase : pass.phase = .looking current) :
    (pass.look t current).Valid t := by
  have hmem : current ∈ pass.stored := h.current current (by rw [hphase]; rfl)
  have hkept : ∀ fill, fill ≠ current → fill ∈ pass.stored → ∀ order ∈ t.links.get? fill.orderLinkKey,
        ((pass.view t).links.get? fill.tradeLinkKey).map ExecutionLink.strategyRunId =
          some order.strategyRunId := by
    intro fill hne hfill order horder
    have hnot : pass.phase ≠ .looking fill := by
      rw [hphase]
      exact fun heq => hne (FillPhase.looking.inj heq).symm
    have hrun := h.linked fill hfill hnot order horder
    unfold FillPass.runOf at hrun
    rw [hphase] at hrun
    exact hrun
  have hlookup := h.orderLink current
  unfold FillPass.look
  rw [hlookup]
  cases hlink : t.links.get? current.orderLinkKey with
  | none =>
    refine ⟨h.written, h.fresh, h.keys, nofun, fun fill hfill _ order horder => ?_⟩
    by_cases hne : fill = current
    · rw [hne, hlink] at horder
      cases horder
    · exact hkept fill hne hfill order horder
  | some link =>
    refine ⟨h.written, h.fresh, h.keys, ?_, fun fill hfill _ order horder => ?_⟩
    · rintro fill ⟨⟩
      exact hmem
    · by_cases hne : fill = current
      · rw [hne, hlink] at horder
        cases horder
        exact if_pos hne.symm
      · exact (if_neg (Ne.symm hne)).trans (hkept fill hne hfill order horder)

theorem write (h : pass.Valid t) {link : ExecutionLink}
    (hphase : pass.phase = .linking current link) : (pass.write t current link).Valid t := by
  have hmem : current ∈ pass.stored := h.current current (by rw [hphase]; rfl)
  have hkey := (pass.view t).tradeLink_key current link
  constructor
  · intro other hother
    rcases mem_append.mp hother with hother | hother
    · exact h.written other hother
    · rw [mem_singleton.mp hother]
      exact ⟨current, hmem, hkey⟩
  · exact h.fresh
  · exact h.keys
  · nofun
  · intro fill hfill _ order horder
    have hrun := h.linked fill hfill (by rw [hphase]; nofun) order horder
    unfold FillPass.runOf at hrun
    rw [hphase] at hrun
    dsimp only at hrun
    show ((FillPass.view _ t).links.get? fill.tradeLinkKey).map ExecutionLink.strategyRunId = _
    rw [FillPass.view_write]
    by_cases hne : current = fill
    · rw [if_pos hne] at hrun
      rw [← hne, ← hkey, Keyed.get?_upsert_self, map_some, ExecutionTables.tradeLink_run]
      exact hrun
    · rw [if_neg hne] at hrun
      rw [Keyed.get?_upsert_of_ne, hrun]
      intro heq
      rw [hkey] at heq
      exact hne (inj_on_of_nodup_map h.keys hmem hfill (TradeFill.tradeLinkKey_inj heq))

theorem advance (h : pass.Valid t) : (pass.advance t).Valid t := by
  unfold FillPass.advance
  split
  · exact h
  · next hphase _ => exact h.store hphase _ _
  · next hphase => exact h.look hphase
  · next hphase => exact h.write hphase

theorem commit (h : pass.Valid t) (hlinked : t.Linked) (hphase : pass.phase = .idle) :
    (pass.view t).Linked := by
  intro fill hfill order horder
  rw [h.orderLink] at horder
  rcases Keyed.mem_rows_upsertAll hfill with hfill | hfill
  · rw [h.tradeLink hfill]
    exact hlinked fill hfill order horder
  · have hrun := h.linked fill hfill (by rw [hphase]; nofun) order horder
    unfold FillPass.runOf at hrun
    rw [hphase] at hrun
    exact hrun

end FillPass.Valid

section OrderLink

variable {t : ExecutionTables} {link : ExecutionLink}

theorem get?_upsertOrderLink (t : ExecutionTables) (link : ExecutionLink) :
    (∀ k, k ≠ (link.accountId, .inl link.brokerOrderId) →
      (t.upsertOrderLink link).links.get? k = t.links.get? k) ∧
    ∃ row, (t.upsertOrderLink link).links.get? (link.accountId, .inl link.brokerOrderId) = some row ∧
      row.strategyRunId = link.strategyRunId := by
  have hwrite : ∀ row : ExecutionLink, row.key = (link.accountId, .inl link.brokerOrderId) →
      row.strategyRunId = link.strategyRunId → (∀ k, k ≠ (link.accountId, .inl link.brokerOrderId) →
        (t.links.upsert row).get? k = t.links.get? k) ∧
      ∃ kept, (t.links.upsert row).get? (link.accountId, .inl link.brokerOrderId) = some kept ∧
        kept.strategyRunId = link.strategyRunId := by
    intro row hkey hrun
    rw [← hkey]
    exact ⟨fun k hk => Keyed.get?_upsert_of_ne (Ne.symm hk) _, row, Keyed.get?_upsert_self _ _, hrun⟩
  unfold ExecutionTables.upsertOrderLink
  dsimp only
  cases hget : t.links.get? (link.accountId, .inl link.brokerOrderId) with
  | none => exact hwrite _ rfl rfl
  | some old =>
    have hold : old.key = (link.accountId, .inl link.brokerOrderId) := Keyed.key_of_get? hget
    exact hwrite _ hold rfl

theorem get?_upsertOrderLink_trade (t : ExecutionTables) (link : ExecutionLink) (fill : TradeFill) :
    (t.upsertOrderLink link).links.get? fill.tradeLinkKey = t.links.get? fill.tradeLinkKey := by
  refine (get?_upsertOrderLink t link).1 _ fun heq => ?_
  rw [TradeFill.tradeLinkKey, Prod.mk.injEq] at heq
  cases heq.2

theorem FillPass.Valid.upsertOrderLink {pass : FillPass} (h : pass.Valid t)
    (hintime : ∀ fill ∈ pass.stored, fill.orderLinkKey = (link.accountId, .inl link.brokerOrderId) →
        pass.phase = .looking fill ∨ pass.runOf t fill = some link.strategyRunId) :
    pass.Valid (t.upsertOrderLink link) := by
  obtain ⟨hother, row, hrow, hrun⟩ := get?_upsertOrderLink t link
  refine ⟨h.written, h.fresh, h.keys, h.current, fun fill hfill hphase order horder => ?_⟩
  have hsame : pass.runOf (t.upsertOrderLink link) fill = pass.runOf t fill := by
    have hview : (pass.view (t.upsertOrderLink link)).links.get? fill.tradeLinkKey =
        (pass.view t).links.get? fill.tradeLinkKey :=
      Keyed.get?_upsertAll_congr (get?_upsertOrderLink_trade t link fill) _
    unfold FillPass.runOf
    rw [hview]
  rw [hsame]
  by_cases hkey : fill.orderLinkKey = (link.accountId, .inl link.brokerOrderId)
  · rw [hkey, hrow] at horder
    cases horder
    rw [hrun]
    exact (hintime fill hfill hkey).resolve_left hphase
  · rw [hother _ hkey] at horder
    exact h.linked fill hfill hphase order horder

end OrderLink

/-- Between the steps, tables and pass are as they should be. -/
def LinkState.Valid (s : LinkState) : Prop :=
  s.tables.Linked ∧ ∀ pass ∈ s.pass, pass.Valid s.tables

theorem LinkStep.valid {q : LinkStep} {s : LinkState} (h : s.Valid) (hq : q.InTime s) :
    (linking.step q s).Valid := by
  obtain ⟨hlinked, hpass⟩ := h
  cases q with
  | link order =>
    obtain ⟨hstored, hcurrent⟩ := hq
    obtain ⟨hother, row, hrow, hrun⟩ := get?_upsertOrderLink s.tables order
    refine ⟨fun fill hfill found hfound => ?_, fun pass hmem =>
      (hpass pass hmem).upsertOrderLink (hcurrent pass hmem)⟩
    rw [show (linking.step (.link order) s).tables = s.tables.upsertOrderLink order from rfl]
      at hfound ⊢
    rw [get?_upsertOrderLink_trade]
    by_cases hkey : fill.orderLinkKey = (order.accountId, .inl order.brokerOrderId)
    · rw [hkey, hrow] at hfound
      cases hfound
      rw [hrun]
      exact hstored fill hfill hkey
    · rw [hother _ hkey] at hfound
      exact hlinked fill hfill found hfound
  | begin accountId orderId trades markApplied =>
    unfold linking
    dsimp only
    split
    · exact ⟨hlinked, hpass⟩
    · refine ⟨hlinked, ?_⟩
      rintro pass ⟨⟩
      exact ⟨nofun, nofun, nodup_nil, nofun, nofun⟩
  | advance =>
    refine ⟨hlinked, fun pass hmem => ?_⟩
    obtain ⟨before, hbefore, rfl⟩ := mem_map.mp hmem
    exact (hpass before hbefore).advance
  | commit =>
    cases hsome : s.pass with
    | none =>
      have hstep : linking.step .commit s = s := by
        show (match s.pass with | none => s | some pass => _) = s
        rw [hsome]
      rw [hstep]
      exact ⟨hlinked, hpass⟩
    | some pass =>
      have hstep : linking.step .commit s =
          if pass.phase = .idle ∧ pass.left = [] then ⟨pass.view s.tables, none⟩ else s := by
        unfold linking
        dsimp only
        rw [hsome]
      rw [hstep]
      split
      · next hdone =>
        have hview := (hpass pass hsome).commit hlinked hdone.1
        exact ⟨hview, fun _ hmem => absurd hmem (not_mem_none _)⟩
      · exact ⟨hlinked, hpass⟩
  | rollback => exact ⟨hlinked, fun _ hmem => absurd hmem (not_mem_none _)⟩

theorem ExecutionTables.Linked.fillLinked {t : ExecutionTables} (h : t.Linked) {fill : TradeFill}
    (hfill : fill ∈ t.fills.rows) : t.FillLinked fill := by
  intro order horder
  obtain ⟨own, hown, hrun⟩ := map_eq_some_iff.mp (h fill hfill order horder)
  have hkeys : ∀ link : ExecutionLink, link.key = fill.tradeLinkKey ↔
      link.accountId = fill.accountId ∧ link.tradeId = some fill.tradeId := by
    intro link
    unfold ExecutionLink.key TradeFill.tradeLinkKey
    cases link.tradeId <;> simp
  obtain ⟨haccount, htrade⟩ := (hkeys own).mp (Keyed.key_of_get? hown)
  refine ⟨own, Keyed.mem_rows_of_get? hown, haccount, htrade, hrun, fun other hother ha ht => ?_⟩
  have hget := Keyed.mem_rows_iff.mp hother
  rw [(hkeys other).mpr ⟨ha, ht⟩, hown] at hget
  exact (some.inj hget).symm

/-- In every interleaving of placements and passes in which orders get their links in time,
every stored fill of a linked order has exactly one link, to the run of its order. -/
theorem fills_linked (steps : List LinkStep)
    (h : linking.Along (fun q _ s => q.InTime s) steps {}) :
    linking.Along (fun q _ s => ∀ fill ∈ (linking.step q s).tables.fills.rows,
      (linking.step q s).tables.FillLinked fill) steps {} := by
  have hvalid : ({} : LinkState).Valid :=
    ⟨fun _ hfill => absurd hfill List.not_mem_nil, fun _ hmem => absurd hmem (Option.not_mem_none _)⟩
  generalize ({} : LinkState) = s at h hvalid
  induction steps generalizing s with
  | nil => trivial
  | cons q rest ih =>
    have hafter := LinkStep.valid hvalid h.1
    exact ⟨fun fill hfill => hafter.1.fillLinked hfill, ih _ h.2 hafter⟩

/-! ## a fast fill -/

/-- The trade of an order, and the link of that order. -/
def fastTrade : BrokerTrade where
  tradeId := "T1"
  orderId := "O1"
  instrumentToken := 1
  exchange := "NSE"
  tradingsymbol := "INFY"
  product := "MIS"
  transactionType := .buy
  quantity := 10
  averagePrice := 1500
  fillTimestamp := 1
  trade_named := by decide +kernel
  order_named := by decide +kernel
  product_named := by decide

def fastLink : ExecutionLink :=
  { strategyRunId := "run-1", accountId := "kite:AB1234", brokerOrderId := "O1" }

def fastPass (n : Nat) : List LinkStep :=
  .begin "kite:AB1234" none [fastTrade] true :: List.replicate n .advance ++ [.commit]

/-- The link comes while the pass is between the fill and the search for it. -/
theorem fills_linked_demo :
    linking.Along (fun q _ s => ∀ fill ∈ (linking.step q s).tables.fills.rows,
      (linking.step q s).tables.FillLinked fill)
      [.begin "kite:AB1234" none [fastTrade] true, .advance, .link fastLink, .advance, .advance,
        .commit] {} :=
  fills_linked _ (by decide +kernel)

/-- The link comes after the pass: the fill has none, and another pass does not change that. -/
theorem late_link_misses_fill :
    let t := (linking.run (fastPass 2 ++ .link fastLink :: fastPass 2) {}).tables
    t.fills.rows.map TradeFill.orderId = ["O1"] ∧ t.links.rows.map ExecutionLink.tradeId = [none] ∧
      ¬ ∀ fill ∈ t.fills.rows, t.FillLinked fill := by
  intro t
  have hlinks : t.links.rows = [fastLink] := by decide +kernel
  have hfill : fastTrade.toFill "kite:AB1234" "O1" true ∈ t.fills.rows := by decide +kernel
  have horder : t.links.get?
      (TradeFill.orderLinkKey (fastTrade.toFill "kite:AB1234" "O1" true)) = some fastLink := by
    decide +kernel
  refine ⟨by decide +kernel, by rw [hlinks]; rfl, fun h => ?_⟩
  obtain ⟨own, hown, -, htrade, -⟩ := h _ hfill fastLink horder
  rw [hlinks, List.mem_singleton] at hown
  rw [hown] at htrade
  cases htrade

end KiteAlgo
