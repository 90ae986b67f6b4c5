import KiteAlgo.Journal
import KiteAlgo.Lib.Run
import Mathlib.Data.List.Range

/-!
# KiteAlgo.Journal.Episodes

The episodes of one execution context, when its fills are recorded one after another and no
call fails.

At most one episode is open; its map holds what the fills add up to, and the facts of a
closed episode cancel.  The exception is a fill that turns a position around while all others
are flat: its episode is closed with the old quantity, and the next one starts with the whole
fill instead of what was left of it (`episodes_mirror_iff`).
-/

namespace KiteAlgo.Journal

open Table Calls TransactionType Keyed
/-! ## the list of episodes -/

section Listing

variable {t : JournalTables} {context : ExecutionContext}

/-- Sequence numbers count up from 1, and no episode was opened before an earlier one. -/
structure JournalTables.Chronological (t : JournalTables) (context : ExecutionContext) : Prop where
  seqs : (t.episodesOf context).map Episode.episodeSeq = List.range' 1 (t.episodesOf context).length
  times : (t.episodesOf context).Pairwise fun a b => a.openedAt ≤ b.openedAt

theorem JournalTables.Chronological.pairwise (h : t.Chronological context) :
    (t.episodesOf context).Pairwise fun a b => a.openedAt ≤ b.openedAt ∧ a.episodeSeq < b.episodeSeq := by
  have hseq : ((t.episodesOf context).map Episode.episodeSeq).Pairwise (· < ·) := by
    rw [h.seqs]
    exact List.pairwise_lt_range'
  rw [List.pairwise_map] at hseq
  exact h.times.and hseq

theorem JournalTables.Chronological.sorted (h : t.Chronological context) :
    sortBy Episode.before (t.episodesOf context) = (t.episodesOf context).reverse := by
  have hpair := h.pairwise
  have hdiffer : ∀ a ∈ t.episodesOf context, ∀ b ∈ t.episodesOf context,
      a.episodeSeq = b.episodeSeq → a = b := by
    refine List.inj_on_of_nodup_map ?_
    rw [h.seqs]
    exact List.nodup_range'
  refine List.Perm.eq_of_pairwise (fun a b ha hb hab hba => ?_)
    (pairwise_sortBy (fun a b => ?_) (fun a b c hab hbc => ?_) _) (List.pairwise_reverse.mpr ?_)
    ((perm_sortBy _ _).trans (List.reverse_perm _).symm)
  · refine hdiffer a (mem_sortBy.mp ha) b (List.mem_reverse.mp hb) ?_
    have hab := of_decide_eq_true hab
    have hba := of_decide_eq_true hba
    omega
  · simp only [Episode.before, decide_eq_true_eq]
    omega
  · have hab := of_decide_eq_true hab
    have hbc := of_decide_eq_true hbc
    refine decide_eq_true ?_
    omega
  · refine hpair.imp fun {a b} hab => decide_eq_true ?_
    omega

theorem foldl_max_eq {xs : List Nat} {n : Nat} (h : ∀ x ∈ xs, x ≤ n) : xs.foldl max n = n := by
  induction xs with
  | nil => rfl
  | cons x xs ih =>
    rw [List.foldl_cons, Nat.max_eq_left (h x List.mem_cons_self)]
    exact ih fun y hy => h y (List.mem_cons_of_mem x hy)

theorem JournalTables.Chronological.nextEpisodeSequence (h : t.Chronological context) :
    nextEpisodeSequence ((t.listEpisodes context 200).map Episode.episodeSeq) =
      (t.episodesOf context).length + 1 := by
  rw [listEpisodes, h.sorted, List.map_take, List.map_reverse, h.seqs]
  cases hlength : (t.episodesOf context).length with
  | zero => rfl
  | succ n =>
    rw [List.range'_1_concat, List.reverse_concat, Journal.nextEpisodeSequence]
    show (List.take 199 _).foldl max (max 0 (1 + n)) + 1 = _
    rw [foldl_max_eq fun x hx => ?_]
    · omega
    · have hmem := List.mem_range'_1.mp (List.mem_reverse.mp (List.mem_of_mem_take hx))
      omega

end Listing

/-! ## the writes -/

section Writes

variable {t : JournalTables} {context : ExecutionContext} {status : EpisodeStatus}
  {map : Table String Int}

variable {earlier : List Episode} {last : Episode}

theorem JournalTables.episodesOf_update_last (h : t.episodesOf context = earlier ++ [last])
    (hchron : t.Chronological context) (closedAt : Option Int) (reason : Option String) :
    (t.updateEpisodeStatus last.id status closedAt map reason).episodesOf context =
      earlier ++ [last.updated status closedAt map reason] := by
  have hmap : (t.updateEpisodeStatus last.id status closedAt map reason).episodesOf context =
      (t.episodesOf context).map fun episode =>
        if episode.id = last.id then episode.updated status closedAt map reason else episode := by
    simp only [episodesOf, updateEpisodeStatus, Keyed.modify, List.filter_map]
    congr 1
    refine List.filter_congr fun episode _ => ?_
    simp only [Function.comp_apply]
    split <;> rfl
  have hdiffer : ∀ episode ∈ earlier, episode.id ≠ last.id := by
    intro episode hepisode heq
    have hpair := hchron.pairwise
    rw [h, List.pairwise_append] at hpair
    have hlt := (hpair.2.2 episode hepisode last (.head _)).2
    have hseq : episode.episodeSeq = last.episodeSeq := (Prod.mk.inj heq).2
    omega
  rw [hmap, h, List.map_append, List.map_singleton, if_pos rfl]
  congr 1
  calc earlier.map _ = earlier.map fun episode => episode :=
        List.map_congr_left fun episode hepisode => if_neg (hdiffer episode hepisode)
    _ = earlier := List.map_id earlier

theorem JournalTables.ensureEpisode_fresh {seq : Nat} (h : t.episodes.get? (context, seq) = none)
    (openedAt : Int) :
    t.ensureEpisode context seq status openedAt map = ((context, seq),
        { t with episodes := t.episodes.upsert (.new context seq status openedAt map) }) := by
  rw [ensureEpisode, h]

theorem JournalTables.Chronological.get?_next (h : t.Chronological context) :
    t.episodes.get? (context, (t.episodesOf context).length + 1) = none := by
  cases hget : t.episodes.get? (context, (t.episodesOf context).length + 1) with
  | none => rfl
  | some episode =>
    have hid : episode.id = (context, (t.episodesOf context).length + 1) := key_of_get? hget
    have hmem : episode ∈ t.episodesOf context :=
      List.mem_filter.mpr ⟨mem_rows_of_get? hget, decide_eq_true (Prod.mk.inj hid).1⟩
    have hseq := List.mem_map_of_mem (f := Episode.episodeSeq) hmem
    rw [h.seqs, List.mem_range'_1, (Prod.mk.inj hid).2] at hseq
    omega

theorem JournalTables.Chronological.episodesOf_ensure (h : t.Chronological context)
    (openedAt : Int) :
    (t.ensureEpisode context ((t.episodesOf context).length + 1) status openedAt map).2.episodesOf
        context =
      t.episodesOf context ++ [.new context ((t.episodesOf context).length + 1) status openedAt map] := by
  rw [ensureEpisode_fresh h.get?_next, episodesOf, rows_upsert_of_fresh h.get?_next,
    List.filter_append, List.filter_singleton, ← episodesOf]
  simp [Episode.new]

theorem JournalTables.Chronological.of_map {t' : JournalTables} (h : t.Chronological context)
    (heq : (t'.episodesOf context).map (fun episode => (episode.openedAt, episode.episodeSeq)) =
      (t.episodesOf context).map fun episode => (episode.openedAt, episode.episodeSeq)) :
    t'.Chronological context := by
  have hseqs := congrArg (List.map Prod.snd) heq
  have hopened := congrArg (List.map Prod.fst) heq
  have hlength := congrArg List.length heq
  have htimes : ((t.episodesOf context).map Episode.openedAt).Pairwise (· ≤ ·) :=
    List.pairwise_map.mpr h.times
  rw [List.map_map, List.map_map] at hseqs hopened
  rw [List.length_map, List.length_map] at hlength
  constructor
  · rw [hlength, ← h.seqs]
    exact hseqs
  · have hsame : (t'.episodesOf context).map Episode.openedAt =
        (t.episodesOf context).map Episode.openedAt := hopened
    rw [← hsame] at htimes
    exact List.pairwise_map.mp htimes

theorem JournalTables.Chronological.update_last (hchron : t.Chronological context)
    (h : t.episodesOf context = earlier ++ [last]) (closedAt : Option Int)
    (reason : Option String) :
    (t.updateEpisodeStatus last.id status closedAt map reason).Chronological context := by
  refine hchron.of_map ?_
  rw [episodesOf_update_last h hchron, h, List.map_append, List.map_append]
  rfl

end Writes

/-! ## fills of one context -/

structure InstrumentFill where
  sourceType : SourceType
  sourceKey : String
  instrumentKey : String
  side : TransactionType
  quantity : Nat
  fillTimestamp : Int
  recordedAt : Int
  quantity_pos : 0 < quantity

namespace InstrumentFill

def source (fill : InstrumentFill) : SourceKey := (fill.sourceType, fill.sourceKey)

def signed (fill : InstrumentFill) : Int :=
  match fill.side with
  | .buy => fill.quantity
  | .sell => -fill.quantity

/-- The arguments of its recording, for a journal run. -/
def record (fill : InstrumentFill) (context : ExecutionContext) (runId : Nat) : FillRecord where
  context := context
  sourceType := fill.sourceType
  sourceFactKey := fill.sourceKey
  side := fill.side.text
  quantity := fill.quantity
  fillTimestamp := fill.fillTimestamp
  instrumentKey := fill.instrumentKey
  runId := some runId

theorem signedQuantity_eq (fill : InstrumentFill) :
    signedQuantity fill.side.text fill.quantity = fill.signed := by
  have hbuy : Text.upper (text .buy) = "BUY" := by decide +kernel
  have hsell : Text.upper (text .sell) = "SELL" := by decide +kernel
  unfold signedQuantity signed
  cases fill.side <;> simp [hbuy, hsell]

end InstrumentFill

/-- The signed sum of the fills of an instrument. -/
def position (fills : List InstrumentFill) (instrumentKey : String) : Int :=
  ((fills.filter fun fill => fill.instrumentKey = instrumentKey).map InstrumentFill.signed).sum

theorem position_concat (past : List InstrumentFill) (fill : InstrumentFill) (key : String) :
    position (past ++ [fill]) key =
      position past key + if fill.instrumentKey = key then fill.signed else 0 := by
  rw [position, List.filter_append, List.map_append, List.sum_append, ← position, List.filter_singleton]
  by_cases h : fill.instrumentKey = key <;> simp [h]

/-- The fill takes its instrument from long to short or from short to long. -/
def Reverses (previousQty : Int) (fill : InstrumentFill) : Prop :=
  0 < previousQty ∧ previousQty + fill.signed < 0 ∨ previousQty < 0 ∧ 0 < previousQty + fill.signed

instance (previousQty : Int) (fill : InstrumentFill) : Decidable (Reverses previousQty fill) :=
  inferInstanceAs (Decidable (_ ∨ _))

theorem exists_positionEffect (previousQty : Int) (fill : InstrumentFill) :
    ∃ effect, classifyPositionEffect previousQty fill.side.text fill.quantity = some effect ∧
      (effect = .flip ↔ Reverses previousQty fill) := by
  have hpos := fill.quantity_pos
  have hquantity : ¬ (fill.quantity : Int) ≤ 0 := by omega
  have hbuy : Text.upper (Text.strip (text .buy)) = "BUY" := by decide +kernel
  have hsell : Text.upper (Text.strip (text .sell)) = "SELL" := by decide +kernel
  unfold classifyPositionEffect Reverses InstrumentFill.signed
  rw [if_neg hquantity]
  cases fill.side with
  | buy =>
    simp only [hbuy, ne_eq, not_true_eq_false, false_and, String.reduceEq, if_false, if_true]
    split_ifs <;> refine ⟨_, rfl, ?_⟩ <;> simp <;> omega
  | sell =>
    simp only [hsell, ne_eq, not_true_eq_false, and_false, String.reduceEq, if_false, if_true]
    split_ifs <;> refine ⟨_, rfl, ?_⟩ <;> simp <;> omega

theorem allPositionsFlat_iff (map : Table String Int) :
    allPositionsFlat map = true ↔ ∀ key, (map.get? key).getD 0 = 0 := by
  rw [allPositionsFlat, List.all_eq_true]
  constructor
  · intro h key
    cases hget : map.get? key with
    | none => rfl
    | some quantity => exact of_decide_eq_true (h (key, quantity) (Table.mem_rows_iff.mpr hget))
  · rintro h ⟨key, quantity⟩ hmem
    have hzero := h key
    rw [Table.mem_rows_iff.mp hmem] at hzero
    exact decide_eq_true hzero

/-! ## what the journal should say -/

/-- The signed quantities of an episode's facts in one instrument. -/
def JournalTables.factSum (t : JournalTables) (id : EpisodeId) (key : String) : Int :=
  ((t.facts.rows.filter fun fact => fact.episodeId = some id ∧ fact.instrumentKey = key).map
    ExecutionFact.signed).sum

def JournalTables.openQuantity (t : JournalTables) (context : ExecutionContext) (key : String) :
    Int :=
  (((t.episodesOf context).find? fun episode => episode.status.active).bind fun episode =>
    episode.netQuantityByInstrument.get? key).getD 0

/-- The episodes of a context mirror its fills. -/
structure Mirrors (context : ExecutionContext) (past : List InstrumentFill) (t : JournalTables) :
    Prop where
  one_open : ((t.episodesOf context).filter fun episode => episode.status.active).length ≤ 1
  position : ∀ key, t.openQuantity context key = position past key
  realized : ∀ episode ∈ t.episodesOf context, episode.status = .closed →
    ∀ key, t.factSum episode.id key = 0

/-- A fill takes its position through zero while all other positions are flat. -/
def TurnsAround (past : List InstrumentFill) (fill : InstrumentFill) : Prop :=
  Reverses (position past fill.instrumentKey) fill ∧
    ∀ other ∈ past, other.instrumentKey ≠ fill.instrumentKey → position past other.instrumentKey = 0

instance (past : List InstrumentFill) (fill : InstrumentFill) : Decidable (TurnsAround past fill) :=
  inferInstanceAs (Decidable (_ ∧ _))

theorem position_of_notMem {past : List InstrumentFill} {key : String}
    (h : ∀ fill ∈ past, fill.instrumentKey ≠ key) : position past key = 0 := by
  rw [position, List.filter_eq_nil_iff.mpr fun fill hfill => by simpa using h fill hfill]
  rfl

theorem turnsAround_iff (past : List InstrumentFill) (fill : InstrumentFill) :
    TurnsAround past fill ↔ Reverses (position past fill.instrumentKey) fill ∧
      ∀ key, key ≠ fill.instrumentKey → position past key = 0 := by
  refine and_congr_right fun _ => ⟨fun h key hkey => ?_, fun h other _ => h other.instrumentKey⟩
  by_cases hmem : ∃ other ∈ past, other.instrumentKey = key
  · obtain ⟨other, hother, rfl⟩ := hmem
    exact h other hother hkey
  · exact position_of_notMem fun other hother heq => hmem ⟨other, hother, heq⟩

/-! ## the journal while no fill turns around -/

/-- The journal of a context after `past`, with `rest` still to come. -/
structure Ledger (context : ExecutionContext) (past rest : List InstrumentFill) (t : JournalTables)
    (closed : List Episode) (current : Option Episode) : Prop where
  rows : t.episodesOf context = closed ++ current.toList
  chronological : t.Chronological context
  closed_status : ∀ episode ∈ closed, episode.status = .closed
  current_status : ∀ episode ∈ current, episode.status = .opened
  map : ∀ key, (current.bind fun episode => episode.netQuantityByInstrument.get? key).getD 0 =
    position past key
  closed_facts : ∀ episode ∈ closed, ∀ key, t.factSum episode.id key = 0
  current_facts : ∀ episode ∈ current, ∀ key, t.factSum episode.id key = position past key
  no_later_facts : ∀ fact ∈ t.facts.rows, ∀ seq, fact.episodeId = some (context, seq) →
    seq ≤ (t.episodesOf context).length
  times : ∀ fill ∈ rest, ∀ episode ∈ t.episodesOf context, episode.openedAt ≤ fill.fillTimestamp

def JournalTables.Fresh (t : JournalTables) (fills : List InstrumentFill) : Prop :=
  ∀ fill ∈ fills, t.claims.get? fill.source = none ∧ t.facts.get? fill.source = none

namespace Ledger

variable {context : ExecutionContext} {past rest : List InstrumentFill} {t : JournalTables}
  {closed : List Episode} {current : Option Episode}

theorem current_active (h : Ledger context past rest t closed current) (episode : Episode)
    (hepisode : episode ∈ current) : episode.status.active = true := by
  rw [h.current_status episode hepisode]
  rfl

theorem closed_inactive (h : Ledger context past rest t closed current) (episode : Episode)
    (hepisode : episode ∈ closed) : ¬ episode.status.active = true := by
  rw [h.closed_status episode hepisode]
  exact Bool.false_ne_true

theorem find?_active (h : Ledger context past rest t closed current) :
    (t.episodesOf context).find? (fun episode => episode.status.active) = current := by
  rw [h.rows, List.find?_append, List.find?_eq_none.mpr h.closed_inactive, Option.none_or]
  cases current with
  | none => rfl
  | some episode => exact List.find?_cons_of_pos (h.current_active episode rfl)

theorem find?_listed (h : Ledger context past rest t closed current) :
    (t.listEpisodes context 200).find? (fun episode => episode.status.active) = current := by
  rw [JournalTables.listEpisodes, h.chronological.sorted, h.rows, List.reverse_append]
  have hnone : ∀ n, (closed.reverse.take n).find? (fun episode => episode.status.active) = none :=
    fun n => List.find?_eq_none.mpr fun episode hepisode =>
      h.closed_inactive episode (List.mem_reverse.mp (List.mem_of_mem_take hepisode))
  cases current with
  | none => exact hnone 200
  | some episode => exact List.find?_cons_of_pos (h.current_active episode rfl)

theorem mirrors (h : Ledger context past rest t closed current) : Mirrors context past t where
  one_open := by
    rw [h.rows, List.filter_append, List.filter_eq_nil_iff.mpr h.closed_inactive, List.nil_append]
    refine (List.length_filter_le _ _).trans ?_
    cases current <;> simp
  position key := by
    rw [JournalTables.openQuantity, h.find?_active]
    exact h.map key
  realized episode hepisode hclosed key := by
    rw [h.rows, List.mem_append] at hepisode
    rcases hepisode with hepisode | hepisode
    · exact h.closed_facts episode hepisode key
    · have hopen := h.current_status episode (by simpa using hepisode)
      rw [hopen] at hclosed
      cases hclosed

theorem factSum_of_none {id : EpisodeId} (h : ∀ fact ∈ t.facts.rows, fact.episodeId ≠ some id)
    (key : String) : t.factSum id key = 0 := by
  rw [JournalTables.factSum, List.filter_eq_nil_iff.mpr fun fact hfact => by simp [h fact hfact]]
  rfl

theorem opened {fill : InstrumentFill} (h : Ledger context past (fill :: rest) t closed none)
    (hsorted : ∀ later ∈ rest, fill.fillTimestamp ≤ later.fillTimestamp) :
    let active := Episode.new context ((t.episodesOf context).length + 1) .opened fill.fillTimestamp
      (Table.empty.upsert fill.instrumentKey 0)
    Ledger context past (fill :: rest) { t with episodes := t.episodes.upsert active } closed
      (some active) := by
  intro active
  have hflat : ∀ key, position past key = 0 := fun key => (h.map key).symm
  have hrows : JournalTables.episodesOf { t with episodes := t.episodes.upsert active } context =
      t.episodesOf context ++ [active] := by
    have hensure : (t.ensureEpisode context ((t.episodesOf context).length + 1) .opened
        fill.fillTimestamp (Table.empty.upsert fill.instrumentKey 0)).2.episodesOf context =
        t.episodesOf context ++ [active] := h.chronological.episodesOf_ensure fill.fillTimestamp
    rw [JournalTables.ensureEpisode_fresh h.chronological.get?_next] at hensure
    exact hensure
  have hlater : ∀ later ∈ fill :: rest, fill.fillTimestamp ≤ later.fillTimestamp := by
    intro later hmem
    rcases List.mem_cons.mp hmem with rfl | hmem
    · exact le_rfl
    · exact hsorted later hmem
  constructor
  · rw [hrows, h.rows, Option.toList_none, List.append_nil, Option.toList_some]
  · constructor
    · rw [hrows, List.map_append, h.chronological.seqs, List.length_append, List.length_singleton,
        List.range'_1_concat, Nat.add_comm 1]
      rfl
    · rw [hrows, List.pairwise_append]
      refine ⟨h.chronological.times, List.pairwise_singleton _ _, fun episode hepisode other hother => ?_⟩
      rw [List.mem_singleton.mp hother]
      exact h.times fill (.head _) episode hepisode
  · exact h.closed_status
  · rintro episode ⟨⟩
    rfl
  · intro key
    rw [hflat]
    show ((Table.empty.upsert fill.instrumentKey 0).get? key).getD 0 = 0
    rw [Table.get?_upsert]
    split <;> rfl
  · exact h.closed_facts
  · rintro episode ⟨⟩ key
    rw [hflat]
    refine factSum_of_none (fun fact hfact heq => ?_) key
    exact absurd (h.no_later_facts fact hfact _ heq) (Nat.not_succ_le_self _)
  · intro fact hfact seq hseq
    rw [hrows, List.length_append]
    exact Nat.le_add_right_of_le (h.no_later_facts fact hfact seq hseq)
  · intro later hmem episode hepisode
    rw [hrows, List.mem_append, List.mem_singleton] at hepisode
    rcases hepisode with hepisode | rfl
    · exact h.times later hmem episode hepisode
    · exact hlater later hmem

theorem activeEpisode_of_open {fill : InstrumentFill} {active : Episode}
    (h : Ledger context past (fill :: rest) t closed (some active)) (runId sequence : Nat) :
    (Journal.activeEpisode (fill.record context runId) (t.listEpisodes context 200) sequence).run t =
      (some (active, position past fill.instrumentKey), t) := by
  unfold Journal.activeEpisode
  rw [h.find?_listed, ← h.map fill.instrumentKey]
  rfl

theorem activeEpisode {fill : InstrumentFill} (h : Ledger context past (fill :: rest) t closed current)
    (hsorted : ∀ later ∈ rest, fill.fillTimestamp ≤ later.fillTimestamp) (runId : Nat) :
    ∃ active t', (activeEpisode (fill.record context runId) (t.listEpisodes context 200)
        ((t.episodesOf context).length + 1)).run t = (some (active, position past fill.instrumentKey), t') ∧
      t'.facts = t.facts ∧ t'.claims = t.claims ∧
      Ledger context past (fill :: rest) t' closed (some active) := by
  cases current with
  | some active => exact ⟨active, t, h.activeEpisode_of_open runId _, rfl, rfl, h⟩
  | none =>
    unfold Journal.activeEpisode
    rw [h.find?_listed]
    refine ⟨_, { t with episodes := t.episodes.upsert _ }, ?_, rfl, rfl, h.opened hsorted⟩
    have hzero : position past fill.instrumentKey = 0 := (h.map _).symm
    simp only [run_bind, run_call, run_read, InstrumentFill.record,
      JournalTables.ensureEpisode_fresh h.chronological.get?_next, hzero]
    have hget : (t.episodes.upsert (Episode.new context ((t.episodesOf context).length + 1) .opened
        fill.fillTimestamp (Table.empty.upsert fill.instrumentKey 0))).get?
          (context, (t.episodesOf context).length + 1) = _ := Keyed.get?_upsert_self t.episodes _
    rw [hget]
    rfl

theorem settled {fill : InstrumentFill} {active : Episode} {map : Table String Int} {T : JournalTables}
    {status : EpisodeStatus} {closedAt : Option Int} {fact : ExecutionFact}
    (h : Ledger context past (fill :: rest) t closed (some active))
    (hmap : ∀ key, (map.get? key).getD 0 = position (past ++ [fill]) key)
    (hstatus : status = if allPositionsFlat map then .closed else .opened)
    (hepisodes : T.episodesOf context = closed ++ [active.updated status closedAt map none])
    (hfacts : T.facts.rows = t.facts.rows ++ [fact]) (hid : fact.episodeId = some active.id)
    (hkey : fact.instrumentKey = fill.instrumentKey) (hsigned : fact.signed = fill.signed) :
    ∃ closed' current', Ledger context (past ++ [fill]) rest T closed' current' := by
  have hrows := h.rows
  rw [Option.toList_some] at hrows
  have hchron : T.Chronological context := by
    refine h.chronological.of_map ?_
    rw [hepisodes, hrows, List.map_append, List.map_append]
    rfl
  have hsum : ∀ id key, T.factSum id key =
      t.factSum id key + if active.id = id ∧ fill.instrumentKey = key then fill.signed else 0 := by
    intro id key
    rw [JournalTables.factSum, hfacts, List.filter_append, List.map_append, List.sum_append,
      ← JournalTables.factSum, List.filter_singleton, hid, hkey]
    by_cases hone : active.id = id ∧ fill.instrumentKey = key
    · simp [hone, hsigned]
    · simp [hone]
  have hother : ∀ episode ∈ closed, active.id ≠ episode.id := by
    intro episode hepisode heq
    have hpair := h.chronological.pairwise
    rw [hrows, List.pairwise_append] at hpair
    have hlt := (hpair.2.2 episode hepisode active (.head _)).2
    have hseq : active.episodeSeq = episode.episodeSeq := (Prod.mk.inj heq).2
    omega
  have hclosed : ∀ episode ∈ closed, ∀ key, T.factSum episode.id key = 0 := by
    intro episode hepisode key
    rw [hsum, if_neg fun hone => hother episode hepisode hone.1, h.closed_facts episode hepisode key]
    rfl
  have hactive : ∀ key, T.factSum active.id key = position (past ++ [fill]) key := by
    intro key
    rw [hsum, h.current_facts active rfl key, position_concat]
    simp
  have hlength : (T.episodesOf context).length = (t.episodesOf context).length := by
    rw [hepisodes, hrows, List.length_append, List.length_append]
    rfl
  have hlater : ∀ fact ∈ T.facts.rows, ∀ seq, fact.episodeId = some (context, seq) →
      seq ≤ (T.episodesOf context).length := by
    intro other hother seq hseq
    rw [hlength]
    rw [hfacts, List.mem_append, List.mem_singleton] at hother
    rcases hother with hother | rfl
    · exact h.no_later_facts other hother seq hseq
    · rw [hid, Option.some.injEq] at hseq
      have hmem : active ∈ t.episodesOf context := by
        rw [hrows]
        exact List.mem_append_right _ (.head _)
      have hrange := List.mem_map_of_mem (f := Episode.episodeSeq) hmem
      rw [h.chronological.seqs, List.mem_range'_1, (Prod.mk.inj hseq).2] at hrange
      omega
  have htimes : ∀ later ∈ rest, ∀ episode ∈ T.episodesOf context,
      episode.openedAt ≤ later.fillTimestamp := by
    intro later hmem episode hepisode
    have hold := h.times later (.tail _ hmem)
    rw [hrows] at hold
    rw [hepisodes, List.mem_append, List.mem_singleton] at hepisode
    rcases hepisode with hepisode | rfl
    · exact hold episode (List.mem_append_left _ hepisode)
    · exact hold active (List.mem_append_right _ (.head _))
  by_cases hflat : allPositionsFlat map = true
  · rw [if_pos hflat] at hstatus
    have hzero : ∀ key, position (past ++ [fill]) key = 0 := fun key =>
      (hmap key).symm.trans ((allPositionsFlat_iff map).mp hflat key)
    refine ⟨closed ++ [active.updated status closedAt map none], none, ?_, hchron, ?_, ?_, ?_, ?_, ?_,
      hlater, htimes⟩
    · rw [hepisodes]
      simp
    · intro episode hepisode
      rw [List.mem_append, List.mem_singleton] at hepisode
      rcases hepisode with hepisode | rfl
      · exact h.closed_status episode hepisode
      · exact hstatus
    · rintro episode ⟨⟩
    · exact fun key => (hzero key).symm
    · intro episode hepisode key
      rw [List.mem_append, List.mem_singleton] at hepisode
      rcases hepisode with hepisode | rfl
      · exact hclosed episode hepisode key
      · exact (hactive key).trans (hzero key)
    · rintro episode ⟨⟩
  · rw [if_neg hflat] at hstatus
    refine ⟨closed, some (active.updated status closedAt map none), hepisodes, hchron,
      h.closed_status, ?_, hmap, hclosed, ?_, hlater, htimes⟩
    · rintro episode ⟨⟩
      exact hstatus
    · rintro episode ⟨⟩ key
      exact hactive key

end Ledger

/-! ## recording -/

section Recording

variable {effect : PositionEffect} {id : EpisodeId} {t' : JournalTables}

theorem recordV2ExecutionFill_run {r : FillRecord} {now : Int} {t : JournalTables} {runId : Nat}
    (hnamed : Text.strip r.context.externalRunId ≠ "") (hclaim : t.claims.get? r.source = none)
    (hfact : t.facts.get? r.source = none) (hrun : r.runId = some runId)
    (hresolve : (resolveEpisodeForFill r).run
        { t with claims := t.claims.upsert ⟨r.source, .processing, now⟩ } =
      (some (id, effect), t')) :
    ((recordV2ExecutionFill r now).run t).2 = (t'.insertExecutionFact
        (r.fact runId id (r.sourceFactKey ++ ":intent") effect)).markV2ProjectionSource
          r.source .projected now := by
  have hclaimable : t.Claimable r.source now := by
    intro claim hmem
    rw [hclaim] at hmem
    cases hmem
  have hfind : JournalTables.findV2ExecutionFactBySource
      { t with claims := t.claims.upsert ⟨r.source, .processing, now⟩ } r.source = none := by
    rw [JournalTables.findV2ExecutionFactBySource]
    show (t.facts.get? r.source).filter _ = none
    rw [hfact]
    rfl
  simp only [recordV2ExecutionFill, if_neg hnamed, run_bind, run_call, run_read,
    JournalTables.claimV2ProjectionSource, if_pos hclaimable, hfind, Bool.not_true,
    Option.isSome_none, Bool.or_self, Bool.false_eq_true, if_false, recordEpisodeFill,
    run_write, Function.id_def, hresolve, hrun, run_pure]

variable {context : ExecutionContext} {runId : Nat} {past rest : List InstrumentFill}
  {t : JournalTables} {closed : List Episode} {current : Option Episode} {fill : InstrumentFill}

theorem Ledger.with_claims (h : Ledger context past rest t closed current)
    (claims : Keyed ProjectionClaim.source) :
    Ledger context past rest { t with claims := claims } closed current :=
  ⟨h.rows, ⟨h.chronological.seqs, h.chronological.times⟩, h.closed_status, h.current_status, h.map,
    h.closed_facts, h.current_facts, h.no_later_facts, h.times⟩

def Episode.mapAfter (active : Episode) (past : List InstrumentFill) (fill : InstrumentFill) :
    Table String Int :=
  active.netQuantityByInstrument.upsert fill.instrumentKey
    (position past fill.instrumentKey + fill.signed)

theorem Ledger.mapAfter {active : Episode} (h : Ledger context past rest t closed (some active))
    (key : String) : ((active.mapAfter past fill).get? key).getD 0 = position (past ++ [fill]) key := by
  rw [Episode.mapAfter, Table.get?_upsert, position_concat]
  split
  · next heq =>
    subst heq
    rfl
  · rw [Int.add_zero]
    exact h.map key

theorem Ledger.resolve (h : Ledger context past (fill :: rest) t closed current)
    (hsorted : ∀ later ∈ rest, fill.fillTimestamp ≤ later.fillTimestamp)
    (hturn : ¬ TurnsAround past fill) (runId : Nat) :
    ∃ active t' effect status closedAt,
      Ledger context past (fill :: rest) t' closed (some active) ∧
      t'.facts = t.facts ∧ t'.claims = t.claims ∧
      status = (if allPositionsFlat (active.mapAfter past fill) then .closed else .opened) ∧
      (resolveEpisodeForFill (fill.record context runId)).run t = (some (active.id, effect),
        (t'.updateEpisodeStatus active.id status closedAt (active.mapAfter past fill) none).carry
          fill.source) := by
  obtain ⟨active, t', hactive, hfacts, hclaims, hledger⟩ := h.activeEpisode hsorted runId
  obtain ⟨effect, hclass, hflip⟩ := exists_positionEffect (position past fill.instrumentKey) fill
  have hresolve : (resolveEpisodeForFill (fill.record context runId)).run t =
      (settleFill (fill.record context runId) ((t.episodesOf context).length + 1) active
        (position past fill.instrumentKey)).run t' := by
    have hnext := h.chronological.nextEpisodeSequence
    simp only [resolveEpisodeForFill, run_bind, run_read, InstrumentFill.record] at hactive ⊢
    rw [hnext, hactive]
  have hafter : (fill.record context runId).after (position past fill.instrumentKey) =
      position past fill.instrumentKey + fill.signed := by
    rw [FillRecord.after, InstrumentFill.record, fill.signedQuantity_eq]
  rw [hresolve]
  by_cases heffect : effect = .flip
  · have hothers : allPositionsFlat
        (active.netQuantityByInstrument.upsert fill.instrumentKey 0) = false := by
      refine Bool.eq_false_iff.mpr fun hflat => ?_
      refine hturn ((turnsAround_iff past fill).mpr ⟨hflip.mp heffect, fun key hkey => ?_⟩)
      have hzero := (allPositionsFlat_iff _).mp hflat key
      rw [Table.get?_upsert_of_ne (Ne.symm hkey)] at hzero
      exact (hledger.map key).symm.trans hzero
    have hmap : ¬ allPositionsFlat (active.mapAfter past fill) = true := by
      intro hflat
      refine absurd ((allPositionsFlat_iff _).mpr fun key => ?_) (Bool.eq_false_iff.mp hothers)
      have hzero := (allPositionsFlat_iff _).mp hflat key
      rw [Episode.mapAfter, Table.get?_upsert] at hzero
      rw [Table.get?_upsert]
      split
      · rfl
      · next hne => rwa [if_neg hne] at hzero
    refine ⟨active, t', effect, .opened, none, hledger, hfacts, hclaims, (if_neg hmap).symm, ?_⟩
    simp only [settleFill, hafter]
    simp only [InstrumentFill.record, hclass, if_pos heffect, hothers, Bool.not_false, if_true]
    rfl
  · refine ⟨active, t', effect, _, if allPositionsFlat (active.mapAfter past fill) then
      some fill.fillTimestamp else none, hledger, hfacts, hclaims, rfl, ?_⟩
    simp only [settleFill, hafter]
    simp only [InstrumentFill.record, hclass, if_neg heffect]
    rfl

def recordFill (context : ExecutionContext) (runId : Nat) (fill : InstrumentFill)
    (t : JournalTables) : JournalTables :=
  ((recordV2ExecutionFill (fill.record context runId) fill.recordedAt).run t).2

/-- The tables after fills were recorded one after another. -/
def recordFills (context : ExecutionContext) (runId : Nat) (fills : List InstrumentFill)
    (t : JournalTables) : JournalTables :=
  fills.foldl (fun t fill => recordFill context runId fill t) t

theorem recordFills_cons (context : ExecutionContext) (runId : Nat) (fill : InstrumentFill)
    (fills : List InstrumentFill) (t : JournalTables) :
    recordFills context runId (fill :: fills) t =
      recordFills context runId fills (recordFill context runId fill t) := by
  rw [recordFills, List.foldl_cons, recordFills]

theorem JournalTables.Fresh.record (h : t.Fresh (fill :: rest))
    (hnamed : Text.strip context.externalRunId ≠ "")
    (hkeys : ∀ later ∈ rest, later.source ≠ fill.source)
    (hresolve : (resolveEpisodeForFill (fill.record context runId)).run
        { t with claims := t.claims.upsert ⟨fill.source, .processing, fill.recordedAt⟩ } =
      (some (id, effect), t')) (hfacts : t'.facts = t.facts)
    (hclaims : t'.claims = t.claims.upsert ⟨fill.source, .processing, fill.recordedAt⟩) :
    (recordFill context runId fill t).episodes = t'.episodes ∧
      (recordFill context runId fill t).facts.rows = t.facts.rows ++
        [(fill.record context runId).fact runId id (fill.sourceKey ++ ":intent") effect] ∧
      (recordFill context runId fill t).Fresh rest := by
  obtain ⟨hclaim, hfact⟩ := h fill (.head _)
  have hrun : recordFill context runId fill t = (t'.insertExecutionFact
      ((fill.record context runId).fact runId id (fill.sourceKey ++ ":intent")
        effect)).markV2ProjectionSource fill.source .projected fill.recordedAt :=
    recordV2ExecutionFill_run hnamed hclaim hfact rfl hresolve
  have hinsert : (recordFill context runId fill t).facts = t.facts.upsert
      ((fill.record context runId).fact runId id (fill.sourceKey ++ ":intent") effect) := by
    have hkey : ((fill.record context runId).fact runId id (fill.sourceKey ++ ":intent")
        effect).key = fill.source := rfl
    rw [hrun]
    simp only [JournalTables.markV2ProjectionSource, JournalTables.insertExecutionFact, hkey, hfacts, hfact]
  have hmark : (recordFill context runId fill t).claims = t'.claims.modify fill.source
      (fun claim => { claim with status := .projected, updatedAt := fill.recordedAt })
        fun _ => rfl := by
    rw [hrun]
    rfl
  refine ⟨by rw [hrun]; rfl, ?_, fun later hlater => ?_⟩
  · rw [hinsert]
    exact rows_upsert_of_fresh hfact
  · obtain ⟨hclaim', hfact'⟩ := h later (.tail _ hlater)
    have hskip : (ProjectionClaim.mk fill.source .processing fill.recordedAt).source ≠
        later.source := Ne.symm (hkeys later hlater)
    have hskip' : ((fill.record context runId).fact runId id (fill.sourceKey ++ ":intent")
        effect).key ≠ later.source := Ne.symm (hkeys later hlater)
    constructor
    · rw [hmark, get?_modify_of_ne (hkeys later hlater), hclaims,
        Keyed.get?_upsert_of_ne hskip, hclaim']
    · rw [hinsert, Keyed.get?_upsert_of_ne hskip', hfact']

theorem Ledger.record (h : Ledger context past (fill :: rest) t closed current)
    (hfresh : t.Fresh (fill :: rest)) (hnamed : Text.strip context.externalRunId ≠ "")
    (hsorted : ∀ later ∈ rest, fill.fillTimestamp ≤ later.fillTimestamp)
    (hkeys : ∀ later ∈ rest, later.source ≠ fill.source) (hturn : ¬ TurnsAround past fill) :
    (∃ closed' current', Ledger context (past ++ [fill]) rest (recordFill context runId fill t)
        closed' current') ∧
      (recordFill context runId fill t).Fresh rest := by
  obtain ⟨active, t', effect, status, closedAt, hledger, hfacts, hclaims, hstatus, hresolve⟩ :=
    (h.with_claims (t.claims.upsert ⟨fill.source, .processing, fill.recordedAt⟩)).resolve hsorted
      hturn runId
  obtain ⟨hepisodes, hrows, hrest⟩ := hfresh.record hnamed hkeys hresolve hfacts hclaims
  have hlast : (recordFill context runId fill t).episodesOf context =
      closed ++ [active.updated status closedAt (active.mapAfter past fill) none] := by
    rw [JournalTables.episodesOf, hepisodes]
    exact JournalTables.episodesOf_update_last hledger.rows hledger.chronological _ _
  rw [← hfacts] at hrows
  exact ⟨hledger.settled hledger.mapAfter hstatus hlast hrows rfl rfl fill.signedQuantity_eq, hrest⟩

theorem Ledger.turned (h : Ledger context past (fill :: rest) t closed current)
    (hfresh : t.Fresh (fill :: rest)) (hnamed : Text.strip context.externalRunId ≠ "")
    (hkeys : ∀ later ∈ rest, later.source ≠ fill.source) (hturn : TurnsAround past fill) :
    ¬ Mirrors context (past ++ [fill]) (recordFill context runId fill t) := by
  obtain ⟨hreverses, hothers⟩ := (turnsAround_iff past fill).mp hturn
  have hheld : position past fill.instrumentKey ≠ 0 := by
    unfold Reverses at hreverses
    omega
  cases current with
  | none => exact absurd (h.map fill.instrumentKey).symm hheld
  | some active =>
    intro hmirrors
    have hclaimed := h.with_claims (t.claims.upsert ⟨fill.source, .processing, fill.recordedAt⟩)
    generalize htc : { t with
      claims := t.claims.upsert ⟨fill.source, .processing, fill.recordedAt⟩ } = tc at hclaimed
    obtain ⟨effect, hclass, hflip⟩ := exists_positionEffect (position past fill.instrumentKey) fill
    have hflat : allPositionsFlat
        (active.netQuantityByInstrument.upsert fill.instrumentKey 0) = true := by
      refine (allPositionsFlat_iff _).mpr fun key => ?_
      rw [Table.get?_upsert]
      split
      · rfl
      · next hne => exact (h.map key).trans (hothers key (Ne.symm hne))
    -- the old episode is closed with what it held, the new one starts with the whole fill
    let closing := tc.updateEpisodeStatus active.id .closed (some fill.fillTimestamp)
      (active.netQuantityByInstrument.upsert fill.instrumentKey 0) (some "position_flip")
    let opening := (closing.ensureEpisode context ((tc.episodesOf context).length + 1) .opened
      fill.fillTimestamp (Table.empty.upsert fill.instrumentKey fill.signed)).2.carry fill.source
    have hresolve : (resolveEpisodeForFill (fill.record context runId)).run tc =
        (some ((context, (tc.episodesOf context).length + 1), effect), opening) := by
      have hactive := hclaimed.activeEpisode_of_open runId ((tc.episodesOf context).length + 1)
      have hnext := hclaimed.chronological.nextEpisodeSequence
      simp only [resolveEpisodeForFill, run_bind, run_read, InstrumentFill.record] at hactive ⊢
      rw [hnext, hactive]
      simp only [settleFill, hclass, if_pos (hflip.mpr hreverses), hflat, Bool.not_true,
        Bool.false_eq_true, if_false, fill.signedQuantity_eq]
      rfl
    have hclosing : closing.episodesOf context = closed ++ [active.updated .closed
        (some fill.fillTimestamp) (active.netQuantityByInstrument.upsert fill.instrumentKey 0)
        (some "position_flip")] :=
      JournalTables.episodesOf_update_last hclaimed.rows hclaimed.chronological _ _
    have hchron : closing.Chronological context :=
      hclaimed.chronological.update_last hclaimed.rows _ _
    have hlength : (tc.episodesOf context).length = (closing.episodesOf context).length := by
      rw [hclosing, hclaimed.rows, List.length_append, List.length_append]
      rfl
    have hopening : opening.episodesOf context = closing.episodesOf context ++
        [.new context ((tc.episodesOf context).length + 1) .opened fill.fillTimestamp
          (Table.empty.upsert fill.instrumentKey fill.signed)] := by
      show (closing.ensureEpisode context ((tc.episodesOf context).length + 1) _ _ _).2.episodesOf
        context = _
      rw [hlength]
      exact hchron.episodesOf_ensure fill.fillTimestamp
    subst htc
    obtain ⟨hepisodes, -, -⟩ := hfresh.record hnamed hkeys hresolve
      (JournalTables.ensureEpisode_facts _ _ _ _ _ _) (JournalTables.ensureEpisode_claims _ _ _ _ _ _)
    have hquantity : (recordFill context runId fill t).openQuantity context fill.instrumentKey =
        fill.signed := by
      rw [JournalTables.openQuantity, JournalTables.episodesOf, hepisodes,
        ← JournalTables.episodesOf, hopening, hclosing, List.append_assoc, List.find?_append,
        List.find?_eq_none.mpr hclaimed.closed_inactive, Option.none_or]
      show (((Table.empty.upsert fill.instrumentKey fill.signed).get? fill.instrumentKey)).getD 0 = _
      rw [Table.get?_upsert_self]
      rfl
    have hposition := hmirrors.position fill.instrumentKey
    rw [hquantity, position_concat, if_pos rfl] at hposition
    omega

theorem Ledger.mirrors_iff (hnamed : Text.strip context.externalRunId ≠ "")
    (h : Ledger context past rest t closed current)
    (hsorted : rest.Pairwise fun a b => a.fillTimestamp ≤ b.fillTimestamp)
    (hkeys : rest.Pairwise fun a b => b.source ≠ a.source) (hfresh : t.Fresh rest) :
    (∀ next, next <+: rest → Mirrors context (past ++ next) (recordFills context runId next t)) ↔
      AtEach (fun next fill => ¬ TurnsAround (past ++ next) fill) rest := by
  induction rest generalizing past t closed current with
  | nil =>
    refine ⟨fun _ => atEach_nil, fun _ next hnext => ?_⟩
    rw [List.prefix_nil.mp hnext, List.append_nil]
    exact h.mirrors
  | cons fill rest ih =>
    rw [List.pairwise_cons] at hsorted hkeys
    rw [atEach_cons, List.append_nil]
    by_cases hturn : TurnsAround past fill
    · refine iff_of_false (fun hall => ?_) fun hnone => hnone.1 hturn
      exact h.turned hfresh hnamed hkeys.1 hturn (hall [fill] ⟨rest, rfl⟩)
    · obtain ⟨⟨closed', current', hledger⟩, hrest⟩ :
          (∃ closed' current', Ledger context (past ++ [fill]) rest
            (recordFill context runId fill t) closed' current') ∧
          (recordFill context runId fill t).Fresh rest :=
        h.record hfresh hnamed hsorted.1 hkeys.1 hturn
      have hih := ih hledger hsorted.2 hkeys.2 hrest
      simp only [List.append_assoc, List.singleton_append] at hih
      rw [← hih]
      constructor
      · intro hall
        refine ⟨hturn, fun next hnext => ?_⟩
        rw [← recordFills_cons]
        exact hall (fill :: next) (List.cons_prefix_cons.mpr ⟨rfl, hnext⟩)
      · rintro ⟨-, hall⟩ next hnext
        cases next with
        | nil =>
          rw [List.append_nil]
          exact h.mirrors
        | cons other next =>
          obtain ⟨rfl, hlater⟩ := List.cons_prefix_cons.mp hnext
          rw [recordFills_cons]
          exact hall next hlater

/-- The episodes mirror the fills after each of them exactly where no fill takes its position
through zero while all others are flat. -/
theorem episodes_mirror_iff (context : ExecutionContext) (runId : Nat)
    (hnamed : Text.strip context.externalRunId ≠ "") (fills : List InstrumentFill)
    (hsorted : fills.Pairwise fun a b => a.fillTimestamp ≤ b.fillTimestamp)
    (hkeys : fills.Pairwise fun a b => b.source ≠ a.source) (t : JournalTables)
    (hepisodes : t.episodesOf context = [])
    (hfacts : ∀ fact ∈ t.facts.rows, ∀ seq, fact.episodeId ≠ some (context, seq))
    (hfresh : t.Fresh fills) :
    (∀ past, past <+: fills → Mirrors context past (recordFills context runId past t)) ↔
      AtEach (fun past fill => ¬ TurnsAround past fill) fills := by
  have hempty : Ledger context [] fills t [] none := by
    constructor
    · exact hepisodes
    · exact ⟨by rw [hepisodes]; rfl, by rw [hepisodes]; exact List.Pairwise.nil⟩
    · rintro episode ⟨⟩
    · rintro episode ⟨⟩
    · exact fun _ => rfl
    · rintro episode ⟨⟩
    · rintro episode ⟨⟩
    · exact fun fact hfact seq hseq => absurd hseq (hfacts fact hfact seq)
    · intro fill _ episode hepisode
      rw [hepisodes] at hepisode
      cases hepisode
  exact hempty.mirrors_iff hnamed hsorted hkeys hfresh

end Recording

def demoContext : ExecutionContext := ⟨"live:ACC1", "algo", "run-1"⟩

def demoFill (key : String) (side : TransactionType) (quantity : Nat) (instrument : String)
    (instant : Int) (h : 0 < quantity := by decide) : InstrumentFill :=
  ⟨.liveFill, key, instrument, side, quantity, instant, instant, h⟩

/-- A reversal inside a spread, and a round trip. -/
theorem episodes_mirror_demo :
    let fills := [demoFill "T1" .buy 10 "A:MIS" 1, demoFill "T2" .sell 10 "B:MIS" 2,
      demoFill "T3" .sell 15 "A:MIS" 3, demoFill "T4" .buy 5 "A:MIS" 4, demoFill "T5" .buy 10 "B:MIS" 5,
      demoFill "T6" .buy 1 "A:MIS" 6]
    ∀ past, past <+: fills → Mirrors demoContext past (recordFills demoContext 1 past {}) :=
  (episodes_mirror_iff demoContext 1 (by decide +kernel) _ (by decide +kernel) (by decide +kernel) {}
    rfl (by rintro fact ⟨⟩) (fun _ _ => ⟨rfl, rfl⟩)).mpr (by decide +kernel)

/-- Ten bought and fifteen sold: the closed episode is ten long, and the open one is fifteen
short instead of five. -/
theorem reversal_records_whole_fill :
    let fills := [demoFill "T1" .buy 10 "A:MIS" 1, demoFill "T2" .sell 15 "A:MIS" 2]
    let t := recordFills demoContext 1 fills {}
    position fills "A:MIS" = -5 ∧ t.openQuantity demoContext "A:MIS" = -15 ∧
      t.factSum (demoContext, 1) "A:MIS" = 10 ∧ ¬ Mirrors demoContext fills t := by
  refine ⟨by decide +kernel, by decide +kernel, by decide +kernel, fun h => ?_⟩
  exact absurd (h.position "A:MIS") (by decide +kernel)

end KiteAlgo.Journal
