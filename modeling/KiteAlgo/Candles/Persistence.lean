import KiteAlgo.Candles.Order
import KiteAlgo.Lib.Run
import KiteAlgo.Lib.Table

/-!
# KiteAlgo.Candles.Persistence

How completed candles reach `historical_candles` (`candle_storage.py` and
`_persist_pending_candles`).  A finalized candle is handed over in the `latest` slot of
its key, which the next finalized candle overwrites; a pass reads the slot and, later,
stores what it read unless a candle of that time or a newer one is stored.

A run is a list of ticks and passes, and ticks may arrive between the read and the store
of a pass.  Every candle that is finalized reaches storage exactly when the slot is read
between any two ticks that end a bucket (`reaches_storage_iff`).
-/

namespace KiteAlgo

open List Table
namespace Candles

variable {P : Type} [LinearOrder P]

/-! ## storage -/

/-- The rows of `historical_candles` for one token and interval, by time. -/
abbrev Rows (P : Type) := Table Int (Candle P)

namespace Rows

omit [LinearOrder P] in
/-- `get_latest_timestamp`: `SELECT MAX(ts)`. -/
def getLatestTimestamp (rows : Rows P) : Option Int := rows.rows.keys.max?

variable {k latest : Int} {row : Candle P} {rows : Rows P}

omit [LinearOrder P] in
theorem le_of_getLatestTimestamp (h : rows.getLatestTimestamp = some latest)
    (hk : rows.get? k = some row) : k ≤ latest := by
  have hmem : k ∈ rows.rows.keys := mem_map_of_mem (Dict.mem_of_get? hk)
  exact (max?_eq_some_iff.mp h).2 k hmem

omit [LinearOrder P] in
theorem ne_none_of_get? (rows : Rows P) (hk : rows.get? k = some row) :
    rows.getLatestTimestamp ≠ none := by
  intro hlatest
  have hmem : k ∈ rows.rows.keys := mem_map_of_mem (Dict.mem_of_get? hk)
  rw [getLatestTimestamp, max?_eq_none_iff] at hlatest
  simp [hlatest] at hmem

omit [LinearOrder P] in
theorem exists_of_getLatestTimestamp (h : rows.getLatestTimestamp = some latest) :
    ∃ row, rows.get? latest = some row := by
  have hmem : latest ∈ rows.rows.keys := (max?_eq_some_iff.mp h).1
  cases hget : rows.get? latest with
  | none => exact absurd hmem (Dict.get?_eq_none_iff.mp hget)
  | some row => exact ⟨row, rfl⟩

omit [LinearOrder P] in
/-- `INSERT … ON CONFLICT DO UPDATE` of the candles of one statement. -/
def upsertCandles (rows : Rows P) (candles : List (Candle P)) : Rows P :=
  candles.foldl (fun rows candle => rows.upsert candle.ts candle) rows

omit [LinearOrder P] in
/-- The part of a pass after the slot was read. -/
def persist (rows : Rows P) : Option (Candle P) → Rows P
  | none => rows
  | some candle =>
    match rows.getLatestTimestamp with
    | none => rows.upsertCandles [candle]
    | some latest => if candle.ts ≤ latest then rows else rows.upsertCandles [candle]

omit [LinearOrder P] in
theorem persist_some (rows : Rows P) (candle : Candle P) :
    ((∃ k row, rows.get? k = some row ∧ candle.ts ≤ k) ∧ rows.persist (some candle) = rows) ∨
      (∀ k row, rows.get? k = some row → k < candle.ts) ∧
        rows.persist (some candle) = rows.upsert candle.ts candle := by
  rw [persist]
  cases hlatest : rows.getLatestTimestamp with
  | none =>
    exact .inr ⟨fun k row hk => absurd hlatest (rows.ne_none_of_get? hk), rfl⟩
  | some latest =>
    by_cases hle : candle.ts ≤ latest
    · obtain ⟨row, hrow⟩ := exists_of_getLatestTimestamp hlatest
      exact .inl ⟨⟨latest, row, hrow, hle⟩, if_pos hle⟩
    · refine .inr ⟨fun k row hk => ?_, if_neg hle⟩
      have hk' := le_of_getLatestTimestamp hlatest hk
      omega

end Rows

/-! ## runs of ticks and passes -/

inductive Event (P : Type) where
  | tick (tick : Tick P)
  /-- A pass of `_persist_pending_candles`, with the ticks that arrive after it has read
  the slot and before it stores. -/
  | pass (during : List (Tick P))

/-- A series, what a pass under way has read, and the rows. -/
structure Stored (P : Type) where
  series : Series P := {}
  reading : Option (Candle P) := none
  rows : Rows P

namespace Stored

/-- `_update_candle`. -/
def tick (interval : Timeframe) (s : Stored P) (t : Tick P) : Stored P :=
  { s with series := s.series.update interval t }

omit [LinearOrder P] in
def read (s : Stored P) : Stored P := { s with reading := s.series.latest }

omit [LinearOrder P] in
def store (s : Stored P) : Stored P :=
  { s with rows := s.rows.persist s.reading, reading := none }

def step (interval : Timeframe) (s : Stored P) : Event P → Stored P
  | .tick t => s.tick interval t
  | .pass during => (during.foldl (tick interval) s.read).store

/-- The state after a run, from no candle and some rows. -/
def run (interval : Timeframe) (rows : Rows P) (events : List (Event P)) : Stored P :=
  events.foldl (step interval) { rows := rows }

end Stored

/-! ## reads between finalizations -/

/-- What the slot sees of a run: ticks and reads, in order. -/
inductive Mark (P : Type) where
  | tick (tick : Tick P)
  | read

def Event.marks : Event P → List (Mark P)
  | .tick t => [.tick t]
  | .pass during => .read :: during.map .tick

def marksOf (events : List (Event P)) : List (Mark P) := events.flatMap Event.marks

def Mark.tick? : Mark P → Option (Tick P)
  | .tick t => some t
  | .read => none

def Mark.ticks (marks : List (Mark P)) : List (Tick P) := marks.filterMap Mark.tick?

/-- A tick of another bucket than the tick before it. -/
def EndsBucket (interval : Timeframe) (past : List (Mark P)) (t : Tick P) : Prop :=
  ∃ before, (Mark.ticks past).getLast? = some before ∧ before.bucket interval ≠ t.bucket interval

/-- The slot was read after the last tick that ended a bucket. -/
def SlotRead (interval : Timeframe) (past : List (Mark P)) : Prop :=
  ∀ before t between, past = before ++ Mark.tick t :: between → EndsBucket interval before t →
    .read ∈ between

/-- A tick ends a bucket only when the slot was read since the one before that did. -/
def Sampled (interval : Timeframe) (marks : List (Mark P)) : Prop :=
  AtEach (fun past mark => ∀ t, mark = .tick t → EndsBucket interval past t → SlotRead interval past) marks

section Marks

variable {interval : Timeframe} {past : List (Mark P)} {t : Tick P}

omit [LinearOrder P] in
@[simp] theorem Mark.ticks_concat_tick (past : List (Mark P)) (t : Tick P) :
    Mark.ticks (past ++ [Mark.tick t]) = Mark.ticks past ++ [t] := by
  simp [Mark.ticks, Mark.tick?]

omit [LinearOrder P] in
@[simp] theorem Mark.ticks_concat_read (past : List (Mark P)) :
    Mark.ticks (past ++ [Mark.read]) = Mark.ticks past := by
  simp [Mark.ticks, Mark.tick?]

omit [LinearOrder P] in
theorem Mark.ticks_append (marks marks' : List (Mark P)) :
    Mark.ticks (marks ++ marks') = Mark.ticks marks ++ Mark.ticks marks' :=
  filterMap_append

omit [LinearOrder P] in
theorem slotRead_concat_read (past : List (Mark P)) : SlotRead interval (past ++ [Mark.read]) := by
  intro before t between hsplit _
  cases between using reverseRecOn with
  | nil =>
    obtain ⟨-, hlast⟩ := append_inj' hsplit rfl
    simp at hlast
  | append_singleton between m =>
    rw [← cons_append, ← append_assoc] at hsplit
    obtain ⟨-, hlast⟩ := append_inj' hsplit rfl
    rw [List.cons.injEq] at hlast
    rw [← hlast.1]
    simp

omit [LinearOrder P] in
theorem slotRead_concat_tick :
    SlotRead interval (past ++ [Mark.tick t]) ↔ ¬ EndsBucket interval past t ∧ SlotRead interval past := by
  constructor
  · intro h
    constructor
    · intro hends
      simpa using h past t [] rfl hends
    · intro before t' between hsplit hends
      have hmem := h before t' (between ++ [Mark.tick t]) (by simp [hsplit]) hends
      simpa using hmem
  · intro h before t' between hsplit hends
    cases between using reverseRecOn with
    | nil =>
      obtain ⟨rfl, hlast⟩ := append_inj' hsplit rfl
      obtain rfl : t = t' := by simpa using hlast
      exact absurd hends h.1
    | append_singleton between m =>
      rw [← cons_append, ← append_assoc] at hsplit
      obtain ⟨hpast, -⟩ := append_inj' hsplit rfl
      exact mem_append_left _ (h.2 before t' between hpast hends)

omit [LinearOrder P] in
theorem sampled_concat_read (past : List (Mark P)) :
    Sampled interval (past ++ [Mark.read]) ↔ Sampled interval past := by
  rw [Sampled, atEach_concat, Sampled]
  simp

omit [LinearOrder P] in
theorem sampled_concat_tick :
    Sampled interval (past ++ [Mark.tick t]) ↔
      Sampled interval past ∧ (EndsBucket interval past t → SlotRead interval past) := by
  rw [Sampled, atEach_concat, Sampled]
  simp

end Marks

/-! ## the slot of a series -/

namespace Series

variable {interval : Timeframe} {ticks : List (Tick P)}

theorem pairwise_published (hinorder : InOrder ticks) :
    (feed interval ticks).published.Pairwise fun c d => c.ts < d.ts := by
  cases ticks with
  | nil => exact List.Pairwise.nil
  | cons t ticks =>
    obtain ⟨closed, first, rest, h⟩ :=
      @exists_runs P _ interval (t :: ticks) (cons_ne_nil t ticks)
    exact h.increasing hinorder

theorem exists_tick_of_published {c : Candle P} (hc : c ∈ (feed interval ticks).published) :
    ∃ t ∈ ticks, t.bucket interval = c.ts := by
  cases ticks with
  | nil => simp [feed] at hc
  | cons t ticks =>
    obtain ⟨closed, first, rest, h⟩ :=
      @exists_runs P _ interval (t :: ticks) (cons_ne_nil t ticks)
    obtain ⟨run, hrun, hof⟩ := exists_of_mem_right_of_forall₂ h.published hc
    have hmem := mem_append_left [first :: rest] hrun
    obtain ⟨x, hx⟩ := exists_mem_of_ne_nil run (h.runs.nonempty run hmem)
    refine ⟨x, ?_, hof.ts_eq (h.runs.same run hmem) x hx⟩
    rw [← h.runs.flatten]
    exact mem_flatten_of_mem hmem hx

theorem eq_of_ts_eq (hinorder : InOrder ticks) {c d : Candle P}
    (hc : c ∈ (feed interval ticks).published) (hd : d ∈ (feed interval ticks).published)
    (hts : c.ts = d.ts) : c = d := by
  by_contra hne
  have hpairwise := @pairwise_published P _ interval ticks hinorder
  have hnodup := List.Pairwise.forall_of_forall_of_flip (R := fun c d : Candle P => c = d ∨ c.ts ≠ d.ts)
    (fun c _ => .inl rfl) (hpairwise.imp fun h => .inr h.ne) (hpairwise.imp fun h => .inr h.ne') hc hd
  cases hnodup with
  | inl heq => exact hne heq
  | inr h => exact h hts

theorem feed_tick (ticks : List (Tick P)) (t : Tick P) :
    ((¬ ∃ before, ticks.getLast? = some before ∧ before.bucket interval ≠ t.bucket interval) ∧
      (feed interval (ticks ++ [t])).published = (feed interval ticks).published ∧
      (feed interval (ticks ++ [t])).latest = (feed interval ticks).latest) ∨
    (∃ before, ticks.getLast? = some before ∧ before.bucket interval ≠ t.bucket interval) ∧
      ∃ c, (feed interval (ticks ++ [t])).published = (feed interval ticks).published ++ [c] ∧
        (feed interval (ticks ++ [t])).latest = some c := by
  cases ticks with
  | nil => simp [feed, update]
  | cons x ticks =>
    obtain ⟨closed, first, rest, h⟩ :=
      @exists_runs P _ interval (x :: ticks) (cons_ne_nil x ticks)
    obtain ⟨last, hlast⟩ : ∃ last, (x :: ticks).getLast? = some last :=
      ⟨_, getLast?_eq_some_getLast (cons_ne_nil x ticks)⟩
    have hstart : (CandleState.ofRun interval first rest).bucketStartTs = last.bucket interval := by
      rw [CandleState.ofRun, CandleState.foldl_absorb_bucketStartTs, h.bucket_getLast hlast]
      rfl
    rw [hlast, feed_concat]
    by_cases hbucket : last.bucket interval = t.bucket interval
    · left
      rw [update_same h.forming (hstart.trans hbucket)]
      simp [hbucket]
    · right
      rw [update_next h.forming fun heq => hbucket (hstart.symm.trans heq)]
      exact ⟨⟨last, rfl, hbucket⟩, _, rfl, rfl⟩

theorem latest_feed (ticks : List (Tick P)) :
    (feed interval ticks).latest = (feed interval ticks).published.getLast? := by
  induction ticks using reverseRecOn with
  | nil => rfl
  | append_singleton ticks t ih =>
    cases @feed_tick P _ interval ticks t with
    | inl hsame => rw [hsame.2.1, hsame.2.2, ih]
    | inr hnext =>
      obtain ⟨-, c, hpublished, hlatest⟩ := hnext
      rw [hpublished, hlatest, getLast?_concat]

end Series

/-! ## what is kept and what is lost -/

section Invariant

variable {interval : Timeframe} {rows₀ : Rows P} {past : List (Mark P)} {s : Stored P} {t : Tick P}

/-- The slot holds a candle that was not read yet. -/
def Unread (interval : Timeframe) (past : List (Mark P)) (s : Stored P) (c : Candle P) : Prop :=
  ¬ SlotRead interval past ∧ s.series.latest = some c

/-- Every published candle is stored, read or in the slot; a candle in an unread slot is
neither stored nor read. -/
structure Kept (interval : Timeframe) (rows₀ : Rows P) (past : List (Mark P)) (s : Stored P) :
    Prop where
  series : s.series = Series.feed interval (Mark.ticks past)
  handled : ∀ c ∈ s.series.published,
    s.rows.get? c.ts = some c ∨ s.reading = some c ∨ Unread interval past s c
  stored : ∀ k row, s.rows.get? k = some row → rows₀.get? k = some row ∨
    row ∈ s.series.published ∧ row.ts = k ∧ ¬ Unread interval past s row
  reading : ∀ c, s.reading = some c → c ∈ s.series.published ∧ ¬ Unread interval past s c ∧
    ∀ k row, s.rows.get? k = some row → k ≤ c.ts
  slot : ¬ SlotRead interval past → ∃ c, s.series.latest = some c

/-- A published candle was overwritten in the slot before it was read. -/
structure Lost (interval : Timeframe) (past : List (Mark P)) (s : Stored P) : Prop where
  series : s.series = Series.feed interval (Mark.ticks past)
  lost : ∃ c ∈ s.series.published, s.rows.get? c.ts = none ∧
    (∀ r, s.reading = some r → r.ts ≠ c.ts) ∧ ∃ next, s.series.latest = some next ∧ c.ts < next.ts

/-- The rows before the run are older than its ticks. -/
def Fresh (interval : Timeframe) (rows₀ : Rows P) (ticks : List (Tick P)) : Prop :=
  ∀ k row, rows₀.get? k = some row → ∀ t ∈ ticks, k < t.bucket interval

theorem Stored.tick_series (h : s.series = Series.feed interval (Mark.ticks past)) :
    (s.tick interval t).series = Series.feed interval (Mark.ticks (past ++ [Mark.tick t])) := by
  rw [Mark.ticks_concat_tick, Series.feed_concat, ← h]
  rfl

theorem Kept.mem_of_latest (h : Kept interval rows₀ past s) {c : Candle P}
    (hc : s.series.latest = some c) : c ∈ s.series.published := by
  rw [h.series, Series.latest_feed] at hc
  rw [h.series]
  exact mem_of_getLast? hc

theorem Kept.not_handled (h : Kept interval rows₀ past s) (hinorder : InOrder (Mark.ticks past))
    (hfresh : Fresh interval rows₀ (Mark.ticks past)) {c : Candle P}
    (hunread : Unread interval past s c) :
    s.rows.get? c.ts = none ∧ ∀ r, s.reading = some r → r.ts ≠ c.ts := by
  have hmem := h.mem_of_latest hunread.2
  have hsame : ∀ r ∈ s.series.published, r.ts = c.ts → r = c := by
    intro r hr hts
    rw [h.series] at hr hmem
    exact Series.eq_of_ts_eq hinorder hr hmem hts
  constructor
  · cases hrow : s.rows.get? c.ts with
    | none => rfl
    | some row =>
      cases h.stored c.ts row hrow with
      | inl hold =>
        rw [h.series] at hmem
        obtain ⟨t, ht, hts⟩ := Series.exists_tick_of_published hmem
        have hlt := hfresh c.ts row hold t ht
        omega
      | inr hnew =>
        obtain ⟨hrow, hts, hread⟩ := hnew
        rw [hsame row hrow hts] at hread
        exact absurd hunread hread
  · intro r hr hts
    obtain ⟨hpublished, hread, -⟩ := h.reading r hr
    rw [hsame r hpublished hts] at hread
    exact hread hunread

theorem Kept.tick (h : Kept interval rows₀ past s)
    (hinorder : InOrder (Mark.ticks (past ++ [Mark.tick t])))
    (hsampled : EndsBucket interval past t → SlotRead interval past) :
    Kept interval rows₀ (past ++ [Mark.tick t]) (s.tick interval t) := by
  have hseries := Stored.tick_series (t := t) h.series
  have hpublished := @Series.pairwise_published P _ interval _ hinorder
  rw [← hseries] at hpublished
  have hstep := @Series.feed_tick P _ interval (Mark.ticks past) t
  rw [← Mark.ticks_concat_tick, ← hseries, ← h.series] at hstep
  cases hstep with
  | inl hsame =>
    obtain ⟨hends, hpub, hlatest⟩ := hsame
    have hunread : ∀ c, Unread interval (past ++ [Mark.tick t]) (s.tick interval t) c ↔
        Unread interval past s c := by
      intro c
      rw [Unread, Unread, slotRead_concat_tick, hlatest]
      have hnot : ¬ EndsBucket interval past t := hends
      simp [hnot]
    constructor
    · exact hseries
    · intro c hc
      rw [hpub] at hc
      rw [hunread]
      exact h.handled c hc
    · intro k row hrow
      rw [hpub, hunread]
      exact h.stored k row hrow
    · intro c hc
      rw [hpub, hunread]
      exact h.reading c hc
    · intro hslot
      rw [hlatest]
      refine h.slot fun hread => hslot ?_
      exact slotRead_concat_tick.mpr ⟨hends, hread⟩
  | inr hnext =>
    obtain ⟨hends, d, hpub, hlatest⟩ := hnext
    have hread : SlotRead interval past := hsampled hends
    have hslot : ¬ SlotRead interval (past ++ [Mark.tick t]) := fun hslot =>
      (slotRead_concat_tick.mp hslot).1 hends
    -- the candles before are older than the one in the slot now
    have hold : ∀ c ∈ s.series.published,
        ¬ Unread interval (past ++ [Mark.tick t]) (s.tick interval t) c := by
      intro c hc hunread
      have hcd : d = c := by
        rw [← Option.some.injEq, ← hlatest]
        exact hunread.2
      rw [hpub] at hpublished
      have hlt := (pairwise_append.mp hpublished).2.2 c hc d mem_cons_self
      rw [hcd] at hlt
      omega
    constructor
    · exact hseries
    · intro c hc
      rw [hpub, mem_append, mem_singleton] at hc
      cases hc with
      | inl hc =>
        cases h.handled c hc with
        | inl hrow => exact .inl hrow
        | inr hrest =>
          cases hrest with
          | inl hreading => exact .inr (.inl hreading)
          | inr hunread => exact absurd hread hunread.1
      | inr hc =>
        rw [hc]
        exact .inr (.inr ⟨hslot, hlatest⟩)
    · intro k row hrow
      cases h.stored k row hrow with
      | inl hold => exact .inl hold
      | inr hnew =>
        right
        rw [hpub]
        exact ⟨mem_append_left _ hnew.1, hnew.2.1, hold row hnew.1⟩
    · intro c hc
      obtain ⟨hmem, -, hle⟩ := h.reading c hc
      rw [hpub]
      exact ⟨mem_append_left _ hmem, hold c hmem, hle⟩
    · intro _
      exact ⟨d, hlatest⟩

theorem Kept.read (h : Kept interval rows₀ past s) (hinorder : InOrder (Mark.ticks past))
    (hfresh : Fresh interval rows₀ (Mark.ticks past)) (hnone : s.reading = none) :
    Kept interval rows₀ (past ++ [Mark.read]) s.read := by
  have hread := @slotRead_concat_read P interval past
  have hunread : ∀ c, ¬ Unread interval (past ++ [Mark.read]) s.read c := fun c hc => hc.1 hread
  constructor
  · rw [Mark.ticks_concat_read]
    exact h.series
  · intro c hc
    cases h.handled c hc with
    | inl hrow => exact .inl hrow
    | inr hrest =>
      cases hrest with
      | inl hreading => rw [hnone] at hreading; cases hreading
      | inr hunread => exact .inr (.inl hunread.2)
  · intro k row hrow
    cases h.stored k row hrow with
    | inl hold => exact .inl hold
    | inr hnew => exact .inr ⟨hnew.1, hnew.2.1, hunread row⟩
  · intro c hc
    have hmem := h.mem_of_latest hc
    refine ⟨hmem, hunread c, fun k row hrow => ?_⟩
    rw [h.series] at hmem
    cases h.stored k row hrow with
    | inl hold =>
      obtain ⟨t, ht, hts⟩ := Series.exists_tick_of_published hmem
      have hlt := hfresh k row hold t ht
      omega
    | inr hnew =>
      -- the slot holds the newest published candle
      have hlast : s.series.latest = some c := hc
      rw [← hnew.2.1]
      rw [h.series, Series.latest_feed] at hlast
      have hrow := hnew.1
      rw [h.series] at hrow
      obtain ⟨before, hsplit⟩ := getLast?_eq_some_iff.mp hlast
      have hpairwise := @Series.pairwise_published P _ interval _ hinorder
      rw [hsplit] at hrow hpairwise
      rw [mem_append, mem_singleton] at hrow
      cases hrow with
      | inl hbefore =>
        exact ((pairwise_append.mp hpairwise).2.2 row hbefore c mem_cons_self).le
      | inr heq => rw [heq]
  · intro hslot
    exact absurd hread hslot

theorem Kept.store (h : Kept interval rows₀ past s) (hinorder : InOrder (Mark.ticks past))
    (hfresh : Fresh interval rows₀ (Mark.ticks past)) : Kept interval rows₀ past s.store := by
  cases hreading : s.reading with
  | none =>
    have hstore : s.store = s := by
      rw [Stored.store, hreading, Rows.persist, ← hreading]
    rw [hstore]
    exact h
  | some c =>
    obtain ⟨hmem, hread, hle⟩ := h.reading c hreading
    have hunread : ∀ r, Unread interval past s.store r ↔ Unread interval past s r := fun _ => Iff.rfl
    -- what was read has its row now, every other row is as before
    have hrows : s.store.rows.get? c.ts = some c ∧ ∀ k, k ≠ c.ts → s.store.rows.get? k = s.rows.get? k := by
      have hpersist := Rows.persist_some s.rows c
      rw [← hreading] at hpersist
      show (s.rows.persist s.reading).get? c.ts = _ ∧ ∀ k, _ → (s.rows.persist s.reading).get? k = _
      cases hpersist with
      | inl hold =>
        obtain ⟨⟨k, row, hrow, hge⟩, hsame⟩ := hold
        rw [hsame]
        refine ⟨?_, fun _ _ => rfl⟩
        have hk : k = c.ts := Int.le_antisymm (hle k row hrow) hge
        cases h.stored k row hrow with
        | inl hinit =>
          rw [h.series] at hmem
          obtain ⟨t, ht, hts⟩ := Series.exists_tick_of_published hmem
          have hlt := hfresh k row hinit t ht
          omega
        | inr hnew =>
          obtain ⟨hrowmem, hts, -⟩ := hnew
          rw [h.series] at hmem hrowmem
          rw [← hk, hrow, Series.eq_of_ts_eq hinorder hrowmem hmem (hts.trans hk)]
      | inr hnew =>
        rw [hnew.2]
        exact ⟨get?_upsert_self _ _ _, fun k hk => get?_upsert_of_ne hk.symm _ _⟩
    constructor
    · exact h.series
    · intro d hd
      rw [hunread]
      by_cases hts : d.ts = c.ts
      · rw [h.series] at hmem
        have hd' : d ∈ (Series.feed interval (Mark.ticks past)).published := h.series ▸ hd
        rw [Series.eq_of_ts_eq hinorder hd' hmem hts]
        exact .inl hrows.1
      · cases h.handled d hd with
        | inl hrow =>
          rw [hrows.2 d.ts hts]
          exact .inl hrow
        | inr hrest =>
          cases hrest with
          | inl hother =>
            rw [hreading, Option.some.injEq] at hother
            exact absurd (congrArg Candle.ts hother).symm hts
          | inr hother => exact .inr (.inr hother)
    · intro k row hrow
      by_cases hk : k = c.ts
      · rw [hk, hrows.1, Option.some.injEq] at hrow
        rw [← hrow]
        exact .inr ⟨hmem, hk.symm, hread⟩
      · rw [hrows.2 k hk] at hrow
        exact h.stored k row hrow
    · intro d hd
      cases hd
    · exact h.slot

theorem Kept.lost (h : Kept interval rows₀ past s)
    (hinorder : InOrder (Mark.ticks (past ++ [Mark.tick t])))
    (hfresh : Fresh interval rows₀ (Mark.ticks past)) (hends : EndsBucket interval past t)
    (hslot : ¬ SlotRead interval past) : Lost interval (past ++ [Mark.tick t]) (s.tick interval t) := by
  have hseries := Stored.tick_series (t := t) h.series
  have hpublished := @Series.pairwise_published P _ interval _ hinorder
  have hstep := @Series.feed_tick P _ interval (Mark.ticks past) t
  rw [← Mark.ticks_concat_tick, ← hseries, ← h.series] at hstep
  rw [← hseries] at hpublished
  obtain ⟨-, d, hpub, hlatest⟩ := hstep.resolve_left fun hsame => hsame.1 hends
  obtain ⟨c, hc⟩ := h.slot hslot
  have hmem := h.mem_of_latest hc
  have hold : InOrder (Mark.ticks past) := by
    rw [Mark.ticks_concat_tick] at hinorder
    exact (pairwise_append.mp hinorder).1
  obtain ⟨hrow, hreading⟩ := h.not_handled hold hfresh ⟨hslot, hc⟩
  rw [hpub] at hpublished
  refine ⟨hseries, c, ?_, hrow, hreading, d, hlatest, ?_⟩
  · rw [hpub]
    exact mem_append_left _ hmem
  · exact (pairwise_append.mp hpublished).2.2 c hmem d mem_cons_self

theorem Lost.tick (h : Lost interval past s)
    (hinorder : InOrder (Mark.ticks (past ++ [Mark.tick t]))) :
    Lost interval (past ++ [Mark.tick t]) (s.tick interval t) := by
  have hseries := Stored.tick_series (t := t) h.series
  have hpublished := @Series.pairwise_published P _ interval _ hinorder
  have hstep := @Series.feed_tick P _ interval (Mark.ticks past) t
  rw [← Mark.ticks_concat_tick, ← hseries, ← h.series] at hstep
  rw [← hseries] at hpublished
  obtain ⟨c, hc, hrow, hreading, next, hnext, hlt⟩ := h.lost
  cases hstep with
  | inl hsame =>
    refine ⟨hseries, c, ?_, hrow, hreading, next, ?_, hlt⟩
    · rw [hsame.2.1]
      exact hc
    · rw [hsame.2.2]
      exact hnext
  | inr hstep =>
    obtain ⟨-, d, hpub, hlatest⟩ := hstep
    rw [hpub] at hpublished
    refine ⟨hseries, c, ?_, hrow, hreading, d, hlatest, ?_⟩
    · rw [hpub]
      exact mem_append_left _ hc
    · exact (pairwise_append.mp hpublished).2.2 c hc d mem_cons_self

theorem Lost.read (h : Lost interval past s) :
    Lost interval (past ++ [Mark.read]) s.read := by
  obtain ⟨c, hc, hrow, -, next, hnext, hlt⟩ := h.lost
  refine ⟨?_, c, hc, hrow, fun r hr => ?_, next, hnext, hlt⟩
  · rw [Mark.ticks_concat_read]
    exact h.series
  · have heq : next = r := by
      rw [← Option.some.injEq, ← hnext]
      exact hr
    rw [← heq]
    omega

theorem Lost.store (h : Lost interval past s) : Lost interval past s.store := by
  obtain ⟨c, hc, hrow, hreading, hnext⟩ := h.lost
  refine ⟨h.series, c, hc, ?_, fun r hr => ?_, hnext⟩
  · show (s.rows.persist s.reading).get? c.ts = none
    cases hread : s.reading with
    | none => exact hrow
    | some r =>
      cases Rows.persist_some s.rows r with
      | inl hold =>
        rw [hold.2]
        exact hrow
      | inr hnew =>
        rw [hnew.2, get?_upsert_of_ne (hreading r hread)]
        exact hrow
  · cases hr

/-! ## whole runs -/

/-- Sampled so far, the candles are kept; not sampled, one is lost. -/
structure Settles (interval : Timeframe) (rows₀ : Rows P) (past : List (Mark P)) (s : Stored P) :
    Prop where
  kept : Sampled interval past → Kept interval rows₀ past s
  lost : ¬ Sampled interval past → Lost interval past s

theorem Settles.tick (h : Settles interval rows₀ past s)
    (hinorder : InOrder (Mark.ticks (past ++ [Mark.tick t])))
    (hfresh : Fresh interval rows₀ (Mark.ticks past)) :
    Settles interval rows₀ (past ++ [Mark.tick t]) (s.tick interval t) := by
  constructor
  · intro hsampled
    obtain ⟨hpast, hends⟩ := sampled_concat_tick.mp hsampled
    exact (h.kept hpast).tick hinorder hends
  · intro hsampled
    by_cases hpast : Sampled interval past
    · rw [sampled_concat_tick, not_and, Classical.not_imp] at hsampled
      obtain ⟨hends, hslot⟩ := hsampled hpast
      exact (h.kept hpast).lost hinorder hfresh hends hslot
    · exact (h.lost hpast).tick hinorder

theorem Settles.read (h : Settles interval rows₀ past s) (hinorder : InOrder (Mark.ticks past))
    (hfresh : Fresh interval rows₀ (Mark.ticks past)) (hnone : s.reading = none) :
    Settles interval rows₀ (past ++ [Mark.read]) s.read := by
  constructor
  · intro hsampled
    exact (h.kept ((sampled_concat_read past).mp hsampled)).read hinorder hfresh hnone
  · intro hsampled
    exact (h.lost fun hpast => hsampled ((sampled_concat_read past).mpr hpast)).read

theorem Settles.store (h : Settles interval rows₀ past s) (hinorder : InOrder (Mark.ticks past))
    (hfresh : Fresh interval rows₀ (Mark.ticks past)) : Settles interval rows₀ past s.store where
  kept hsampled := (h.kept hsampled).store hinorder hfresh
  lost hsampled := (h.lost hsampled).store

omit [LinearOrder P] in
theorem inOrder_of_append {past rest : List (Mark P)} (h : InOrder (Mark.ticks (past ++ rest))) :
    InOrder (Mark.ticks past) := by
  rw [Mark.ticks_append] at h
  exact (pairwise_append.mp h).1

omit [LinearOrder P] in
theorem Fresh.of_append {past rest : List (Mark P)}
    (h : Fresh interval rows₀ (Mark.ticks (past ++ rest))) :
    Fresh interval rows₀ (Mark.ticks past) := by
  intro k row hrow t ht
  refine h k row hrow t ?_
  rw [Mark.ticks_append]
  exact mem_append_left _ ht

theorem Settles.ticks {during : List (Tick P)} (h : Settles interval rows₀ past s)
    (hinorder : InOrder (Mark.ticks (past ++ during.map .tick)))
    (hfresh : Fresh interval rows₀ (Mark.ticks (past ++ during.map .tick))) :
    Settles interval rows₀ (past ++ during.map .tick) (during.foldl (Stored.tick interval) s) := by
  induction during generalizing past s with
  | nil => simpa using h
  | cons t during ih =>
    rw [map_cons, append_cons] at hinorder hfresh ⊢
    exact ih (h.tick (inOrder_of_append hinorder) hfresh.of_append.of_append) hinorder hfresh

theorem Stored.run_settles (interval : Timeframe) (rows₀ : Rows P) (events : List (Event P))
    (hinorder : InOrder (Mark.ticks (marksOf events)))
    (hfresh : Fresh interval rows₀ (Mark.ticks (marksOf events))) :
    Settles interval rows₀ (marksOf events) (run interval rows₀ events) ∧
      (run interval rows₀ events).reading = none := by
  induction events using reverseRecOn with
  | nil =>
    refine ⟨⟨fun _ => ?_, fun hsampled => absurd atEach_nil hsampled⟩, rfl⟩
    constructor
    · rfl
    · simp [run]
    · intro k row hrow
      exact .inl hrow
    · simp [run]
    · intro hslot
      exact absurd (fun before t between hsplit => by simp [marksOf] at hsplit) hslot
  | append_singleton events event ih =>
    have hmarks : marksOf (events ++ [event]) = marksOf events ++ event.marks := by
      simp [marksOf]
    have hrun : run interval rows₀ (events ++ [event]) =
        (run interval rows₀ events).step interval event := by
      rw [run, foldl_append]
      rfl
    rw [hmarks] at hinorder hfresh ⊢
    obtain ⟨h, hnone⟩ := ih (inOrder_of_append hinorder) hfresh.of_append
    rw [hrun]
    cases event with
    | tick t => exact ⟨h.tick hinorder hfresh.of_append, hnone⟩
    | pass during =>
      have hsplit : marksOf events ++ Event.marks (.pass during) =
          marksOf events ++ [Mark.read] ++ during.map .tick := by
        simp [Event.marks]
      rw [hsplit] at hinorder hfresh ⊢
      have hread := h.read (inOrder_of_append (inOrder_of_append hinorder))
        hfresh.of_append.of_append hnone
      exact ⟨(hread.ticks hinorder hfresh).store hinorder hfresh, rfl⟩

/-- Over rows older than its ticks, a run of in-order ticks and passes with a last pass
stores every finalized candle exactly when every candle in the slot is read before the
next one overwrites it. -/
theorem reaches_storage_iff (interval : Timeframe) (rows₀ : Rows P) (events : List (Event P))
    (hinorder : InOrder (Mark.ticks (marksOf events)))
    (hfresh : Fresh interval rows₀ (Mark.ticks (marksOf events))) :
    (∀ c ∈ (Stored.run interval rows₀ (events ++ [Event.pass []])).series.published,
        (Stored.run interval rows₀ (events ++ [Event.pass []])).rows.get? c.ts = some c) ↔
      Sampled interval (marksOf events) := by
  have hmarks : marksOf (events ++ [Event.pass []]) = marksOf events ++ [Mark.read] := by
    simp [marksOf, Event.marks]
  have hticks : Mark.ticks (marksOf (events ++ [Event.pass []])) = Mark.ticks (marksOf events) := by
    rw [hmarks, Mark.ticks_concat_read]
  obtain ⟨hsettles, hnone⟩ := Stored.run_settles interval rows₀ (events ++ [Event.pass []])
    (hticks ▸ hinorder) (hticks ▸ hfresh)
  have hread : SlotRead interval (marksOf (events ++ [Event.pass []])) :=
    hmarks ▸ slotRead_concat_read (marksOf events)
  have hsampled := @sampled_concat_read P interval (marksOf events)
  rw [← hmarks] at hsampled
  rw [← hsampled]
  constructor
  · intro hall
    by_contra hnot
    obtain ⟨c, hc, hrow, -⟩ := (hsettles.lost hnot).lost
    rw [hall c hc] at hrow
    cases hrow
  · intro hyes c hc
    cases (hsettles.kept hyes).handled c hc with
    | inl hrow => exact hrow
    | inr hrest =>
      cases hrest with
      | inl hreading =>
        rw [hnone] at hreading
        cases hreading
      | inr hunread => exact absurd hread hunread.1

/-- A tick in each of the first three minutes, with a pass after the second. -/
def sampledRun : List (Event ℤ) :=
  [.tick { ts := 0, lastPrice := 100 }, .tick { ts := 60000000, lastPrice := 101 }, .pass [],
   .tick { ts := 120000000, lastPrice := 102 }]

theorem reaches_storage_sampledRun :
    InOrder (Mark.ticks (marksOf sampledRun)) ∧
      Fresh .minute Table.empty (Mark.ticks (marksOf sampledRun)) ∧ Sampled .minute (marksOf sampledRun) ∧
      (Stored.run .minute Table.empty (sampledRun ++ [Event.pass []])).series.published.length = 2 := by
  have hinorder : InOrder (Mark.ticks (marksOf sampledRun)) := by decide
  have hfresh : Fresh .minute Table.empty (Mark.ticks (marksOf sampledRun)) := by
    intro k row hrow
    simp at hrow
  exact ⟨hinorder, hfresh,
    (reaches_storage_iff .minute Table.empty sampledRun hinorder hfresh).mp (by decide), by decide⟩

/-- A tick in each of the first three minutes and no pass before the last one. -/
def unsampledRun : List (Event ℤ) :=
  [.tick { ts := 0, lastPrice := 100 }, .tick { ts := 60000000, lastPrice := 101 },
   .tick { ts := 120000000, lastPrice := 102 }]

/-- The candle of the first minute has no row. -/
theorem overwritten_candle_lost :
    ¬ ∀ c ∈ (Stored.run .minute Table.empty (unsampledRun ++ [Event.pass []])).series.published,
      (Stored.run .minute Table.empty (unsampledRun ++ [Event.pass []])).rows.get? c.ts = some c := by
  decide

end Invariant

end Candles

end KiteAlgo
