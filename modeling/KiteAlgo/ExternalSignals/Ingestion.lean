import KiteAlgo.ExternalSignals

/-!
# KiteAlgo.ExternalSignals.Ingestion

An acknowledged value is the one that is used: what a returned call of `ingest_value` has
stored, and which value a lookup selects.

A repeated key is compared by the hash of the payload alone, so a call for another
instrument or another event time is answered with the earlier row
(`other_instrument_deduplicated`), and a lookup merges the values addressed to its
instrument with the producer-wide ones under one order.  `acknowledged_value_used_iff` says
exactly where neither happens.
-/

namespace KiteAlgo.ExternalSignals

open List Option ExternalSignalValue
variable {F : Type} [PyFloat F]

/-! ## the law -/

/-- The row has the payload of the call, its instrument and its event time. -/
structure Carries (row : ExternalSignalValue F) (r : Request F) : Prop where
  payload : ∀ field, row.value.get? field = r.payload.entries.get? field
  instrument : row.instrumentKey = r.instrumentKey
  eventTime : row.eventTime = r.eventTime

/-- The store holds the row for the call, and no other row under its key. -/
structure Values.Holds (s : Values F) (r : Request F) (row : ExternalSignalValue F) : Prop where
  stored : row ∈ s.rows
  single : ∀ key ∈ r.key, (s.rows.filter fun other => decide (other.idempotencyKey = some key)) = [row]
  carries : Carries row r

def Call.isOver (c : Call F) : Bool :=
  match c.stage with
  | .returned _ _ | .raised _ => true
  | _ => false

/-- A call that returns by this step returns a row that the store holds for it, and a step that
stores a row is one by which its call returns. -/
structure Acknowledged (before after : State F) (i : Nat) : Prop where
  returned : ∀ c ∈ before.calls[i]?, c.isOver = false → ∀ c' ∈ after.calls[i]?,
    ∀ row deduplicated, c'.stage = .returned row deduplicated → after.values.Holds c'.request row
  stored : after.values ≠ before.values → ∃ c' ∈ after.calls[i]?, ∃ row, c'.stage = .returned row false

/-- Every step of every call of a run is one of these. -/
def AcknowledgedLaw (svc : Service) (events : List (Event F)) : Prop :=
  AtEach (fun past e => ∀ i, e = .resume i →
    Acknowledged ((ingestion svc).run past {}) ((ingestion svc).run (past ++ [e]) {}) i) events

/-- A lookup for an instrument selects the newest value addressed to it, and a producer-wide value
only where there is none. -/
def Values.SelectsAddressed (s : Values F) (instrument : String) (cutoff : Int) : Prop :=
  s.candidate (some instrument) cutoff = (newest (s.rows.filter fun row =>
      decide (row.eventTime ≤ cutoff) && decide (row.instrumentKey = some instrument))).or
    (newest (s.rows.filter fun row =>
      decide (row.eventTime ≤ cutoff) && decide (row.instrumentKey = none)))

/-- The call, when it looks its key up, finds no row with the hash of its payload that differs in
the payload, the instrument or the event time. -/
def Call.Repeats (svc : Service) (c : Call F) (s : Values F) : Prop :=
  match c.stage with
  | .find key _ | .reread key _ => ∀ row ∈ s.find? key,
      row.contentHash = svc.canonicalContentHash c.request.payload → Carries row c.request
  | _ => True

def RepeatsAlong (svc : Service) (events : List (Event F)) : Prop :=
  AtEach (fun past e => ∀ i, e = .resume i → ∀ c ∈ ((ingestion svc).run past {}).calls[i]?,
    c.Repeats svc ((ingestion svc).run past {}).values) events

/-- No producer-wide value is newer than the newest addressed one. -/
def Values.AddressedNewest (s : Values F) (instrument : String) (cutoff : Int) : Prop :=
  ∀ row ∈ newest (s.rows.filter fun row =>
      decide (row.eventTime ≤ cutoff) && decide (row.instrumentKey = some instrument)),
    ∀ wide ∈ s.rows, wide.eventTime ≤ cutoff → wide.instrumentKey = none → wide.rank ≤ row.rank

section Table

variable {F : Type} {s s' : Values F} {row : ExternalSignalValue F}

theorem find?_of_some {key : String} (h : s.find? key = some row) :
    row ∈ s.rows ∧ row.idempotencyKey = some key := by
  have hkey := find?_some h
  exact ⟨mem_of_find?_eq_some h, by simpa using hkey⟩

theorem single_of_mem {key : String} (hrow : row ∈ s.rows) (hkey : row.idempotencyKey = some key) :
    (s.rows.filter fun other => decide (other.idempotencyKey = some key)) = [row] := by
  obtain ⟨before, after, hsplit⟩ := append_of_mem hrow
  have hkeys := s.keys
  rw [hsplit, filterMap_append, filterMap_cons_some hkey, nodup_append] at hkeys
  have hnot : ∀ other ∈ before ++ after, other.idempotencyKey ≠ some key := by
    intro other hother hsame
    rcases mem_append.mp hother with hmem | hmem
    · exact hkeys.2.2 key (mem_filterMap.mpr ⟨other, hmem, hsame⟩) key (.head _) rfl
    · exact (nodup_cons.mp hkeys.2.1).1 (mem_filterMap.mpr ⟨other, hmem, hsame⟩)
  have hnone : ∀ rows : List (ExternalSignalValue F),
      (∀ other ∈ rows, other.idempotencyKey ≠ some key) →
      (rows.filter fun other => decide (other.idempotencyKey = some key)) = [] := by
    intro rows hrows
    rw [filter_eq_nil_iff]
    intro other hother
    simpa using hrows other hother
  rw [hsplit, filter_append, hnone before fun other h => hnot other (mem_append_left _ h),
    filter_cons_of_pos (by simpa using hkey),
    hnone after fun other h => hnot other (mem_append_right _ h)]
  rfl

theorem insert_rows (h : s.insert row = some s') : s.Admits row ∧ s'.rows = s.rows ++ [row] := by
  unfold Values.insert at h
  split at h
  · next hadmits =>
      rw [← some.inj h]
      exact ⟨hadmits, rfl⟩
  · cases h

end Table

/-! ## one step of a call -/

section Steps

variable {svc : Service} {c : Call F} {s s' : Values F} {row : ExternalSignalValue F}

theorem holds_insert {r : Request F} (h : s.insert (r.row svc) = some s') :
    s'.Holds r (r.row svc) := by
  have hmem : r.row svc ∈ s'.rows := by
    rw [(insert_rows h).2]
    exact mem_append_right _ (.head _)
  exact ⟨hmem, fun key hkey => single_of_mem hmem hkey, ⟨fun _ => rfl, rfl, rfl⟩⟩

omit [PyFloat F] in
theorem holds_find_iff {r : Request F} {key : String} (hkey : r.key = some key)
    (h : s.find? key = some row) : s.Holds r row ↔ Carries row r := by
  obtain ⟨hmem, hrow⟩ := find?_of_some h
  refine ⟨Values.Holds.carries, fun hcarries => ⟨hmem, fun key' hkey' => ?_, hcarries⟩⟩
  rw [hkey, mem_some] at hkey'
  exact hkey' ▸ single_of_mem hmem hrow

/-- The call finds a row under its key with the hash of its payload. -/
def Call.Finds (svc : Service) (c : Call F) (s : Values F) (row : ExternalSignalValue F) : Prop :=
  ∃ key keyed, (c.stage = .find key keyed ∨ c.stage = .reread key keyed) ∧
    s.find? key = some row ∧ row.contentHash = svc.canonicalContentHash c.request.payload

theorem repeats_iff : c.Repeats svc s ↔ ∀ row, c.Finds svc s row → Carries row c.request := by
  unfold Call.Repeats
  constructor
  · rintro hrepeats row ⟨key, keyed, hstage | hstage, hfind, hhash⟩ <;>
      rw [hstage] at hrepeats <;> exact hrepeats row hfind hhash
  · intro hfinds
    split
    · next key keyed hstage =>
        exact fun row hfind hhash => hfinds row ⟨key, keyed, .inl hstage, hfind, hhash⟩
    · next key keyed hstage =>
        exact fun row hfind hhash => hfinds row ⟨key, keyed, .inr hstage, hfind, hhash⟩
    · trivial

theorem Call.Finds.step (h : c.Finds svc s row) :
    c.step svc s = (⟨c.request, .returned row true⟩, s) := by
  obtain ⟨key, keyed, hstage, hfind, hhash⟩ := h
  rcases hstage with hstage | hstage <;>
    simp only [Call.step, hstage, hfind, Request.onExisting, hhash, if_true]

theorem Call.step_cases (svc : Service) (hover : c.isOver = false) :
    (∃ row, c.Finds svc s row) ∨ (∃ s', s.insert (c.request.row svc) = some s' ∧
      c.step svc s = (⟨c.request, .returned (c.request.row svc) false⟩, s')) ∨
    (∃ stage, c.step svc s = (⟨c.request, stage⟩, s) ∧
      ∀ row deduplicated, stage ≠ .returned row deduplicated) := by
  obtain ⟨r, stage⟩ := c
  have hexisting : ∀ key keyed message, (stage = .find key keyed ∨ stage = .reread key keyed) →
      ∀ row, s.find? key = some row → Call.Finds svc ⟨r, stage⟩ s row ∨
        ∃ failure, r.onExisting svc row message = .raised failure := by
    intro key keyed message hstage row hfind
    by_cases hhash : row.contentHash = svc.canonicalContentHash r.payload
    · exact .inl ⟨key, keyed, hstage, hfind, hhash⟩
    · exact .inr ⟨_, if_neg hhash⟩
  cases stage with
  | find key keyed =>
    cases hfind : s.find? key with
    | none => exact .inr (.inr ⟨.count, by simp only [Call.step, hfind], by simp⟩)
    | some row =>
      rcases hexisting key keyed row.conflictMessage (.inl rfl) row hfind with h | ⟨failure, h⟩
      · exact .inl ⟨row, h⟩
      · exact .inr (.inr ⟨.raised failure, by simp only [Call.step, hfind, h], by simp⟩)
  | count =>
    refine .inr (.inr ?_)
    simp only [Call.step]
    split
    · exact ⟨_, rfl, by simp⟩
    · exact ⟨_, rfl, by simp⟩
  | insert =>
    cases hinsert : s.insert (r.row svc) with
    | some s' => exact .inr (.inl ⟨s', rfl, by simp only [Call.step, hinsert]⟩)
    | none =>
      refine .inr (.inr ?_)
      simp only [Call.step, hinsert]
      split
      · exact ⟨_, rfl, by simp⟩
      · exact ⟨_, rfl, by simp⟩
  | reread key keyed =>
    cases hfind : s.find? key with
    | none => exact .inr (.inr ⟨_, by simp only [Call.step, hfind]; rfl, by simp⟩)
    | some row =>
      rcases hexisting key keyed concurrentMessage (.inr rfl) row hfind with h | ⟨failure, h⟩
      · exact .inl ⟨row, h⟩
      · exact .inr (.inr ⟨.raised failure, by simp only [Call.step, hfind, h], by simp⟩)
  | returned row deduplicated => cases hover
  | raised failure => cases hover

theorem Call.step_over (hover : c.isOver) : c.step svc s = (c, s) := by
  obtain ⟨r, stage⟩ := c
  cases stage with
  | returned row deduplicated => rfl
  | raised failure => rfl
  | find | count | insert | reread => cases hover

theorem acknowledged_iff (svc : Service) (s : State F) (i : Nat) :
    Acknowledged s ((ingestion svc).step (.resume i) s) i ↔ ∀ c ∈ s.calls[i]?, c.Repeats svc s.values := by
  cases hi : s.calls[i]? with
  | none =>
    have hstep : (ingestion svc).step (.resume i) s = s := by simp only [ingestion, hi]
    rw [hstep]
    exact ⟨fun _ => by simp, fun _ => ⟨by simp [hi], fun h => absurd rfl h⟩⟩
  | some c =>
    have hstep : (ingestion svc).step (.resume i) s =
        ⟨(c.step svc s.values).2, s.calls.set i (c.step svc s.values).1⟩ := by
      simp only [ingestion, hi]
    have hafter : (s.calls.set i (c.step svc s.values).1)[i]? = some (c.step svc s.values).1 :=
      getElem?_set_self (List.getElem?_eq_some_iff.mp hi).1
    simp only [mem_def, some.injEq, forall_eq']
    rw [hstep]
    constructor
    · intro hack
      refine repeats_iff.mpr fun row hfinds => ?_
      have hover : c.isOver = false := by
        obtain ⟨key, keyed, hstage | hstage, -⟩ := hfinds <;> simp [Call.isOver, hstage]
      have hkept := hack.returned c (by rw [hi]; rfl) hover _ hafter row true (by rw [hfinds.step])
      rw [hfinds.step] at hkept
      exact hkept.carries
    · intro hrepeats
      constructor
      · intro c₀ hc₀ hover c' hc' row deduplicated hstage
        obtain rfl : c = c₀ := by simpa [hi] using hc₀
        obtain rfl : (c.step svc s.values).1 = c' := by simpa [hafter] using hc'
        rcases Call.step_cases (s := s.values) svc hover with
          ⟨found, hfinds⟩ | ⟨s', hinsert, hend⟩ | ⟨stage, hend, hnot⟩
        · rw [hfinds.step] at hstage ⊢
          obtain ⟨rfl, -⟩ := Stage.returned.inj hstage
          have hcarries := repeats_iff.mp hrepeats found hfinds
          obtain ⟨key, keyed, -, hfind, -⟩ := hfinds
          exact (holds_find_iff keyed hfind).mpr hcarries
        · rw [hend] at hstage ⊢
          obtain ⟨rfl, -⟩ := Stage.returned.inj hstage
          exact holds_insert hinsert
        · rw [hend] at hstage
          exact absurd hstage (hnot row deduplicated)
      · intro hchanged
        refine ⟨_, hafter, ?_⟩
        cases hover : c.isOver with
        | true => exact absurd (by rw [Call.step_over hover]) hchanged
        | false =>
          rcases Call.step_cases (s := s.values) svc hover with
            ⟨found, hfinds⟩ | ⟨s', hinsert, hend⟩ | ⟨stage, hend, hnot⟩
          · exact absurd (by rw [hfinds.step]) hchanged
          · exact ⟨c.request.row svc, by rw [hend]⟩
          · exact absurd (by rw [hend]) hchanged

end Steps

omit [PyFloat F] in
theorem selectsAddressed_iff (s : Values F) (instrument : String) (cutoff : Int) :
    s.SelectsAddressed instrument cutoff ↔ s.AddressedNewest instrument cutoff := by
  rw [Values.SelectsAddressed, Values.AddressedNewest, Values.candidate, Values.candidates]
  cases haddressed : newest (s.rows.filter fun row =>
      decide (row.eventTime ≤ cutoff) && decide (row.instrumentKey = some instrument)) with
  | none =>
    -- only producer-wide values are candidates
    rw [newest_eq_none_iff, filter_eq_nil_iff] at haddressed
    rw [none_or]
    refine iff_of_true (congrArg newest (filter_congr fun row hrow => ?_)) (by simp)
    have hnot := haddressed row hrow
    simp only [visibleTo]
    by_cases htime : row.eventTime ≤ cutoff
    · have hother : row.instrumentKey ≠ some instrument := by simpa [htime] using hnot
      simp [htime, hother]
    · simp [htime]
  | some row =>
    obtain ⟨hmem, hnewest⟩ := newest_of_some haddressed
    rw [mem_filter, Bool.and_eq_true, decide_eq_true_eq, decide_eq_true_eq] at hmem
    rw [some_or, newest_eq_some_iff (s.ids_filter _)]
    constructor
    · rintro ⟨-, hlast⟩ row' hrow' wide hwide htime hkey
      obtain rfl := some.inj hrow'
      exact hlast wide (mem_filter.mpr
        ⟨hwide, by simp [htime, visibleTo, hkey]⟩)
    · intro hwide
      refine ⟨mem_filter.mpr
        ⟨hmem.1, by simp [hmem.2.1, visibleTo, hmem.2.2]⟩, fun other hother => ?_⟩
      simp only [mem_filter, visibleTo, Bool.and_eq_true, Bool.or_eq_true,
        decide_eq_true_eq] at hother
      obtain ⟨hrow, htime, hkey | hkey⟩ := hother
      · exact hnewest other (mem_filter.mpr ⟨hrow, by simp [htime, hkey]⟩)
      · exact hwide row rfl other hrow htime hkey

/-- An acknowledged value is the one that is used: over every interleaving of calls, a call
returns a row that the store holds for its key with its own payload, instrument and event time,
and stores nothing otherwise, exactly when no call finds a row with the hash of its payload that
differs from it; and a lookup prefers the newest addressed value exactly when no producer-wide value
is newer. -/
theorem acknowledged_value_used_iff (svc : Service) :
    (∀ events : List (Event F), AcknowledgedLaw svc events ↔ RepeatsAlong svc events) ∧
      ∀ (s : Values F) (instrument : String) (cutoff : Int),
        s.SelectsAddressed instrument cutoff ↔ s.AddressedNewest instrument cutoff := by
  refine ⟨fun events => ?_, selectsAddressed_iff⟩
  refine atEach_congr (R := fun _ _ => True) (fun _ _ _ _ => trivial) fun past e _ => ?_
  refine forall_congr' fun i => ⟨fun h he => ?_, fun h he => ?_⟩
  all_goals
    have hack := acknowledged_iff svc ((ingestion svc).run past {}) i
    have hrun : (ingestion svc).run (past ++ [e]) {} =
        (ingestion svc).step (.resume i) ((ingestion svc).run past {}) := by
      rw [Machine.run_append, he]
      rfl
    rw [← hrun] at hack
  · exact hack.mp (h he)
  · exact hack.mpr (h he)

/-! ## a key for two instruments -/

/-- A producer of a score; hashes are the texts themselves. -/
def demoService : Service where
  producer := { name := "scores", valueSchema := [("score", .number)], defaultTtlS := 3600 }
  sha256 := id

/-- A score for an instrument, under one idempotency key. -/
def scored (id : Nat) (instrument : String) : Request ℚ where
  id := id
  now := 1000000
  payload := .dict [(.str "score", .int 1)]
  eventTime := 1000000
  instrumentKey := some instrument
  idempotencyKey := some "k1"

/-- The first score is stored, and the second one is sent. -/
def keyReused : List (Event ℚ) :=
  [.start (scored 1 "NSE:A"), .resume 0, .resume 0, .resume 0, .start (scored 2 "NSE:B")]

/-- A row that the call has returned is for its instrument. -/
def Call.ownInstrument (c : Call F) : Bool :=
  match c.stage with
  | .returned row _ => decide (row.instrumentKey = c.request.instrumentKey)
  | _ => true

/-- A value for one instrument, and a newer one for every instrument. -/
def mergedValues : Values ℚ where
  rows :=
    [{ id := 1, instrumentKey := some "NSE:A", eventTime := 1, receivedAt := 1, expiresAt := 9
       status := .accepted, value := [(.str "score", .int 1)], contentHash := "a"
       idempotencyKey := none },
     { id := 2, instrumentKey := none, eventTime := 2, receivedAt := 2, expiresAt := 9
       status := .accepted, value := [(.str "score", .int 2)], contentHash := "b"
       idempotencyKey := none }]
  ids := by decide
  keys := by decide

/-- The second instrument's score is answered with the row of the first one, which is the only one
that is stored; and a lookup selects a producer-wide value that is newer than the addressed one. -/
theorem other_instrument_deduplicated :
    ¬ AcknowledgedLaw demoService (keyReused ++ [.resume 1]) ∧
      ¬ ∀ (s : Values ℚ) (instrument : String) (cutoff : Int),
        s.SelectsAddressed instrument cutoff := by
  constructor
  · intro hlaw
    have hack := hlaw keyReused (.resume 1) [] rfl 1 rfl
    have hown : (((ingestion demoService).run (keyReused ++ [.resume 1]) {}).calls[1]?).all
        Call.ownInstrument = true := by
      rw [Option.all_eq_true]
      intro c hc
      have hbefore : ∃ c₀ ∈ ((ingestion demoService).run keyReused {}).calls[1]?,
          c₀.isOver = false := by
        have hany : (((ingestion demoService).run keyReused {}).calls[1]?).any
            (fun c₀ => !c₀.isOver) = true := by decide +kernel
        simpa [Option.any_eq_true] using hany
      obtain ⟨c₀, hc₀, hover⟩ := hbefore
      rw [Call.ownInstrument]
      split
      · next row deduplicated hstage =>
          have hkept := hack.returned c₀ hc₀ hover c hc row deduplicated hstage
          simpa using hkept.carries.instrument
      · rfl
    exact absurd hown (by decide +kernel)
  · intro hselects
    exact absurd (congrArg (Option.map ExternalSignalValue.id) (hselects mergedValues "NSE:A" 5))
      (by decide +kernel)

end KiteAlgo.ExternalSignals
