import KiteAlgo.ExternalSignals

/-!
# KiteAlgo.ExternalSignals.Replay

Lookups as of a cutoff over the calls and purges that follow.

The newest candidate decides even where it is expired or late, so a purge that deletes it
may uncover an older value with a longer lifetime (`purge_uncovers`), and a value that is
received later may have an earlier event time than the cutoff.  `lookups_stable`: where
neither happens to a candidate that matters, every later lookup gives the same answer.
-/

namespace KiteAlgo.ExternalSignals

open List
variable {F : Type} [PyFloat F]

/-- The value and the usability of a lookup. -/
def answer (producer : ExternalSignalProducer) (s : Values F) (field : String) (cutoff : Int)
    (instrument : Option String) : Except Failure (Option F × Bool) :=
  (lookupValue (some producer) s field cutoff instrument).map fun found =>
    (found.value, found.usable)

/-- The row is accepted, not expired at the cutoff, and has a number in the field. -/
def ExternalSignalValue.usableAt {F : Type} (row : ExternalSignalValue F) (field : String)
    (cutoff : Int) : Bool :=
  decide (row.status = .accepted) && decide (cutoff ≤ row.expiresAt) &&
    (row.value.get? (.str field)).any PyVal.isNumber

def Call.inserts (c : Call F) : Bool :=
  match c.stage with
  | .insert => true
  | _ => false

/-- What an event may do to a lookup.  A row that it stores is no candidate, or older than the
candidate, or neither of them is usable; a purge leaves the candidate, or neither the candidate nor
the one after the purge is usable. -/
def Undisturbed (svc : Service) (field : String) (cutoff : Int) (instrument : Option String) :
    Event F → State F → Prop
  | .start _, _ => True
  | .resume i, s => ∀ c ∈ s.calls[i]?, c.inserts = true → s.values.Admits (c.request.row svc) →
      c.request.eventTime ≤ cutoff → (c.request.row svc).visibleTo instrument = true →
      (∃ candidate ∈ s.values.candidate instrument cutoff, (c.request.row svc).rank < candidate.rank) ∨
      ((c.request.row svc).usableAt field cutoff = false ∧
        ∀ candidate ∈ s.values.candidate instrument cutoff, candidate.usableAt field cutoff = false)
  | .purge retentionS now, s => ∀ candidate ∈ s.values.candidate instrument cutoff,
      now - retentionS * microsPerSecond ≤ candidate.expiresAt ∨ (candidate.usableAt field cutoff = false ∧
        ∀ left ∈ (s.values.purgeExpiredValues retentionS now).candidate instrument cutoff,
          left.usableAt field cutoff = false)

instance (svc : Service) (field : String) (cutoff : Int) (instrument : Option String)
    (e : Event F) (s : State F) : Decidable (Undisturbed svc field cutoff instrument e s) :=
  match e with
  | .start _ => .isTrue trivial
  | .resume _ => inferInstanceAs (Decidable (∀ _ ∈ _, _))
  | .purge _ _ => inferInstanceAs (Decidable (∀ _ ∈ _, _))

/-- Every lookup after a prefix of the events answers as one before them. -/
def LookupsStable (svc : Service) (field : String) (cutoff : Int) (instrument : Option String)
    (events : List (Event F)) (s : State F) : Prop :=
  ∀ past, past <+: events →
    answer svc.producer ((ingestion svc).run past s).values field cutoff instrument =
      answer svc.producer s.values field cutoff instrument

section Answers

variable {producer : ExternalSignalProducer} {field : String} {cutoff : Int}
  {instrument : Option String} {s s' : Values F} {row : ExternalSignalValue F}

theorem lookup_unusable (h : row.usableAt field cutoff = false) :
    (row.lookup field cutoff).map (fun found => (found.value, found.usable)) = .ok (none, false) := by
  unfold ExternalSignalValue.lookup
  split
  · rfl
  · next haccepted =>
      split
      · rfl
      · next hexpired =>
          split
          · rfl
          · next raw _ hraw =>
              have hnumber : raw.isNumber = false := by
                simp only [ExternalSignalValue.usableAt, Bool.and_eq_false_iff,
                  decide_eq_false_iff_not] at h
                rcases h with (h | h) | h
                · exact absurd (not_not.mp haccepted) h
                · exact absurd (Int.not_lt.mp hexpired) h
                · simpa [hraw] using h
              rw [hnumber]
              rfl
          · rfl

theorem answer_unusable
    (h : ∀ candidate ∈ s.candidate instrument cutoff, candidate.usableAt field cutoff = false) :
    answer producer s field cutoff instrument = .ok (none, false) := by
  unfold answer lookupValue
  dsimp only
  split
  · rfl
  · cases hcandidate : s.candidate instrument cutoff with
    | none => rfl
    | some candidate => exact lookup_unusable (h candidate hcandidate)

theorem answer_none (h : s.candidate instrument cutoff = none) :
    answer producer s field cutoff instrument = .ok (none, false) :=
  answer_unusable (by simp [h])

theorem answer_congr (h : s'.candidate instrument cutoff = s.candidate instrument cutoff) :
    answer producer s' field cutoff instrument = answer producer s field cutoff instrument := by
  cases hcandidate : s.candidate instrument cutoff with
  | none => rw [answer_none hcandidate, answer_none (h.trans hcandidate)]
  | some candidate => simp only [answer, lookupValue, h, hcandidate]

end Answers

/-! ## one step -/

section Steps

variable {svc : Service} {field : String} {cutoff : Int} {instrument : Option String}

omit [PyFloat F] in
theorem candidates_insert (cutoff : Int) (instrument : Option String) {s s' : Values F}
    {row : ExternalSignalValue F} (h : s'.rows = s.rows ++ [row]) :
    s'.candidates instrument cutoff = s.candidates instrument cutoff ++
      if row.eventTime ≤ cutoff ∧ row.visibleTo instrument then [row] else [] := by
  rw [Values.candidates, h, filter_append, Values.candidates]
  congr 1
  by_cases hpasses : row.eventTime ≤ cutoff ∧ row.visibleTo instrument
  · simp [hpasses.1, hpasses.2]
  · rw [if_neg hpasses, filter_eq_nil_iff]
    simpa using hpasses

theorem answer_insert {s s' : Values F} {row : ExternalSignalValue F} (hrows : s'.rows = s.rows ++ [row])
    (h : row.eventTime ≤ cutoff → row.visibleTo instrument →
      (∃ candidate ∈ s.candidate instrument cutoff, row.rank < candidate.rank) ∨
      (row.usableAt field cutoff = false ∧
        ∀ candidate ∈ s.candidate instrument cutoff, candidate.usableAt field cutoff = false)) :
    answer svc.producer s' field cutoff instrument = answer svc.producer s field cutoff instrument := by
  have hcandidates := candidates_insert cutoff instrument hrows
  by_cases hpasses : row.eventTime ≤ cutoff ∧ row.visibleTo instrument
  · rw [if_pos hpasses] at hcandidates
    rcases h hpasses.1 hpasses.2 with ⟨candidate, hcandidate, hnewer⟩ | ⟨hrow, hcandidate⟩
    · refine answer_congr ?_
      obtain ⟨hmem, hlast⟩ := newest_of_some hcandidate
      rw [hcandidate, Values.candidate_eq_some_iff, hcandidates]
      refine ⟨mem_append_left _ hmem, fun other hother => ?_⟩
      rcases mem_append.mp hother with hother | hother
      · exact hlast other hother
      · rw [mem_singleton.mp hother]
        exact hnewer.le
    · rw [answer_unusable hcandidate]
      refine answer_unusable fun candidate hnew => ?_
      obtain ⟨hmem, hlast⟩ := newest_of_some hnew
      rw [hcandidates] at hmem hlast
      rcases mem_append.mp hmem with hmem | hmem
      · refine hcandidate candidate ?_
        rw [Option.mem_def, Values.candidate_eq_some_iff]
        exact ⟨hmem, fun other hother => hlast other (mem_append_left _ hother)⟩
      · rw [mem_singleton.mp hmem]
        exact hrow
  · rw [if_neg hpasses, append_nil] at hcandidates
    exact answer_congr (congrArg newest hcandidates)

theorem answer_purge {s : Values F} {retentionS now : Int}
    (h : ∀ candidate ∈ s.candidate instrument cutoff,
      now - retentionS * microsPerSecond ≤ candidate.expiresAt ∨ (candidate.usableAt field cutoff = false ∧
        ∀ left ∈ (s.purgeExpiredValues retentionS now).candidate instrument cutoff,
          left.usableAt field cutoff = false)) :
    answer svc.producer (s.purgeExpiredValues retentionS now) field cutoff instrument =
      answer svc.producer s field cutoff instrument := by
  have hleft : ∀ row, row ∈ (s.purgeExpiredValues retentionS now).candidates instrument cutoff ↔
      row ∈ s.candidates instrument cutoff ∧ now - retentionS * microsPerSecond ≤ row.expiresAt := by
    intro row
    simp only [Values.candidates, Values.purgeExpiredValues, mem_filter, decide_eq_true_eq]
    grind
  cases hcandidate : s.candidate instrument cutoff with
  | none =>
    rw [Values.candidate, newest_eq_none_iff] at hcandidate
    refine answer_congr ?_
    rw [Values.candidate, Values.candidate, hcandidate]
    congr 1
    rw [eq_nil_iff_forall_not_mem]
    intro row hrow
    have hmem := ((hleft row).mp hrow).1
    rw [hcandidate] at hmem
    cases hmem
  | some candidate =>
    rcases h candidate hcandidate with hkept | ⟨hunusable, hafter⟩
    · refine answer_congr ?_
      obtain ⟨hmem, hlast⟩ := newest_of_some hcandidate
      rw [hcandidate, Values.candidate_eq_some_iff]
      exact ⟨(hleft candidate).mpr ⟨hmem, hkept⟩,
        fun other hother => hlast other ((hleft other).mp hother).1⟩
    · rw [answer_unusable hafter, answer_unusable]
      intro other hother
      rw [hcandidate] at hother
      exact Option.some.inj hother ▸ hunusable

theorem step_values (svc : Service) (c : Call F) (s : Values F) :
    (c.step svc s).2 = s ∨ c.inserts ∧ s.Admits (c.request.row svc) ∧
        (c.step svc s).2.rows = s.rows ++ [c.request.row svc] := by
  obtain ⟨r, stage⟩ := c
  cases stage with
  | insert =>
    by_cases hadmits : s.Admits (r.row svc)
    · refine .inr ⟨rfl, hadmits, ?_⟩
      simp only [Call.step, Values.insert, dif_pos hadmits]
    · left
      simp only [Call.step, Values.insert, dif_neg hadmits]
      split <;> rfl
  | find key keyed | reread key keyed =>
    left
    simp only [Call.step]
    split <;> rfl
  | count =>
    left
    simp only [Call.step]
    split <;> rfl
  | returned row deduplicated | raised failure => exact .inl rfl

theorem answer_step {e : Event F} {s : State F} (h : Undisturbed svc field cutoff instrument e s) :
    answer svc.producer ((ingestion svc).step e s).values field cutoff instrument =
      answer svc.producer s.values field cutoff instrument := by
  cases e with
  | start request => rfl
  | resume i =>
    cases hi : s.calls[i]? with
    | none => simp only [ingestion, hi]
    | some c =>
      have hstep : ((ingestion svc).step (.resume i) s).values = (c.step svc s.values).2 := by
        simp only [ingestion, hi]
      rw [hstep]
      rcases step_values svc c s.values with hsame | ⟨hinserts, hadmits, hrows⟩
      · rw [hsame]
      · exact answer_insert hrows (h c hi hinserts hadmits)
  | purge retentionS now => exact answer_purge h

end Steps

/-- Lookups do not depend on when they run: where every later event leaves the candidate as it is,
or changes between unusable ones, every later lookup has the same value and usability. -/
theorem lookups_stable (svc : Service) (field : String) (cutoff : Int) (instrument : Option String)
    {events : List (Event F)} {s : State F}
    (h : (ingestion svc).Along (fun e _ s => Undisturbed svc field cutoff instrument e s) events s) :
    LookupsStable svc field cutoff instrument events s := by
  rintro past ⟨rest, rfl⟩
  exact Machine.Along.keeps (I := fun s' => answer svc.producer s'.values field cutoff instrument =
    answer svc.producer s.values field cutoff instrument)
    (fun _ _ _ hcalm hsame => (answer_step hcalm).trans hsame) (Machine.along_append.mp h).1 rfl

/-! ## runs of one producer -/

/-- A producer of a score; hashes are the texts themselves. -/
def scores : Service where
  producer := { name := "scores", valueSchema := [("score", .number)], defaultTtlS := 3600 }
  sha256 := id

/-- A score of an event at a second, received then, with its lifetime in seconds. -/
def score (id : Nat) (second lifetime : Int) : Request ℚ where
  id := id
  now := second * microsPerSecond
  payload := .dict [(.str "score", .int id)]
  eventTime := second * microsPerSecond
  expiresAt := some ((second + lifetime) * microsPerSecond)

/-- A call of `ingest_value` alone. -/
def scoreAlone (i : Nat) (r : Request ℚ) : List (Event ℚ) := .start r :: List.replicate 2 (.resume i)

/-- A value of a week, and a newer one of five seconds. -/
def twoScores : State ℚ :=
  (ingestion scores).run (scoreAlone 0 (score 1 1 1000000) ++ scoreAlone 1 (score 2 2 5)) {}

/-- A later value and a purge change nothing for a cutoff at which the value of a week holds. -/
theorem lookups_stable_scores :
    LookupsStable scores "score" (microsPerSecond) none
      (scoreAlone 2 (score 3 30 60) ++ [.purge 604800 (604900 * microsPerSecond)]) twoScores :=
  lookups_stable scores "score" microsPerSecond none (by decide +kernel)

/-- The newest value is expired at the cutoff; the purge that deletes it uncovers the older one, and
the lookup that had no usable value now has one. -/
theorem purge_uncovers :
    ¬ LookupsStable scores "score" (20 * microsPerSecond) none
      [.purge 604800 (604900 * microsPerSecond)] twoScores := by
  intro hstable
  have hsame := hstable _ (List.prefix_refl _)
  exact absurd (congrArg (fun answer => answer.toOption.map Prod.snd) hsame) (by decide +kernel)

end KiteAlgo.ExternalSignals
