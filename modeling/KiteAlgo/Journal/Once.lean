import KiteAlgo.Journal.Projector

/-!
# KiteAlgo.Journal.Once

Recording one fill again and again.  The position map, the fact and the claim are written by
different calls, and a claim can be taken again after five minutes: a call that stops between
the map and the fact lets the next one add the fill a second time.  The fact that the projector
inserts first has no episode, and hides its fill from the next pass all the same.

Where no call stops there, fills are added once and none is hidden (`fills_recorded_once`).
-/

namespace KiteAlgo.Journal

open List Option
/-! ## how far a call gets -/

/-- The fill turns the episode's only open position around. -/
def Episode.turnsFlat (episode : Episode) (r : FillRecord) (previousQty : Int) : Bool :=
  classifyPositionEffect previousQty r.side r.quantity = some .flip &&
    allPositionsFlat (episode.netQuantityByInstrument.upsert r.instrumentKey 0)

namespace FillRecord

variable (r : FillRecord) (t : JournalTables)

/-- The open episode that the fill belongs to. -/
def openEpisode : Option Episode :=
  (t.listEpisodes r.context 200).find? fun episode => episode.status.active

/-- The quantity of the fill's instrument before it. -/
def previousQty : Int :=
  match r.openEpisode t with
  | some episode => (episode.netQuantityByInstrument.get? r.instrumentKey).getD 0
  | none => 0

/-- The fill closes its episode and opens the next one. -/
def turnsFlat : Bool :=
  match r.openEpisode t with
  | some episode => episode.turnsFlat r (r.previousQty t)
  | none => false

/-- The call that writes the map with the fill in it. -/
def carryingCall : RepositoryCall := if r.turnsFlat t then .ensureEpisode else .updateEpisode

variable (now : Int) (ends : RepositoryCall → Ending)

/-- `_resolve_episode_for_fill` gets to that call. -/
def Resolves : Prop :=
  ends .listEpisodes = .returns ∧
    (r.openEpisode t = none → ends .ensureEpisode = .returns ∧ ends .episodeDetail = .returns) ∧
    (classifyPositionEffect (r.previousQty t) r.side r.quantity).isSome = true ∧
    (r.turnsFlat t = true → ends .updateEpisode = .returns)

/-- `record_v2_execution_fill` gets to that call. -/
def Reaches : Prop :=
  Text.strip r.context.externalRunId ≠ "" ∧ t.Claimable r.source now ∧
    t.findV2ExecutionFactBySource r.source = none ∧
    (∀ call ∈ [RepositoryCall.claimSource, .findFact, .ensureContext], ends call = .returns) ∧
    r.Resolves t ends

def Completes : Prop :=
  ends (r.carryingCall t) = .returns ∧ ends .createIntent = .returns ∧ r.runId.isSome = true ∧
    (ends .insertFact).effective = true

/-- It does not stop between the map and the fact. -/
def Whole : Prop :=
  r.Reaches t now ends → (ends (r.carryingCall t)).effective = true → r.Completes t ends

end FillRecord

/-! ## the map -/

/-- Code that adds the fill to a map if it gets to the `last` call and that has its effect. -/
structure Carries (source : SourceKey) (reached : Prop) (last : Ending) (t : JournalTables)
    {α : Type} (result : Option α × JournalTables) : Prop where
  facts : result.2.facts = t.facts
  carried : reached → last.effective = true → result.2.additions = source :: t.additions
  kept : ¬ (reached ∧ last.effective = true) → result.2.additions = t.additions
  returned : result.1.isSome = true ↔ reached ∧ last = .returns

namespace Carries

variable {source : SourceKey} {reached : Prop} {last : Ending} {t t' : JournalTables} {α β : Type}

theorem stopped (hreached : ¬ reached) (hfacts : t'.facts = t.facts)
    (hadditions : t'.additions = t.additions) :
    Carries source reached last t ((none : Option α), t') where
  facts := hfacts
  carried h := absurd h hreached
  kept _ := hadditions
  returned := by simp [hreached]

theorem of_call {label : RepositoryCall} {f : JournalTables → β × JournalTables} (k : β → α)
    (ends : RepositoryCall → Ending) (hfacts : (f t).2.facts = t.facts)
    (hadditions : (f t).2.additions = source :: t.additions) :
    Carries source True (ends label) t ((Calls.call label f >>= fun b => pure (k b)) ends t) := by
  cases hend : ends label with
  | returns =>
    rw [Calls.bind_of_some (Calls.call_returns hend)]
    exact ⟨hfacts, fun _ _ => hadditions, fun h => absurd ⟨trivial, rfl⟩ h, by simp⟩
  | raises done =>
    rw [Calls.bind_of_none (Calls.call_raises hend)]
    cases done with
    | false => exact ⟨rfl, fun _ h => Bool.noConfusion h, fun _ => rfl, by simp⟩
    | true => exact ⟨hfacts, fun _ _ => hadditions, fun h => absurd ⟨trivial, rfl⟩ h, by simp⟩

variable {result : Option α × JournalTables}

theorem after (h : Carries source reached last t' result) (hfacts : t'.facts = t.facts)
    (hadditions : t'.additions = t.additions) : Carries source reached last t result where
  facts := h.facts.trans hfacts
  carried hreached hlast := by rw [h.carried hreached hlast, hadditions]
  kept hnot := by rw [h.kept hnot, hadditions]
  returned := h.returned

theorem congr {reached' : Prop} (h : Carries source reached last t result)
    (hiff : reached ↔ reached') : Carries source reached' last t result := by
  rw [← propext hiff]
  exact h

end Carries

@[simp] theorem JournalTables.ensureEpisode_additions (t : JournalTables)
    (context : ExecutionContext) (seq : Nat) (status : EpisodeStatus) (openedAt : Int)
    (map : Table String Int) :
    (t.ensureEpisode context seq status openedAt map).2.additions = t.additions := by
  unfold ensureEpisode
  cases t.episodes.get? (context, seq) <;> rfl

theorem JournalTables.exists_ensureEpisode (t : JournalTables) (context : ExecutionContext)
    (seq : Nat) (status : EpisodeStatus) (openedAt : Int) (map : Table String Int) :
    ∃ episode, (t.ensureEpisode context seq status openedAt map).2.episodes.get?
      (t.ensureEpisode context seq status openedAt map).1 = some episode := by
  unfold ensureEpisode
  cases hget : t.episodes.get? (context, seq) with
  | none => exact ⟨_, Keyed.get?_upsert_self _ _⟩
  | some episode =>
    refine ⟨episode.updated status none map none, ?_⟩
    have hmodify := Keyed.get?_modify_self t.episodes (context, seq)
      (f := fun episode => episode.updated status none map none) fun _ => rfl
    rw [hget] at hmodify
    exact hmodify

section Map

variable (r : FillRecord) (ends : RepositoryCall → Ending) (t : JournalTables)

theorem settleFill_carries (sequence : Nat) (active : Episode) (previousQty : Int) :
    Carries r.source
      ((classifyPositionEffect previousQty r.side r.quantity).isSome ∧
        (active.turnsFlat r previousQty → ends .updateEpisode = .returns))
      (ends (if active.turnsFlat r previousQty then .ensureEpisode else .updateEpisode)) t
      (settleFill r sequence active previousQty ends t) := by
  unfold settleFill Episode.turnsFlat
  cases hclass : classifyPositionEffect previousQty r.side r.quantity with
  | none => exact .stopped (by simp) rfl rfl
  | some effect =>
    dsimp only
    by_cases hflip : effect = .flip
    · subst hflip
      rw [if_pos rfl]
      cases hflat : allPositionsFlat
          (active.netQuantityByInstrument.upsert r.instrumentKey 0) with
      | false =>
        refine (Carries.of_call (fun _ => _) ends ?_ ?_).congr (by simp)
        · rfl
        · rfl
      | true =>
        simp only [Bool.not_true, Bool.false_eq_true, if_false, decide_true, Bool.and_self,
          if_true, forall_const, isSome_some, true_and]
        cases hend : ends .updateEpisode with
        | returns =>
          rw [Calls.bind_of_some (Calls.write_returns hend)]
          refine ((Carries.of_call (fun next => (next, PositionEffect.flip)) ends ?_ ?_).congr
            (by simp)).after ?_ ?_
          · simp [JournalTables.carry]
          · simp [JournalTables.carry]
          · rfl
          · rfl
        | raises done =>
          rw [Calls.bind_of_none (Calls.write_raises hend)]
          refine .stopped (by simp) ?_ ?_
          · cases done <;> rfl
          · cases done <;> rfl
    · rw [if_neg hflip]
      have hturns : decide (some effect = some PositionEffect.flip) = false := by simp [hflip]
      rw [hturns, Bool.false_and]
      refine (Carries.of_call (fun _ => _) ends ?_ ?_).congr (by simp)
      · rfl
      · rfl

theorem classifyPositionEffect_zero (side : String) (quantity : Int) :
    classifyPositionEffect 0 side quantity ≠ some .flip := by
  unfold classifyPositionEffect
  grind

theorem activeEpisode_opened {episodes : List Episode} (sequence : Nat)
    (hnone : (episodes.find? fun episode => episode.status.active) = none) :
    ∃ t', t'.facts = t.facts ∧ t'.additions = t.additions ∧
      ((ends .ensureEpisode = .returns ∧ ends .episodeDetail = .returns) ∧
          (∃ episode, activeEpisode r episodes sequence ends t = (some (episode, 0), t')) ∨
        ¬ (ends .ensureEpisode = .returns ∧ ends .episodeDetail = .returns) ∧
          activeEpisode r episodes sequence ends t = (none, t')) := by
  unfold activeEpisode
  rw [hnone]
  dsimp only
  cases hensure : ends .ensureEpisode with
  | raises done =>
    rw [Calls.bind_of_none (Calls.call_raises hensure)]
    refine ⟨_, ?_, ?_, .inr ⟨by simp, rfl⟩⟩
    · cases done <;> simp
    · cases done <;> simp
  | returns =>
    rw [Calls.bind_of_some (Calls.call_returns hensure)]
    refine ⟨(t.ensureEpisode r.context sequence .opened r.fillTimestamp
      (Table.empty.upsert r.instrumentKey 0)).2, by simp, by simp, ?_⟩
    cases hdetail : ends .episodeDetail with
    | raises done =>
      rw [Calls.bind_of_none (Calls.read_raises hdetail)]
      exact .inr ⟨by simp, rfl⟩
    | returns =>
      obtain ⟨episode, hepisode⟩ := t.exists_ensureEpisode r.context sequence .opened
        r.fillTimestamp (Table.empty.upsert r.instrumentKey 0)
      rw [Calls.bind_of_some (Calls.read_returns hdetail), hepisode]
      exact .inl ⟨⟨rfl, rfl⟩, episode, rfl⟩

theorem resolveEpisodeForFill_carries :
    Carries r.source (r.Resolves t ends) (ends (r.carryingCall t)) t
      (resolveEpisodeForFill r ends t) := by
  unfold resolveEpisodeForFill FillRecord.Resolves FillRecord.carryingCall FillRecord.turnsFlat
    FillRecord.previousQty
  cases hlist : ends .listEpisodes with
  | raises done =>
    rw [Calls.bind_of_none (Calls.read_raises hlist)]
    exact .stopped (by simp) rfl rfl
  | returns =>
    rw [Calls.bind_of_some (Calls.read_returns hlist)]
    dsimp only
    cases hopen : r.openEpisode t with
    | some episode =>
      have hactive : activeEpisode r (t.listEpisodes r.context 200)
          (nextEpisodeSequence ((t.listEpisodes r.context 200).map Episode.episodeSeq)) ends t =
          (some (episode, (episode.netQuantityByInstrument.get? r.instrumentKey).getD 0), t) := by
        unfold activeEpisode
        rw [← FillRecord.openEpisode, hopen]
        rfl
      rw [Calls.bind_of_some hactive]
      exact (settleFill_carries r ends t _ _ _).congr (by simp)
    | none =>
      obtain ⟨t', hfacts, hadditions, ⟨hends, episode, hactive⟩ | ⟨hends, hactive⟩⟩ :=
        activeEpisode_opened r ends t (nextEpisodeSequence
          ((t.listEpisodes r.context 200).map Episode.episodeSeq)) hopen
      · have hturns : episode.turnsFlat r 0 = false := by
          rw [Episode.turnsFlat, decide_eq_false (classifyPositionEffect_zero _ _), Bool.false_and]
        have hcarries := (settleFill_carries r ends t' (nextEpisodeSequence
          ((t.listEpisodes r.context 200).map Episode.episodeSeq)) episode 0).after hfacts
          hadditions
        rw [hturns] at hcarries
        rw [Calls.bind_of_some hactive]
        exact hcarries.congr (by simp [hends])
      · rw [Calls.bind_of_none hactive]
        refine .stopped (fun h => hends (h.2.1 rfl)) hfacts hadditions

end Map

/-! ## one call -/

namespace FillRecord

variable {r : FillRecord} {t t' : JournalTables} {now : Int} {ends : RepositoryCall → Ending}

theorem openEpisode_congr (h : t'.episodes = t.episodes) : r.openEpisode t' = r.openEpisode t := by
  unfold openEpisode JournalTables.listEpisodes JournalTables.episodesOf
  rw [h]

theorem previousQty_congr (h : t'.episodes = t.episodes) : r.previousQty t' = r.previousQty t := by
  unfold previousQty
  rw [openEpisode_congr h]

theorem turnsFlat_congr (h : t'.episodes = t.episodes) : r.turnsFlat t' = r.turnsFlat t := by
  unfold turnsFlat
  rw [openEpisode_congr h, previousQty_congr h]

theorem carryingCall_congr (h : t'.episodes = t.episodes) :
    r.carryingCall t' = r.carryingCall t := by
  unfold carryingCall
  rw [turnsFlat_congr h]

theorem resolves_congr (h : t'.episodes = t.episodes) : r.Resolves t' ends ↔ r.Resolves t ends := by
  unfold Resolves
  rw [openEpisode_congr h, previousQty_congr h, turnsFlat_congr h]

theorem completes_congr (h : t'.episodes = t.episodes) :
    r.Completes t' ends ↔ r.Completes t ends := by
  unfold Completes
  rw [carryingCall_congr h]

end FillRecord

/-- What a call of `record_v2_execution_fill` changes, where it gets to the map, and from there
to the fact. -/
structure Records (r : FillRecord) (reached completed : Prop) (last : Ending) (t : JournalTables)
    (result : Option RecordResult × JournalTables) : Prop where
  carried : reached → last.effective = true → result.2.additions = r.source :: t.additions
  kept : ¬ (reached ∧ last.effective = true) → result.2.additions = t.additions
  inserted : reached → completed → ∃ runId episodeId intentId effect, result.2.facts =
    (t.insertExecutionFact (r.fact runId episodeId intentId effect)).facts
  facts : ¬ (reached ∧ completed) → result.2.facts = t.facts
  answered : ∀ answer ∈ result.1, answer.pending = false →
    (t.findV2ExecutionFactBySource r.source).isSome = true ∨ reached ∧ completed

namespace Records

variable {r : FillRecord} {reached completed reached' completed' : Prop} {last : Ending}
  {t t' : JournalTables}

theorem stopped {answer : Option RecordResult} (hreached : ¬ reached) (hfacts : t'.facts = t.facts)
    (hadditions : t'.additions = t.additions)
    (hanswer : ∀ a ∈ answer, a.pending = false → (t.findV2ExecutionFactBySource r.source).isSome) :
    Records r reached completed last t (answer, t') where
  carried h := absurd h hreached
  kept _ := hadditions
  inserted h := absurd h hreached
  facts _ := hfacts
  answered a ha hpending := .inl (hanswer a ha hpending)

theorem congr {last' : Ending} {result : Option RecordResult × JournalTables}
    (h : Records r reached completed last t' result) (hreached : reached ↔ reached')
    (hcompleted : completed ↔ completed') (hlast : last = last') (hfacts : t'.facts = t.facts)
    (hadditions : t'.additions = t.additions) :
    Records r reached' completed' last' t result := by
  subst hlast
  rw [← propext hreached, ← propext hcompleted]
  refine ⟨?_, ?_, ?_, ?_, ?_⟩
  · rw [← hadditions]
    exact h.carried
  · rw [← hadditions]
    exact h.kept
  · intro hr hc
    obtain ⟨runId, episodeId, intentId, effect, heq⟩ := h.inserted hr hc
    refine ⟨runId, episodeId, intentId, effect, heq.trans ?_⟩
    unfold JournalTables.insertExecutionFact
    rw [hfacts]
  · rw [← hfacts]
    exact h.facts
  · intro answer hanswer hpending
    have hfound := h.answered answer hanswer hpending
    rw [JournalTables.findV2ExecutionFactBySource, hfacts] at hfound
    exact hfound

end Records

section Record

variable (r : FillRecord) (now : Int) (ends : RepositoryCall → Ending) (t : JournalTables)

theorem recordEpisodeFill_records :
    Records r (ends .ensureContext = .returns ∧ r.Resolves t ends) (r.Completes t ends)
      (ends (r.carryingCall t)) t (recordEpisodeFill r now ends t) := by
  unfold recordEpisodeFill
  cases hcontext : ends .ensureContext with
  | raises done =>
    rw [Calls.bind_of_none (Calls.write_raises hcontext)]
    refine .stopped (by simp) ?_ ?_ nofun
    · cases done <;> rfl
    · cases done <;> rfl
  | returns =>
    rw [Calls.bind_of_some (Calls.write_returns hcontext)]
    have hcarries := resolveEpisodeForFill_carries r ends t
    rw [id]
    match hresolve : resolveEpisodeForFill r ends t with
    | (none, t') =>
      rw [hresolve] at hcarries
      rw [Calls.bind_of_none hresolve]
      have hnot : ¬ ((Ending.returns = .returns ∧ r.Resolves t ends) ∧ r.Completes t ends) :=
        fun h => by simpa using hcarries.returned.mpr ⟨h.1.2, h.2.1⟩
      exact
        { carried := fun h => hcarries.carried h.2
          kept := fun h => hcarries.kept fun hall => h ⟨⟨rfl, hall.1⟩, hall.2⟩
          inserted := fun h hc => absurd ⟨h, hc⟩ hnot
          facts := fun _ => hcarries.facts
          answered := nofun }
    | (some (episodeId, effect), t') =>
      rw [hresolve] at hcarries
      rw [Calls.bind_of_some hresolve]
      dsimp only
      obtain ⟨hresolves, hlast⟩ := hcarries.returned.mp rfl
      have hadditions := hcarries.carried hresolves (by rw [hlast]; rfl)
      have hstopped : ∀ result : Option RecordResult × JournalTables,
          ¬ r.Completes t ends → result.1 = none → result.2 = t' →
          Records r (Ending.returns = .returns ∧ r.Resolves t ends) (r.Completes t ends)
            (ends (r.carryingCall t)) t result := by
        rintro ⟨answer, s⟩ hnot rfl rfl
        exact
          { carried := fun _ _ => hadditions
            kept := fun h => absurd ⟨⟨rfl, hresolves⟩, by rw [hlast]; rfl⟩ h
            inserted := fun _ hc => absurd hc hnot
            facts := fun _ => hcarries.facts
            answered := nofun }
      cases hintent : ends .createIntent with
      | raises done =>
        rw [Calls.bind_of_none (Calls.read_raises hintent)]
        exact hstopped _ (fun h => by simpa [hintent] using h.2.1) rfl rfl
      | returns =>
        rw [Calls.bind_of_some (Calls.read_returns hintent)]
        cases hrun : r.runId with
        | none => exact hstopped _ (fun h => by simpa [hrun] using h.2.2.1) rfl rfl
        | some runId =>
          dsimp only
          have hinserted : ∀ result : Option RecordResult × JournalTables,
              (ends .insertFact).effective → result.2.additions = t'.additions →
              result.2.facts = (t'.insertExecutionFact (r.fact runId episodeId
                (r.sourceFactKey ++ ":intent") effect)).facts →
              Records r (Ending.returns = .returns ∧ r.Resolves t ends) (r.Completes t ends)
                (ends (r.carryingCall t)) t result := by
            intro result hinsert hadd hfacts
            have hcompletes : r.Completes t ends :=
              ⟨hlast, hintent, by rw [hrun]; rfl, hinsert⟩
            refine
              { carried := fun _ _ => hadd.trans hadditions
                kept := fun h => absurd ⟨⟨rfl, hresolves⟩, by rw [hlast]; rfl⟩ h
                inserted := fun _ _ => ⟨runId, episodeId, r.sourceFactKey ++ ":intent", effect,
                  hfacts.trans ?_⟩
                facts := fun h => absurd ⟨⟨rfl, hresolves⟩, hcompletes⟩ h
                answered := fun _ _ _ => .inr ⟨⟨rfl, hresolves⟩, hcompletes⟩ }
            unfold JournalTables.insertExecutionFact
            rw [hcarries.facts]
          match hinsert : ends .insertFact with
          | .raises false =>
            rw [Calls.bind_of_none (Calls.write_raises hinsert)]
            exact hstopped _ (fun h => by simpa [hinsert, Ending.effective] using h.2.2.2) rfl rfl
          | .raises true =>
            rw [Calls.bind_of_none (Calls.write_raises hinsert)]
            exact hinserted _ (by rw [hinsert]; rfl) rfl rfl
          | .returns =>
            rw [Calls.bind_of_some (Calls.write_returns hinsert)]
            match hmark : ends .markSource with
            | .raises done =>
              rw [Calls.bind_of_none (Calls.write_raises hmark)]
              refine hinserted _ (by rw [hinsert]; rfl) ?_ ?_
              · cases done <;> rfl
              · cases done <;> rfl
            | .returns =>
              rw [Calls.bind_of_some (Calls.write_returns hmark)]
              exact hinserted _ (by rw [hinsert]; rfl) rfl rfl

theorem recordV2ExecutionFill_records :
    Records r (r.Reaches t now ends) (r.Completes t ends) (ends (r.carryingCall t)) t
      (recordV2ExecutionFill r now ends t) := by
  unfold recordV2ExecutionFill FillRecord.Reaches
  by_cases hnamed : Text.strip r.context.externalRunId = ""
  · rw [if_pos hnamed]
    exact .stopped (fun h => h.1 hnamed) rfl rfl nofun
  rw [if_neg hnamed]
  cases hclaim : ends .claimSource with
  | raises done =>
    rw [Calls.bind_of_none (Calls.call_raises hclaim)]
    unfold JournalTables.claimV2ProjectionSource
    refine .stopped (fun h => by simpa [hclaim] using h.2.2.2.1) ?_ ?_ nofun
    · cases done <;> grind
    · cases done <;> grind
  | returns =>
    rw [Calls.bind_of_some (Calls.call_returns hclaim)]
    unfold JournalTables.claimV2ProjectionSource
    cases hfind : ends .findFact with
    | raises done =>
      rw [Calls.bind_of_none (Calls.read_raises hfind)]
      refine .stopped (fun h => by simpa [hfind] using h.2.2.2.1) ?_ ?_ nofun
      · grind
      · grind
    | returns =>
      rw [Calls.bind_of_some (Calls.read_returns hfind)]
      by_cases hclaimable : t.Claimable r.source now
      · rw [if_pos hclaimable]
        dsimp only
        have hsame : JournalTables.findV2ExecutionFactBySource
            { t with claims := t.claims.upsert ⟨r.source, .processing, now⟩ } r.source =
            t.findV2ExecutionFactBySource r.source := rfl
        rw [hsame]
        cases hexisting : t.findV2ExecutionFactBySource r.source with
        | some existing =>
          exact .stopped (fun h => by simpa using h.2.2.1) rfl rfl fun _ _ _ => by
            rw [hexisting]
            rfl
        | none =>
          have hrecords := recordEpisodeFill_records r now ends
            { t with claims := t.claims.upsert ⟨r.source, .processing, now⟩ }
          refine hrecords.congr ?_ (FillRecord.completes_congr rfl)
            (congrArg ends (FillRecord.carryingCall_congr rfl)) rfl rfl
          have hresolves : r.Resolves
              { t with claims := t.claims.upsert ⟨r.source, .processing, now⟩ } ends ↔
              r.Resolves t ends := FillRecord.resolves_congr rfl
          rw [hresolves]
          simp [hnamed, hclaimable, hclaim, hfind]
      · rw [if_neg hclaimable]
        refine .stopped (fun h => hclaimable h.2.1) rfl rfl ?_
        rintro answer ⟨⟩ hpending
        simpa [RecordResult.duplicateOf] using hpending

end Record

/-! ## the journal, step by step -/

/-- A call of `record_v2_execution_fill`, a mark on a claim, a new fill, the listing that a pass
of `project` starts with, or its next fill. -/
inductive JournalStep where
  | record (r : FillRecord) (now : Int) (ends : RepositoryCall → Ending)
  | mark (source : SourceKey) (status : ClaimStatus) (now : Int)
  | store (fill : LiveFill)
  | list (batchSize : Nat)
  | next (intent : Option LiveOrderIntent) (now : Int) (ends : ProjectorCall → Ending)

/-- The tables, and the fills that the pass has still to project. -/
structure JournalState where
  tables : JournalTables := {}
  left : List LiveFill := []

/-- What `project` does with its next fill; if that raises, the pass ends. -/
def JournalState.next (s : JournalState) (intent : Option LiveOrderIntent) (now : Int)
    (ends : ProjectorCall → Ending) : JournalState :=
  match s.left with
  | [] => s
  | fill :: left =>
    match projectFill fill intent now ends s.tables with
    | (some _, t) => ⟨t, left⟩
    | (none, t) => ⟨t, []⟩

def journal : Machine JournalStep JournalState Unit where
  step
    | .record r now ends, s => { s with tables := (recordV2ExecutionFill r now ends s.tables).2 }
    | .mark source status now, s =>
      { s with tables := s.tables.markV2ProjectionSource source status now }
    | .store fill, s => { s with tables := { s.tables with fills := s.tables.fills.upsert fill } }
    | .list batchSize, s => { s with left := s.tables.listUnprojectedLiveFills batchSize }
    | .next intent now ends, s => s.next intent now ends
  out _ _ := []

/-- However the calls of a pass end, it writes what its listing and a step for each listed fill write. -/
theorem project_run (intentOf : LiveFill → Option LiveOrderIntent) (batchSize : Nat) (now : Int)
    {ends : ProjectCall → Ending} (s : JournalState) (hlist : ends .listFills = .returns) :
    (project intentOf batchSize now ends s.tables).2 =
      (journal.run (.list batchSize :: (s.tables.listUnprojectedLiveFills batchSize).map fun fill =>
        .next (intentOf fill) now (ends ∘ .fill fill.key)) s).tables := by
  have hall : ∀ fills t, (projectAll intentOf now fills ends t).2 =
      (journal.run (fills.map fun fill => .next (intentOf fill) now (ends ∘ .fill fill.key))
        ⟨t, fills⟩).tables := by
    intro fills
    induction fills with
    | nil => exact fun _ => rfl
    | cons fill fills ih =>
      intro t
      have hstep : journal.step (.next (intentOf fill) now (ends ∘ .fill fill.key))
          ⟨t, fill :: fills⟩ = JournalState.next ⟨t, fill :: fills⟩ (intentOf fill) now
            (ends ∘ .fill fill.key) := rfl
      rw [projectAll, map_cons, Machine.run, hstep, JournalState.next]
      dsimp only
      have hrename : ((projectFill fill (intentOf fill) now).rename (ProjectCall.fill fill.key))
          ends t = projectFill fill (intentOf fill) now (ends ∘ .fill fill.key) t := rfl
      rcases hfill : projectFill fill (intentOf fill) now (ends ∘ .fill fill.key) t with
        ⟨_ | resolution, t'⟩
      · rw [Calls.bind_of_none (hrename.trans hfill)]
        dsimp only
        clear ih hstep hrename hfill
        induction fills with
        | nil => rfl
        | cons fill fills ih => exact ih
      · rw [Calls.bind_of_some (hrename.trans hfill)]
        dsimp only
        rw [← ih t']
        rcases hrest : projectAll intentOf now fills ends t' with ⟨_ | resolutions, t''⟩
        · rw [Calls.bind_of_none hrest]
        · rw [Calls.bind_of_some hrest, Calls.pure_apply]
  rw [project, Calls.bind_of_some (Calls.read_returns hlist)]
  exact hall _ _

def oneStored : JournalState :=
  journal.run [.store ⟨demoTrade "T1" "O1" 1 "SELL" 5 1, by decide, by decide⟩] {}

theorem project_run_one :
    (oneStored.tables.listUnprojectedLiveFills 10).length = 1 ∧
      (project (fun _ => none) 10 0 (fun _ => .returns) oneStored.tables).2 =
        (journal.run (.list 10 :: (oneStored.tables.listUnprojectedLiveFills 10).map fun _ =>
          .next none 0 fun _ => .returns) oneStored).tables :=
  ⟨by decide +kernel, project_run _ 10 0 oneStored rfl⟩

/-! ## where no step stops in between -/

/-- Once the first fact of a projected fill is written, the fill gets its episode. -/
def LiveFill.Whole (fill : LiveFill) (intent : Option LiveOrderIntent) (now : Int)
    (ends : ProjectorCall → Ending) (t : JournalTables) : Prop :=
  ends .findIntent = .returns → ∀ a ∈ (attributeFill fill intent ends t).1,
    (ends .insertFact).effective = true →
    t.findV2ExecutionFactBySource (a.sourceType, fill.sourceKey) = none → ends .insertFact = .returns ∧
        (fill.record intent a.runId a.sourceType).Reaches t now (ends ∘ .record) ∧
        (fill.record intent a.runId a.sourceType).Completes t (ends ∘ .record)

/-- The step stops neither between a map and its fact nor between the projector's two facts. -/
def JournalStep.Whole : JournalStep → JournalState → Prop
  | .record r now ends, s => r.Whole s.tables now ends
  | .next intent now ends, s => ∀ fill ∈ s.left.head?, fill.Whole intent now ends s.tables
  | _, _ => True

section Decide

variable (r : FillRecord) (t : JournalTables) (now : Int) (ends : RepositoryCall → Ending)

instance : Decidable (r.Resolves t ends) := inferInstanceAs (Decidable (_ ∧ (_ → _ ∧ _) ∧ _ ∧ _))

instance : Decidable (r.Reaches t now ends) :=
  inferInstanceAs (Decidable (_ ≠ _ ∧ t.Claimable r.source now ∧ _ ∧ _ ∧ r.Resolves t ends))

instance : Decidable (r.Completes t ends) := inferInstanceAs (Decidable (_ ∧ _ ∧ _ ∧ _))

instance : Decidable (r.Whole t now ends) :=
  inferInstanceAs (Decidable (r.Reaches t now ends → _ → r.Completes t ends))

instance (fill : LiveFill) (intent : Option LiveOrderIntent) (ends : ProjectorCall → Ending) :
    Decidable (fill.Whole intent now ends t) :=
  inferInstanceAs (Decidable (_ → ∀ a ∈ (attributeFill fill intent ends t).1, _ → _ → _ ∧ _ ∧ _))

instance decidableWhole : ∀ (q : JournalStep) (s : JournalState), Decidable (q.Whole s)
  | .record r now ends, s => inferInstanceAs (Decidable (r.Whole s.tables now ends))
  | .next _ _ _, s => inferInstanceAs (Decidable (∀ fill ∈ s.left.head?, LiveFill.Whole fill _ _ _ _))
  | .mark _ _ _, _ => isTrue trivial
  | .store _, _ => isTrue trivial
  | .list _, _ => isTrue trivial

end Decide

/-! ## what it leaves -/

def LiveFill.Recorded (fill : LiveFill) (t : JournalTables) : Prop :=
  ∃ sourceType ∈ [SourceType.liveFill, .brokerImport],
    ∃ fact ∈ t.facts.get? (sourceType, fill.sourceKey), fact.episodeId.isSome = true

/-- What a step leaves: every fill was added at most once and has at most one fact row, exactly
once where the answer is not pending, and fills without an episode are listed. -/
structure RecordedOnce (q : JournalStep) (s : JournalState) : Prop where
  added : ∀ source, (journal.step q s).tables.additions.count source ≤ 1
  facts : ∀ source,
    (journal.step q s).tables.facts.rows.countP (fun fact => fact.key = source) ≤ 1
  answered : ∀ r now ends, q = .record r now ends →
    ∀ answer ∈ (recordV2ExecutionFill r now ends s.tables).1, answer.pending = false →
      (journal.step q s).tables.additions.count r.source = 1
  listed : ∀ fill ∈ (journal.step q s).tables.fills.rows, ¬ fill.Recorded (journal.step q s).tables →
    ∀ batchSize, (journal.step q s).tables.fills.rows.length ≤ batchSize →
      fill ∈ (journal.step q s).tables.listUnprojectedLiveFills batchSize

/-- Every fill that was added has its fact, and every fact has its episode. -/
structure JournalTables.Sound (t : JournalTables) : Prop where
  counted : ∀ source, t.additions.count source = if (t.facts.get? source).isSome then 1 else 0
  settled : ∀ source, ∀ fact ∈ t.facts.get? source,
    fact.environmentId.isSome = true ∧ fact.episodeId.isSome = true

namespace JournalTables

variable {t t' : JournalTables} {source : SourceKey}

theorem Sound.of_same (h : t.Sound) (hfacts : t'.facts = t.facts)
    (hadditions : t'.additions = t.additions) : t'.Sound := by
  constructor
  · rw [hfacts, hadditions]
    exact h.counted
  · rw [hfacts]
    exact h.settled

theorem Sound.findV2 (h : t.Sound) (source : SourceKey) :
    t.findV2ExecutionFactBySource source = t.facts.get? source := by
  unfold findV2ExecutionFactBySource
  cases hget : t.facts.get? source with
  | none => rfl
  | some fact => rw [filter_some, if_pos (h.settled source fact hget).1]

theorem Sound.added (h : t.Sound) (hfresh : t.facts.get? source = none)
    (hfact : ∃ fact, t'.facts.get? source = some fact ∧ fact.environmentId.isSome ∧
      fact.episodeId.isSome)
    (hother : ∀ k, k ≠ source → t'.facts.get? k = t.facts.get? k)
    (hadditions : t'.additions = source :: t.additions) : t'.Sound := by
  obtain ⟨fact, hget, henvironment, hepisode⟩ := hfact
  have hzero : t.additions.count source = 0 := by
    rw [h.counted, hfresh]
    rfl
  constructor
  · intro k
    rw [hadditions, count_cons]
    by_cases hk : k = source
    · subst hk
      rw [hzero, hget]
      simp
    · rw [h.counted, hother k hk]
      simp [Ne.symm hk]
  · intro k other hk
    by_cases heq : k = source
    · subst heq
      rw [hget] at hk
      cases hk
      exact ⟨henvironment, hepisode⟩
    · rw [hother k heq] at hk
      exact h.settled k other hk

theorem get?_insertExecutionFact (t : JournalTables) (fact : ExecutionFact) (k : SourceKey) :
    (t.insertExecutionFact fact).facts.get? k = if fact.key = k then
        some (match t.facts.get? fact.key with
          | none => fact
          | some old => fact.onto old)
      else t.facts.get? k := by
  unfold insertExecutionFact
  dsimp only
  rw [Keyed.get?_upsert]
  cases t.facts.get? fact.key with
  | none => rfl
  | some old => rfl

theorem insert_recorded (t : JournalTables) (r : FillRecord) (runId : Nat) (id : EpisodeId)
    (intentId : String) (effect : PositionEffect) :
    (∃ fact, (t.insertExecutionFact (r.fact runId id intentId effect)).facts.get? r.source =
      some fact ∧ fact.environmentId.isSome ∧ fact.episodeId.isSome) ∧
      ∀ k, k ≠ r.source → (t.insertExecutionFact (r.fact runId id intentId effect)).facts.get? k =
        t.facts.get? k := by
  have hkey : (r.fact runId id intentId effect).key = r.source := rfl
  constructor
  · rw [get?_insertExecutionFact, hkey, if_pos rfl]
    cases t.facts.get? r.source with
    | none => exact ⟨_, rfl, rfl, rfl⟩
    | some old => exact ⟨_, rfl, rfl, rfl⟩
  · intro k hk
    rw [get?_insertExecutionFact, hkey, if_neg (Ne.symm hk)]

theorem Sound.of_records {r : FillRecord} {reached completed : Prop} {last : Ending}
    {result : Option RecordResult × JournalTables} (h : t.Sound)
    (hrecords : Records r reached completed last t result)
    (hfresh : reached → t.findV2ExecutionFactBySource r.source = none)
    (hwhole : reached → last.effective → completed)
    (hlast : completed → last.effective) :
    result.2.Sound ∧ ∀ answer ∈ result.1, answer.pending = false →
      result.2.additions.count r.source = 1 := by
  by_cases hcarried : reached ∧ last.effective
  · have hcompleted := hwhole hcarried.1 hcarried.2
    obtain ⟨runId, id, intentId, effect, hfacts⟩ := hrecords.inserted hcarried.1 hcompleted
    obtain ⟨hfact, hother⟩ := t.insert_recorded r runId id intentId effect
    rw [← hfacts] at hfact hother
    have hnone := hfresh hcarried.1
    rw [h.findV2] at hnone
    have hsound := h.added hnone hfact hother (hrecords.carried hcarried.1 hcarried.2)
    refine ⟨hsound, fun _ _ _ => ?_⟩
    obtain ⟨fact, hget, -⟩ := hfact
    rw [hsound.counted, hget]
    rfl
  · have hnot : ¬ (reached ∧ completed) := fun hboth => hcarried ⟨hboth.1, hlast hboth.2⟩
    have hsound := h.of_same (hrecords.facts hnot) (hrecords.kept hcarried)
    refine ⟨hsound, fun answer hanswer hpending => ?_⟩
    have hfound := (hrecords.answered answer hanswer hpending).resolve_right hnot
    rw [h.findV2] at hfound
    rw [hsound.counted, hrecords.facts hnot, hfound]
    rfl

end JournalTables

/-! ## one fill of the projector -/

section Project

variable {fill : LiveFill} {intent : Option LiveOrderIntent} {now : Int}
  {ends : ProjectorCall → Ending} {t : JournalTables}

/-- Nothing that recording a fill reads, or writes, is changed. -/
def JournalTables.SameLedger (t t' : JournalTables) : Prop :=
  t'.episodes = t.episodes ∧ t'.facts = t.facts ∧ t'.claims = t.claims ∧ t'.additions = t.additions

theorem attributeFill_keeps : (attributeFill fill intent).Keeps t.SameLedger := by
  unfold attributeFill
  split
  · refine .bind (.call fun s hs => ?_) fun runId => ?_
    · unfold JournalTables.ensureLiveStrategyRunForIntent
      grind [JournalTables.SameLedger]
    · split
      · exact .pure _
      · exact .raise
  · refine .bind .read fun candidates => ?_
    split
    · exact .pure _
    · refine .bind (.call fun s hs => ?_) fun _ => .pure _
      unfold JournalTables.ensureImportedBrokerRun
      grind [JournalTables.SameLedger]

theorem FillRecord.reaches_congr {r : FillRecord} {t' : JournalTables}
    {ends : RepositoryCall → Ending} (hepisodes : t'.episodes = t.episodes)
    (hclaims : t'.claims = t.claims)
    (hfact : t'.findV2ExecutionFactBySource r.source = t.findV2ExecutionFactBySource r.source) :
    r.Reaches t' now ends ↔ r.Reaches t now ends := by
  unfold Reaches JournalTables.Claimable
  rw [hclaims, hfact, resolves_congr hepisodes]

theorem findV2_insert_fact (t : JournalTables) (fill : LiveFill) (runId : Nat)
    (sourceType : SourceType) :
    (t.insertExecutionFact (fill.fact runId sourceType)).findV2ExecutionFactBySource
        (sourceType, fill.sourceKey) =
      (t.findV2ExecutionFactBySource (sourceType, fill.sourceKey)).map
        (fill.fact runId sourceType).onto := by
  have hkey : (fill.fact runId sourceType).key = (sourceType, fill.sourceKey) := rfl
  unfold JournalTables.findV2ExecutionFactBySource
  rw [JournalTables.get?_insertExecutionFact, hkey, if_pos rfl]
  cases hget : t.facts.get? (sourceType, fill.sourceKey) with
  | none => rfl
  | some old =>
    have henvironment : ((fill.fact runId sourceType).onto old).environmentId = old.environmentId := rfl
    cases hold : old.environmentId with
    | none => simp [Option.filter, henvironment, hold]
    | some environmentId => simp [Option.filter, henvironment, hold]

theorem JournalTables.Sound.insert_fact (h : t.Sound) {runId : Nat} {sourceType : SourceType}
    (hfound : (t.facts.get? (sourceType, fill.sourceKey)).isSome) :
    (t.insertExecutionFact (fill.fact runId sourceType)).Sound := by
  obtain ⟨old, hold⟩ := isSome_iff_exists.mp hfound
  have hkey : (fill.fact runId sourceType).key = (sourceType, fill.sourceKey) := rfl
  constructor
  · intro k
    rw [JournalTables.get?_insertExecutionFact, hkey, hold]
    refine (h.counted k).trans ?_
    by_cases hk : (sourceType, fill.sourceKey) = k
    · rw [if_pos hk, ← hk, hold]
      rfl
    · rw [if_neg hk]
  · intro k fact hfact
    rw [JournalTables.get?_insertExecutionFact, hkey] at hfact
    split at hfact
    · rw [hold] at hfact
      cases hfact
      exact h.settled _ old hold
    · exact h.settled k fact hfact

variable {a : Attribution}

theorem record_after_fact (h : t.Sound)
    (hwhole : t.findV2ExecutionFactBySource (a.sourceType, fill.sourceKey) = none →
      (fill.record intent a.runId a.sourceType).Reaches t now (ends ∘ .record) ∧
        (fill.record intent a.runId a.sourceType).Completes t (ends ∘ .record)) :
    (recordV2ExecutionFill (fill.record intent a.runId a.sourceType) now (ends ∘ .record)
      (t.insertExecutionFact (fill.fact a.runId a.sourceType))).2.Sound := by
  have hrecords := recordV2ExecutionFill_records (fill.record intent a.runId a.sourceType) now
    (ends ∘ .record) (t.insertExecutionFact (fill.fact a.runId a.sourceType))
  have hsource : (fill.record intent a.runId a.sourceType).source = (a.sourceType, fill.sourceKey) :=
    rfl
  have hlookup := findV2_insert_fact t fill a.runId a.sourceType
  cases hfound : t.findV2ExecutionFactBySource (a.sourceType, fill.sourceKey) with
  | some existing =>
    rw [hfound] at hlookup
    have hfact := hfound
    rw [h.findV2] at hfact
    refine ((h.insert_fact (by rw [hfact]; rfl)).of_records hrecords (fun hreached => ?_)
      (fun hreached => ?_) fun hcompletes => ?_).1
    · exact hreached.2.2.1
    · have hnone := hreached.2.2.1
      rw [hsource, hlookup] at hnone
      cases hnone
    · rw [hcompletes.1]
      rfl
  | none =>
    obtain ⟨hreaches, hcompletes⟩ := hwhole hfound
    have hnone := hfound
    rw [h.findV2] at hnone
    rw [hfound] at hlookup
    have hsame : (fill.record intent a.runId a.sourceType).Reaches
        (t.insertExecutionFact (fill.fact a.runId a.sourceType)) now (ends ∘ .record) ↔
        (fill.record intent a.runId a.sourceType).Reaches t now (ends ∘ .record) := by
      refine FillRecord.reaches_congr rfl rfl ?_
      rw [hsource, hlookup, hfound]
      rfl
    have hreaches' := hsame.mpr hreaches
    have hcompletes' : (fill.record intent a.runId a.sourceType).Completes
        (t.insertExecutionFact (fill.fact a.runId a.sourceType)) (ends ∘ .record) :=
      (FillRecord.completes_congr rfl).mpr hcompletes
    obtain ⟨runId, id, intentId, effect, hfacts⟩ := hrecords.inserted hreaches' hcompletes'
    obtain ⟨hfact, hother⟩ := JournalTables.insert_recorded
      (t.insertExecutionFact (fill.fact a.runId a.sourceType))
      (fill.record intent a.runId a.sourceType) runId id intentId effect
    rw [← hfacts] at hfact hother
    refine h.added hnone hfact (fun k hk => (hother k hk).trans ?_)
      (hrecords.carried hreaches' (by rw [hcompletes'.1]; rfl))
    have hkey : (fill.fact a.runId a.sourceType).key = (a.sourceType, fill.sourceKey) := rfl
    rw [JournalTables.get?_insertExecutionFact, hkey, if_neg (Ne.symm hk)]

theorem recordAttributed_sound (h : t.Sound) (hwhole : (ends .insertFact).effective →
      t.findV2ExecutionFactBySource (a.sourceType, fill.sourceKey) = none → ends .insertFact = .returns ∧
          (fill.record intent a.runId a.sourceType).Reaches t now (ends ∘ .record) ∧
          (fill.record intent a.runId a.sourceType).Completes t (ends ∘ .record)) :
    (recordAttributed fill intent now a ends t).2.Sound := by
  unfold recordAttributed
  match hinsert : ends .insertFact with
  | .raises false =>
    rw [Calls.bind_of_none (Calls.write_raises hinsert)]
    exact h
  | .raises true =>
    rw [Calls.bind_of_none (Calls.write_raises hinsert)]
    have hfound : t.findV2ExecutionFactBySource (a.sourceType, fill.sourceKey) ≠ none := by
      intro hnone
      have hreturns := (hwhole (by rw [hinsert]; rfl) hnone).1
      rw [hinsert] at hreturns
      cases hreturns
    rw [h.findV2] at hfound
    exact h.insert_fact (isSome_iff_ne_none.mpr hfound)
  | .returns =>
    rw [Calls.bind_of_some (Calls.write_returns hinsert)]
    have hclosing : ∀ s : JournalTables, s.Sound → (s.markRunExternallyClosedIfFlat a.runId).Sound := by
      intro s hs
      unfold JournalTables.markRunExternallyClosedIfFlat
      split
      · exact hs
      · exact hs.of_same rfl rfl
    have hrest : Calls.Keeps JournalTables.Sound (do
        if a.resolution = .externalExit then
          .write ProjectorCall.markClosed fun t => t.markRunExternallyClosedIfFlat a.runId
        pure a.resolution) := by
      split
      · exact .bind (.write hclosing) fun _ => .pure _
      · exact .pure _
    have hrecorded : (recordV2ExecutionFill (fill.record intent a.runId a.sourceType) now
        (ends ∘ .record) (t.insertExecutionFact (fill.fact a.runId a.sourceType))).2.Sound :=
      record_after_fact h fun hnone => (hwhole (by rw [hinsert]; rfl) hnone).2
    refine Calls.Keeps.after_attempt (fun _ => hrest) ?_
    rw [Calls.rename_apply]
    exact hrecorded

theorem projectFill_sound (h : t.Sound) (hwhole : fill.Whole intent now ends t) :
    (projectFill fill intent now ends t).2.Sound := by
  unfold projectFill
  cases hfind : ends .findIntent with
  | raises done =>
    rw [Calls.bind_of_none (Calls.read_raises hfind)]
    exact h
  | returns =>
    rw [Calls.bind_of_some (Calls.read_returns hfind)]
    obtain ⟨hepisodes, hfacts, hclaims, hadditions⟩ :
        t.SameLedger (attributeFill fill intent ends t).2 :=
      attributeFill_keeps ends t ⟨rfl, rfl, rfl, rfl⟩
    match hattribute : attributeFill fill intent ends t with
    | (none, t') =>
      rw [hattribute] at hfacts hadditions
      rw [Calls.bind_of_none hattribute]
      exact h.of_same hfacts hadditions
    | (some a, t') =>
      rw [hattribute] at hepisodes hfacts hclaims hadditions
      rw [Calls.bind_of_some hattribute]
      refine recordAttributed_sound (h.of_same hfacts hadditions) fun hinsert hnone => ?_
      have hsame : ∀ source, t'.findV2ExecutionFactBySource source =
          t.findV2ExecutionFactBySource source := by
        intro source
        unfold JournalTables.findV2ExecutionFactBySource
        rw [hfacts]
      rw [hsame] at hnone
      obtain ⟨hreturns, hreaches, hcompletes⟩ :=
        hwhole hfind a (by rw [hattribute]; rfl) hinsert hnone
      exact ⟨hreturns, (FillRecord.reaches_congr hepisodes hclaims (hsame _)).mpr hreaches,
        (FillRecord.completes_congr hepisodes).mpr hcompletes⟩

end Project

/-! ## runs -/

theorem JournalTables.Sound.listed {t : JournalTables} (h : t.Sound) {fill : LiveFill}
    (hfill : fill ∈ t.fills.rows) (hnew : ¬ fill.Recorded t) {batchSize : Nat}
    (hbatch : t.fills.rows.length ≤ batchSize) : fill ∈ t.listUnprojectedLiveFills batchSize := by
  have hnone : ∀ sourceType ∈ [SourceType.liveFill, .brokerImport],
      (t.facts.get? (sourceType, fill.sourceKey)).isNone := by
    intro sourceType hmem
    rw [isNone_iff_eq_none]
    by_contra hsome
    obtain ⟨fact, hfact⟩ := ne_none_iff_exists'.mp hsome
    exact hnew ⟨sourceType, hmem, fact, hfact, (h.settled _ fact hfact).2⟩
  unfold JournalTables.listUnprojectedLiveFills
  rw [take_of_length_le]
  · rw [mem_sortBy, mem_filter]
    exact ⟨hfill, by simp [hnone]⟩
  · rw [length_sortBy]
    have hle := length_filter_le (fun fill : LiveFill => decide
      ((t.facts.get? (.liveFill, fill.sourceKey)).isNone ∧
        (t.facts.get? (.brokerImport, fill.sourceKey)).isNone)) t.fills.rows
    omega

theorem step_record (r : FillRecord) (now : Int) (ends : RepositoryCall → Ending) (s : JournalState) :
    (journal.step (.record r now ends) s).tables = (recordV2ExecutionFill r now ends s.tables).2 := by
  simp only [journal]

variable {s : JournalState}

theorem record_sound {r : FillRecord} {now : Int} {ends : RepositoryCall → Ending}
    (hsound : s.tables.Sound) (hwhole : (JournalStep.record r now ends).Whole s) :
    (recordV2ExecutionFill r now ends s.tables).2.Sound ∧
      ∀ answer ∈ (recordV2ExecutionFill r now ends s.tables).1, answer.pending = false →
        (recordV2ExecutionFill r now ends s.tables).2.additions.count r.source = 1 := by
  have hrecords := recordV2ExecutionFill_records r now ends s.tables
  refine hsound.of_records hrecords ?_ hwhole ?_
  · exact fun hreached => hreached.2.2.1
  · intro hcompletes
    rw [hcompletes.1]
    rfl

variable {q : JournalStep}

theorem JournalStep.sound (hsound : s.tables.Sound) (hwhole : q.Whole s) :
    (journal.step q s).tables.Sound := by
  cases q with
  | record r now ends =>
    rw [step_record]
    exact (record_sound hsound hwhole).1
  | mark source status now => exact hsound.of_same rfl rfl
  | store fill => exact hsound.of_same rfl rfl
  | list batchSize => exact hsound
  | next intent now ends =>
    show (s.next intent now ends).tables.Sound
    unfold JournalState.next
    split
    · exact hsound
    · next fill left hleft =>
      have hproject := projectFill_sound hsound (hwhole fill (by rw [hleft]; rfl))
      split <;> (next hresult => rw [hresult] at hproject; exact hproject)

theorem JournalStep.recordedOnce (hsound : s.tables.Sound) (hwhole : q.Whole s) :
    RecordedOnce q s := by
  have hafter := q.sound hsound hwhole
  constructor
  · intro source
    rw [hafter.counted]
    split
    · exact le_rfl
    · exact Nat.zero_le 1
  · intro source
    have hcount := nodup_iff_count_le_one.mp (journal.step q s).tables.facts.unique source
    rw [count, countP_map] at hcount
    exact (countP_congr fun fact _ => by simp).trans_le hcount
  · rintro r now ends rfl
    rw [step_record]
    exact (record_sound hsound hwhole).2
  · intro fill hfill hnew batchSize hbatch
    exact hafter.listed hfill hnew hbatch

/-- In every run in which no step stops between a map and its fact or between the projector's
two facts, every fill is added once and has one fact, and fills without an episode are listed. -/
theorem fills_recorded_once (steps : List JournalStep)
    (h : journal.Along (fun q _ s => q.Whole s) steps {}) :
    journal.Along (fun q _ s => RecordedOnce q s) steps {} := by
  have hsound : ({} : JournalState).tables.Sound := ⟨fun _ => rfl, fun _ _ => nofun⟩
  generalize ({} : JournalState) = s at h hsound
  induction steps generalizing s with
  | nil => trivial
  | cons q rest ih => exact ⟨q.recordedOnce hsound h.1, ih _ h.2 (q.sound hsound h.1)⟩

/-! ## calls that stop -/

def lateFill : LiveFill := ⟨demoTrade "T1" "O1" 1 "BUY" 10 1, by decide, by decide⟩

/-- Its recording stops at the intent and is tried again after five minutes. -/
def retriedSteps : List JournalStep :=
  [.record (lateFill.record none 1 .liveFill) 0
    fun call => if call = .createIntent then .raises false else .returns,
   .record (lateFill.record none 1 .liveFill) (seconds 301) fun _ => .returns]

/-- Its recording in a pass of the projector stops at the list of episodes. -/
def hiddenSteps : List JournalStep :=
  [.store lateFill, .list 100,
   .next none 0 fun call => if call = .record .listEpisodes then .raises false else .returns]

/-- A pass that projects the fill, and another recording of it. -/
def wholeSteps : List JournalStep :=
  [.store lateFill, .list 100, .next none 0 fun _ => .returns,
   .record (lateFill.record none 1 .brokerImport) (seconds 301) fun _ => .returns]

theorem fills_recorded_once_demo : journal.Along (fun q _ s => RecordedOnce q s) wholeSteps {} :=
  fills_recorded_once wholeSteps (by decide +kernel)

/-- The retry adds the fill again; the pass hides a fill without an episode. -/
theorem retried_fill_added_twice :
    (journal.run retriedSteps {}).tables.additions.count (.liveFill, lateFill.sourceKey) = 2 ∧
      ¬ journal.Along (fun q _ s => RecordedOnce q s) retriedSteps {} ∧
      ¬ lateFill.Recorded (journal.run hiddenSteps {}).tables ∧
      (journal.run hiddenSteps {}).tables.listUnprojectedLiveFills 100 = [] ∧
      ¬ journal.Along (fun q _ s => RecordedOnce q s) hiddenSteps {} := by
  have htwice : (journal.run retriedSteps {}).tables.additions.count
      (.liveFill, lateFill.sourceKey) = 2 := by decide +kernel
  have hunlisted : (journal.run hiddenSteps {}).tables.listUnprojectedLiveFills 100 = [] := by
    decide +kernel
  have hstored : lateFill ∈ (journal.run hiddenSteps {}).tables.fills.rows := by decide +kernel
  have hlength : (journal.run hiddenSteps {}).tables.fills.rows.length ≤ 100 := by decide +kernel
  have hhidden : ¬ lateFill.Recorded (journal.run hiddenSteps {}).tables := by
    unfold LiveFill.Recorded
    decide +kernel
  refine ⟨htwice, fun h => ?_, hhidden, hunlisted, fun h => ?_⟩
  · obtain ⟨-, hlast, -⟩ := h
    have hle := hlast.added (.liveFill, lateFill.sourceKey)
    exact absurd (htwice.symm.trans_le hle) (by decide)
  · obtain ⟨-, -, hlast, -⟩ := h
    have hmem := hlast.listed lateFill hstored hhidden 100 hlength
    exact absurd (hunlisted ▸ hmem) List.not_mem_nil

end KiteAlgo.Journal
