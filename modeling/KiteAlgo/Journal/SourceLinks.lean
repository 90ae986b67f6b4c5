import KiteAlgo.Journal
import KiteAlgo.Lib.Run

/-!
# KiteAlgo.Journal.SourceLinks

The journal runs of paper strategies, option strategies and investments: each call looks for
the link of its source key, and creates a run with that link where it finds none.

The paper call reads the id of the run it has created from the wrong level of the detail, and a
link is stored under the stripped key while it is looked for under the key as given
(`source_keys_own_runs_iff`).
-/

namespace KiteAlgo.Journal

open List
/-- `(source_type, source_key, COALESCE(source_key_2, ''))`. -/
structure LinkKey where
  sourceType : SourceType
  sourceKey : String
  sourceKey2 : String
  deriving DecidableEq

/-- What the calls read and write; runs are numbered as they are created. -/
structure RunStore where
  runs : List ℕ := []
  links : Dict LinkKey ℕ := []

/-- A value of the detail of a run, as far as it is read. -/
inductive DetailValue where
  | run (id : ℕ)
  | rows
  | count (n : ℕ)

/-- A call; the attribution of the paper call has no other field that is read. -/
inductive EnsureCall where
  | paperStrategyRun (strategyRunId accountRef : String)
  | optionStrategyRun (optionStrategyRunId : String)
  | investmentRun (portfolioTag : String) (sourceKey2 : Option String)
  deriving DecidableEq

/-- How a call ends: the id it returns, or the text of a ValueError. -/
abbrev EnsureResult := Except String (Option ℕ)

namespace RunStore

def findSourceLink (s : RunStore) (key : LinkKey) : Option ℕ := s.links.get? key

/-- `link_source`, for a key that `JournalSourceLink` has stripped. -/
def linkSource (s : RunStore) (id : ℕ) (key : LinkKey) : RunStore :=
  { s with links := s.links.set key id }

/-- `create_run`, with the detail that it returns. -/
def createRun (s : RunStore) (links : List LinkKey) : Dict String DetailValue × RunStore :=
  let id := s.runs.length
  ([("run", .run id), ("legs", .rows), ("sources", .rows), ("decision_events", .rows),
      ("execution_facts", .rows), ("linked_sources_count", .count links.length),
      ("decision_events_appended", .count 0)],
    links.foldl (fun s key => s.linkSource id key) { s with runs := s.runs ++ [id] })

/-- `(created.get("run") or {}).get("id")`. -/
def nestedId (detail : Dict String DetailValue) : Option ℕ :=
  match detail.get? "run" with
  | some (.run id) => some id
  | _ => none

/-- `run.get("id")`. -/
def topId (detail : Dict String DetailValue) : Option ℕ :=
  match detail.get? "id" with
  | some (.run id) => some id
  | _ => none

def ensurePaperStrategyRun (s : RunStore) (strategyRunId accountRef : String) :
    EnsureResult × RunStore :=
  let key := ⟨.paperStrategyRun, Text.strip strategyRunId, Text.strip accountRef⟩
  if key.sourceKey = "" ∨ key.sourceKey2 = "" then (.ok none, s)
  else
    match s.findSourceLink key with
    | some id => (.ok (some id), s)
    | none =>
      let (run, s) := s.createRun []
      match topId run with
      | none => (.ok none, s)
      | some id => (.ok (some id), s.linkSource id key)

/-- `mirror_option_strategy_run` and `ensure_investment_run`: the run that is found, or a new one
whose link the model of links has stripped. -/
def ensureLinkedRun (s : RunStore) (sourceType : SourceType) (sourceKey sourceKey2 : String) :
    EnsureResult × RunStore :=
  match s.findSourceLink ⟨sourceType, sourceKey, sourceKey2⟩ with
  | some id => (.ok (some id), s)
  | none =>
    if Text.strip sourceKey = "" then (.error "source_key is required", s)
    else
      let (created, s) := s.createRun [⟨sourceType, Text.strip sourceKey, sourceKey2⟩]
      (.ok (nestedId created), s)

def ensure (call : EnsureCall) (s : RunStore) : EnsureResult × RunStore :=
  match call with
  | .paperStrategyRun strategyRunId accountRef => s.ensurePaperStrategyRun strategyRunId accountRef
  | .optionStrategyRun id => s.ensureLinkedRun .optionStrategyRun id ""
  | .investmentRun tag sourceKey2 => s.ensureLinkedRun .investingStrategy tag (sourceKey2.getD "")

def ensuring : Machine EnsureCall RunStore (EnsureCall × EnsureResult) :=
  .ofCall fun call s => ((call, (s.ensure call).1), (s.ensure call).2)

end RunStore

/-- The source key of a call, none where it is blank. -/
def EnsureCall.sourceKey : EnsureCall → Option LinkKey
  | paperStrategyRun strategyRunId accountRef =>
    if Text.strip strategyRunId = "" ∨ Text.strip accountRef = "" then none
    else some ⟨.paperStrategyRun, Text.strip strategyRunId, Text.strip accountRef⟩
  | optionStrategyRun id => if Text.strip id = "" then none else some ⟨.optionStrategyRun, id, ""⟩
  | investmentRun tag sourceKey2 =>
    if Text.strip tag = "" then none else some ⟨.investingStrategy, tag, sourceKey2.getD ""⟩

/-- Every source key owns one run: its calls return it, its link is to it, and there is no
other run. -/
def KeysOwnRuns (calls : List EnsureCall) : Prop :=
  let s := RunStore.ensuring.run calls {}
  let keys := (calls.filterMap EnsureCall.sourceKey).dedup
  ∃ owner : LinkKey → ℕ, s.runs.Perm (keys.map owner) ∧
    (∀ e ∈ RunStore.ensuring.trace calls {}, ∀ key ∈ e.1.sourceKey, e.2 = .ok (some (owner key))) ∧
    ∀ key ∈ keys, s.findSourceLink key = some (owner key)

/-- The key is not of a paper run, and is stripped. -/
def LinkKey.Kept (key : LinkKey) : Prop :=
  key.sourceType ≠ .paperStrategyRun ∧ Text.strip key.sourceKey = key.sourceKey

/-! ## single calls -/

namespace RunStore

variable {s : RunStore} {call : EnsureCall} {key : LinkKey}

/-- No link is to a paper run, and all are stripped. -/
def LinksKept (s : RunStore) : Prop := ∀ key ∈ s.links.keys, key.Kept

theorem ensure_eq (hkey : call.sourceKey = some key) (hkept : key.Kept) (s : RunStore) :
    s.ensure call = s.ensureLinkedRun key.sourceType key.sourceKey key.sourceKey2 ∧
      Text.strip key.sourceKey ≠ "" := by
  cases call <;> simp only [EnsureCall.sourceKey] at hkey <;> split_ifs at hkey with hblank <;>
    obtain rfl := Option.some.inj hkey
  · exact absurd rfl hkept.1
  · exact ⟨rfl, hblank⟩
  · exact ⟨rfl, hblank⟩

theorem LinksKept.ensure (h : s.LinksKept) (call : EnsureCall) : (s.ensure call).2.LinksKept := by
  have hlinked (sourceType : SourceType) (sourceKey sourceKey2 : String)
      (hpaper : sourceType ≠ .paperStrategyRun) :
      (s.ensureLinkedRun sourceType sourceKey sourceKey2).2.LinksKept := by
    unfold ensureLinkedRun
    split
    · exact h
    · split_ifs
      · exact h
      · intro key hkey
        cases Dict.mem_keys_set.mp hkey with
        | inl heq => exact heq ▸ ⟨hpaper, Text.strip_strip _⟩
        | inr hold => exact h key hold
  cases call with
  | paperStrategyRun strategyRunId accountRef =>
    simp only [RunStore.ensure, ensurePaperStrategyRun]
    split_ifs
    · exact h
    · split <;> exact h
  | optionStrategyRun id => exact hlinked _ _ _ (by decide)
  | investmentRun tag sourceKey2 => exact hlinked _ _ _ (by decide)

theorem ensure_found {id : ℕ} (hkey : call.sourceKey = some key) (hkept : key.Kept)
    (hfound : s.links.get? key = some id) : s.ensure call = (.ok (some id), s) := by
  rw [(ensure_eq hkey hkept s).1, ensureLinkedRun]
  simp only [findSourceLink, hfound]

theorem ensure_new (hkey : call.sourceKey = some key) (hkept : key.Kept)
    (hnew : s.links.get? key = none) :
    s.ensure call = (.ok (some s.runs.length),
      { runs := s.runs ++ [s.runs.length], links := s.links.set key s.runs.length }) := by
  obtain ⟨heq, hblank⟩ := ensure_eq hkey hkept s
  rw [heq, ensureLinkedRun]
  simp only [findSourceLink, hnew, if_neg hblank]
  rw [hkept.2]
  rfl

theorem ensure_of_blank (hkey : call.sourceKey = none) (s : RunStore) : (s.ensure call).2 = s := by
  have hlinked (sourceType : SourceType) (sourceKey sourceKey2 : String)
      (hblank : Text.strip sourceKey = "") : (s.ensureLinkedRun sourceType sourceKey sourceKey2).2 = s := by
    unfold ensureLinkedRun
    split
    · rfl
    · rw [if_pos hblank]
  cases call <;> simp only [EnsureCall.sourceKey] at hkey <;> split_ifs at hkey with hblank
  · simp [RunStore.ensure, ensurePaperStrategyRun, hblank]
  · exact hlinked _ _ _ hblank
  · exact hlinked _ _ _ hblank

/-- What holds between calls with kept keys. -/
structure Owning (past : List (EnsureCall × EnsureResult)) (s : RunStore) : Prop where
  values : s.runs = s.links.values
  nodup : s.links.keys.Nodup
  called : ∀ key ∈ s.links.keys, ∃ e ∈ past, key ∈ e.1.sourceKey
  results : ∀ e ∈ past, ∀ key ∈ e.1.sourceKey,
    ∃ id, e.2 = .ok (some id) ∧ s.links.get? key = some id

theorem Owning.ensure {past : List (EnsureCall × EnsureResult)} (h : Owning past s)
    (hkept : ∀ key ∈ call.sourceKey, key.Kept) :
    Owning (past ++ [(call, (s.ensure call).1)]) (s.ensure call).2 := by
  have hcalled (e : EnsureCall × EnsureResult) (key : LinkKey) (hmem : key ∈ s.links.keys) :
      ∃ e' ∈ past ++ [e], key ∈ e'.1.sourceKey := by
    obtain ⟨e', he', hkey⟩ := h.called key hmem
    exact ⟨e', mem_append_left _ he', hkey⟩
  cases hkey : call.sourceKey with
  | none =>
    rw [ensure_of_blank hkey]
    refine ⟨h.values, h.nodup, hcalled _, forall_mem_append.mpr ⟨h.results, ?_⟩⟩
    simp [hkey]
  | some key =>
    cases hfound : s.links.get? key with
    | some id =>
      rw [ensure_found hkey (hkept key hkey) hfound]
      refine ⟨h.values, h.nodup, hcalled _, forall_mem_append.mpr ⟨h.results, ?_⟩⟩
      simp [hkey, hfound]
    | none =>
      have hnew : key ∉ s.links.keys := Dict.get?_eq_none_iff.mp hfound
      rw [ensure_new hkey (hkept key hkey) hfound]
      refine ⟨?_, Dict.nodup_keys_set h.nodup _ _, fun other hother => ?_,
        forall_mem_append.mpr ⟨fun e he other hother => ?_, by simp [hkey]⟩⟩
      · simp [Dict.set_of_notMem hnew, Dict.values, h.values]
      · cases Dict.mem_keys_set.mp hother with
        | inl heq => exact ⟨_, mem_append_right _ (.head _), heq ▸ hkey⟩
        | inr hold => exact hcalled _ other hold
      · obtain ⟨id, hresult, hid⟩ := h.results e he other hother
        have hne : key ≠ other := by
          rintro rfl
          rw [hfound] at hid
          cases hid
        exact ⟨id, hresult, (Dict.get?_set_of_ne hne _ _).trans hid⟩

theorem linksKept_run (calls : List EnsureCall) : (ensuring.run calls {}).LinksKept := by
  have hstart : ({} : RunStore).LinksKept := by simp [LinksKept, Dict.keys]
  exact Machine.run_ofCall_invariant (fun call _ h => h.ensure call) calls hstart

theorem owning {calls : List EnsureCall}
    (hkept : ∀ call ∈ calls, ∀ key ∈ call.sourceKey, key.Kept) :
    Owning (ensuring.trace calls {}) (ensuring.run calls {}) := by
  have hstart : Owning [] {} := ⟨rfl, nodup_nil, by simp [Dict.keys], by simp⟩
  have hcalls : ensuring.Along (fun call _ _ => ∀ key ∈ call.sourceKey, key.Kept) calls {} :=
    .of_forall hkept ({} : RunStore)
  exact Machine.history (I := fun past _ s => Owning past s) (fun h hcall => h.ensure hcall) hstart hcalls

theorem map_trace (calls : List EnsureCall) (s : RunStore) :
    (ensuring.trace calls s).map Prod.fst = calls := by
  induction calls generalizing s with
  | nil => rfl
  | cons call calls ih => exact congrArg (call :: ·) (ih _)

theorem Owning.keysOwnRuns {calls : List EnsureCall}
    (h : Owning (ensuring.trace calls {}) (ensuring.run calls {})) : KeysOwnRuns calls := by
  set s := ensuring.run calls {} with hs
  have hfind (key : LinkKey) (hkey : key ∈ s.links.keys) :
      s.findSourceLink key = some ((s.links.get? key).getD 0) := by
    cases hget : s.links.get? key with
    | none => exact absurd hkey (Dict.get?_eq_none_iff.mp hget)
    | some id => exact hget
  have hmem (key : LinkKey) :
      key ∈ s.links.keys ↔ key ∈ (calls.filterMap EnsureCall.sourceKey).dedup := by
    rw [mem_dedup, mem_filterMap]
    constructor
    · intro hkey
      obtain ⟨e, he, hkey⟩ := h.called key hkey
      exact ⟨e.1, map_trace calls {} ▸ mem_map_of_mem he, hkey⟩
    · rintro ⟨call, hcall, hkey⟩
      rw [← map_trace calls {}] at hcall
      obtain ⟨e, he, rfl⟩ := mem_map.mp hcall
      obtain ⟨id, -, hid⟩ := h.results e he key hkey
      exact mem_map_of_mem (Dict.mem_of_get? hid)
  refine ⟨fun key => (s.links.get? key).getD 0, ?_, fun e he key hkey => ?_, fun key hkey => ?_⟩
  · have hvalues : s.links.values = s.links.keys.map fun key => (s.links.get? key).getD 0 := by
      rw [Dict.values, Dict.keys, map_map]
      exact map_congr_left fun e he => by
        rw [Function.comp_apply, (Dict.mem_iff_get? h.nodup).mp he, Option.getD_some]
    rw [← hs, h.values, hvalues]
    exact ((perm_ext_iff_of_nodup h.nodup (nodup_dedup _)).mpr hmem).map _
  · obtain ⟨id, hresult, hid⟩ := h.results e he key hkey
    simp only [hresult, hid, Option.getD_some]
  · exact hfind key ((hmem key).mpr hkey)

end RunStore

/-- Every key owns one run exactly when no call is for a paper run and all keys are stripped. -/
theorem source_keys_own_runs_iff (calls : List EnsureCall) :
    KeysOwnRuns calls ↔ ∀ call ∈ calls, ∀ key ∈ call.sourceKey, key.Kept := by
  constructor
  · rintro ⟨owner, -, -, hfind⟩ call hcall key hkey
    have hlinks := RunStore.linksKept_run calls
    have hmem : key ∈ (calls.filterMap EnsureCall.sourceKey).dedup :=
      List.mem_dedup.mpr (List.mem_filterMap.mpr ⟨call, hcall, hkey⟩)
    exact hlinks key (List.mem_map_of_mem (Dict.mem_of_get? (hfind key hmem)))
  · intro hkept
    exact (RunStore.owning hkept).keysOwnRuns

/-- A paper run is created and not linked, and no id is returned. -/
theorem paper_run_unlinked : ¬ ∀ calls, KeysOwnRuns calls := by
  intro h
  obtain ⟨owner, -, hresults, -⟩ := h [.paperStrategyRun "r1" "kite:A"]
  have hresult := hresults (.paperStrategyRun "r1" "kite:A", .ok none) (by decide +kernel)
    ⟨.paperStrategyRun, "r1", "kite:A"⟩ (by decide +kernel)
  cases hresult

end KiteAlgo.Journal
