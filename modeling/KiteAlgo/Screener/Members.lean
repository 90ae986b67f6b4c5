import KiteAlgo.FeatureEngine
import KiteAlgo.Planner.Chains

/-!
# KiteAlgo.Screener.Members

What a scan makes of a member (`_evaluate_member`).  The pipeline takes the last signal or filter stage
of the list for its terminal stage, the validator the stage that no other names as input; the stages
between the two are not evaluated.
-/

namespace KiteAlgo

open Check Compile Relation

variable {F : Type}

/-! ## a member -/

def terminalStage (document : WorkflowDocument F) : Option (Stage F) :=
  (document.stages.filter fun s => s.type = .known .signal ∨ s.type = .known .filter).getLast?

def evaluatedStages (document : WorkflowDocument F) : List (Stage F) :=
  match terminalStage document with
  | some terminal => terminal :: stageChain document terminal.id
  | none => []

/-- The layers together: unknown propagates. -/
def layerAnd : Option Bool → Option Bool → Option Bool
  | some a, some b => some (a && b)
  | _, _ => none

section Member

variable [PyFloat F] (compute : FeatureSpec F → List (Bar F) → Option F) (instrumentKey : String)
  (bars : List (Observation F)) (latest : Observation F)

/-- The change against the bar before, in percent. -/
def changePct : Option F := do
  let now ← latest.close.filter PyFloat.isFinite
  let before ← (bars.reverse[1]?.bind Observation.close).filter PyFloat.isFinite
  if PyFloat.eqQ before 0 then none
  else some (PyFloat.mul (PyFloat.div (PyFloat.sub now before) before) PyFloat.hundred)

def turnover : Option F := do
  let close ← latest.close.filter PyFloat.isFinite
  let volume ← latest.volume.filter PyFloat.isFinite
  return PyFloat.mul close volume

/-- The features of a member, those of a plan first. -/
def memberFeatures (plan : SubscriptionPlan F) : Values F :=
  let engine := plan.specs.foldl (fun engine e => engine.declare instrumentKey e.1 e.2) FeatureEngine.fresh
  let engine := bars.foldl (fun engine bar => (engine.onBar compute instrumentKey "day" bar).2) engine
  let features := plan.featureTimeframes.foldl (fun (features : Values F) timeframe =>
    (features.mergeDefaults (engine.snapshot instrumentKey timeframe)).mergeDefaults
      (engine.fieldSnapshot instrumentKey timeframe)) []
  (features.mergeDefaults ((changePct bars latest).toList.map fun v =>
    ("field:change_pct", .float v))).mergeDefaults
      ((turnover latest).toList.map fun v => ("field:turnover", .float v))

/-- The verdicts of stages on the latest bar, each from a fresh state. -/
def evaluateStages (input : EvalInput F) (matched : Option Bool) (stages : List (Stage F)) :
    Except PyErr (Option Bool) :=
  stages.foldlM (fun matched s => do
    let result ← evaluateStage s input {}
    return layerAnd matched result.matched) matched

/-- `_evaluate_member` on bars of which `latest` is the last, as far as its `matched`. -/
def evaluateMember (document : WorkflowDocument F) (context : Values F) : Except PyErr (Option Bool) :=
  match terminalStage document with
  | none => .ok none
  | some terminal => do
    let plan ← buildSubscriptionPlan document terminal.id
    let input : EvalInput F := ⟨latest, context, memberFeatures compute instrumentKey bars latest plan⟩
    let result ← evaluateStage terminal input {}
    evaluateStages input result.matched (plan.layers.map Prod.fst)

/-! ## the whole chain -/

/-- A stage holds on the latest bar, with the features of a plan for the stage `u`. -/
def HoldsFor (document : WorkflowDocument F) (context : Values F) (u s : Stage F) : Prop :=
  ∃ plan result, buildSubscriptionPlan document u.id = .ok plan ∧
    evaluateStage s ⟨latest, context, memberFeatures compute instrumentKey bars latest plan⟩ {} = .ok result ∧
    result.matched = some true

end Member

/-- No other stage names the stage as input. -/
def Unnamed (document : WorkflowDocument F) (u : Stage F) : Prop :=
  u ∈ document.stages ∧ ∀ s ∈ document.stages, s.input ≠ some u.id

/-- A member matches only if the whole chain of the stage holds, and no stage of it is skipped. -/
def ScansChain [PyFloat F] (document : WorkflowDocument F) (u : Stage F) : Prop :=
  (∀ compute instrumentKey bars latest context, bars.getLast? = some latest →
      evaluateMember compute instrumentKey bars latest document context = .ok (some true) →
      ∀ s ∈ u :: stageChain document u.id, HoldsFor compute instrumentKey bars latest document context u s) ∧
    ∀ s ∈ u :: stageChain document u.id, s ∈ evaluatedStages document

variable [PyFloat F] {document : WorkflowDocument F} {u : Stage F}

theorem evaluateStages_eq_true {input : EvalInput F} {matched : Option Bool} {stages : List (Stage F)}
    (h : evaluateStages input matched stages = .ok (some true)) :
    matched = some true ∧
      ∀ s ∈ stages, ∃ result, evaluateStage s input {} = .ok result ∧ result.matched = some true := by
  induction stages generalizing matched with
  | nil => exact ⟨Except.ok.inj h, by simp⟩
  | cons s stages ih =>
    rw [evaluateStages, List.foldlM_cons, bind_eq_ok] at h
    obtain ⟨both, hboth, h⟩ := h
    obtain ⟨result, hresult, heq⟩ := bind_eq_ok.mp hboth
    obtain ⟨rfl, hall⟩ := ih h
    have hand : layerAnd matched result.matched = some true := Except.ok.inj heq
    rw [List.forall_mem_cons]
    cases matched <;> cases hm : result.matched <;> simp_all [layerAnd]

omit [PyFloat F] in
theorem mem_stages_of_terminalStage (h : terminalStage document = some u) : u ∈ document.stages :=
  (List.mem_filter.mp (List.mem_of_getLast? h)).1

theorem scansChain_of_terminalStage (hids : UniqueIds document) (h : terminalStage document = some u) :
    ScansChain document u := by
  refine ⟨fun compute instrumentKey bars latest context _ hmatched => ?_, fun s hs => by
    rwa [evaluatedStages, h]⟩
  simp only [evaluateMember, h] at hmatched
  obtain ⟨plan, hplan, hmatched⟩ := bind_eq_ok.mp hmatched
  obtain ⟨result, hresult, hmatched⟩ := bind_eq_ok.mp hmatched
  obtain ⟨hown, hlayers⟩ := evaluateStages_eq_true hmatched
  have hfind : document.stage? u.id = some u := by
    cases hfind : document.stage? u.id with
    | none => simpa using List.find?_eq_none.mp hfind u (mem_stages_of_terminalStage h)
    | some v =>
      rw [hids.eq (List.mem_of_find?_eq_some hfind) (mem_stages_of_terminalStage h)
        (by simpa using List.find?_some hfind)]
  have hchain : plan.layers.map Prod.fst = stageChain document u.id := by
    simp only [buildSubscriptionPlan, hfind] at hplan
    obtain ⟨needs, -, heq⟩ := bind_eq_ok.mp hplan
    cases heq
    simp [Function.comp_def]
  rw [hchain] at hlayers
  intro s hs
  obtain rfl | hs := List.mem_cons.mp hs
  · exact ⟨plan, result, hplan, hresult, hown⟩
  · obtain ⟨r, hr, hm⟩ := hlayers s hs
    exact ⟨plan, r, hplan, hr, hm⟩

theorem exists_unnamed {fromIso : String → Option Int} {p : Parse.Parsed F} (h : accepts fromIso p = true)
    (hscreener : p.document.screener.isSome = true) : ∃ u, ∀ s, Unnamed p.document s ↔ s = u := by
  obtain ⟨hids, hne, hends⟩ := inputs_of_accepts h
  obtain ⟨_, _, _, _, _, hpasses⟩ := passes_of_accepts h
  obtain ⟨screener, hsome⟩ := Option.isSome_iff_exists.mp hscreener
  simp only [validateScreener, hsome, passes_all_cons, Bool.and_eq_true, passes_report] at hpasses
  obtain ⟨-, hstages, -, hterminals, -⟩ := hpasses
  have hmem : ∀ s, Unnamed p.document s → s.id ∈ terminals p.document.stages := by
    intro s hs
    refine List.mem_map_of_mem (List.mem_filter.mpr ⟨hs.1, ?_⟩)
    simp only [Bool.not_eq_true', ← Bool.not_eq_true, List.contains_iff_mem, List.mem_filterMap,
      Option.filter_eq_some_iff]
    rintro ⟨t, ht, hinput, -⟩
    exact hs.2 t ht hinput
  have hexists : ∃ u, Unnamed p.document u := by
    by_contra hnone
    have hlong : ∀ k, ∃ s ∈ p.document.stages, ∃ n ≥ k, EndsAfter p.document s n := by
      intro k
      induction k with
      | zero =>
        obtain ⟨s, hs⟩ := List.exists_mem_of_ne_nil p.document.stages (by simpa using hstages)
        obtain ⟨n, -, hn⟩ := hends s hs
        exact ⟨s, hs, n, Nat.zero_le n, hn⟩
      | succ k ih =>
        obtain ⟨s, hs, n, hk, hn⟩ := ih
        have hnamed : ¬Unnamed p.document s := fun hs => hnone ⟨s, hs⟩
        simp only [Unnamed, hs, true_and, not_forall, not_not] at hnamed
        obtain ⟨t, ht, hinput⟩ := hnamed
        exact ⟨t, ht, n + 1, by omega, .edge ⟨hs, hinput⟩ hn⟩
    obtain ⟨s, hs, n, hn, hlong⟩ := hlong (maxInputChainDepth + 2)
    obtain ⟨m, hm, hshort⟩ := hends s hs
    have := hshort.unique hids hlong
    omega
  obtain ⟨u, hu⟩ := hexists
  refine ⟨u, fun s => ⟨fun hs => hids.eq hs.1 hu.1 ?_, fun heq => heq ▸ hu⟩⟩
  have hone : (terminals p.document.stages).length ≤ 1 := by simpa using hterminals
  have h1 := hmem s hs
  have h2 := hmem u hu
  cases hlist : terminals p.document.stages with
  | nil => simp [hlist] at h1
  | cons a rest =>
    rw [hlist] at h1 h2 hone
    obtain rfl : rest = [] := by simpa using hone
    rw [List.mem_singleton.mp h1, List.mem_singleton.mp h2]

/-- A scan covers the chain of the stage that no other names exactly if this is the last signal or filter
stage of the list. -/
theorem scansChain_iff {fromIso : String → Option Int} {p : Parse.Parsed F} (h : accepts fromIso p = true)
    (hscreener : p.document.screener.isSome = true) :
    ∃ u, (∀ s, Unnamed p.document s ↔ s = u) ∧
      (ScansChain p.document u ↔ terminalStage p.document = some u) := by
  obtain ⟨u, hu⟩ := exists_unnamed h hscreener
  obtain ⟨hids, -, hends⟩ := inputs_of_accepts h
  refine ⟨u, hu, fun hscans => ?_, scansChain_of_terminalStage hids⟩
  obtain ⟨humem, hunnamed⟩ := (hu u).mpr rfl
  have hmem := hscans.2 u List.mem_cons_self
  rw [evaluatedStages] at hmem
  split at hmem
  · next terminal hterminal =>
      obtain rfl | hmem := List.mem_cons.mp hmem
      · exact hterminal
      · have ht := mem_stages_of_terminalStage hterminal
        obtain ⟨n, -, hn⟩ := hends terminal ht
        obtain ⟨s, hreach, hreads⟩ :=
          TransGen.tail'_iff.mp (((isAncestors_stageChain hids ht hn).mem_iff u).mp hmem)
        refine absurd hreads.2 (hunnamed s ?_)
        obtain rfl | ⟨_, -, hlast⟩ := hreach.cases_tail
        · exact ht
        · exact hlast.1
  · cases hmem

/-- A screener over two stages, of which the one with the id `b` reads the other. -/
def chainedScreener (a b : PyVal ℚ) : PyVal ℚ :=
  .ofPairs
    [("version", .int 1), ("name", .str "breakouts"), ("instruments", .list [.str "NSE:INFY"]),
     ("stages", .list [a, b]), ("screener", .ofPairs
       [("schedule", .ofPairs [("every", .str "1d"), ("at", .str "15:30")]), ("attachments", .list
          [.ofPairs
            [("id", .str "leaders"), ("trigger", .str "entry"), ("channels", .list [.str "telegram"])]])])]

def closesAbove (id : String) (level : Int) (input : List (String × PyVal ℚ)) : PyVal ℚ :=
  .ofPairs
    ([("id", .str id), ("clock", .str "candle_close"), ("timeframe", .str "1d"), ("conditions", .list
        [.ofPairs [("field", .str "close"), ("op", .str "gt"), ("value", .int level)]])] ++ input)

/-- The stage at the end of the chain is listed last. -/
theorem scansChain_listed_last : ∃ p u,
    Parse.parseWorkflowDict (chainedScreener (closesAbove "a" 100 [])
      (closesAbove "b" 200 [("input", .str "a")])) = .ok p ∧
      Unnamed p.document u ∧ ScansChain p.document u := by
  obtain ⟨p, hp, hcheck⟩ := exists_of_parsesWith (chainedScreener (closesAbove "a" 100 [])
      (closesAbove "b" 200 [("input", .str "a")])) (fun p => accepts (fun _ => none) p &&
        p.document.screener.isSome && (terminalStage p.document).any fun u =>
          p.document.stages.all fun s => decide (s.input ≠ some u.id)) (by decide +kernel)
  simp only [Bool.and_eq_true, Option.any_eq_true, List.all_eq_true, decide_eq_true_eq] at hcheck
  obtain ⟨⟨haccepts, hscreener⟩, u, hu, hunnamed⟩ := hcheck
  obtain ⟨v, hv, hiff⟩ := scansChain_iff haccepts hscreener
  obtain rfl := (hv u).mp ⟨mem_stages_of_terminalStage hu, hunnamed⟩
  exact ⟨p, u, hp, (hv u).mpr rfl, hiff.mpr hu⟩

def bar150 : Observation ℚ := { ts := 0, epochId := "day", close := some 150, final := true }

def verdict150 (document : WorkflowDocument ℚ) (s : Stage ℚ) : Except PyErr (Option Bool) := do
  let plan ← buildSubscriptionPlan document s.id
  let features := memberFeatures (fun _ _ => none) "NSE:INFY" [bar150] bar150 plan
  let result ← evaluateStage s ⟨bar150, [], features⟩ {}
  return result.matched

/-- Listed first it is skipped, and a member matches on which it does not hold. -/
theorem not_scansChain_listed_first : ∃ p u,
    Parse.parseWorkflowDict (chainedScreener (closesAbove "b" 200 [("input", .str "a")])
      (closesAbove "a" 100 [])) = .ok p ∧ accepts (fun _ => none) p = true ∧ Unnamed p.document u ∧
      evaluateMember (fun _ _ => none) "NSE:INFY" [bar150] bar150 p.document [] = .ok (some true) ∧
      ¬HoldsFor (fun _ _ => none) "NSE:INFY" [bar150] bar150 p.document [] u u := by
  obtain ⟨p, hp, hcheck⟩ := exists_of_parsesWith (chainedScreener
      (closesAbove "b" 200 [("input", .str "a")]) (closesAbove "a" 100 [])) (fun p =>
        accepts (fun _ => none) p && decide ((evaluateMember (fun _ _ => none) "NSE:INFY" [bar150] bar150
          p.document []).toOption = some (some true)) && p.document.stages.any fun u =>
            (p.document.stages.all fun s => decide (s.input ≠ some u.id)) &&
              decide ((verdict150 p.document u).toOption = some (some false))) (by decide +kernel)
  have hok : ∀ {x : Except PyErr (Option Bool)} {m : Option Bool}, x.toOption = some m → x = .ok m := by
    rintro (_ | _) m h <;> simp_all [Except.toOption]
  simp only [Bool.and_eq_true, List.any_eq_true, List.all_eq_true, decide_eq_true_eq] at hcheck
  obtain ⟨⟨haccepts, hmember⟩, u, hu, hunnamed, hverdict⟩ := hcheck
  refine ⟨p, u, hp, haccepts, ⟨hu, hunnamed⟩, hok hmember, ?_⟩
  rintro ⟨plan, result, hplan, hresult, hm⟩
  have hverdict := hok hverdict
  simp only [verdict150, hplan, hresult, ok_bind, hm] at hverdict
  cases hverdict

end KiteAlgo
