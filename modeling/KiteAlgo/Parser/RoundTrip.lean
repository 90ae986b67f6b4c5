import KiteAlgo.Parser.WellFormed

/-!
# KiteAlgo.Parser.RoundTrip

Reading a canonical mapping back: `parse_workflow_dict (d.to_document_dict())`.

Every part of a well formed document reads back as itself, except for an
operand with an empty source, a reminder interval of zero seconds, and an
attachment whose default exit rank lies beyond the bound the parser enforces on
explicit ones.  The compiler rejects the first two; the third and the parse
budget are what decides the round trip of an accepted document.
-/

namespace KiteAlgo

open List Option Bool Dict
namespace Parse

variable {F : Type}

/-! ## the parse budget -/

theorem enter_eq_ok {depth counter n : Nat} :
    enter depth counter = .ok n ↔ depth ≤ maxDepth ∧ counter + 1 ≤ maxNodes ∧ n = counter + 1 := by
  simp only [enter, bind_eq_ok, ensure_eq_ok, exists_const, Except.ok.injEq, decide_eq_true_eq]
  rw [eq_comm (a := n)]

mutual
theorem visit_eq_ok (v : PyVal F) (depth counter n : Nat) :
    visit depth counter v = .ok n ↔
      depth + v.depth ≤ maxDepth ∧ counter + v.nodes ≤ maxNodes ∧ n = counter + v.nodes := by
  match v with
  | .list xs =>
    simp only [visit, bind_eq_ok, enter_eq_ok, PyVal.depth, PyVal.nodes]
    constructor
    · rintro ⟨m, ⟨hd, hc, rfl⟩, h⟩
      rw [visitList_eq_ok xs depth _ n hd hc] at h
      omega
    · rintro ⟨hd, hc, rfl⟩
      refine ⟨counter + 1, ⟨by omega, by omega, rfl⟩, ?_⟩
      rw [visitList_eq_ok xs depth _ _ (by omega) (by omega)]
      omega
  | .dict d =>
    simp only [visit, bind_eq_ok, enter_eq_ok, PyVal.depth, PyVal.nodes]
    constructor
    · rintro ⟨m, ⟨hd, hc, rfl⟩, h⟩
      rw [visitDict_eq_ok d depth _ n hd hc] at h
      omega
    · rintro ⟨hd, hc, rfl⟩
      refine ⟨counter + 1, ⟨by omega, by omega, rfl⟩, ?_⟩
      rw [visitDict_eq_ok d depth _ _ (by omega) (by omega)]
      omega
  | .none | .bool _ | .int _ | .float _ | .str _ | .atom _ _ =>
    simp [visit, enter_eq_ok, PyVal.depth, PyVal.nodes]

theorem visitList_eq_ok (xs : List (PyVal F)) (depth counter n : Nat) (hd : depth ≤ maxDepth)
    (hc : counter ≤ maxNodes) :
    visitList (depth + 1) counter xs = .ok n ↔
      depth + PyVal.depthList xs ≤ maxDepth ∧ counter + PyVal.nodesList xs ≤ maxNodes ∧
        n = counter + PyVal.nodesList xs := by
  match xs with
  | [] =>
    simp only [visitList, Except.ok.injEq, PyVal.depthList, PyVal.nodesList]
    omega
  | x :: xs =>
    simp only [visitList, bind_eq_ok, PyVal.depthList, PyVal.nodesList, visit_eq_ok x]
    constructor
    · rintro ⟨m, ⟨h1, h2, rfl⟩, h⟩
      rw [visitList_eq_ok xs depth _ n hd h2] at h
      omega
    · rintro ⟨h1, h2, rfl⟩
      refine ⟨_, ⟨by omega, by omega, rfl⟩, ?_⟩
      rw [visitList_eq_ok xs depth _ _ hd (by omega)]
      omega

theorem visitDict_eq_ok (d : List (Key × PyVal F)) (depth counter n : Nat) (hd : depth ≤ maxDepth)
    (hc : counter ≤ maxNodes) :
    visitDict (depth + 1) counter d = .ok n ↔
      depth + PyVal.depthDict d ≤ maxDepth ∧ counter + PyVal.nodesDict d ≤ maxNodes ∧
        n = counter + PyVal.nodesDict d := by
  match d with
  | [] =>
    simp only [visitDict, Except.ok.injEq, PyVal.depthDict, PyVal.nodesDict]
    omega
  | (_, v) :: d =>
    simp only [visitDict, bind_eq_ok, PyVal.depthDict, PyVal.nodesDict, visit_eq_ok v]
    constructor
    · rintro ⟨m, ⟨h1, h2, rfl⟩, h⟩
      rw [visitDict_eq_ok d depth _ n hd h2] at h
      omega
    · rintro ⟨h1, h2, rfl⟩
      refine ⟨_, ⟨by omega, by omega, rfl⟩, ?_⟩
      rw [visitDict_eq_ok d depth _ _ hd (by omega)]
      omega
end

theorem checkBudget_eq_ok {v : PyVal F} {u : Unit} :
    checkBudget v = .ok u ↔ v.depth ≤ maxDepth ∧ v.nodes ≤ maxNodes := by
  simp only [checkBudget, bind_eq_ok, visit_eq_ok]
  constructor
  · rintro ⟨n, ⟨h1, h2, _⟩, _⟩
    omega
  · rintro ⟨h1, h2⟩
    exact ⟨v.nodes, ⟨by omega, by omega, by omega⟩, trivial⟩

/-! ## reading entries of a canonical mapping -/

variable {known : List String} {path : String}

@[simp] theorem get?_optEntry (key : String) (render : α → PyVal F) (o : Option α) (k : Key) :
    get? (optEntry key render o) k = if Key.str key = k then o.map render else none := by
  cases o <;> simp [optEntry]

@[simp] theorem get?_listEntry (key : String) (render : α → PyVal F) (xs : List α) (k : Key) :
    get? (listEntry key render xs) k =
      if Key.str key = k ∧ xs ≠ [] then some (.list (xs.map render)) else none := by
  cases xs <;> simp [listEntry]

theorem checkKeys_append {d e : Dict Key (PyVal F)} (hd : checkKeys known path d = .ok ())
    (he : checkKeys known path e = .ok ()) : checkKeys known path (d ++ e) = .ok () := by
  induction d with
  | nil => exact he
  | cons p d ih =>
    obtain ⟨k, v⟩ := p
    cases k with
    | other r => simp [checkKeys] at hd
    | str s =>
      simp only [cons_append, checkKeys] at hd ⊢
      split at hd
      · next hs => rw [if_pos hs]; exact ih hd
      · exact absurd hd (by simp)

variable {key : String}

theorem checkKeys_optEntry (h : key ∈ known) (render : α → PyVal F) (o : Option α) :
    checkKeys known path (optEntry key render o) = .ok () := by
  cases o <;> simp [optEntry, checkKeys, h]

theorem checkKeys_listEntry (h : key ∈ known) (render : α → PyVal F) (xs : List α) :
    checkKeys known path (listEntry key render xs) = .ok () := by
  cases xs <;> simp [listEntry, checkKeys, h]

theorem optional_of_present {raw : Dict Key (PyVal F)} {key : String}
    {read : PyVal F → Except PyErr α} {f : α → PyVal F} {o : Option α}
    (h : present raw key = o.map f) (hr : ∀ a, o = some a → read (f a) = .ok a) :
    optional raw key read = .ok o := by
  unfold optional
  cases o with
  | none => simp [h]
  | some a => simp [h, hr a rfl]

variable {raw : Dict Key (PyVal F)}

theorem present_of_get?_optStr {o : Option String} (h : raw.get? key = some (optStr o)) :
    present raw key = o.map .str := by
  cases o <;> simp [present, h, optStr]

variable {o : Option Int}

theorem present_of_get?_optInt (h : raw.get? key = some (optInt o)) :
    present raw key = o.map .int := by
  cases o <;> simp [present, h, optInt]

theorem present_of_get?_optFloat {o : Option F} (h : raw.get? key = some (optFloat o)) :
    present raw key = o.map .float := by
  cases o <;> simp [present, h, optFloat]

theorem present_of_get?_map {f : α → PyVal F} {o : Option α} (h : raw.get? key = o.map f)
    (hr : ∀ a, f a ≠ .none) : present raw key = o.map f := by
  cases o with
  | none => simp [present, h]
  | some a =>
    have hne := hr a
    unfold present
    rw [h]
    simp only [map_some]

theorem present_of_get?_none (h : raw.get? key = none) : present raw key = none := by
  simp [present, h]

theorem intField_of_present (h : present raw key = o.map .int) (ho : RankInRange o)
    (path : String) : intField raw key path = .ok o := by
  refine optional_of_present h fun n hn => ?_
  obtain ⟨h1, h2⟩ := ho n hn
  have hlt : (decide (n < 1) || decide (1000 < n)) = false := by
    simp only [or_eq_false_iff, decide_eq_false_iff_not]
    omega
  simp [hlt]

variable [PyFloat F]

variable {s : String}

theorem nonEmptyStr_str (h : s ≠ "") (path : String) :
    nonEmptyStr (.str s : PyVal F) path = .ok s :=
  nonEmptyStr_eq_ok.mpr ⟨rfl, h⟩

theorem requireStr_of_get? (h : raw.get? key = some (.str s)) (hs : s ≠ "") (path : String) :
    requireStr raw key path = .ok s := by
  simp [requireStr, h, nonEmptyStr_str hs]

theorem optionalStr_of_present {raw : Dict Key (PyVal F)} {key : String} {o : Option String}
    (h : present raw key = o.map .str) (ho : o ≠ some "") (path : String) :
    optionalStr raw key path = .ok o := by
  refine optional_of_present h fun s hs => nonEmptyStr_str ?_ _
  rintro rfl
  exact ho hs

theorem optionalInt_of_present (h : present raw key = o.map .int) (path : String) :
    optionalInt raw key path = .ok o :=
  optional_of_present h fun _ _ => rfl

variable {n : Int}

theorem durationSeconds_int (h : 0 ≤ n) (path : String) :
    durationSeconds (.int n : PyVal F) path = .ok n := by
  simp [durationSeconds, positiveInt, Int.not_lt.mpr h]

/-! ## operands and conditions -/

theorem operand_operandDict {o : Operand F} (hwf : o.WF) (hsource : o.source ≠ some "")
    (path : String) : operand (operandDict o) path = .ok o := by
  let d := (operandDict o).entries
  have hdict : operandDict o = .dict d := rfl
  have hkeys : checkKeys ["kind", "name", "value", "params", "source", "offset"] path d = .ok () := by
    simp [d, operandDict, checkKeys]
  have hkind : requireStr d "kind" path = .ok (Named.name o.kind) :=
    requireStr_of_get? (by simp [d, operandDict]) (by cases o.kind <;> decide) path
  have hname : optionalStr d "name" path = .ok o.name :=
    optionalStr_of_present (present_of_get?_optStr (by simp [d, operandDict])) hwf.name path
  have hvalue : optional d "value" (fun v => number v (sub path "value")) = .ok o.value :=
    optional_of_present (present_of_get?_optFloat (by simp [d, operandDict])) fun _ _ => rfl
  have hsrc : optionalStr d "source" path = .ok o.source :=
    optionalStr_of_present (present_of_get?_optStr (by simp [d, operandDict])) hsource path
  have hparams : d.get? "params" = some (.dict o.params) := by
    simp [d, operandDict]
  have hoffset : offsetOf (d.get? "offset") = o.offset := by
    cases ho : o.offset <;> simp [d, operandDict, ho, optInt, offsetOf]
  have hexplicit : explicitOperand d path = .ok o := by
    simp only [explicitOperand, hkeys, hkind, hname, hvalue, hsrc, hparams, hoffset, ok_bind, enumOf,
      Named.ofName?_name, getD_some, asDict]
  have hcontains : Dict.contains d "kind" := by 
    simp [d, operandDict, Dict.contains]
  rw [hdict]
  simp only [operand, hcontains, if_true, hexplicit]

theorem hysteresis_hysteresisDict (h : HysteresisSpec F) (path : String) :
    hysteresis (hysteresisDict h) path = .ok h := by
  simp [hysteresis, hysteresisDict, asDict, checkKeys, present, number]

/-- Both operands of the condition have a source the parser accepts. -/
def SourcesOk (c : Condition F) : Prop := ∀ o ∈ c.operands, o.source ≠ some ""

theorem condition_conditionDict {c : Condition F} (hwf : c.WF) (hsource : SourcesOk c)
    (path : String) : condition (conditionDict c) path = .ok c := by
  let d := (conditionDict c).entries
  have hdict : conditionDict c = .dict d := rfl
  have hkeys : checkKeys ["left", "op", "right", "field", "value", "hysteresis"] path d = .ok () :=
    checkKeys_append (by simp [checkKeys]) (checkKeys_optEntry (by simp) _ _)
  have hop : requireStr d "op" path = .ok c.op.text :=
    requireStr_of_get? (by simp [d, conditionDict]) hwf.op path
  have hhyst : optHysteresis d path = .ok c.hysteresis := by
    cases hh : c.hysteresis with
    | none => simp [optHysteresis, d, conditionDict, hh]
    | some h => simp [optHysteresis, d, conditionDict, hh, hysteresis_hysteresisDict]
  have hleft : d.get? "left" = some (operandDict c.left) := by simp [d, conditionDict]
  have hright : d.get? "right" = some (operandDict c.right) := by simp [d, conditionDict]
  have hcontains : d.contains "op" := by simp [d, conditionDict, Dict.contains]
  have hl := operand_operandDict hwf.left (hsource _ (by simp [Condition.operands])) (sub path "left")
  have hr := operand_operandDict hwf.right (hsource _ (by simp [Condition.operands]))
    (sub path "right")
  rw [hdict]
  simp only [condition, asDict, hkeys, hcontains, ensure_true, hop, hhyst, hleft, hright, hl, hr,
    ok_bind, OpenName.ofString_text]

theorem conditionList_conditionsDict {cs : List (Condition F)} (hwf : ∀ c ∈ cs, c.WF)
    (hsource : ∀ c ∈ cs, SourcesOk c) (hnot : Text.endsWith path ".not" → cs.length ≤ 1) :
    conditionList (conditionsDict cs) path = .ok cs := by
  have hsingle :
      (!(decide (1 < (cs.map conditionDict).length) && Text.endsWith path ".not")) = true := by
    cases he : Text.endsWith path ".not" with
    | false => simp
    | true =>
      have hle := hnot he
      simp only [length_map, Bool.and_true, not_eq_true', decide_eq_false_iff_not]
      omega
  have hall := mapIdxM_map (f := fun i v => condition v (item path i)) (g := conditionDict)
    (fun c hc i => condition_conditionDict (hwf c hc) (hsource c hc) (item path i)) 0
  simp only [conditionList, conditionsDict, asList, ok_bind, hsingle, ensure_true, hall]

theorem endsWith_sub (hlen : ".not".toList.length ≤ ("." ++ key).toList.length) (path : String) :
    Text.endsWith (sub path key) ".not" = Text.endsWith ("." ++ key) ".not" :=
  endsWith_append _ _ _ hlen

omit [PyFloat F] in
theorem singleNot_conditionsDict (kind : GroupKind) (cs : List (Condition F)) :
    singleNot kind (conditionsDict cs) = conditionsDict cs := by
  cases kind <;> rfl

theorem namedGroup_groupDict {g : ConditionGroup F} (hwf : g.WF)
    (hsource : ∀ c ∈ g.conditions, SourcesOk c) (path : String) :
    namedGroup g.kind (conditionsDict g.conditions) path = .ok g := by
  have hlist : conditionList (conditionsDict g.conditions) (sub path (Named.name g.kind)) =
      .ok g.conditions := by
    refine conditionList_conditionsDict hwf.conditions hsource fun he => ?_
    cases hk : g.kind with
    | not => exact hwf.not_single hk
    | all =>
      rw [hk] at he
      exact absurd ((endsWith_sub (by decide) path).symm.trans he) (by decide)
    | any =>
      rw [hk] at he
      exact absurd ((endsWith_sub (by decide) path).symm.trans he) (by decide)
  simp only [namedGroup, singleNot_conditionsDict, hlist, ok_bind]

omit [PyFloat F] in
theorem groupEntries?_map_groupDict (gs : List (ConditionGroup F)) :
    groupEntries? (gs.map groupDict) = some (gs.map fun g => (g.kind, conditionsDict g.conditions)) := by
  induction gs with
  | nil => rfl
  | cons g gs ih => simp [groupEntries?, groupEntry?, groupDict, groupKind?, ih]

theorem conditionGroups_map_groupDict {gs : List (ConditionGroup F)} (hne : gs ≠ [])
    (hwf : ∀ g ∈ gs, g.WF) (hsource : ∀ c ∈ groupConditions gs, SourcesOk c) (path : String) :
    conditionGroups (.list (gs.map groupDict)) path = .ok gs := by
  cases gs with
  | nil => exact absurd rfl hne
  | cons g gs =>
    have hentries := groupEntries?_map_groupDict (g :: gs)
    rw [map_cons] at hentries ⊢
    simp only [conditionGroups, hentries]
    refine mapIdxM_map (f := fun _ (e : GroupKind × PyVal F) => namedGroup e.1 e.2 path) ?_ 0
    intro x hx i
    refine namedGroup_groupDict (hwf x hx) (fun c hc => hsource c ?_) path
    exact mem_flatMap.mpr ⟨x, hx, hc⟩

theorem sequenceSpec_sequenceDict {q : SequenceSpec F} (hwf : q.WF)
    (hfirst : ∀ c ∈ groupConditions q.first, SourcesOk c)
    (hthen : ∀ c ∈ groupConditions q.andThen, SourcesOk c) (path : String) :
    sequenceSpec (sequenceDict q) path = .ok q := by
  let d := (sequenceDict q).entries
  have hdict : sequenceDict q = .dict d := rfl
  have hkeys : checkKeys ["first", "then", "within_bars", "within"] path d = .ok () :=
    checkKeys_append (by simp [checkKeys])
      (checkKeys_append (checkKeys_optEntry (by simp) _ _) (checkKeys_optEntry (by simp) _ _))
  have hf : d.get? "first" = some (.list (q.first.map groupDict)) := by simp [d, sequenceDict]
  have ht : d.get? "then" = some (.list (q.andThen.map groupDict)) := by simp [d, sequenceDict]
  have hbars : optionalInt d "within_bars" path = .ok q.withinBars :=
    optionalInt_of_present
      (present_of_get?_map (by simp [d, sequenceDict]) fun _ => by simp) path
  have hwithin : block d "within" (fun v => durationSeconds v (sub path "within")) = .ok q.withinS := by
    cases hq : q.withinS with
    | none => simp [block, d, sequenceDict, hq]
    | some n => simp [block, d, sequenceDict, hq, durationSeconds_int (hwf.withinS n hq)]
  have hfirst' := conditionGroups_map_groupDict hwf.first_ne_nil hwf.first hfirst (sub path "first")
  have hthen' := conditionGroups_map_groupDict hwf.then_ne_nil hwf.andThen hthen (sub path "then")
  rw [hdict]
  simp only [sequenceSpec, asDict, hkeys, Dict.contains, hf, ht, isSome_some, ensure_true,
    hbars, hwithin, hwf.bound, getD_some, hfirst', hthen', ok_bind]

theorem breadthSpec_breadthDict {b : BreadthSpec F} (hwf : b.WF)
    (hsource : ∀ c ∈ groupConditions b.condition, SourcesOk c) (path : String) :
    breadthSpec (breadthDict b) path = .ok b := by
  let d := (breadthDict b).entries
  have hdict : breadthDict b = .dict d := rfl
  have hkeys : checkKeys ["condition", "distinct_instruments", "window", "mode"] path d = .ok () := by
    simp [d, breadthDict, checkKeys]
  have hcond : d.get? "condition" = some (.list (b.condition.map groupDict)) := by
    simp [d, breadthDict]
  have hmany : d.get? "distinct_instruments" = some (.int b.distinctInstruments) := by
    simp [d, breadthDict]
  have hwindow : d.get? "window" = some (.int b.windowS) := by simp [d, breadthDict]
  have hdistinct : distinctInstruments d path = .ok b.distinctInstruments := by
    simp [distinctInstruments, hmany, Int.not_lt.mpr hwf.distinctInstruments]
  have hmode : optionalStr d "mode" path = .ok (some b.mode.text) :=
    optionalStr_of_present (by simp [d, breadthDict, present]) (by simpa using hwf.mode) path
  have hgroups := conditionGroups_map_groupDict hwf.condition_ne_nil hwf.condition hsource
    (sub path "condition")
  rw [hdict]
  simp only [breadthSpec, asDict, hkeys, Dict.contains, hcond, hmany, hwindow, isSome_some,
    ensure_true, hdistinct, getD_some, durationSeconds_int hwf.windowS, hmode, hgroups,
    ok_bind, OpenName.ofString_text]

/-- Every condition of the stage has sources the parser accepts. -/
def StageSourcesOk (s : Stage F) : Prop := ∀ c ∈ s.allConditions, SourcesOk c

theorem stage_stageDict {s : Stage F} (hwf : s.WF) (hsource : StageSourcesOk s) (index : Nat) :
    stage (stageDict s) index = .ok s := by
  let d := (stageDict s).entries
  let path := sub "document.stages" s.id
  have hdict : stageDict s = .dict d := rfl
  have hid : requireStr d "id" (item "document.stages" index) = .ok s.id :=
    requireStr_of_get? (by simp [d, stageDict]) hwf.id _
  have hkeys : checkKeys stageKeys path d = .ok () :=
    checkKeys_append (by simp [checkKeys, stageKeys])
      (checkKeys_append
        (checkKeys_append (checkKeys_optEntry (by simp [stageKeys]) _ _)
          (checkKeys_optEntry (by simp [stageKeys]) _ _))
        (checkKeys_optEntry (by simp [stageKeys]) _ _))
  have htype : ∀ bad, strEntry d "type" "signal" bad = .ok s.type.text := by
    intro bad
    simp [strEntry, d, stageDict, hwf.type]
  have hclock : stageClock d path = .ok s.clock.text := by
    simp [stageClock, block, d, stageDict, nonEmptyStr_str hwf.clock]
  have htimeframe : optionalStr d "timeframe" path = .ok s.timeframe :=
    optionalStr_of_present (present_of_get?_optStr (by simp [d, stageDict])) hwf.timeframe path
  have hinput : optionalStr d "input" path = .ok s.input :=
    optionalStr_of_present (present_of_get?_optStr (by simp [d, stageDict])) hwf.input path
  have hfunction : optionalStr d "function" path = .ok s.function :=
    optionalStr_of_present (present_of_get?_optStr (by simp [d, stageDict])) hwf.function path
  have hparams : stageParams d path = .ok s.stageParams := by
    simp [stageParams, paramsMapping, agree, asDict, d, stageDict]
  have hfield : optionalStr d "source_field" path = .ok s.sourceField :=
    optionalStr_of_present (present_of_get?_optStr (by simp [d, stageDict])) hwf.sourceField path
  have hsourceField : stageSourceField d path = .ok s.sourceField := by
    have hnone : d.get? "source" = none := by simp [d, stageDict]
    have hsrc : optionalStr d "source" path = .ok none :=
      optionalStr_of_present (o := none) (present_of_get?_none hnone) (by simp) path
    simp only [stageSourceField, sourceOrField, hsrc, hfield, agree, hnone, ok_bind]
  have hbars : optionalInt d "consecutive_bars" path = .ok s.consecutiveBars :=
    optionalInt_of_present (present_of_get?_map (by simp [d, stageDict]) fun _ => by simp) path
  have hall : ∀ c, c ∈ s.ownConditions ∨ c ∈ s.sequenceConditions ∨ c ∈ s.breadthConditions →
      SourcesOk c := by
    intro c hc
    refine hsource c ?_
    simp only [Stage.allConditions, mem_append]
    rcases hc with hown | hseq | hbreadth
    · exact .inl (.inl hown)
    · exact .inl (.inr hseq)
    · exact .inr hbreadth
  have hsequence : block d "sequence" (fun v => sequenceSpec v (sub path "sequence")) = .ok s.sequence := by
    cases hq : s.sequence with
    | none => simp [block, d, stageDict, hq]
    | some q =>
      have hread := sequenceSpec_sequenceDict (hwf.sequence q hq)
        (fun c hc => hall c (.inr (.inl (by simp [Stage.sequenceConditions, hq, hc]))))
        (fun c hc => hall c (.inr (.inl (by simp [Stage.sequenceConditions, hq, hc]))))
        (sub path "sequence")
      simp [block, d, stageDict, hq, hread]
  have hbreadth : block d "breadth" (fun v => breadthSpec v (sub path "breadth")) = .ok s.breadth := by
    cases hb : s.breadth with
    | none => simp [block, d, stageDict, hb]
    | some b =>
      have hread := breadthSpec_breadthDict (hwf.breadth b hb)
        (fun c hc => hall c (.inr (.inr (by simp [Stage.breadthConditions, hb, hc]))))
        (sub path "breadth")
      simp [block, d, stageDict, hb, hread]
  have hget : d.get? "conditions" = some (conditionsDict s.conditions) := by simp [d, stageDict]
  have hconditions : conditions (conditionsDict s.conditions) (sub path "conditions") =
      .ok s.conditions := by
    refine conditionList_conditionsDict hwf.conditions
      (fun c hc => hall c (.inl (by simp [Stage.ownConditions, hc]))) fun he => ?_
    exact absurd ((endsWith_sub (by decide) path).symm.trans he) (by decide)
  have hany : ∀ inline, stageGroup d .any "any_conditions" path inline = .ok s.anyConditions := by
    intro inline
    have hlist : conditionList (conditionsDict s.anyConditions) (sub path "any") = .ok s.anyConditions := by
      refine conditionList_conditionsDict hwf.anyConditions
        (fun c hc => hall c (.inl (by simp [Stage.ownConditions, hc]))) fun he => ?_
      exact absurd ((endsWith_sub (by decide) path).symm.trans he) (by decide)
    simpa [stageGroup, d, stageDict, Named.name, singleNot_conditionsDict] using hlist
  have hnot : ∀ inline, stageGroup d .not "not_conditions" path inline = .ok s.notConditions := by
    intro inline
    have hlist : conditionList (conditionsDict s.notConditions) (sub path "not") = .ok s.notConditions :=
      conditionList_conditionsDict hwf.notConditions
        (fun c hc => hall c (.inl (by simp [Stage.ownConditions, hc]))) fun _ => hwf.not_single
    simpa [stageGroup, d, stageDict, Named.name, singleNot_conditionsDict] using hlist
  have hinline : ∀ kind, inlineGroup (conditionsDict s.conditions) kind (sub path "conditions") =
      .ok [] := fun _ => rfl
  have hidget : d.contains "id" := by simp [d, stageDict, Dict.contains]
  have hcontains : d.contains "conditions" := by simp [Dict.contains, hget]
  have htf : s.timeframe.map timeframeOf = s.timeframe := by
    cases ht : s.timeframe with
    | none => rfl
    | some t => simp [hwf.timeframeOf t ht]
  rw [hdict]
  simp only [stage, asDict, hidget, ensure_true, hid, ok_bind]
  simp only [show sub "document.stages" s.id = path from rfl, hkeys, htype, hclock, htimeframe, hinput,
    hfunction, hparams, hsourceField, hbars, hsequence, hbreadth, hcontains, Bool.true_or,
    ensure_true, hget, getD_some, hconditions, hinline, hany, hnot, ok_bind, htf,
    OpenName.ofString_text]

variable {a : AlertSpec F}

theorem alertTrigger_alertDict (hwf : a.WF) (path : String) :
    alertTrigger (alertDict a).entries path = .ok a.trigger.text := by
  have hgiven : present (alertDict a).entries "trigger" = some (.str a.trigger.text) := by
    simp [present, alertDict]
  have hrepeat : present (alertDict a).entries "repeat" = none :=
    present_of_get?_none (by simp [alertDict])
  simp [alertTrigger, optional, hgiven, hrepeat, nonEmptyStr_str hwf.trigger, hwf.trigger_canonical]

theorem seconds_of_present {minimum : Int} (hdirect : present raw (key ++ "_s") = o.map .int)
    (halias : raw.get? key = none) (ho : ∀ n, o = some n → minimum ≤ n) (path : String) :
    seconds raw key path minimum = .ok o := by
  have hread : optional raw (key ++ "_s")
      (fun v => positiveInt v (sub path (key ++ "_s")) minimum) = .ok o := by
    refine optional_of_present hdirect fun n hn => ?_
    simp [positiveInt, Int.not_lt.mpr (ho n hn)]
  simp only [seconds, hread, present_of_get?_none halias, ok_bind]

theorem rearm_alertDict (hwf : a.WF) (path : String) :
    ∃ r, rearm (alertDict a).entries path = .ok r ∧ r.map Prod.fst = a.rearmLevel ∧
      r.map Prod.snd = a.rearmDirection := by
  let d := (alertDict a).entries
  have hpair := hwf.rearm
  have hshort : rearmShorthand d path = .ok none := by
    have habove : present d "rearm_above" = none := present_of_get?_none (by simp [d, alertDict])
    have hbelow : present d "rearm_below" = none := present_of_get?_none (by simp [d, alertDict])
    simp [rearmShorthand, optional, habove, hbelow]
  have hlevel : present d "rearm_level" = a.rearmLevel.map .float :=
    present_of_get?_optFloat (by simp [d, alertDict])
  have hdir : present d "rearm_direction" = (a.rearmDirection.map Named.name).map .str :=
    present_of_get?_optStr (by simp [d, alertDict])
  cases hl : a.rearmLevel with
  | none =>
    cases hd : a.rearmDirection with
    | none => exact ⟨none, by simp [rearm, d, hshort, hlevel, hl], rfl, rfl⟩
    | some dir => simp [hl, hd] at hpair
  | some level =>
    cases hd : a.rearmDirection with
    | none => simp [hl, hd] at hpair
    | some dir =>
      have hword : optionalStr d "rearm_direction" path = .ok (some (Named.name dir)) :=
        optionalStr_of_present (by simp [hdir, hd]) (by cases dir <;> decide) path
      have hdirection : rearmDirection d path = .ok dir := by
        simp only [rearmDirection, hword, ok_bind, enumOf, Named.ofName?_name]
      refine ⟨some (level, dir), ?_, rfl, rfl⟩
      simp only [show (alertDict a).entries = d from rfl, rearm, hshort, hlevel, hl,
        map_some, number, hdirection, all_none, ensure_true, ok_bind]

theorem alert_alertDict (hwf : a.WF) (hreminder : ∀ n, a.reminderIntervalS = some n → 1 ≤ n)
    (index : Nat) : alert (alertDict a) index = .ok a := by
  let d := (alertDict a).entries
  let path := sub "document.alerts" a.id
  have hdict : alertDict a = .dict d := rfl
  have hcontains : d.contains "id" := by simp [d, alertDict, Dict.contains]
  have hid : requireStr d "id" (item "document.alerts" index) = .ok a.id :=
    requireStr_of_get? (by simp [d, alertDict]) hwf.id _
  have hkeys : checkKeys alertKeys path d = .ok () :=
    checkKeys_append (by simp [checkKeys, alertKeys])
      (checkKeys_append (checkKeys_optEntry (by simp [alertKeys]) _ _)
        (checkKeys_optEntry (by simp [alertKeys]) _ _))
  have hsource : requireStr d "source" path = .ok a.source :=
    requireStr_of_get? (by simp [d, alertDict]) hwf.source path
  have htrigger : alertTrigger d path = .ok a.trigger.text := alertTrigger_alertDict hwf path
  have hcooldown : seconds d "cooldown" path 0 = .ok a.cooldownS :=
    seconds_of_present (present_of_get?_optInt (by simp [d, alertDict])) (by simp [d, alertDict])
      hwf.cooldownS path
  have hremind : seconds d "reminder_interval" path 1 = .ok a.reminderIntervalS :=
    seconds_of_present (present_of_get?_optInt (by simp [d, alertDict])) (by simp [d, alertDict])
      hreminder path
  obtain ⟨r, hrearm, hfst, hsnd⟩ := rearm_alertDict hwf path
  have hnotify : ∀ bad, boolEntry d "notify_if_already_true" false bad = .ok a.notifyIfAlreadyTrue := by
    intro bad
    simp [boolEntry, d, alertDict]
  have hexpires : expiresAt d path = .ok a.expiresAt := by
    have hat : optionalStr d "expires_at" path = .ok a.expiresAt :=
      optionalStr_of_present (present_of_get?_optStr (by simp [d, alertDict])) hwf.expiresAt path
    have halias : optionalStr d "expires" path = .ok none :=
      optionalStr_of_present (o := none) (present_of_get?_none (by simp [d, alertDict])) (by simp) path
    simp only [expiresAt, hat, halias, ok_bind]
  have hchannels : alertChannels d path = .ok a.channels := by
    have hget : d.get? "channels" = some (.list (a.channels.map .str)) := by simp [d, alertDict]
    have hread := mapIdxM_map (f := fun i v => nonEmptyStr v (item (sub path "channels") i))
      (g := fun s => (PyVal.str s : PyVal F)) (fun ch hch i => nonEmptyStr_str (hwf.channels ch hch) _) 0
    simp only [alertChannels, hget, getD_some, asList, hread, ok_bind]
  have hmessage : optionalStr d "message" path = .ok a.message :=
    optionalStr_of_present (present_of_get?_optStr (by simp [d, alertDict])) hwf.message path
  have hcap : optionalInt d "max_per_session" path = .ok a.maxPerSession :=
    optionalInt_of_present (present_of_get?_map (by simp [d, alertDict]) fun _ => by simp) path
  have hreset : optionalStr d "session_cap_reset" path = .ok a.sessionCapReset :=
    optionalStr_of_present (present_of_get?_map (by simp [d, alertDict]) fun _ => by simp)
      hwf.sessionCapReset path
  rw [hdict]
  simp only [alert, asDict, hcontains, ensure_true, hid, ok_bind]
  simp only [show sub "document.alerts" a.id = path from rfl, hkeys, hsource, htrigger, hcooldown,
    hremind, show rearm d path = .ok r from hrearm, hnotify, hexpires, hchannels, hmessage, hcap,
    hreset, ok_bind, hfst, hsnd, OpenName.ofString_text]

theorem universeRef_universeRefDict {r : UniverseRef} (h : r.name ≠ "") (path : String) :
    universeRef (universeRefDict r : PyVal F) path = .ok r := by
  let d := (universeRefDict r : PyVal F).entries
  have hdict : (universeRefDict r : PyVal F) = .dict d := rfl
  have hkeys : checkKeys ["kind", "name", "universe", "index", "watchlist"] path d = .ok () := by
    simp [d, universeRefDict, checkKeys]
  have hcontains : d.contains "kind" := by simp [d, universeRefDict, Dict.contains]
  have hkind : requireStr d "kind" path = .ok (Named.name r.kind) :=
    requireStr_of_get? (by simp [d, universeRefDict]) (by cases r.kind <;> decide) path
  have hname : requireStr d "name" path = .ok r.name :=
    requireStr_of_get? (by simp [d, universeRefDict]) h path
  rw [hdict]
  simp only [universeRef, asDict, hkeys, hcontains, if_true, hkind, hname, enumOf,
    Named.ofName?_name, ok_bind]

theorem universeRefs_map {rs : List UniverseRef} (h : ∀ r ∈ rs, r.name ≠ "") (path : String) :
    universeRefs (rs.map fun r => (universeRefDict r : PyVal F)) path = .ok rs :=
  mapIdxM_map (fun r hr i => universeRef_universeRefDict (h r hr) (item path i)) 0

theorem universeSpec_universeDict {u : UniverseSpec} (hwf : u.WF) :
    universeSpec (universeDict u : PyVal F) = .ok u := by
  let d := (universeDict u : PyVal F).entries
  have hdict : (universeDict u : PyVal F) = .dict d := rfl
  have hkeys : checkKeys ["union", "exclude", "intersect", "deduplicate", "refs", "name"]
      "document.universe" d = .ok () :=
    checkKeys_append (by simp [checkKeys])
      (checkKeys_append (checkKeys_listEntry (by simp) _ _) (checkKeys_listEntry (by simp) _ _))
  have hrefs : unionRefs d = .ok u.refs := by
    have hne : u.refs.isEmpty = false := by simpa using hwf.refs_ne_nil
    simp [unionRefs, d, universeDict, asList, hne, universeRefs_map hwf.refs]
  have hexclude : excludeRefs d = .ok u.exclude := by
    cases hx : u.exclude with
    | nil => simp [excludeRefs, present, d, universeDict, hx]
    | cons r rs =>
      have hread := universeRefs_map (F := F) (hx ▸ hwf.exclude) "document.universe.exclude"
      rw [map_cons] at hread
      simp [excludeRefs, present, d, universeDict, hx, asList, hread]
  have hintersect : intersectRefs d = .ok u.intersect := by
    cases hx : u.intersect with
    | nil => simp [intersectRefs, present, d, universeDict, hx]
    | cons r rs =>
      have hread := universeRefs_map (F := F) (hx ▸ hwf.intersect) "document.universe.intersect"
      rw [map_cons] at hread
      simp [intersectRefs, present, d, universeDict, hx, asList, hread]
  have hdedup : ∀ bad, boolEntry d "deduplicate" true bad = .ok u.deduplicate := by
    intro bad
    simp [boolEntry, d, universeDict]
  rw [hdict]
  simp only [universeSpec, asDict, hkeys, hrefs, hexclude, hintersect, hdedup, ok_bind]

/-! ## schedules -/

theorem digitValue?_digitChar : ∀ d < 10, Text.digitValue? (Nat.digitChar d) = some d := by
  decide +kernel

theorem digitsValue_toDigits (n : Nat) : Text.digitsValue (Nat.toDigits 10 n) = some n := by
  induction n using Nat.strongRecOn with
  | ind n ih =>
    by_cases h : n < 10
    · rw [Nat.toDigits_of_lt_base h]
      simp [Text.digitsValue, digitValue?_digitChar n h]
    · have hge : 10 ≤ n := Nat.le_of_not_lt h
      rw [Nat.toDigits_of_base_le (by decide) hge]
      have hrec := ih (n / 10) (by omega)
      unfold Text.digitsValue at hrec ⊢
      rw [foldl_append, hrec]
      simp only [foldl_cons, foldl_nil, bind_some,
        digitValue?_digitChar (n % 10) (Nat.mod_lt n (by decide)), map_some]
      congr 1
      omega

theorem isDigit_of_mem_toDigits {n : Nat} {c : Char} (h : c ∈ Nat.toDigits 10 n) :
    isDigit c ∧ Text.isSpace c = false := by
  have hc := Nat.isDigit_of_mem_toDigits (by decide) (by decide) h
  have hrange : 48 ≤ c.toNat ∧ c.toNat ≤ 57 := by
    simp only [Char.isDigit, and_eq_true, decide_eq_true_eq] at hc
    exact ⟨hc.1, hc.2⟩
  constructor
  · have hfind : Text.digitValue? c = some (c.toNat - 48) := by
      have hfirst : (decide (48 ≤ c.toNat) && decide (c.toNat < 58)) = true := by
        simp only [and_eq_true, decide_eq_true_eq]
        omega
      simp [Text.digitValue?, Text.decimalZeros, hfirst]
    simp [isDigit, hfind]
  · unfold Text.isSpace
    grind

theorem dropWhile_eq_self {α : Type} {p : α → Bool} {a : α} {as : List α} (h : p a = false) :
    (a :: as).dropWhile p = a :: as := by
  simp [dropWhile, h]

theorem durationSeconds_toString (h0 : 0 ≤ n) (hn : n ≤ 31 * 24 * 3600) (path : String) :
    durationSeconds (.str (toString n ++ "s") : PyVal F) path = .ok n := by
  obtain ⟨m, rfl⟩ := Int.eq_ofNat_of_zero_le h0
  have hchars : (toString (m : Int) ++ "s").toList = Nat.toDigits 10 m ++ ['s'] := by
    have hstr : toString (m : Int) = Nat.repr m := rfl
    rw [String.toList_append, hstr, Nat.toList_repr]
    rfl
  have hdigits : ∀ c ∈ Nat.toDigits 10 m, isDigit c ∧ Text.isSpace c = false :=
    fun c hc => isDigit_of_mem_toDigits hc
  obtain ⟨c, cs, hcs⟩ := exists_cons_of_ne_nil (Nat.toDigits_ne_nil (n := m) (b := 10))
  have hstrip : Text.stripChars (Nat.toDigits 10 m ++ ['s']) = Nat.toDigits 10 m ++ ['s'] := by
    unfold Text.stripChars
    rw [hcs, cons_append, dropWhile_eq_self (hdigits c (by simp [hcs])).2]
    rw [← cons_append, reverse_append, reverse_singleton, singleton_append,
      dropWhile_eq_self (by decide), reverse_cons, reverse_reverse]
  have htake : (Nat.toDigits 10 m ++ ['s']).takeWhile isDigit = Nat.toDigits 10 m := by
    rw [takeWhile_append_of_pos fun c hc => (hdigits c hc).1]
    simp [takeWhile, show isDigit 's' = false by decide +kernel]
  have hlen : ¬ Text.maxIntDigits < (Nat.toDigits 10 m).length := by
    have hle : (Nat.toDigits 10 m).length ≤ 7 :=
      (Nat.length_toDigits_le_iff (by decide) (by decide)).mpr (by omega)
    unfold Text.maxIntDigits
    omega
  have hne : (Nat.toDigits 10 m).isEmpty = false := by simp [hcs]
  have hint : intOfDigits (Nat.toDigits 10 m) = .ok (m : Int) := by
    simp only [intOfDigits, Text.natOfDigits?, hne, Bool.false_or, decide_eq_true_eq, hlen, if_false,
      digitsValue_toDigits]
  have hspace : ['s'].dropWhile Text.isSpace = ['s'] := dropWhile_eq_self (by decide)
  simp only [durationSeconds, hchars, hstrip, htake, hne, false_eq_true, if_false,
    drop_left, hspace, durationUnit?, if_true, hint, ok_bind, Int.mul_one]

theorem scheduleSpec_scheduleDict {s : ScheduleSpec} (hwf : s.WF) :
    scheduleSpec (scheduleDict s : PyVal F) = .ok s := by
  let d := (scheduleDict s : PyVal F).entries
  have hdict : (scheduleDict s : PyVal F) = .dict d := rfl
  have hkeys : checkKeys ["every", "calendar", "at"] "document.screener.schedule" d = .ok () :=
    checkKeys_append (by simp [checkKeys]) (checkKeys_optEntry (by simp) _ _)
  obtain ⟨n, h1, h2, hevery⟩ := hwf.every
  have htext : requireStr d "every" "document.screener.schedule" = .ok s.every := by
    refine requireStr_of_get? (by simp [d, scheduleDict]) ?_ _
    rw [hevery]
    intro hempty
    have hlen := congrArg String.length hempty
    simp at hlen
  have hseconds : durationSeconds (.str s.every : PyVal F) "document.screener.schedule.every" = .ok n := by
    rw [hevery]
    exact durationSeconds_toString (by omega) h2 _
  have hrange : (decide (300 ≤ n) && decide (n ≤ 31 * 24 * 3600)) = true := by
    rw [and_eq_true, decide_eq_true_eq, decide_eq_true_eq]
    exact ⟨h1, h2⟩
  have hcalendar : ∀ bad, strEntry d "calendar" "nse_equity" bad = .ok "nse_equity" := by
    intro bad
    simp [strEntry, d, scheduleDict, hwf.calendar]
  have hat : (present d "at").map PyVal.toText = s.at_ := by
    rw [present_of_get?_map (o := s.at_) (f := .str) (by simp [d, scheduleDict]) fun _ => by simp]
    cases s.at_ <;> rfl
  have htime : s.at_.all isScheduleTime := by
    cases ht : s.at_ with
    | none => rfl
    | some t => simpa using hwf.at_ t ht
  rw [hdict]
  simp only [scheduleSpec, asDict, hkeys, htext, hseconds, hrange, ensure_true, hcalendar,
    beq_self_eq_true, hat, htime, ok_bind, ← hevery]
  rw [← hwf.calendar]

theorem attachmentSpec_attachmentDict {a : AttachmentSpec} (hwf : a.WF)
    (hexit : ∀ k, a.exitRank = some k → k ≤ 1000) (path : String) :
    attachmentSpec (attachmentDict a : PyVal F) path = .ok a := by
  let d := (attachmentDict a : PyVal F).entries
  have hdict : (attachmentDict a : PyVal F) = .dict d := rfl
  have hkeys : checkKeys attachmentKeys path d = .ok () := by
    refine checkKeys_append (by simp [checkKeys, attachmentKeys]) ?_
    refine checkKeys_append ?_ (checkKeys_optEntry (by simp [attachmentKeys]) _ _)
    refine checkKeys_append ?_ (checkKeys_optEntry (by simp [attachmentKeys]) _ _)
    refine checkKeys_append ?_ (checkKeys_optEntry (by simp [attachmentKeys]) _ _)
    refine checkKeys_append ?_ (checkKeys_optEntry (by simp [attachmentKeys]) _ _)
    exact checkKeys_append (checkKeys_optEntry (by simp [attachmentKeys]) _ _)
      (checkKeys_optEntry (by simp [attachmentKeys]) _ _)
  have hid : requireStr d "id" path = .ok a.id :=
    requireStr_of_get? (by simp [d, attachmentDict]) hwf.id path
  have hword : requireStr d "trigger" path = .ok (Named.name a.trigger) :=
    requireStr_of_get? (by simp [d, attachmentDict]) (by cases a.trigger <;> decide) path
  have hchannels : attachmentChannels d path = .ok a.channels := by
    cases hc : a.channels with
    | nil => exact absurd hc hwf.channels
    | cons c cs =>
      simp [attachmentChannels, d, attachmentDict, hc, PyVal.toText, Function.comp_def]
  have hint : ∀ (key : String) o, d.get? key = o.map PyVal.int → RankInRange o →
      intField d key (sub path key) = .ok o := fun key o hget ho =>
    intField_of_present (present_of_get?_map hget fun _ => by simp) ho _
  have htopN := hint "top_n" a.topN (by simp [d, attachmentDict]) hwf.topN
  have hdelta := hint "rank_delta" a.rankDelta (by simp [d, attachmentDict]) hwf.rankDelta
  have hentry := hint "entry_rank" a.entryRank (by simp [d, attachmentDict]) hwf.entryRank
  have hexitRank := hint "exit_rank" a.exitRank (by simp [d, attachmentDict])
    fun k hk => ⟨hwf.exitRank k hk, hexit k hk⟩
  have hafter := hint "exit_after" a.exitAfter (by simp [d, attachmentDict]) hwf.exitAfter
  have hinitial : ∀ bad, boolEntry d "initial_match" false bad = .ok a.initialMatch := by
    intro bad
    simp [boolEntry, d, attachmentDict]
  have hmessage : optionalStr d "message" path = .ok a.message :=
    optionalStr_of_present (present_of_get?_map (by simp [d, attachmentDict]) fun _ => by simp)
      hwf.message path
  have hranks : checkRanks a.entryRank a.exitRank path = .ok () := checkRanks_eq_ok.mpr hwf.ranks
  have hneedTop : (!(decide (a.trigger = .topN) && a.topN.isNone)) := by
    by_cases ht : a.trigger = .topN
    · obtain ⟨n, hn⟩ := isSome_iff_exists.mp (hwf.topN_isSome ht).1
      simp [hn]
    · simp [ht]
  have hneedDelta : (!(decide (a.trigger = .rankDelta) && a.rankDelta.isNone)) := by
    by_cases ht : a.trigger = .rankDelta
    · obtain ⟨n, hn⟩ := isSome_iff_exists.mp (hwf.rankDelta_isSome ht).1
      simp [hn]
    · simp [ht]
  have hneedRanks :
      (!((a.entryRank.isSome || a.exitRank.isSome) && decide (a.trigger = .rankDelta))) := by
    by_cases ht : a.trigger = .rankDelta
    · simp [(hwf.rankDelta_isSome ht).2.1, (hwf.rankDelta_isSome ht).2.2]
    · simp [ht]
  rw [hdict]
  simp only [attachmentSpec, asDict, hkeys, hid, hword, enumOf, Named.ofName?_name, hchannels, htopN,
    hdelta, hentry, hexitRank, hafter, hinitial, hmessage, hneedTop, hneedDelta, hneedRanks, hranks,
    ensure_true, ok_bind]
  by_cases ht : a.trigger = .topN
  · obtain ⟨h1, h2, h3⟩ := hwf.topN_isSome ht
    obtain ⟨n, hn⟩ := isSome_iff_exists.mp h1
    obtain ⟨entry, he⟩ := isSome_iff_exists.mp h2
    obtain ⟨exit, hx⟩ := isSome_iff_exists.mp h3
    have hlt := hwf.ranks entry exit he hx
    have hcase : topNRanks n (some entry) (some exit) path = .ok (entry, exit) := by
      simp [topNRanks, hlt]
    obtain ⟨id, trigger, channels, topN, rankDelta, entryRank, exitRank, exitAfter, initial, message⟩ := a
    simp only at ht hn he hx
    subst ht hn he hx
    simp only [hcase, ok_bind]
  · obtain ⟨id, trigger, channels, topN, rankDelta, entryRank, exitRank, exitAfter, initial, message⟩ := a
    simp only at ht
    cases trigger with
    | topN => exact absurd rfl ht
    | entry => rfl
    | exit => rfl
    | rankDelta => rfl

/-- The exit ranks of all attachments lie in the bounds of explicit ones. -/
def ExitRanksInBounds (s : ScreenerSpec F) : Prop :=
  ∀ a ∈ s.attachments, ∀ k, a.exitRank = some k → k ≤ 1000

theorem rankSpec_rankDict {r : RankSpec F} (hwf : r.by_.WF) (hsource : r.by_.source ≠ some "") :
    rankSpec (rankDict r) = .ok r := by
  let d := (rankDict r).entries
  have hdict : rankDict r = .dict d := rfl
  have hkeys : checkKeys ["by", "direction"] "document.screener.rank" d = .ok () := by
    simp [d, rankDict, checkKeys]
  have hdirection : rankDirection d = .ok r.direction := by
    simp [rankDirection, d, rankDict, enumOf]
  have hby : d.get? "by" = some (operandDict r.by_) := by simp [d, rankDict]
  rw [hdict]
  simp only [rankSpec, asDict, hkeys, hdirection, hby, operand_operandDict hwf hsource, ok_bind]

theorem screenerSpec_screenerDict {s : ScreenerSpec F} (hwf : s.WF)
    (hsource : ∀ r, s.rank = some r → r.by_.source ≠ some "") (hexit : ExitRanksInBounds s) :
    screenerSpec (screenerDict s) = .ok s := by
  let d := (screenerDict s).entries
  have hdict : screenerDict s = .dict d := rfl
  have hkeys : checkKeys
      ["schedule", "rank", "top_n", "attachments", "freshness_limit", "freshness_limit_s"]
      "document.screener" d = .ok () := by
    refine checkKeys_append (by simp [checkKeys]) ?_
    refine checkKeys_append ?_ (checkKeys_listEntry (by simp) _ _)
    exact checkKeys_append (checkKeys_optEntry (by simp) _ _) (checkKeys_optEntry (by simp) _ _)
  have hschedule : d.get? "schedule" = some (scheduleDict s.schedule) := by simp [d, screenerDict]
  have hrank : optional d "rank" rankSpec = .ok s.rank :=
    optional_of_present (f := rankDict)
      (present_of_get?_map (by simp [d, screenerDict]) fun _ => by simp [rankDict])
      fun r hr => rankSpec_rankDict (hwf.rank r hr) (hsource r hr)
  have htopN : intField d "top_n" "document.screener.top_n" = .ok s.topN :=
    intField_of_present (present_of_get?_map (by simp [d, screenerDict]) fun _ => by simp) hwf.topN _
  have hlimit : freshnessLimit d = .ok s.freshnessLimitS := by
    have hget : present d "freshness_limit_s" = some (.int s.freshnessLimitS) := by
      simp [present, d, screenerDict]
    have hrange : (decide (300 ≤ s.freshnessLimitS) && decide (s.freshnessLimitS ≤ 30 * 24 * 3600)) =
        true := by
      rw [and_eq_true, decide_eq_true_eq, decide_eq_true_eq]
      exact hwf.freshness
    simp only [freshnessLimit, freshnessSeconds, hget, hrange, ensure_true, ok_bind]
  have hitems : asList ((d.get? "attachments").getD (.list []))
      (fail "document.screener.attachments" "must be a list") = .ok (s.attachments.map attachmentDict) := by
    cases ha : s.attachments with
    | nil => simp [d, screenerDict, ha, asList]
    | cons a as => simp [d, screenerDict, ha, asList]
  have hread := mapIdxM_map
    (f := fun i v => attachmentSpec v (item "document.screener.attachments" i))
    (g := fun a => (attachmentDict a : PyVal F))
    (fun a ha i => attachmentSpec_attachmentDict (hwf.attachments a ha) (hexit a ha) _) 0
  rw [hdict]
  simp only [screenerSpec, asDict, hkeys, Dict.contains, hschedule, isSome_some, ensure_true,
    getD_some, scheduleSpec_scheduleDict hwf.schedule, hrank, htopN, hlimit, hitems, hread, ok_bind]

/-! ## the document -/

theorem instrument_instrumentDict {i : InstrumentRef} (h : i.symbol ≠ "" ∧ i.exchange ≠ "")
    (path : String) : instrument (instrumentDict i : PyVal F) path = .ok i := by
  let d := (instrumentDict i : PyVal F).entries
  have hdict : (instrumentDict i : PyVal F) = .dict d := rfl
  have hkeys : checkKeys ["symbol", "exchange"] path d = .ok () := by
    simp [d, instrumentDict, checkKeys]
  have hcontains : (Dict.contains d "symbol" && Dict.contains d "exchange") = true := by
    simp [d, instrumentDict, Dict.contains]
  have hsymbol : requireStr d "symbol" path = .ok i.symbol :=
    requireStr_of_get? (by simp [d, instrumentDict]) h.1 path
  have hexchange : requireStr d "exchange" path = .ok i.exchange :=
    requireStr_of_get? (by simp [d, instrumentDict]) h.2 path
  rw [hdict]
  simp only [instrument, hkeys, hcontains, ensure_true, hsymbol, hexchange, ok_bind]

omit [PyFloat F] in
theorem dataPolicy_dataPolicyDict {p : DataPolicy}
    (h : p.missing ≠ "" ∧ p.insufficientHistory ≠ "") :
    dataPolicy (dataPolicyDict p : PyVal F) = .ok p := by
  simp [dataPolicy, dataPolicyDict, asDict, checkKeys, strEntry, boolEntry, h.1, h.2]

/-- What the compiler guarantees beyond the parser: no operand has an empty
source and no alert a reminder interval of zero. -/
structure Checked (d : WorkflowDocument F) : Prop where
  sources : ∀ o ∈ d.operands, o.source ≠ some ""
  reminders : ∀ a ∈ d.alerts, ∀ n, a.reminderIntervalS = some n → 1 ≤ n

/-- The exit ranks of the document's screener attachments lie in the bounds of
explicit ones. -/
def DocumentExitRanks (d : WorkflowDocument F) : Prop :=
  ∀ s, d.screener = some s → ExitRanksInBounds s

theorem parseDocument_toDocumentDict {doc : WorkflowDocument F} (hwf : doc.WF)
    (hchecked : Checked doc) (hexit : DocumentExitRanks doc) :
    parseDocument (toDocumentDict doc).entries = .ok { document := doc } := by
  let d := (toDocumentDict doc).entries
  have hkeys : checkKeys documentKeys "document" d = .ok () := by
    refine checkKeys_append (by simp [checkKeys, documentKeys]) ?_
    exact checkKeys_append (checkKeys_optEntry (by simp [documentKeys]) _ _)
      (checkKeys_optEntry (by simp [documentKeys]) _ _)
  have hversion : d.get? "version" = some (.int 1) := by
    simp [d, toDocumentDict, hwf.version]
  have hname : d.get? "name" = some (.str doc.name) := by simp [d, toDocumentDict]
  have hsession : ∀ bad, strEntry d "session" "nse_equity" bad = .ok doc.session := by
    intro bad
    simp [strEntry, d, toDocumentDict, hwf.session]
  have hinsts : d.get? "instruments" = some (.list (doc.instruments.map instrumentDict)) := by
    simp [d, toDocumentDict]
  have hstages : d.get? "stages" = some (.list (doc.stages.map stageDict)) := by
    simp [d, toDocumentDict]
  have halerts : d.get? "alerts" = some (.list (doc.alerts.map alertDict)) := by
    simp [d, toDocumentDict]
  have hpolicy : d.get? "data_policy" = some (dataPolicyDict doc.dataPolicy) := by
    simp [d, toDocumentDict]
  have huniverse : optUniverse d = .ok doc.universe_ := by
    cases hu : doc.universe_ with
    | none => simp [optUniverse, d, toDocumentDict, hu]
    | some u =>
      have hget : d.get? "universe" = some (universeDict u) := by simp [d, toDocumentDict, hu]
      have hread := universeSpec_universeDict (F := F) (hwf.universe_ u hu)
      unfold optUniverse
      rw [hget]
      simp only [universeDict, record, cons_append] at hread ⊢
      simp only [hread, ok_bind]
  have hscreener : optScreener d = .ok doc.screener := by
    cases hs : doc.screener with
    | none => simp [optScreener, d, toDocumentDict, hs]
    | some s =>
      have hget : d.get? "screener" = some (screenerDict s) := by simp [d, toDocumentDict, hs]
      have hsrc : ∀ r, s.rank = some r → r.by_.source ≠ some "" := by
        intro r hr
        refine hchecked.sources _ (mem_append_right _ ?_)
        obtain ⟨sched, rank, topN, atts, fresh⟩ := s
        simp only at hr
        subst hr
        simp [WorkflowDocument.rankOperands, hs]
      have hread := screenerSpec_screenerDict (hwf.screener s hs) hsrc (hexit s hs)
      unfold optScreener
      rw [hget]
      simp only [screenerDict, record, cons_append] at hread ⊢
      simp only [hread, ok_bind]
  have htimezone : d.get? "timezone" = none := by simp [d, toDocumentDict]
  have hreadInsts := mapIdxM_map
    (f := fun i v => instrument v (item "document.instruments" i))
    (g := fun i => (instrumentDict i : PyVal F))
    (fun i hi j => instrument_instrumentDict (hwf.instruments i hi) _) 0
  have hreadStages := mapIdxM_map (f := fun i v => stage v i) (g := stageDict)
    (fun s hs i => stage_stageDict (hwf.stages s hs) (fun c hc o ho => hchecked.sources o
      (mem_append_left _ (mem_flatMap.mpr ⟨s, hs, mem_flatMap.mpr ⟨c, hc, ho⟩⟩))) i) 0
  have hreadAlerts := mapIdxM_map (f := fun i v => alert v i) (g := alertDict)
    (fun a ha i => alert_alertDict (hwf.alerts a ha) (hchecked.reminders a ha) i) 0
  have hone : isVersionOne (PyVal.int 1 : PyVal F) := rfl
  have hdoc : doc = { doc with version := 1 } := by
    rw [← hwf.version]
  rw [hdoc]
  simp only [show (toDocumentDict { doc with version := 1 }).entries = d by rw [← hdoc],
    parseDocument, hkeys, hversion, getD_some, hone, ensure_true, hname,
    nonEmptyStr_str hwf.name, hsession, hinsts, hstages, halerts, asList, hreadInsts, hreadStages,
    hreadAlerts, hpolicy, dataPolicy_dataPolicyDict hwf.dataPolicy, huniverse, hscreener, htimezone,
    ok_bind]

end Parse

end KiteAlgo
