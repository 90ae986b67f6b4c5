import KiteAlgo.Planner.Spec

/-!
# KiteAlgo.Planner.Coverage

Whether everything that a stage and its layers evaluate is planned.

The evaluator reads the three groups of a stage, both legs of its sequence and its
breadth condition, and descends into expressions.  The five traversals start from
the three groups only, and two of them (pairs and external references) do not
descend.  `operands_planned_iff` says that this is all that can go wrong: an operand
in a position that is not visited has to stand in a visited one as well.
-/

namespace KiteAlgo

open Compile List Option Bool

variable {F : Type} [PyFloat F]

/-- A `fundamentals.*` field. -/
def Operand.isFundamentalsField (operand : Operand F) : Bool :=
  decide (operand.kind = .field) && operand.name.any isFundamentalsName

/-- The stage or one of its ancestors evaluates the operand. -/
def Evaluates (document : WorkflowDocument F) (stageId : String) (s : Stage F) (target : Operand F) :
    Prop :=
  s ∈ stageAndChain document stageId ∧ Reads s.allConditions target

/-- Everything that a stage and its ancestors evaluate is planned. -/
structure Planned (document : WorkflowDocument F) (stageId : String) : Prop where
  features : ∃ plan, buildSubscriptionPlan document stageId = .ok plan ∧
    ∀ s target name, Evaluates document stageId s target → target.inlineName = some name →
      ∃ spec, (s.timeframeOrDay, spec) ∈ plan.specs ∧ featureOperandId target = some spec.featureId
  pairs : ∀ s target, Evaluates document stageId s target → target.kind = .pair →
    target ∈ pairOperandsFor document stageId
  externals : ∀ s target name, Evaluates document stageId s target →
    externalName target = some name → name ∈ externalReferencesFor document stageId
  fundamentals : ∀ s target, Evaluates document stageId s target →
    target.isFundamentalsField = true → stageNeedsFundamentals document stageId = .ok true

/-! ## the search for fundamentals -/

/-- What `operand_uses_fundamentals` meets, in its order: operands, and arguments
that raise.  It also looks into the parameters of named indicators. -/
def fundamentalsWalk : Nat → Operand F → List (Except PyErr (Operand F))
  | 0, _ => []
  | levels + 1, operand =>
    .ok operand :: if operand.kind = .indicator then
        (expressionArgs operand.params).flatMap fun arg =>
          match coerceExpressionArg arg with
          | .error e => [.error e]
          | .ok none => []
          | .ok (some child) => fundamentalsWalk levels child
      else []

/-- A fundamentals field is met before anything raises. -/
def MeetsFundamentals (walk : List (Except PyErr (Operand F))) : Prop :=
  ∃ before target after, walk = before ++ .ok target :: after ∧
    target.isFundamentalsField = true ∧ ∀ x ∈ before, ∃ operand, x = .ok operand

def searchWalk : List (Except PyErr (Operand F)) → Except PyErr Bool
  | [] => .ok false
  | .error e :: _ => .error e
  | .ok operand :: walk => if operand.isFundamentalsField then .ok true else searchWalk walk

omit [PyFloat F] in
theorem searchWalk_append (walk rest : List (Except PyErr (Operand F))) :
    searchWalk (walk ++ rest) =
      searchWalk walk >>= fun found => if found then .ok true else searchWalk rest := by
  induction walk with
  | nil => simp [searchWalk]
  | cons x walk ih =>
    cases x with
    | error e => rfl
    | ok operand =>
      simp only [cons_append, searchWalk]
      split
      · rfl
      · exact ih

omit [PyFloat F] in
theorem searchWalk_eq_true {walk : List (Except PyErr (Operand F))} :
    searchWalk walk = .ok true ↔ MeetsFundamentals walk := by
  induction walk with
  | nil => simp [searchWalk, MeetsFundamentals]
  | cons x walk ih =>
    cases x with
    | error e =>
      simp only [searchWalk, reduceCtorEq, false_iff]
      rintro ⟨before, target, after, hwalk, _, hok⟩
      cases before with
      | nil => simp at hwalk
      | cons y before =>
        obtain ⟨rfl, _⟩ := List.cons.inj hwalk
        simpa using hok _ mem_cons_self
    | ok operand =>
      by_cases hfield : operand.isFundamentalsField
      · simp only [searchWalk, hfield, if_true, true_iff]
        exact ⟨[], operand, walk, rfl, hfield, by simp⟩
      · simp only [searchWalk, hfield, false_eq_true, if_false, ih]
        constructor
        · rintro ⟨before, target, after, rfl, htarget, hok⟩
          refine ⟨.ok operand :: before, target, after, rfl, htarget, fun y hy => ?_⟩
          rcases mem_cons.mp hy with rfl | hy
          · exact ⟨operand, rfl⟩
          · exact hok y hy
        · rintro ⟨before, target, after, hwalk, htarget, hok⟩
          cases before with
          | nil =>
            obtain ⟨hhead, _⟩ := List.cons.inj hwalk
            obtain rfl := Except.ok.inj hhead
            exact absurd htarget hfield
          | cons y before =>
            obtain ⟨_, rfl⟩ := List.cons.inj hwalk
            exact ⟨before, target, after, rfl, htarget, fun z hz => hok z (mem_cons_of_mem y hz)⟩

variable {test : Operand F → Except PyErr Bool} {walk : Operand F → List (Except PyErr (Operand F))}

theorem anyArg_eq (h : ∀ o, test o = searchWalk (walk o)) (args : List (PyVal F)) :
    anyArg test args = searchWalk (args.flatMap fun arg =>
      match coerceExpressionArg arg with
      | .error e => [.error e]
      | .ok none => []
      | .ok (some child) => walk child) := by
  induction args with
  | nil => rfl
  | cons arg args ih =>
    rw [flatMap_cons, searchWalk_append, anyArg, ih]
    cases coerceExpressionArg arg with
    | error e => rfl
    | ok child =>
      cases child with
      | none => rfl
      | some child => simp [h]

theorem operandUsesFundamentals_eq (levels : Nat) (operand : Operand F) :
    operandUsesFundamentals levels operand = searchWalk (fundamentalsWalk levels operand) := by
  induction levels generalizing operand with
  | zero => rfl
  | succ levels ih =>
    cases hkind : operand.kind with
    | indicator =>
      simp only [operandUsesFundamentals, fundamentalsWalk, hkind, if_true, searchWalk,
        Operand.isFundamentalsField]
      exact anyArg_eq ih _
    | field =>
      simp only [operandUsesFundamentals, fundamentalsWalk, hkind, searchWalk, Operand.isFundamentalsField]
      cases operand.name.any isFundamentalsName <;> rfl
    | value => simp [operandUsesFundamentals, fundamentalsWalk, hkind, searchWalk,
          Operand.isFundamentalsField]
    | pair => simp [operandUsesFundamentals, fundamentalsWalk, hkind, searchWalk,
          Operand.isFundamentalsField]

omit [PyFloat F] in
theorem anyOperand_eq (h : ∀ o, test o = searchWalk (walk o)) (operands : List (Operand F)) :
    anyOperand test operands = searchWalk (operands.flatMap walk) := by
  induction operands with
  | nil => rfl
  | cons o operands ih => rw [flatMap_cons, searchWalk_append, anyOperand, ih, h]

/-- What the search for fundamentals meets in the own groups of some stages. -/
def stagesWalk (stages : List (Stage F)) : List (Except PyErr (Operand F)) :=
  stages.flatMap fun s =>
    (operandsOf s.ownConditions).flatMap (fundamentalsWalk (maxTraversalDepth + 1))

theorem anyStage_eq (stages : List (Stage F)) :
    stageNeedsFundamentals.anyStage stages = searchWalk (stagesWalk stages) := by
  induction stages with
  | nil => rfl
  | cons s stages ih =>
    have hstage : stageUsesFundamentals s = searchWalk ((operandsOf s.ownConditions).flatMap
        (fundamentalsWalk (maxTraversalDepth + 1))) :=
      anyOperand_eq (operandUsesFundamentals_eq _) _
    rw [stagesWalk, flatMap_cons, searchWalk_append, stageNeedsFundamentals.anyStage, ih, hstage]
    rfl

/-! ## what the traversals visit -/

/-- The feature id on the timeframe is declared: by an inline indicator that the own
groups of the stage or of an ancestor read, or by a feature stage. -/
def Declares (document : WorkflowDocument F) (stageId timeframe : String) (featureId : Option String) :
    Prop :=
  (∃ s ∈ stageAndChain document stageId, s.timeframeOrDay = timeframe ∧
    ∃ target name, Reads s.ownConditions target ∧ target.inlineName = some name ∧
      featureOperandId target = featureId) ∨
  (∃ s ∈ document.stages, s.type = .known .feature ∧ s.timeframeOrDay = timeframe ∧
    ∃ function, function ≠ "" ∧ s.function = some function ∧
      featureId = some (stageSpec s function).featureId)

/-- Every operand stands in a visited position as well. -/
structure Covered (document : WorkflowDocument F) (stageId : String) : Prop where
  features : ∀ s target name, Evaluates document stageId s target → target.inlineName = some name →
    Declares document stageId s.timeframeOrDay (featureOperandId target)
  pairs : ∀ s target, Evaluates document stageId s target → target.kind = .pair →
    ∃ s' ∈ stageAndChain document stageId, target ∈ operandsOf s'.ownConditions
  externals : ∀ s target name, Evaluates document stageId s target → externalName target = some name →
    ∃ s' ∈ stageAndChain document stageId, ∃ o ∈ operandsOf s'.ownConditions,
      externalName o = some name
  fundamentals : ∀ s target, Evaluates document stageId s target →
    target.isFundamentalsField = true → MeetsFundamentals (stagesWalk (stageAndChain document stageId))

variable {document : WorkflowDocument F} {stageId : String}

omit [PyFloat F] in
theorem mem_pairOperandsFor {target : Operand F} (hkind : target.kind = .pair) :
    target ∈ pairOperandsFor document stageId ↔
      ∃ s ∈ stageAndChain document stageId, target ∈ operandsOf s.ownConditions := by
  simp [pairOperandsFor, collectPairOperands, hkind]

omit [PyFloat F] in
theorem mem_externalReferencesFor {name : String} :
    name ∈ externalReferencesFor document stageId ↔
      ∃ s ∈ stageAndChain document stageId, ∃ o ∈ operandsOf s.ownConditions,
        externalName o = some name := by
  rw [externalReferencesFor, mem_foldl_dedup]
  simp [collectExternalReferences]

theorem mem_specs_iff_declares {timeframe : String} {stage : Stage F} {plan : SubscriptionPlan F}
    (hstage : document.stage? stageId = some stage)
    (hplan : PlanSpec document stage (stageChain document stageId) plan) (featureId : String) :
    (∃ spec, (timeframe, spec) ∈ plan.specs ∧ spec.featureId = featureId) ↔
      Declares document stageId timeframe (some featureId) := by
  have hchain : stageAndChain document stageId = stage :: stageChain document stageId := by
    simp [stageAndChain, hstage]
  rw [hplan.specs, Declares, hchain]
  constructor
  · rintro ⟨need, ⟨s, hs, target, name, hreads, hname, rfl⟩ | ⟨s, hs, htype, hneed⟩, rfl, rfl⟩
    · exact .inl ⟨s, hs, rfl, target, name, hreads, hname, featureOperandId_inline hname⟩
    · obtain ⟨function, hfunction, rfl⟩ := map_eq_some_iff.mp hneed
      obtain ⟨hfunction, hne⟩ := filter_eq_some_iff.mp hfunction
      exact .inr ⟨s, hs, htype, rfl, function, by simpa using hne, hfunction, rfl⟩
  · rintro (⟨s, hs, rfl, target, name, hreads, hname, hid⟩ | ⟨s, hs, htype, rfl, function, hne, hfn, hid⟩)
    · refine ⟨_, .inl ⟨s, hs, target, name, hreads, hname, rfl⟩, rfl, ?_⟩
      exact some.inj ((featureOperandId_inline hname).symm.trans hid)
    · refine ⟨⟨s.timeframeOrDay, stageRefPrefix ++ s.id, stageSpec s function⟩,
        .inr ⟨s, hs, htype, ?_⟩, rfl, (some.inj hid).symm⟩
      simp [featureStageNeed, hfn, hne]

/-- Everything evaluated is planned exactly when every operand stands in a position
that the traversals visit. -/
theorem operands_planned_iff {raw : PyVal F} {p : Parse.Parsed F} {c : CompiledWorkflow F}
    {fromIso : String → Option Int} {sha256 : String → String}
    (hp : Parse.parseWorkflowDict raw = .ok p) (hc : compileDocument fromIso sha256 p = .ok c)
    {stageId : String} {stage : Stage F} (hstage : p.document.stage? stageId = some stage) :
    Planned p.document stageId ↔ Covered p.document stageId := by
  obtain ⟨plan, hbuild, hplan⟩ :=
    buildSubscriptionPlan_ok (acceptedStages_of_compileDocument hp hc) hstage
  have hfundamentals : stageNeedsFundamentals p.document stageId = .ok true ↔
      MeetsFundamentals (stagesWalk (stageAndChain p.document stageId)) := by
    rw [stageNeedsFundamentals, anyStage_eq, searchWalk_eq_true]
  have hspecs : ∀ (s : Stage F) (target : Operand F) name, target.inlineName = some name →
      ((∃ spec, (s.timeframeOrDay, spec) ∈ plan.specs ∧ featureOperandId target = some spec.featureId) ↔
        Declares p.document stageId s.timeframeOrDay (featureOperandId target)) := by
    intro s target name hname
    rw [featureOperandId_inline hname, ← mem_specs_iff_declares hstage hplan]
    simp [eq_comm]
  constructor
  · intro h
    refine ⟨fun s target name heval hname => ?_, fun s target heval hkind => ?_,
      fun s target name heval hname => ?_, fun s target heval hfield => ?_⟩
    · obtain ⟨plan', hbuild', hall⟩ := h.features
      obtain rfl : plan' = plan := by simpa [hbuild] using hbuild'.symm
      exact (hspecs s target name hname).mp (hall s target name heval hname)
    · exact (mem_pairOperandsFor hkind).mp (h.pairs s target heval hkind)
    · exact mem_externalReferencesFor.mp (h.externals s target name heval hname)
    · exact hfundamentals.mp (h.fundamentals s target heval hfield)
  · intro h
    refine ⟨⟨plan, hbuild, fun s target name heval hname => ?_⟩, fun s target heval hkind => ?_,
      fun s target name heval hname => ?_, fun s target heval hfield => ?_⟩
    · exact (hspecs s target name hname).mpr (h.features s target name heval hname)
    · exact (mem_pairOperandsFor hkind).mpr (h.pairs s target heval hkind)
    · exact mem_externalReferencesFor.mpr (h.externals s target name heval hname)
    · exact hfundamentals.mpr (h.fundamentals s target heval hfield)

/-! ## an average in a group and in a sequence -/

/-- A document with one alert on a five-minute stage with the given entries. -/
def trendDocument (entries : List (String × PyVal ℚ)) : PyVal ℚ :=
  .ofPairs
    [("version", .int 1), ("name", .str "trend"), ("instruments", .list [.str "NSE:INFY"]), ("stages", .list
       [.ofPairs ([("id", .str "trend"), ("clock", .str "candle_close"), ("timeframe", .str "5m")] ++
         entries)]),
     ("alerts", .list
       [.ofPairs
         [("id", .str "notify"), ("source", .str "trend"), ("channels", .list [.str "telegram"])]])]

def aboveCondition (left right : PyVal ℚ) : PyVal ℚ :=
  .ofPairs [("left", left), ("op", .str "gt"), ("right", right)]

def aboveAverage : PyVal ℚ :=
  aboveCondition (.ofPairs [("field", .str "close")])
    (.ofPairs [("indicator", .str "ema"), ("period", .int 20)])

def pairAbove : PyVal ℚ :=
  aboveCondition
    (.ofPairs
      [("pair_ratio", .ofPairs
        [("instrument", .str "NSE:INFY"), ("reference", .str "NSE:TCS"), ("field", .str "close")])])
    (.int 1)

/-- The close above its average, and again within five bars. -/
def averageSequence : PyVal ℚ :=
  .ofPairs
    [("first", .ofPairs [("all", .list [aboveAverage])]),
     ("then", .ofPairs [("all", .list [aboveAverage])]), ("within_bars", .int 5)]

theorem covered_of_plain
    (hplain : ∀ s ∈ stageAndChain document stageId, s.sequence = none ∧ s.breadth = none ∧
      ∀ o ∈ operandsOf s.ownConditions, ¬ o.IsExpression ∧ o.isFundamentalsField = false) :
    Covered document stageId := by
  have hreads : ∀ s target, Evaluates document stageId s target →
      s ∈ stageAndChain document stageId ∧ target ∈ operandsOf s.ownConditions := by
    rintro s target ⟨hs, o, ho, hreach⟩
    obtain ⟨hsequence, hbreadth, hleaf⟩ := hplain s hs
    have ho : o ∈ operandsOf s.ownConditions := by
      simpa [Stage.allConditions, Stage.sequenceConditions, Stage.breadthConditions, hsequence,
        hbreadth] using ho
    exact ⟨hs, hreach.eq_of_not_isExpression (hleaf o ho).1 ▸ ho⟩
  refine ⟨fun s target name heval hname => ?_, fun s target heval _ => ?_,
    fun s target name heval hname => ?_, fun s target heval hfield => ?_⟩
  · obtain ⟨hs, ho⟩ := hreads s target heval
    exact .inl ⟨s, hs, rfl, target, name, ⟨target, ho, .self target⟩, hname, rfl⟩
  · exact ⟨s, hreads s target heval⟩
  · obtain ⟨hs, ho⟩ := hreads s target heval
    exact ⟨s, hs, target, ho, hname⟩
  · obtain ⟨hs, ho⟩ := hreads s target heval
    simp [((hplain s hs).2.2 target ho).2] at hfield

/-- In the condition list the average and the pair are planned. -/
theorem conditions_planned :
    ∃ p, Parse.parseWorkflowDict (trendDocument [("conditions", .list [aboveAverage, pairAbove])]) =
      .ok p ∧ Planned p.document "trend" := by
  obtain ⟨p, hp, hcheck⟩ := exists_of_parsesWith
    (trendDocument [("conditions", .list [aboveAverage, pairAbove])])
    (fun p => compilesPlainly p && (p.document.stage? "trend").isSome &&
      (stageAndChain p.document "trend").all fun s => s.sequence.isNone && s.breadth.isNone &&
        (operandsOf s.ownConditions).all fun o =>
          (decide (o.kind ≠ .indicator) || o.namedAs.isSome) && !o.isFundamentalsField)
    (by decide +kernel)
  simp only [Bool.and_eq_true, List.all_eq_true, Option.isNone_iff_eq_none, Bool.or_eq_true,
    decide_eq_true_eq, Bool.not_eq_true', Option.isSome_iff_exists] at hcheck
  obtain ⟨⟨hcompiles, stage, hstage⟩, hplain⟩ := hcheck
  obtain ⟨c, hc⟩ := exists_compile_of_compilesPlainly hcompiles (fun _ => none) id
  refine ⟨p, hp, (operands_planned_iff hp hc hstage).mpr (covered_of_plain fun s hs => ?_)⟩
  obtain ⟨⟨hsequence, hbreadth⟩, hoperands⟩ := hplain s hs
  refine ⟨hsequence, hbreadth, fun o ho => ⟨fun hexpr => ?_, (hoperands o ho).2⟩⟩
  rcases (hoperands o ho).1 with hkind | ⟨name, hname⟩
  · exact hkind hexpr.kind
  · simp [hexpr.unnamed] at hname

/-- An average that stands only in a sequence of an accepted document is not planned. -/
theorem sequence_not_planned :
    ∃ p, Parse.parseWorkflowDict (trendDocument [("sequence", averageSequence)]) = .ok p ∧
      (∀ fromIso sha256, ∃ c, compileDocument fromIso sha256 p = .ok c) ∧ ¬ Planned p.document "trend" := by
  obtain ⟨p, hp, hcheck⟩ := exists_of_parsesWith (trendDocument [("sequence", averageSequence)])
    (fun p => compilesPlainly p && (match buildSubscriptionPlan p.document "trend" with
        | .ok plan => plan.specs.isEmpty
        | .error _ => false) &&
      (stageAndChain p.document "trend").any fun s =>
        (operandsOf s.allConditions).any fun o => o.inlineName.isSome)
    (by decide +kernel)
  simp only [Bool.and_eq_true, List.any_eq_true, Option.isSome_iff_exists] at hcheck
  obtain ⟨⟨hcompiles, hempty⟩, s, hs, o, ho, name, hname⟩ := hcheck
  refine ⟨p, hp, exists_compile_of_compilesPlainly hcompiles, fun hplanned => ?_⟩
  obtain ⟨plan, hplan, hall⟩ := hplanned.features
  obtain ⟨spec, hspec, _⟩ := hall s o name ⟨hs, o, ho, .self o⟩ hname
  simp only [hplan, List.isEmpty_iff] at hempty
  simp [hempty] at hspec

end KiteAlgo
