import Mathlib.Algebra.Group.Nat.Defs
import Mathlib.Data.Option.NAry
import KiteAlgo.Compiler.Raises

/-!
# KiteAlgo.Compiler.Total

What escapes from `compile_document` besides `WorkflowValidationError`: an integer that
`float` refuses, a search for cycles that nests too deep, and a number that the canonical
JSON refuses.
-/

namespace KiteAlgo

open Check Compile

variable {F : Type} [PyFloat F]

/-! ## the search for cycles -/

/-- `visit` of `_detect_cycles` in an interpreter that allows so many nested calls of it. -/
def visitStageIn (edges : Dict String String) :
    Nat → Nat → CycleSearch → String → List String → Except PyErr CycleSearch
  | 0, _, st, _, _ => .ok st
  | _ + 1, 0, _, _, _ => .error .recursion
  | fuel + 1, frames + 1, st, node, trail => do
    let st := { st with colour := st.colour.set node .gray }
    let trail := trail ++ [node]
    let st ←
      match edges.get? node with
      | none => .ok st
      | some next =>
        match st.colour.get? next with
        | some .gray =>
          let members := trail.drop (trail.idxOf next)
          .ok (reportCycle (members ++ [next]) st members)
        | some .white => visitStageIn edges fuel frames st next trail
        | _ => .ok st
    .ok { st with colour := st.colour.set node .black }

/-- The nested calls of a visit: the chain of inputs that have not been visited before. -/
def nesting (edges : Dict String String) : Nat → Dict String Colour → String → Nat
  | 0, _, _ => 0
  | fuel + 1, colour, node =>
    match edges.get? node with
    | none => 1
    | some next =>
      if (colour.set node .gray).get? next = some .white then
        nesting edges fuel (colour.set node .gray) next + 1
      else 1

theorem visitStageIn_eq (edges : Dict String String) (fuel frames : Nat) (st : CycleSearch)
    (node : String) (trail : List String) :
    visitStageIn edges fuel frames st node trail =
      if nesting edges fuel st.colour node ≤ frames then .ok (visitStage edges fuel st node trail)
      else .error .recursion := by
  induction fuel generalizing frames st node trail with
  | zero => simp [visitStageIn, nesting, visitStage]
  | succ fuel ih =>
    cases frames with
    | zero =>
      have hpos : ¬ nesting edges (fuel + 1) st.colour node ≤ 0 := by
        rw [nesting]
        split
        · omega
        · split <;> omega
      rw [visitStageIn, if_neg hpos]
    | succ frames =>
      rw [visitStageIn, nesting, visitStage]
      cases hedge : edges.get? node with
      | none => simp
      | some next =>
        cases hcolour : (st.colour.set node .gray).get? next with
        | none => simp [hcolour]
        | some colour =>
          cases colour with
          | gray => simp [hcolour]
          | black => simp [hcolour]
          | white =>
            simp only [hcolour, ih, if_true, Nat.add_le_add_iff_right]
            split <;> simp

def stageEdges (stages : List (Stage F)) : Dict String String :=
  (stages.filter fun s => s.id ≠ "").foldl (fun acc s =>
    match s.input with
    | some input => if input = "" then acc else Dict.set acc s.id input
    | none => acc) []

def whiteStages (stages : List (Stage F)) : Dict String Colour :=
  (stages.filter fun s => s.id ≠ "").foldl (fun acc s => Dict.set acc s.id .white) []

/-- The visits from the stages in their order. -/
def visitAllIn (edges : Dict String String) (fuel frames : Nat) :
    List String → CycleSearch → Except PyErr CycleSearch
  | [], st => .ok st
  | id :: ids, st => do
    let st ←
      if st.colour.get? id = some .white then visitStageIn edges fuel frames st id [] else .ok st
    visitAllIn edges fuel frames ids st

/-- `_detect_cycles`, in an interpreter that allows so many nested calls of `visit`. -/
def detectCyclesIn (frames : Nat) (stages : List (Stage F)) : Check :=
  if 1000 < stages.length then .ok []
  else do
    let colour := whiteStages stages
    let st ← visitAllIn (stageEdges stages) colour.length frames colour.keys { colour }
    .ok st.issues

/-- The deepest of the visits from the stages in their order. -/
def deepestVisit (edges : Dict String String) (fuel : Nat) : List String → CycleSearch → Nat
  | [], _ => 0
  | id :: ids, st =>
    if st.colour.get? id = some .white then
      max (nesting edges fuel st.colour id) (deepestVisit edges fuel ids (visitStage edges fuel st id []))
    else deepestVisit edges fuel ids st

def cycleDepth (stages : List (Stage F)) : Nat :=
  if 1000 < stages.length then 0
  else
    let colour := whiteStages stages
    deepestVisit (stageEdges stages) colour.length colour.keys { colour }

theorem visitAllIn_eq (edges : Dict String String) (fuel frames : Nat) (ids : List String)
    (st : CycleSearch) :
    visitAllIn edges fuel frames ids st = if deepestVisit edges fuel ids st ≤ frames then
        .ok (ids.foldl (fun st id =>
          if st.colour.get? id = some .white then visitStage edges fuel st id [] else st) st)
      else .error .recursion := by
  induction ids generalizing st with
  | nil => simp [visitAllIn, deepestVisit]
  | cons id ids ih =>
    rw [visitAllIn, deepestVisit, List.foldl_cons]
    by_cases hwhite : st.colour.get? id = some .white
    · simp only [if_pos hwhite, visitStageIn_eq, Nat.max_le]
      by_cases hnest : nesting edges fuel st.colour id ≤ frames
      · simp only [hnest, if_true, ok_bind, ih, true_and]
      · simp [hnest]
    · simp only [if_neg hwhite, ok_bind, ih]

omit [PyFloat F] in
theorem detectCyclesIn_eq (frames : Nat) (stages : List (Stage F)) :
    detectCyclesIn frames stages =
      if cycleDepth stages ≤ frames then .ok (detectCycles stages) else .error .recursion := by
  unfold detectCyclesIn cycleDepth detectCycles
  by_cases hmany : 1000 < stages.length
  · simp [hmany]
  · simp only [if_neg hmany, visitAllIn_eq]
    split
    · rfl
    · rfl

/-! ## documents -/

/-- `_validate_stages`, with so many nested calls. -/
def validateStagesIn (frames : Nat) (hasUniverse : Bool) (stages : List (Stage F))
    (stageIds : List String) : Check :=
  all
    [each (fun _ s => validateStage hasUniverse (featureStageIds stages) stageIds s) stages,
     detectCyclesIn frames stages, validateChainDepth stages]

/-- `_validate`, with so many nested calls. -/
def validateIn (frames : Nat) (fromIso : String → Option Int) (p : Parse.Parsed F) : Check :=
  let d := p.document
  let stageIds := collectIds "stages" "stage" 0 [] (d.stages.map Stage.id)
  let alertIds := collectIds "alerts" "alert" 0 [] (d.alerts.map AlertSpec.id)
  all
    [report (decide (d.version ≠ 1)) "document.version" .badValue
       ("unsupported schema version " ++ toString d.version),
     report (decide (d.name = "")) "document.name" .badValue "workflow name must not be empty",
     validateSession d, validateReserved p.timezone, validateDataPolicy d.dataPolicy, validateSizes d,
     validateUniverse d.universe_, stageIds.2,
     validateStagesIn frames d.universe_.isSome d.stages stageIds.1, alertIds.2,
     each (fun _ a => validateAlert fromIso stageIds.1 a) d.alerts, validateScreener d,
     validateScreenerOnlyFields d, validateBreadthReferenced d,
     .ok (d.stages.flatMap (levelOnlyWarning d.alerts))]

/-- `compile_document`, in an interpreter that allows so many nested calls of `visit`. -/
def compileDocumentIn (frames : Nat) (fromIso : String → Option Int) (sha256 : String → String)
    (p : Parse.Parsed F) : Except CompileError (CompiledWorkflow F) :=
  match validateIn frames fromIso p with
  | .error e => .error (.raised e)
  | .ok issues =>
    let blocking := issues.filter ValidationIssue.isError
    if blocking.isEmpty then
      match canonicalJson p.document with
      | .ok canonical => .ok { document := p.document, canonicalHash := sha256 canonical }
      | .error e => .error (.raised e)
    else .error (.validation blocking)

variable {frames : Nat} {p : Parse.Parsed F}

theorem validateIn_eq (fromIso : String → Option Int) (h : cycleDepth p.document.stages ≤ frames) :
    validateIn frames fromIso p = validate fromIso p := by
  simp only [validateIn, validate, validateStagesIn, validateStages, detectCyclesIn_eq, if_pos h]

theorem compileDocumentIn_eq (fromIso : String → Option Int) (sha256 : String → String)
    (h : cycleDepth p.document.stages ≤ frames) :
    compileDocumentIn frames fromIso sha256 p = compileDocument fromIso sha256 p := by
  rw [compileDocumentIn, validateIn_eq fromIso h]
  rfl

/-- Validating the document converts the number. -/
def WorkflowDocument.Converts (d : WorkflowDocument F) (v : PyVal F) : Prop :=
  (∃ s ∈ d.stages, s.id ≠ "" ∧ ConvertsIn s.allConditions v) ∨
    ∃ o ∈ d.rankOperands, CoercesArg maxArithmeticDepth o v

theorem raises_collectIds (label one : String) (i : Nat) (seen ids : List String) :
    (collectIds label one i seen ids).2.raises = false := by
  induction ids generalizing i seen with
  | nil => rfl
  | cons id ids ih =>
    rw [collectIds]
    simp only
    split
    · simp [ih]
    · split
      · simp [ih]
      · exact ih _ _

omit [PyFloat F] in
theorem raises_validateAlert (fromIso : String → Option Int) (stageIds : List String)
    (a : AlertSpec F) : (validateAlert fromIso stageIds a).raises = false := by
  have hcap : ∀ w, (validateSessionCap a w).raises = false := by
    intro w
    unfold validateSessionCap
    split <;> simp
  unfold validateAlert
  split
  · simp
  · simp only [raises_all_cons, raises_all_nil, raises_report, hcap, Bool.or_false, Bool.false_or,
      Bool.or_eq_false_iff]
    refine ⟨?_, ?_⟩
    · split <;> simp
    · split <;> simp

theorem raises_validateUniverse (u : Option UniverseSpec) : (validateUniverse u).raises = false := by
  have hrefs : ∀ refs key text, (validateUniverseRefs refs key text).raises = false :=
    fun _ _ _ => raises_each_eq_false fun _ _ => by simp
  unfold validateUniverse
  split <;> simp [hrefs]

omit [PyFloat F] in
theorem raises_validateSession (d : WorkflowDocument F) : (validateSession d).raises = false := by
  unfold validateSession
  split
  · exact raises_each_eq_false fun _ _ => by simp
  · simp

theorem raises_validateReserved (timezone : Option (PyVal F)) :
    (validateReserved timezone).raises = false := by
  unfold validateReserved
  split <;> simp

theorem raises_validateScreener (d : WorkflowDocument F) :
    (validateScreener d).raises = true ↔
      ∃ v, (∃ o ∈ d.rankOperands, CoercesArg maxArithmeticDepth o v) ∧ Oversized v := by
  have hrank : ∀ r : RankSpec F, (validateRank r).raises = true ↔
      ∃ v, CoercesArg maxArithmeticDepth r.by_ v ∧ Oversized v := by
    intro r
    unfold validateRank
    split
    · exact raises_validateOperand none
    · exact raises_validateIndicatorOperand none
    · next hfield hindicator =>
        exact raises_iff_of_quiet (fun v hv => hindicator hv.shape.1) (raises_issue _ _ _)
  unfold validateScreener WorkflowDocument.rankOperands
  cases hscreener : d.screener with
  | none => simp
  | some screener =>
    obtain ⟨schedule, rank, topN, attachments, freshness⟩ := screener
    simp only [raises_all_cons, raises_all_nil, raises_report, Bool.or_false, Bool.false_or]
    rw [raises_each_eq_false fun _ _ => raises_report _ _ _ _,
      raises_each_eq_false fun _ _ => raises_report _ _ _ _, Bool.or_false, Bool.false_or]
    cases rank with
    | none => simp
    | some r => simp [hrank]

omit [PyFloat F] in
theorem raises_validateScreenerOnlyFields (d : WorkflowDocument F) :
    (validateScreenerOnlyFields d).raises = false := by
  unfold validateScreenerOnlyFields
  split
  · simp
  · refine raises_each_eq_false fun _ s => raises_each_eq_false fun _ c => ?_
    simp [validateScreenerOnlyOperand]

theorem raises_validateIn (frames : Nat) (fromIso : String → Option Int) (p : Parse.Parsed F) :
    (validateIn frames fromIso p).raises = true ↔
      (∃ v, p.document.Converts v ∧ Oversized v) ∨ frames < cycleDepth p.document.stages := by
  have hcycles : (detectCyclesIn frames p.document.stages).raises = true ↔
      frames < cycleDepth p.document.stages := by
    rw [detectCyclesIn_eq]
    split
    · next h => simpa using h
    · next h => simpa using h
  have hchain : (validateChainDepth p.document.stages).raises = false :=
    raises_each_eq_false fun _ _ => by simp
  have halerts : ∀ ids, Check.raises
      (each (fun _ a => validateAlert fromIso ids a) p.document.alerts) = false :=
    fun ids => raises_each_eq_false fun _ a => raises_validateAlert fromIso ids a
  have hbreadth : (validateBreadthReferenced p.document).raises = false :=
    raises_each_eq_false fun _ _ => by simp
  have hpolicy : (validateDataPolicy p.document.dataPolicy).raises = false := by
    simp [validateDataPolicy]
  have hsizes : (validateSizes p.document).raises = false := by simp [validateSizes]
  have hstages : ∀ (hu : Bool) (fi si : List String), Check.raises
      (each (fun _ s => validateStage hu fi si s) p.document.stages) = true ↔
        ∃ s ∈ p.document.stages, s.id ≠ "" ∧ ∃ v, ConvertsIn s.allConditions v ∧ Oversized v :=
    fun hu fi si => raises_each (P := fun s : Stage F => s.id ≠ "" ∧
      ∃ v, ConvertsIn s.allConditions v ∧ Oversized v) fun _ s _ => raises_validateStage
  have hdoc : (∃ v, p.document.Converts v ∧ Oversized v) ↔
      (∃ s ∈ p.document.stages, s.id ≠ "" ∧ ∃ v, ConvertsIn s.allConditions v ∧ Oversized v) ∨
        ∃ v, (∃ o ∈ p.document.rankOperands, CoercesArg maxArithmeticDepth o v) ∧ Oversized v := by
    unfold WorkflowDocument.Converts
    simp only [or_and_right, exists_or]
    refine or_congr ⟨?_, ?_⟩ Iff.rfl
    · rintro ⟨v, ⟨s, hs, hid, hv⟩, hover⟩
      exact ⟨s, hs, hid, v, hv, hover⟩
    · rintro ⟨s, hs, hid, v, hv, hover⟩
      exact ⟨v, ⟨s, hs, hid, hv⟩, hover⟩
  simp only [validateIn, validateStagesIn, raises_all_cons, raises_all_nil, raises_report, raises_ok,
    raises_validateSession, raises_validateReserved, hpolicy, hsizes, raises_validateUniverse,
    raises_collectIds, hchain, halerts, raises_validateScreenerOnlyFields, hbreadth,
    Bool.or_false, Bool.false_or, Bool.or_eq_true, hstages, hcycles, raises_validateScreener, hdoc]
  rw [or_right_comm]

/-! ## numbers of a document -/

/-- The numbers of an operand, with whatever its parameters hold. -/
def Operand.numbers (o : Operand F) : List (PyVal F) := [optFloat o.value, .dict o.params]

def Condition.numbers (c : Condition F) : List (PyVal F) :=
  c.left.numbers ++ c.right.numbers ++ (c.hysteresis.map fun h => PyVal.float h.release).toList

/-- The numbers of a document: those of its conditions and of its ranking, the parameters of
its stages and the levels of its alerts. -/
def WorkflowDocument.numbers (d : WorkflowDocument F) : List (PyVal F) :=
  (d.stages.flatMap fun s => .dict s.stageParams :: s.allConditions.flatMap Condition.numbers) ++
    (d.alerts.map fun a => optFloat a.rearmLevel) ++ d.rankOperands.flatMap Operand.numbers

def TextKeys (d : Dict Key (PyVal F)) : Prop := ∀ e ∈ d, ∃ s, e.1 = Key.str s

section TextKeys

omit [PyFloat F]

@[simp] theorem textKeys_nil : TextKeys ([] : Dict Key (PyVal F)) := by simp [TextKeys]

@[simp] theorem textKeys_cons {s : String} {v : PyVal F} {d : Dict Key (PyVal F)} :
    TextKeys ((Key.str s, v) :: d) ↔ TextKeys d := by simp [TextKeys]

@[simp] theorem textKeys_append {d e : Dict Key (PyVal F)} :
    TextKeys (d ++ e) ↔ TextKeys d ∧ TextKeys e := by
  simp only [TextKeys, List.mem_append, or_imp, forall_and]

@[simp] theorem textKeys_optEntry {α : Type} (key : String) (render : α → PyVal F) (a : Option α) :
    TextKeys (optEntry key render a) := by cases a <;> simp [optEntry]

@[simp] theorem textKeys_listEntry {α : Type} (key : String) (render : α → PyVal F) (xs : List α) :
    TextKeys (listEntry key render xs) := by
  unfold listEntry
  split <;> simp

end TextKeys

variable {xs : List (PyVal F)}

theorem jsonSafeList_iff : PyVal.jsonSafeList xs = true ↔ ∀ x ∈ xs, x.jsonSafe = true := by
  induction xs with
  | nil => simp [PyVal.jsonSafeList]
  | cons x xs ih => simp [PyVal.jsonSafeList, ih]

variable {d : Dict Key (PyVal F)}

theorem jsonSafeDict_iff : PyVal.jsonSafeDict d = true ↔ ∀ e ∈ d, e.2.jsonSafe = true := by
  induction d with
  | nil => simp [PyVal.jsonSafeDict]
  | cons e d ih =>
    obtain ⟨k, v⟩ := e
    simp only [PyVal.jsonSafeDict, Bool.and_eq_true, ih, List.mem_cons, forall_eq_or_imp]

theorem jsonSafe_dict (h : TextKeys d) :
    (PyVal.dict d).jsonSafe = true ↔ ∀ e ∈ d, e.2.jsonSafe = true := by
  have hmixed : PyVal.mixedKeys d = false := by
    unfold PyVal.mixedKeys
    rw [Bool.and_eq_false_iff]
    right
    rw [List.any_eq_false]
    intro e he
    obtain ⟨s, hs⟩ := h e he
    simp [hs]
  rw [PyVal.jsonSafe, hmixed, Bool.not_false, Bool.true_and, jsonSafeDict_iff]

theorem jsonSafe_list : (PyVal.list xs).jsonSafe = true ↔ ∀ x ∈ xs, x.jsonSafe = true := by
  rw [PyVal.jsonSafe, jsonSafeList_iff]

variable {key : String} {α : Type} {render : α → PyVal F}

@[simp] theorem jsonSafe_none : (PyVal.none : PyVal F).jsonSafe = true := rfl
@[simp] theorem jsonSafe_bool (b : Bool) : (PyVal.bool b : PyVal F).jsonSafe = true := rfl
@[simp] theorem jsonSafe_int (n : Int) : (PyVal.int n : PyVal F).jsonSafe = true := rfl
@[simp] theorem jsonSafe_str (s : String) : (PyVal.str s : PyVal F).jsonSafe = true := rfl

@[simp] theorem jsonSafe_optStr (s : Option String) : (optStr s : PyVal F).jsonSafe = true := by
  cases s <;> rfl

@[simp] theorem jsonSafe_optInt (n : Option Int) : (optInt n : PyVal F).jsonSafe = true := by
  cases n <;> rfl

theorem jsonSafe_optEntry {a : Option α} :
    (∀ e ∈ optEntry key render a, e.2.jsonSafe = true) ↔ ∀ x, a = some x → (render x).jsonSafe = true := by
  cases a <;> simp [optEntry]

theorem jsonSafe_listEntry {xs : List α} :
    (∀ e ∈ listEntry key render xs, e.2.jsonSafe = true) ↔ ∀ x ∈ xs, (render x).jsonSafe = true := by
  unfold listEntry
  cases xs with
  | nil => simp
  | cons x xs => simp [jsonSafe_list]

theorem jsonSafe_record {always present : Dict Key (PyVal F)} (h : TextKeys (always ++ present)) :
    (record always present).jsonSafe = true ↔
      (∀ e ∈ always, e.2.jsonSafe = true) ∧ ∀ e ∈ present, e.2.jsonSafe = true := by
  rw [record, jsonSafe_dict h, List.forall_mem_append]

/-! ### what the canonical mapping serializes -/

theorem jsonSafe_operandDict (o : Operand F) :
    (operandDict o).jsonSafe = true ↔ ∀ v ∈ o.numbers, v.jsonSafe = true := by
  rw [operandDict, jsonSafe_dict (by simp)]
  simp [Operand.numbers]

theorem jsonSafe_conditionDict (c : Condition F) :
    (conditionDict c).jsonSafe = true ↔ ∀ v ∈ c.numbers, v.jsonSafe = true := by
  have hhyst : ∀ h : HysteresisSpec F,
      (hysteresisDict h).jsonSafe = true ↔ (PyVal.float h.release).jsonSafe = true := by
    intro h
    rw [hysteresisDict, jsonSafe_dict (by simp)]
    simp
  rw [conditionDict, jsonSafe_record (by simp), jsonSafe_optEntry]
  cases hc : c.hysteresis with
  | none => simp [Condition.numbers, hc, or_imp, forall_and, jsonSafe_operandDict]
  | some h => simp [Condition.numbers, hc, or_imp, forall_and, jsonSafe_operandDict, hhyst, and_assoc]

def conditionNumbers (cs : List (Condition F)) : List (PyVal F) := cs.flatMap Condition.numbers

theorem jsonSafe_conditionsDict (cs : List (Condition F)) :
    (conditionsDict cs).jsonSafe = true ↔ ∀ v ∈ conditionNumbers cs, v.jsonSafe = true := by
  simp only [conditionsDict, jsonSafe_list, List.forall_mem_map, jsonSafe_conditionDict,
    conditionNumbers, List.forall_mem_flatMap]

theorem jsonSafe_groups (gs : List (ConditionGroup F)) :
    (PyVal.list (gs.map groupDict)).jsonSafe = true ↔
      ∀ v ∈ conditionNumbers (groupConditions gs), v.jsonSafe = true := by
  have hgroup : ∀ g : ConditionGroup F, (groupDict g).jsonSafe = true ↔
      ∀ v ∈ conditionNumbers g.conditions, v.jsonSafe = true := by
    intro g
    rw [groupDict, jsonSafe_dict (by simp)]
    simp [jsonSafe_conditionsDict]
  simp only [jsonSafe_list, List.forall_mem_map, hgroup, conditionNumbers, groupConditions,
    List.forall_mem_flatMap]

theorem forall_numbers_append {cs ds : List (Condition F)} :
    (∀ v ∈ conditionNumbers (cs ++ ds), v.jsonSafe = true) ↔
      (∀ v ∈ conditionNumbers cs, v.jsonSafe = true) ∧ ∀ v ∈ conditionNumbers ds, v.jsonSafe = true := by
  rw [conditionNumbers, List.flatMap_append, List.forall_mem_append]
  exact Iff.rfl

theorem jsonSafe_sequenceDict (q : SequenceSpec F) : (sequenceDict q).jsonSafe = true ↔
    ∀ v ∈ conditionNumbers (groupConditions q.first ++ groupConditions q.andThen),
      v.jsonSafe = true := by
  rw [sequenceDict, jsonSafe_record (by simp), forall_numbers_append, List.forall_mem_append]
  simp only [List.forall_mem_cons, jsonSafe_groups, jsonSafe_optEntry, jsonSafe_int]
  simp

theorem jsonSafe_breadthDict (b : BreadthSpec F) : (breadthDict b).jsonSafe = true ↔
    ∀ v ∈ conditionNumbers (groupConditions b.condition), v.jsonSafe = true := by
  rw [breadthDict, jsonSafe_dict (by simp)]
  simp [jsonSafe_groups]

theorem jsonSafe_stageDict (s : Stage F) :
    (stageDict s).jsonSafe = true ↔ (PyVal.dict s.stageParams).jsonSafe = true ∧
      ∀ v ∈ conditionNumbers s.allConditions, v.jsonSafe = true := by
  have hsequence : (∀ q, s.sequence = some q → (sequenceDict q).jsonSafe = true) ↔
      ∀ v ∈ conditionNumbers s.sequenceConditions, v.jsonSafe = true := by
    unfold Stage.sequenceConditions
    cases s.sequence <;> simp [jsonSafe_sequenceDict, conditionNumbers]
  have hbreadth : (∀ b, s.breadth = some b → (breadthDict b).jsonSafe = true) ↔
      ∀ v ∈ conditionNumbers s.breadthConditions, v.jsonSafe = true := by
    unfold Stage.breadthConditions
    cases s.breadth <;> simp [jsonSafe_breadthDict, conditionNumbers]
  rw [stageDict, jsonSafe_record (by simp), Stage.allConditions, Stage.ownConditions]
  simp only [List.forall_mem_append, jsonSafe_optEntry, forall_numbers_append, hsequence, hbreadth]
  simp [jsonSafe_conditionsDict]
  tauto

theorem jsonSafe_alertDict (a : AlertSpec F) :
    (alertDict a).jsonSafe = true ↔ (optFloat a.rearmLevel : PyVal F).jsonSafe = true := by
  rw [alertDict, jsonSafe_record (by simp)]
  simp only [List.forall_mem_append, jsonSafe_optEntry]
  simp [jsonSafe_list]

theorem jsonSafe_screenerDict (s : ScreenerSpec F) :
    (screenerDict s).jsonSafe = true ↔ ∀ r, s.rank = some r → ∀ v ∈ r.by_.numbers, v.jsonSafe = true := by
  have hrank : ∀ r : RankSpec F,
      (rankDict r).jsonSafe = true ↔ ∀ v ∈ r.by_.numbers, v.jsonSafe = true := by
    intro r
    rw [rankDict, jsonSafe_dict (by simp)]
    simp [jsonSafe_operandDict]
  have hattachment : ∀ a : AttachmentSpec, (attachmentDict a : PyVal F).jsonSafe = true := by
    intro a
    rw [attachmentDict, jsonSafe_record (by simp)]
    simp only [List.forall_mem_append, jsonSafe_optEntry]
    simp [jsonSafe_list]
  have hschedule : (scheduleDict s.schedule : PyVal F).jsonSafe = true := by
    rw [scheduleDict, jsonSafe_record (by simp), jsonSafe_optEntry]
    simp
  rw [screenerDict, jsonSafe_record (by simp)]
  simp only [List.forall_mem_append, jsonSafe_optEntry, jsonSafe_listEntry, hrank]
  simp [hschedule, hattachment]

theorem jsonSafe_universeDict (u : UniverseSpec) : (universeDict u : PyVal F).jsonSafe = true := by
  have href : ∀ r : UniverseRef, (universeRefDict r : PyVal F).jsonSafe = true := by
    intro r
    rw [universeRefDict, jsonSafe_dict (by simp)]
    simp
  rw [universeDict, jsonSafe_record (by simp)]
  simp only [List.forall_mem_append, jsonSafe_listEntry]
  simp [jsonSafe_list, href]

theorem jsonSafe_toDocumentDict (d : WorkflowDocument F) :
    (toDocumentDict d).jsonSafe = true ↔ ∀ v ∈ d.numbers, v.jsonSafe = true := by
  have hinstrument : ∀ i : InstrumentRef, (instrumentDict i : PyVal F).jsonSafe = true := by
    intro i
    rw [instrumentDict, jsonSafe_dict (by simp)]
    simp
  have hpolicy : (dataPolicyDict d.dataPolicy : PyVal F).jsonSafe = true := by
    rw [dataPolicyDict, jsonSafe_dict (by simp)]
    simp
  have hstages : (∀ s ∈ d.stages, (stageDict s).jsonSafe = true) ↔
      ∀ v ∈ d.stages.flatMap (fun s => .dict s.stageParams :: s.allConditions.flatMap Condition.numbers),
        v.jsonSafe = true := by
    simp only [List.forall_mem_flatMap, List.forall_mem_cons, jsonSafe_stageDict, conditionNumbers]
  have hscreener : (∀ s, d.screener = some s → (screenerDict s).jsonSafe = true) ↔
      ∀ v ∈ d.rankOperands.flatMap Operand.numbers, v.jsonSafe = true := by
    unfold WorkflowDocument.rankOperands
    cases hs : d.screener with
    | none => simp
    | some s =>
      obtain ⟨schedule, rank, topN, attachments, freshness⟩ := s
      cases rank <;> simp [jsonSafe_screenerDict]
  rw [toDocumentDict, jsonSafe_record (by simp), WorkflowDocument.numbers]
  simp only [List.forall_mem_append, List.forall_mem_cons, jsonSafe_optEntry, hscreener,
    jsonSafe_universeDict, jsonSafe_list, List.forall_mem_map, hstages, jsonSafe_alertDict,
    hinstrument, hpolicy, jsonSafe_int, jsonSafe_str]
  simp [and_assoc]

theorem compileDocumentIn_refused {frames : Nat} {fromIso : String → Option Int}
    {sha256 : String → String} {p : Parse.Parsed F} (hpass : (validateIn frames fromIso p).passes = true)
    (hsafe : (toDocumentDict p.document).jsonSafe = false) :
    compileDocumentIn frames fromIso sha256 p =
      .error (.raised (.value "Out of range float values are not JSON compliant")) := by
  unfold compileDocumentIn
  cases hv : validateIn frames fromIso p with
  | error e => simp [hv, Check.passes] at hpass
  | ok issues =>
    rw [hv] at hpass
    simp only [isEmpty_blocking, hpass, if_true, canonicalJson, hsafe, Bool.false_eq_true, if_false]

/-- Exact rationals and a NaN, for concrete runs. -/
instance : PyFloat (Option ℚ) where
  ofInt n := if n.natAbs < 2 ^ 1024 then some (some n) else none
  repr f := f.elim "nan" PyFloat.repr
  jsonRepr f := f.elim "NaN" PyFloat.jsonRepr
  isFinite f := f.isSome
  eq f g := (Option.map₂ PyFloat.eq f g).getD false
  lt f g := (Option.map₂ PyFloat.lt f g).getD false
  le f g := (Option.map₂ PyFloat.le f g).getD false
  eqQ f q := (f.map fun p => PyFloat.eqQ p q).getD false
  leQ f q := (f.map fun p => PyFloat.leQ p q).getD false
  qLe q f := (f.map fun p => PyFloat.qLe q p).getD false
  add := Option.map₂ PyFloat.add
  sub := Option.map₂ PyFloat.sub
  mul := Option.map₂ PyFloat.mul
  div := Option.map₂ PyFloat.div
  neg := Option.map PyFloat.neg
  hundred := some PyFloat.hundred
  two := some PyFloat.two
  three := some PyFloat.three
  absLtEps f := (f.map PyFloat.absLtEps).getD false

def nanRearm : PyVal (Option ℚ) :=
  .ofPairs
    [("version", .int 1), ("name", .str "breakouts"), ("instruments", .list [.str "NSE:INFY"]),
     ("stages", .list
       [.ofPairs
         [("id", .str "momentum"), ("clock", .str "candle_close"), ("timeframe", .str "1d"),
          ("conditions", .list
            [.ofPairs [("field", .str "close"), ("op", .str "crosses_above"), ("value", .int 100)]])]]),
     ("alerts", .list
       [.ofPairs
         [("id", .str "breakout"), ("source", .str "momentum"), ("trigger", .str "on_transition"),
          ("rearm_above", .float none), ("channels", .list [.str "telegram"])]])]

end KiteAlgo
