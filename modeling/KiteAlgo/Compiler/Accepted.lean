import KiteAlgo.Compiler
import KiteAlgo.Parser.WellFormed

/-!
# KiteAlgo.Compiler.Accepted

What acceptance by `compile_document` says about the parts of a document: every
operand, wherever it stands, passed the operand validator, and every alert
passed the alert validator.
-/

namespace KiteAlgo

namespace Compile

open Check

variable {F : Type} [PyFloat F]

/-- The operand passed its validator somewhere in the document. -/
def Validated (o : Operand F) : Prop :=
  ∃ featureIds where_, (validateOperand featureIds o where_).passes = true

/-! ## from the document down to the conditions -/

variable {featureIds : Option (List String)} {where_ : String}

theorem validated_of_validateCondition {c : Condition F}
    (h : (validateCondition featureIds c where_).passes = true) :
    ∀ o ∈ c.operands, Validated o := by
  unfold validateCondition at h
  simp only [passes_all_cons, Bool.and_eq_true] at h
  obtain ⟨_, _, hleft, hright, _⟩ := h
  intro o ho
  simp only [Condition.operands, List.mem_cons, List.not_mem_nil, or_false] at ho
  rcases ho with rfl | rfl
  · exact ⟨featureIds, _, hleft⟩
  · exact ⟨featureIds, _, hright⟩

theorem validated_of_validateConditions {cs : List (Condition F)}
    (h : (validateConditions featureIds cs where_).passes = true) :
    ∀ o ∈ operandsOf cs, Validated o := by
  intro o ho
  obtain ⟨c, hc, ho⟩ := List.mem_flatMap.mp ho
  obtain ⟨i, hi⟩ := exists_passes_of_each h hc
  exact validated_of_validateCondition hi o ho

theorem validated_of_validateGroups {gs : List (ConditionGroup F)} {path : String}
    (h : (validateGroups gs path).passes = true) :
    ∀ o ∈ operandsOf (groupConditions gs), Validated o := by
  intro o ho
  obtain ⟨c, hc, ho⟩ := List.mem_flatMap.mp ho
  obtain ⟨g, hg, hc⟩ := List.mem_flatMap.mp hc
  obtain ⟨i, hi⟩ := exists_passes_of_each h hg
  unfold validateConditionGroup at hi
  simp only [passes_all_cons, Bool.and_eq_true] at hi
  obtain ⟨_, _, _, hconditions, _⟩ := hi
  refine validated_of_validateConditions hconditions o ?_
  exact List.mem_flatMap.mpr ⟨c, hc, ho⟩

theorem validated_of_validateSequence {q : SequenceSpec F}
    (h : (validateSequence q where_).passes = true) :
    ∀ o ∈ operandsOf (groupConditions q.first ++ groupConditions q.andThen), Validated o := by
  unfold validateSequence at h
  simp only [passes_all_cons, Bool.and_eq_true] at h
  obtain ⟨_, _, _, _, _, hfirst, hthen, _⟩ := h
  intro o ho
  simp only [operandsOf, List.flatMap_append, List.mem_append] at ho
  rcases ho with ho | ho
  · exact validated_of_validateGroups hfirst o ho
  · exact validated_of_validateGroups hthen o ho

theorem validated_of_validateBreadth {b : BreadthSpec F}
    (h : (validateBreadth b where_).passes = true) :
    ∀ o ∈ operandsOf (groupConditions b.condition), Validated o := by
  unfold validateBreadth at h
  simp only [passes_all_cons, Bool.and_eq_true] at h
  obtain ⟨_, _, _, _, hgroups, _⟩ := h
  exact validated_of_validateGroups hgroups

variable {s : Stage F}

theorem validated_of_validateAdvancedStage (h : (validateAdvancedStage s where_).passes = true) :
    ∀ o ∈ operandsOf (s.sequenceConditions ++ s.breadthConditions), Validated o := by
  unfold validateAdvancedStage at h
  simp only [passes_all_cons, Bool.and_eq_true] at h
  obtain ⟨_, hsequence, hbreadth, _⟩ := h
  intro o ho
  simp only [operandsOf, List.flatMap_append, List.mem_append] at ho
  rcases ho with ho | ho
  · cases hq : s.sequence with
    | none => simp [Stage.sequenceConditions, hq] at ho
    | some q =>
      simp only [hq, passes_all_cons, Bool.and_eq_true] at hsequence
      obtain ⟨_, _, _, hsequence, _⟩ := hsequence
      refine validated_of_validateSequence hsequence o ?_
      simpa [Stage.sequenceConditions, hq, operandsOf] using ho
  · cases hb : s.breadth with
    | none => simp [Stage.breadthConditions, hb] at ho
    | some b =>
      simp only [hb, passes_all_cons, Bool.and_eq_true] at hbreadth
      obtain ⟨_, _, _, hbreadth, _⟩ := hbreadth
      refine validated_of_validateBreadth hbreadth o ?_
      simpa [Stage.breadthConditions, hb, operandsOf] using ho

theorem validated_of_validateStage {hasUniverse : Bool} {featureIds stageIds : List String}
    (hid : s.id ≠ "") (h : (validateStage hasUniverse featureIds stageIds s).passes = true) :
    ∀ o ∈ operandsOf s.allConditions, Validated o := by
  unfold validateStage at h
  rw [if_neg hid] at h
  simp only [passes_all_cons, Bool.and_eq_true] at h
  obtain ⟨_, _, hadvanced, _, _, _, hall, hany, hnot, _⟩ := h
  intro o ho
  simp only [operandsOf, Stage.allConditions, Stage.ownConditions, List.flatMap_append,
    List.mem_append] at ho
  have hadv := validated_of_validateAdvancedStage hadvanced o
  simp only [operandsOf, List.flatMap_append, List.mem_append] at hadv
  rcases ho with ((((ho | ho) | ho) | ho) | ho)
  · exact validated_of_validateConditions hall o ho
  · exact validated_of_validateConditions hany o ho
  · exact validated_of_validateConditions hnot o ho
  · exact hadv (.inl ho)
  · exact hadv (.inr ho)

theorem validated_of_validateRank {r : RankSpec F} (h : (validateRank r).passes = true) :
    Validated r.by_ := by
  unfold validateRank at h
  cases hk : r.by_.kind with
  | field =>
    simp only [hk] at h
    exact ⟨_, _, h⟩
  | indicator =>
    simp only [hk] at h
    refine ⟨none, "document.screener.rank.by", ?_⟩
    simpa only [validateOperand, hk] using h
  | value => simp [hk] at h
  | pair => simp [hk] at h

variable {fromIso : String → Option Int} {p : Parse.Parsed F}

theorem passes_of_accepts (h : accepts fromIso p = true) :
    ∃ hasUniverse featureIds stageIds,
      (∀ s ∈ p.document.stages, (validateStage hasUniverse featureIds stageIds s).passes = true) ∧
      (∀ a ∈ p.document.alerts, (validateAlert fromIso stageIds a).passes = true) ∧
      (validateScreener p.document).passes = true := by
  unfold accepts at h
  rw [Bool.and_eq_true] at h
  have hv := h.1
  unfold validate at hv
  simp only [passes_all_cons, Bool.and_eq_true] at hv
  obtain ⟨_, _, _, _, _, _, _, _, hstages, _, halerts, hscreener, _⟩ := hv
  unfold validateStages at hstages
  simp only [passes_all_cons, Bool.and_eq_true] at hstages
  have hs := fun s hs => (exists_passes_of_each hstages.1 (a := s) hs).elim fun _ hi => hi
  have ha := fun a ha => (exists_passes_of_each halerts (a := a) ha).elim fun _ hi => hi
  exact ⟨_, _, _, hs, ha, hscreener⟩

theorem validated_of_accepts (hwf : p.document.WF) (h : accepts fromIso p = true) :
    ∀ o ∈ p.document.operands, Validated o := by
  obtain ⟨_, _, _, hstages, _, hscreener⟩ := passes_of_accepts h
  intro o ho
  rcases List.mem_append.mp ho with ho | ho
  · obtain ⟨s, hs, ho⟩ := List.mem_flatMap.mp ho
    exact validated_of_validateStage (hwf.stages s hs).id (hstages s hs) o ho
  · unfold WorkflowDocument.rankOperands at ho
    split at ho
    · next r heq =>
        simp only [List.mem_cons, List.not_mem_nil, or_false] at ho
        subst ho
        unfold validateScreener at hscreener
        simp only [heq, passes_all_cons, Bool.and_eq_true] at hscreener
        obtain ⟨_, _, _, _, _, hrank, _⟩ := hscreener
        exact validated_of_validateRank hrank
    · simp at ho

theorem accepts_congr_of_no_expiry (h : ∀ a ∈ p.document.alerts, a.expiresAt = none)
    (fromIso fromIso' : String → Option Int) : accepts fromIso p = accepts fromIso' p := by
  have halerts : ∀ stageIds, each (fun _ a => validateAlert fromIso stageIds a) p.document.alerts =
      each (fun _ a => validateAlert fromIso' stageIds a) p.document.alerts := by
    intro stageIds
    unfold each
    congr 1
    refine List.mapIdx_eq_mapIdx_iff.mpr fun i hi => ?_
    have hnone := h _ (List.getElem_mem hi)
    simp [validateAlert, hnone]
  unfold accepts validate
  simp only [halerts]

/-- The mapping parses, and `check` holds of the result. -/
def parsesWith (x : PyVal F) (check : Parse.Parsed F → Bool) : Bool :=
  match Parse.parseWorkflowDict x with
  | .ok p => check p
  | .error _ => false

theorem exists_of_parsesWith (x : PyVal F) (check : Parse.Parsed F → Bool)
    (h : parsesWith x check = true) :
    ∃ p, Parse.parseWorkflowDict x = .ok p ∧ check p = true := by
  unfold parsesWith at h
  cases hp : Parse.parseWorkflowDict x with
  | error e => simp [hp] at h
  | ok p =>
    simp only [hp] at h
    exact ⟨p, rfl, h⟩

/-- The document compiles without reading a timestamp. -/
def compilesPlainly (p : Parse.Parsed F) : Bool :=
  p.document.alerts.all (fun a => a.expiresAt.isNone) && accepts (fun _ => none) p

theorem exists_compile_of_compilesPlainly (h : compilesPlainly p = true)
    (fromIso : String → Option Int) (sha256 : String → String) :
    ∃ c, compileDocument fromIso sha256 p = .ok c := by
  unfold compilesPlainly at h
  simp only [Bool.and_eq_true, List.all_eq_true, Option.isNone_iff_eq_none] at h
  have hok := compileDocument_isOk fromIso sha256 p
  rw [accepts_congr_of_no_expiry h.1 fromIso fun _ => none, h.2] at hok
  cases hc : compileDocument fromIso sha256 p with
  | error e => simp [hc, Except.isOk, Except.toBool] at hok
  | ok c => exact ⟨c, rfl⟩

theorem source_ne_empty_of_validated {o : Operand F} (hwf : o.WF) (h : Validated o) :
    o.source ≠ some "" := by
  intro hsource
  obtain ⟨hkind, hname⟩ := hwf.source hsource
  obtain ⟨name, hname⟩ := Option.ne_none_iff_exists'.mp hname
  obtain ⟨featureIds, where_, h⟩ := h
  have hempty : isKnownField "" = false := by decide +kernel
  simp only [validateOperand, hkind, validateIndicatorOperand, hname] at h
  split at h
  · simp [validateStageReference, hsource] at h
  · simp [validateNamedIndicator, validateIndicatorSource, hsource, hempty] at h

omit [PyFloat F] in
theorem reminder_pos_of_validateAlert {stageIds : List String} {a : AlertSpec F} (hid : a.id ≠ "")
    (h : (validateAlert fromIso stageIds a).passes = true) :
    ∀ n, a.reminderIntervalS = some n → 1 ≤ n := by
  intro n hn
  unfold validateAlert at h
  rw [if_neg hid] at h
  simp only [passes_all_cons, Bool.and_eq_true] at h
  obtain ⟨_, _, _, hrem, _⟩ := h
  simp only [hn, Option.any_some, passes_report, Bool.not_eq_true', decide_eq_false_iff_not] at hrem
  omega

end Compile

end KiteAlgo
