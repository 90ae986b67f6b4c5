import KiteAlgo.Compiler.Accepted

/-!
# KiteAlgo.Compiler.Raises

Which checks of the compiler raise: those that convert an integer that `float` refuses.
-/

namespace KiteAlgo

namespace Check

variable {α : Type}

/-! ## checks that raise -/

def raises : Check → Bool
  | .ok _ => false
  | .error _ => true

@[simp] theorem raises_ok (is : List ValidationIssue) : raises (.ok is) = false := rfl

@[simp] theorem raises_error (e : PyErr) : raises (.error e) = true := rfl

@[simp] theorem raises_clean : clean.raises = false := rfl

@[simp] theorem raises_report (c : Bool) (where_ : String) (code : IssueCode) (message : String) :
    (report c where_ code message).raises = false := by
  cases c <;> rfl

@[simp] theorem raises_issue (where_ : String) (code : IssueCode) (message : String) :
    (issue where_ code message).raises = false := rfl

@[simp] theorem raises_all_nil : (all []).raises = false := rfl

@[simp] theorem raises_all_cons (c : Check) (cs : List Check) :
    (all (c :: cs)).raises = (c.raises || (all cs).raises) := by
  cases c with
  | error e => rfl
  | ok is => cases hcs : all cs <;> simp [all, hcs]

theorem raises_all {cs : List Check} : (all cs).raises = true ↔ ∃ c ∈ cs, c.raises = true := by
  induction cs with
  | nil => simp
  | cons c cs ih => simp [ih]

theorem raises_each {f : Nat → α → Check} {as : List α} {P : α → Prop}
    (hf : ∀ i, ∀ a ∈ as, (f i a).raises = true ↔ P a) :
    (each f as).raises = true ↔ ∃ a ∈ as, P a := by
  unfold each
  rw [raises_all]
  constructor
  · rintro ⟨c, hc, hraises⟩
    obtain ⟨i, hi, rfl⟩ := List.mem_mapIdx.mp hc
    exact ⟨as[i], List.getElem_mem hi, (hf i _ (List.getElem_mem hi)).mp hraises⟩
  · rintro ⟨a, ha, hP⟩
    obtain ⟨i, hi, rfl⟩ := List.getElem_of_mem ha
    exact ⟨_, List.mem_mapIdx.mpr ⟨i, hi, rfl⟩, (hf i _ ha).mpr hP⟩

theorem raises_each_eq_false {f : Nat → α → Check} {as : List α}
    (hf : ∀ i a, (f i a).raises = false) : (each f as).raises = false := by
  rw [← Bool.not_eq_true, raises_each (P := fun _ => False) (by simp [hf])]
  simp

end Check

open Check Compile

variable {F : Type} [PyFloat F]

/-! ## checks that never raise -/

theorem raises_validateValueOperand (o : Operand F) (where_ : String) :
    (validateValueOperand o where_).raises = false := by
  unfold validateValueOperand
  split <;> simp

omit [PyFloat F] in
theorem raises_validateFieldOperand (o : Operand F) (where_ : String) :
    (validateFieldOperand o where_).raises = false := by
  unfold validateFieldOperand
  simp only
  repeat' split
  all_goals simp

theorem raises_validatePairOperand (o : Operand F) (where_ : String) :
    (validatePairOperand o where_).raises = false := by
  unfold validatePairOperand
  simp only
  split
  · simp
  · unfold validatePairParams
    simp only [raises_all_cons, raises_all_nil, Bool.or_false, Bool.or_eq_false_iff]
    refine ⟨raises_each_eq_false fun _ _ => ?_, raises_each_eq_false fun _ _ => ?_,
      raises_each_eq_false fun _ _ => ?_, ?_, ?_, ?_, ?_⟩
    · simp
    · simp
    · split <;> simp
    · split <;> simp
    · split <;> simp
    · split <;> simp
    · split <;> simp

theorem raises_validateFeatureParams (f : FeatureFunction) (given : Dict Key (PyVal F))
    (what where_ : String) : (validateFeatureParams f given what where_).raises = false := by
  unfold validateFeatureParams
  simp only [raises_all_cons, raises_all_nil, Bool.or_false, Bool.or_eq_false_iff]
  refine ⟨raises_each_eq_false fun _ _ => ?_, raises_each_eq_false fun _ _ => ?_⟩
  · simp
  · split <;> simp

theorem raises_validateNamedIndicator (o : Operand F) (name where_ : String) :
    (validateNamedIndicator o name where_).raises = false := by
  unfold validateNamedIndicator validateIndicatorSource
  simp only [raises_all_cons, raises_all_nil, Bool.or_false, Bool.or_eq_false_iff]
  refine ⟨?_, ?_, by simp, ?_⟩
  · split
    · simp
    · exact raises_validateFeatureParams _ _ _ _
  · split
    · simp
    · split <;> simp
  · split
    · simp
    · exact raises_each_eq_false fun _ _ => by simp

omit [PyFloat F] in
theorem raises_validateStageReference (o : Operand F) (name where_ : String)
    (ids : Option (List String)) : (validateStageReference o name where_ ids).raises = false := by
  unfold validateStageReference
  simp only [raises_all_cons, raises_all_nil, raises_report, Bool.or_false]
  split <;> simp

/-! ## integers that `float` refuses -/

def Oversized (v : PyVal F) : Prop := ∃ n, v = .int n ∧ (PyFloat.ofInt n : Option F) = none

/-- Validating an operand, with so many arithmetic levels left, coerces the argument. -/
inductive CoercesArg : Nat → Operand F → PyVal F → Prop
  | arg {levels : Nat} {operand : Operand F} {key : Key} {a b v : PyVal F}
      (kind : operand.kind = .indicator) (unnamed : operand.name = none)
      (single : (operand.params.filter fun e => isArithmeticKey e.1) = [(key, .list [a, b])])
      (mem : v ∈ [a, b]) : CoercesArg (levels + 1) operand v
  | nested {levels : Nat} {operand child : Operand F} {key : Key} {a b w v : PyVal F}
      (kind : operand.kind = .indicator) (unnamed : operand.name = none)
      (single : (operand.params.filter fun e => isArithmeticKey e.1) = [(key, .list [a, b])])
      (mem : w ∈ [a, b]) (coerced : coerceExpressionArg w = .ok (some child))
      (rest : CoercesArg levels child v) : CoercesArg (levels + 1) operand v

variable {v : PyVal F}

theorem coerceExpressionArg_raises : (∃ e, coerceExpressionArg v = .error e) ↔ Oversized v := by
  unfold coerceExpressionArg Oversized
  cases v with
  | int n =>
    simp only [PyVal.int.injEq, exists_eq_left']
    cases (PyFloat.ofInt n : Option F) <;> simp
  | dict d =>
    simp only [reduceCtorEq, false_and, exists_false, iff_false, not_exists]
    intro e
    split
    · cases Parse.operand (.dict d) "expr" <;> simp
    · split <;> simp
  | _ => simp

theorem raises_of_coerced {next : Option (Operand F) → Check} (hnone : (next none).raises = false) :
    Check.raises (coerceExpressionArg v >>= next) = true ↔ Oversized v ∨
      ∃ child, coerceExpressionArg v = .ok (some child) ∧ (next (some child)).raises = true := by
  rw [← coerceExpressionArg_raises]
  cases coerceExpressionArg v with
  | error e => simp
  | ok child => cases child <;> simp [hnone]

variable {levels : Nat} {operand : Operand F}

theorem coercesArg_iff {key : Key} {a b : PyVal F} (hkind : operand.kind = .indicator)
    (hname : operand.name = none)
    (hsingle : (operand.params.filter fun e => isArithmeticKey e.1) = [(key, .list [a, b])]) :
    CoercesArg (levels + 1) operand v ↔ ∃ w ∈ [a, b], v = w ∨
      ∃ child, coerceExpressionArg w = .ok (some child) ∧ CoercesArg levels child v := by
  constructor
  · intro h
    cases h with
    | arg _ _ single mem =>
      obtain ⟨rfl, rfl, rfl⟩ : key = _ ∧ a = _ ∧ b = _ := by simpa [hsingle] using single
      exact ⟨v, mem, .inl rfl⟩
    | nested _ _ single mem coerced rest =>
      obtain ⟨rfl, rfl, rfl⟩ : key = _ ∧ a = _ ∧ b = _ := by simpa [hsingle] using single
      exact ⟨_, mem, .inr ⟨_, coerced, rest⟩⟩
  · rintro ⟨w, hw, rfl | ⟨child, hcoerced, hrest⟩⟩
    · exact .arg hkind hname hsingle hw
    · exact .nested hkind hname hsingle hw hcoerced hrest

theorem CoercesArg.shape (h : CoercesArg levels operand v) :
    operand.kind = .indicator ∧ operand.name = none ∧ ∃ key a b,
      (operand.params.filter fun e => isArithmeticKey e.1) = [(key, .list [a, b])] := by
  cases h with
  | arg kind unnamed single => exact ⟨kind, unnamed, _, _, _, single⟩
  | nested kind unnamed single => exact ⟨kind, unnamed, _, _, _, single⟩

theorem raises_iff_of_quiet {c : Check} (hnone : ∀ v, ¬ CoercesArg levels operand v)
    (hc : c.raises = false) : c.raises = true ↔ ∃ v, CoercesArg levels operand v ∧ Oversized v := by
  rw [hc]
  exact ⟨fun h => by simp at h, fun ⟨v, hv, _⟩ => absurd hv (hnone v)⟩

variable {where_ : String}

theorem raises_validateIndicatorOperand (ids : Option (List String)) :
    (validateIndicatorOperand ids levels operand where_).raises = true ↔
      ∃ v, CoercesArg levels operand v ∧ Oversized v := by
  induction levels generalizing operand where_ with
  | zero =>
    refine raises_iff_of_quiet (fun v hv => by cases hv) ?_
    rw [validateIndicatorOperand]
    split
    · exact raises_validateValueOperand _ _
    · exact raises_validatePairOperand _ _
    · exact raises_validateFieldOperand _ _
    · split
      · split
        · exact raises_validateStageReference _ _ _ _
        · exact raises_validateNamedIndicator _ _ _
      · simp only [raises_all_cons, raises_all_nil, Bool.or_false, Bool.or_eq_false_iff]
        refine ⟨raises_each_eq_false fun _ _ => by simp, ?_⟩
        split <;> simp
  | succ levels ih =>
    rw [validateIndicatorOperand]
    split
    · next hkind =>
        exact raises_iff_of_quiet (fun v hv => by simp [hv.shape.1] at hkind)
          (raises_validateValueOperand _ _)
    · next hkind =>
        exact raises_iff_of_quiet (fun v hv => by simp [hv.shape.1] at hkind)
          (raises_validatePairOperand _ _)
    · next hkind =>
        exact raises_iff_of_quiet (fun v hv => by simp [hv.shape.1] at hkind)
          (raises_validateFieldOperand _ _)
    · next hkind =>
        split
        · next name hname =>
            refine raises_iff_of_quiet (fun v hv => by simp [hv.shape.2.1] at hname) ?_
            split
            · exact raises_validateStageReference _ _ _ _
            · exact raises_validateNamedIndicator _ _ _
        · next hname =>
            have hkeys : (validateExpressionKeys operand.params where_).raises = false :=
              raises_each_eq_false fun _ _ => by simp
            simp only [raises_all_cons, raises_all_nil, Bool.or_false, hkeys, Bool.false_or]
            split
            · next key args hsingle =>
                split
                · next a b =>
                    refine (raises_each (P := fun w => Oversized w ∨
                      ∃ child, coerceExpressionArg w = .ok (some child) ∧
                        ∃ v, CoercesArg levels child v ∧ Oversized v) fun i w _ => ?_).trans ?_
                    · refine (raises_of_coerced (raises_issue _ _ _)).trans ?_
                      simp only [ih]
                    · simp only [coercesArg_iff hkind hname hsingle]
                      constructor
                      · rintro ⟨w, hw, hover | ⟨child, hcoerced, v, hv, hover⟩⟩
                        · exact ⟨w, ⟨w, hw, .inl rfl⟩, hover⟩
                        · exact ⟨v, ⟨w, hw, .inr ⟨child, hcoerced, hv⟩⟩, hover⟩
                      · rintro ⟨v, ⟨w, hw, rfl | ⟨child, hcoerced, hv⟩⟩, hover⟩
                        · exact ⟨v, hw, .inl hover⟩
                        · exact ⟨w, hw, .inr ⟨child, hcoerced, v, hv, hover⟩⟩
                · next hshape =>
                    refine raises_iff_of_quiet (fun v hv => ?_) (raises_issue _ _ _)
                    obtain ⟨-, -, key', a, b, hargs⟩ := hv.shape
                    rw [hsingle] at hargs
                    exact hshape a b (Prod.mk.inj (List.cons.inj hargs).1).2
            · next hshape =>
                refine raises_iff_of_quiet (fun v hv => ?_) (raises_issue _ _ _)
                obtain ⟨-, -, key', a, b, hargs⟩ := hv.shape
                exact hshape key' _ hargs

theorem raises_validateOperand (ids : Option (List String)) {o : Operand F} :
    (validateOperand ids o where_).raises = true ↔
      ∃ v, CoercesArg maxArithmeticDepth o v ∧ Oversized v := by
  unfold validateOperand
  split
  · next hkind =>
      exact raises_iff_of_quiet (fun v hv => by simp [hv.shape.1] at hkind)
        (raises_validateFieldOperand _ _)
  · next hkind =>
      exact raises_iff_of_quiet (fun v hv => by simp [hv.shape.1] at hkind)
        (raises_validateValueOperand _ _)
  · next hkind =>
      exact raises_iff_of_quiet (fun v hv => by simp [hv.shape.1] at hkind)
        (raises_validatePairOperand _ _)
  · exact raises_validateIndicatorOperand ids

/-! ### conditions -/

/-- The bounds of a `within` condition that are converted. -/
def Condition.bounds (c : Condition F) : List (PyVal F) :=
  if c.op = .known .within then
    [(c.right.params.get? "hi").getD .none, match c.right.value with
      | some v => .float v
      | none => (c.right.params.get? "lo").getD .none]
  else []

/-- Validating the condition converts the number. -/
def Condition.Converts (c : Condition F) (v : PyVal F) : Prop :=
  v ∈ c.bounds ∨ CoercesArg maxArithmeticDepth c.left v ∨ CoercesArg maxArithmeticDepth c.right v

theorem raises_validateBound {text : String} :
    (validateBound v where_ text).raises = true ↔ Oversized v := by
  unfold validateBound isUnboundedNumber Oversized
  cases v with
  | int n =>
    simp only [PyVal.int.injEq, exists_eq_left']
    cases (PyFloat.ofInt n : Option F) <;> simp
  | _ => simp

theorem raises_validateBounds {hi lo : PyVal F} {path text path' text' : String} :
    Check.raises (all [validateBound hi path text, validateBound lo path' text']) = true ↔
      ∃ v ∈ [hi, lo], Oversized v := by
  simp only [raises_all_cons, raises_all_nil, Bool.or_false, Bool.or_eq_true, raises_validateBound,
    List.mem_cons, List.not_mem_nil, or_false, exists_eq_or_imp, exists_eq_left]

omit [PyFloat F] in
theorem raises_validateContextField (o : Operand F) (where_ : String) :
    (validateContextField o where_).raises = false :=
  raises_report _ _ _ _

theorem raises_validateHysteresis (c : Condition F) (h : HysteresisSpec F) (where_ : String) :
    (validateHysteresis c h where_).raises = false := by
  unfold validateHysteresis
  simp only
  repeat' split
  all_goals simp

theorem raises_validateCondition (ids : Option (List String)) {c : Condition F} :
    (validateCondition ids c where_).raises = true ↔ ∃ v, c.Converts v ∧ Oversized v := by
  have hcontext : ∀ o : Operand F, ∀ w, (validateContextField o w).raises = false :=
    raises_validateContextField
  have hfields : Check.raises (if isBreakOp c.op then clean
      else all [validateContextField c.left (where_ ++ ".left"),
        validateContextField c.right (where_ ++ ".right")]) = false := by
    split <;> simp [hcontext]
  have hbounds : Check.raises (if c.op = .known .within then validateWithinBounds c where_ else clean)
      = true ↔ ∃ v ∈ c.bounds, Oversized v := by
    unfold Condition.bounds
    split
    · exact raises_validateBounds
    · simp
  unfold validateCondition
  cases c.hysteresis with
  | none =>
    simp only [raises_all_cons, raises_all_nil, raises_report, raises_clean, Bool.or_false,
      Bool.false_or, hfields, Bool.or_eq_true, hbounds, raises_validateOperand,
      Condition.Converts, or_and_right, exists_or]
  | some h =>
    simp only [raises_all_cons, raises_all_nil, raises_report, raises_validateHysteresis,
      Bool.or_false, Bool.false_or, hfields, Bool.or_eq_true, hbounds, raises_validateOperand,
      Condition.Converts, or_and_right, exists_or]

/-- Validating the conditions converts the number. -/
def ConvertsIn (cs : List (Condition F)) (v : PyVal F) : Prop := ∃ c ∈ cs, c.Converts v

variable {cs : List (Condition F)}

theorem raises_validateConditions (ids : Option (List String)) :
    (validateConditions ids cs where_).raises = true ↔ ∃ v, ConvertsIn cs v ∧ Oversized v := by
  unfold validateConditions
  refine (raises_each (P := fun c => ∃ v, c.Converts v ∧ Oversized v)
    fun i c _ => raises_validateCondition ids).trans ?_
  unfold ConvertsIn
  constructor
  · rintro ⟨c, hc, v, hv, hover⟩
    exact ⟨v, ⟨c, hc, hv⟩, hover⟩
  · rintro ⟨v, ⟨c, hc, hv⟩, hover⟩
    exact ⟨c, hc, v, hv, hover⟩

variable {ds : List (Condition F)}

theorem convertsIn_append : ConvertsIn (cs ++ ds) v ↔ ConvertsIn cs v ∨ ConvertsIn ds v := by
  simp only [ConvertsIn, List.mem_append, or_and_right, exists_or]

theorem exists_converts_append :
    (∃ v, ConvertsIn (cs ++ ds) v ∧ Oversized v) ↔
      (∃ v, ConvertsIn cs v ∧ Oversized v) ∨ ∃ v, ConvertsIn ds v ∧ Oversized v := by
  simp only [convertsIn_append, or_and_right, exists_or]

theorem raises_validateGroups {gs : List (ConditionGroup F)} {path : String} :
    (validateGroups gs path).raises = true ↔ ∃ v, ConvertsIn (groupConditions gs) v ∧ Oversized v := by
  have hgroup : ∀ (g : ConditionGroup F) (w : String), (validateConditionGroup g w).raises = true ↔
      ∃ v, ConvertsIn g.conditions v ∧ Oversized v := by
    intro g w
    simp only [validateConditionGroup, raises_all_cons, raises_all_nil, raises_report,
      Bool.or_false, Bool.false_or, raises_validateConditions]
  unfold validateGroups
  refine (raises_each (P := fun g : ConditionGroup F => ∃ v, ConvertsIn g.conditions v ∧ Oversized v)
    fun i g _ => hgroup g _).trans ?_
  unfold ConvertsIn
  constructor
  · rintro ⟨g, hg, v, ⟨c, hc, hv⟩, hover⟩
    exact ⟨v, ⟨c, List.mem_flatMap.mpr ⟨g, hg, hc⟩, hv⟩, hover⟩
  · rintro ⟨v, ⟨c, hc, hv⟩, hover⟩
    obtain ⟨g, hg, hcg⟩ := List.mem_flatMap.mp hc
    exact ⟨g, hg, v, ⟨c, hcg, hv⟩, hover⟩

/-! ### stages -/

omit [PyFloat F] in
theorem raises_validateConsecutiveBars (s : Stage F) (n : Int) (where_ : String) :
    (validateConsecutiveBars s n where_).raises = false := by
  simp [validateConsecutiveBars]

theorem raises_validateSequence {q : SequenceSpec F} :
    (validateSequence q where_).raises = true ↔
      ∃ v, ConvertsIn (groupConditions q.first ++ groupConditions q.andThen) v ∧ Oversized v := by
  unfold validateSequence
  cases q.withinBars <;> cases q.withinS <;>
    simp only [raises_all_cons, raises_all_nil, raises_report, raises_clean, Bool.or_false,
      Bool.false_or, Bool.or_eq_true, raises_validateGroups, exists_converts_append]

theorem raises_validateBreadth {b : BreadthSpec F} :
    (validateBreadth b where_).raises = true ↔
      ∃ v, ConvertsIn (groupConditions b.condition) v ∧ Oversized v := by
  unfold validateBreadth
  cases b.mode <;>
    simp only [raises_all_cons, raises_all_nil, raises_report, raises_issue, Bool.or_false,
      Bool.false_or, raises_validateGroups]

variable {s : Stage F}

theorem raises_validateAdvancedStage :
    (validateAdvancedStage s where_).raises = true ↔
      ∃ v, ConvertsIn (s.sequenceConditions ++ s.breadthConditions) v ∧ Oversized v := by
  have hnone : ¬ ∃ v, ConvertsIn ([] : List (Condition F)) v ∧ Oversized v := by
    simp [ConvertsIn]
  unfold validateAdvancedStage Stage.sequenceConditions Stage.breadthConditions
  cases s.consecutiveBars <;> cases s.sequence <;> cases s.breadth <;>
    simp only [raises_all_cons, raises_all_nil, raises_report, raises_clean, Bool.or_false,
      Bool.false_or, Bool.or_eq_true, raises_validateConsecutiveBars, raises_validateSequence,
      raises_validateBreadth, List.nil_append, List.append_nil, exists_converts_append, hnone,
      Bool.false_eq_true]

theorem raises_validateFeatureStage (s : Stage F) (where_ : String) :
    (validateFeatureStage s where_).raises = false := by
  unfold validateFeatureStage
  split
  · simp
  · simp only [raises_all_cons, raises_all_nil, raises_validateFeatureParams, Bool.or_false, Bool.false_or]
    split
    · simp
    · split <;> simp

omit [PyFloat F] in
theorem raises_validateClock (s : Stage F) (where_ : String) :
    (validateClock s where_).raises = false := by
  unfold validateClock
  repeat' split
  all_goals simp

omit [PyFloat F] in
theorem raises_validateInput (hasUniverse : Bool) (stageIds : List String) (s : Stage F)
    (where_ : String) : (validateInput hasUniverse stageIds s where_).raises = false := by
  unfold validateInput
  simp only
  repeat' split
  all_goals simp

omit [PyFloat F] in
theorem raises_validateGroupSizes (s : Stage F) (where_ : String) :
    (validateGroupSizes s where_).raises = false := by
  simp [validateGroupSizes]

theorem raises_validateStage {hasUniverse : Bool} {featureIds stageIds : List String} :
    (validateStage hasUniverse featureIds stageIds s).raises = true ↔
      s.id ≠ "" ∧ ∃ v, ConvertsIn s.allConditions v ∧ Oversized v := by
  unfold validateStage
  by_cases hid : s.id = ""
  · simp [hid]
  · have htype : Check.raises (if s.type = .known .feature then validateFeatureStage s ("stages." ++ s.id)
        else report s.function.isSome ("stages." ++ s.id ++ ".function") .badValue
          "'function' is only valid on feature stages") = false := by
      split
      · exact raises_validateFeatureStage s _
      · simp
    have hown : (∃ v, ConvertsIn s.allConditions v ∧ Oversized v) ↔
        (∃ v, ConvertsIn (s.sequenceConditions ++ s.breadthConditions) v ∧ Oversized v) ∨
          (∃ v, ConvertsIn s.conditions v ∧ Oversized v) ∨
            (∃ v, ConvertsIn s.anyConditions v ∧ Oversized v) ∨
              ∃ v, ConvertsIn s.notConditions v ∧ Oversized v := by
      rw [Stage.allConditions, List.append_assoc, exists_converts_append, Stage.ownConditions,
        exists_converts_append, exists_converts_append, or_comm, or_assoc]
    rw [if_neg hid, hown]
    simp only [ne_eq, hid, not_false_eq_true, true_and, raises_all_cons, raises_all_nil,
      raises_report, htype, raises_validateClock, raises_validateInput, raises_validateGroupSizes,
      Bool.or_false, Bool.false_or, Bool.or_eq_true, raises_validateAdvancedStage,
      raises_validateConditions]

end KiteAlgo
