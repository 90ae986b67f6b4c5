import KiteAlgo.Lib.Known
import KiteAlgo.Predicates.Isolation
import KiteAlgo.Predicates.Reach

/-!
# KiteAlgo.Predicates.Knowledge

Unknown is monotone.  A stage of plain level conditions gives a verdict that its operands
decide, and an operand is decided by its leaves; so an input that knows more than another
keeps every verdict of it.

* `resolveNested_total` — resolving an operand whose arguments convert never raises;
* `resolveOperand_informs` — more known leaves, the same known value;
* `evaluateStage_verdict` — the verdict of a stage as a function of its operands.
-/

namespace KiteAlgo

open Compile List

variable {F : Type} [PyFloat F]

/-! ## resolving an operand -/

/-- Every argument of an expression that resolving the operand reads converts. -/
def ArgsConvert (operand : Operand F) : Prop :=
  ∀ e, Reaches operand e → e.IsExpression → ∀ op a b, arithmeticArgs e.params = some (op, a, b) →
    ∀ v ∈ [a, b], ∃ child, coerceExpressionArg v = .ok child

/-- Every leaf that the first input knows, the second knows with the same value. -/
def LeavesInform (input input' : EvalInput F) (operand : Operand F) : Prop :=
  ∀ leaf, Reaches operand leaf → ¬ leaf.IsExpression → ∀ v,
    resolveOperand input leaf = .ok (some v) → resolveOperand input' leaf = .ok (some v)

theorem resolveNested_leaf {operand : Operand F} (hleaf : ¬ operand.IsExpression)
    (input : EvalInput F) (n m : Nat) :
    resolveNested input n operand = resolveNested input m operand := by
  unfold resolveNested
  cases hkind : operand.kind with
  | indicator =>
    cases hname : operand.namedAs with
    | none => exact absurd ⟨hkind, hname⟩ hleaf
    | some name => rfl
  | _ => rfl

theorem exists_resolveNested_leaf {operand : Operand F} (hleaf : ¬ operand.IsExpression)
    (input : EvalInput F) (n : Nat) : ∃ r, resolveNested input n operand = .ok r := by
  unfold resolveNested
  cases hkind : operand.kind with
  | indicator =>
    cases hname : operand.namedAs with
    | none => exact absurd ⟨hkind, hname⟩ hleaf
    | some name => exact ⟨_, rfl⟩
  | _ => exact ⟨_, rfl⟩

theorem resolveNested_expression {operand : Operand F} (hexpr : operand.IsExpression)
    (input : EvalInput F) (n : Nat) :
    resolveNested input (n + 1) operand = resolveArithmetic (resolveNested input n) operand := by
  rw [resolveNested]
  simp only [hexpr.kind, hexpr.unnamed]

/-! ### nesting -/

omit [PyFloat F] in
theorem depth_lt_of_get? {d : Dict Key (PyVal F)} {k : Key} {v : PyVal F}
    (h : Dict.get? d k = some v) : v.depth + 1 ≤ PyVal.depthDict d := by
  induction d with
  | nil => simp at h
  | cons e d ih =>
    obtain ⟨k', w⟩ := e
    rw [Dict.get?_cons] at h
    rw [PyVal.depthDict]
    by_cases hk : k' = k
    · rw [if_pos hk] at h
      obtain rfl := Option.some.inj h
      omega
    · rw [if_neg hk] at h
      have hrest := ih h
      omega

omit [PyFloat F] in
theorem depth_lt_of_mem {d : Dict Key (PyVal F)} {k : Key} {v : PyVal F} (h : (k, v) ∈ d) :
    v.depth + 1 ≤ PyVal.depthDict d := by
  induction d with
  | nil => simp at h
  | cons e d ih =>
    obtain ⟨k', w⟩ := e
    rw [PyVal.depthDict]
    rcases mem_cons.mp h with heq | hmem
    · obtain ⟨-, rfl⟩ := Prod.mk.inj heq
      omega
    · have hrest := ih hmem
      omega

omit [PyFloat F] in
theorem kind_of_pairOperand {raw : Dict Key (PyVal F)} {path : String} {operand : Operand F}
    (h : Parse.pairOperand raw path = .ok (some operand)) : operand.kind ≠ .indicator := by
  have hone : ∀ kind spec, Parse.pairOperand.one raw path kind spec = .ok (some operand) →
      operand.kind ≠ .indicator := by
    intro kind spec hk
    unfold Parse.pairOperand.one at hk
    split at hk
    · simp only [bind_eq_ok, reduceCtorEq, and_false, exists_false, false_and] at hk
    · simp only [bind_eq_ok, Except.ok.injEq, Option.some.injEq] at hk
      obtain ⟨_, _, _, _, _, _, rfl⟩ := hk
      simp
  unfold Parse.pairOperand at h
  split at h
  · simp at h
  · simp at h
  · exact hone _ _ h
  · exact hone _ _ h

theorem depth_of_operand {raw : PyVal F} {path : String} {operand : Operand F}
    (h : Parse.operand raw path = .ok operand) (hexpr : operand.IsExpression) :
    PyVal.depthDict operand.params ≤ raw.depth := by
  have hkind := hexpr.kind
  have hunnamed := hexpr.unnamed
  unfold Parse.operand at h
  split at h
  · obtain rfl := Except.ok.inj h
    simp at hkind
  · simp at h
  · simp only [bind_eq_ok, Except.ok.injEq] at h
    obtain ⟨value, -, rfl⟩ := h
    simp at hkind
  · simp only [bind_eq_ok, Except.ok.injEq] at h
    obtain ⟨value, -, rfl⟩ := h
    simp at hkind
  · next d =>
      split at h
      · -- the explicit form has its parameters under a key of their own
        simp only [Parse.explicitOperand, bind_eq_ok, Except.ok.injEq] at h
        obtain ⟨-, -, -, -, kind, -, name, -, value, -, params, hparams, source, -, rfl⟩ := h
        cases hget : Dict.get? d (Key.str "params") with
        | none =>
          rw [hget] at hparams
          obtain rfl := Except.ok.inj hparams
          exact Nat.zero_le _
        | some v =>
          rw [hget] at hparams
          have hdepth := depth_lt_of_get? hget
          cases v with
          | dict given =>
            obtain rfl := Except.ok.inj hparams
            simp only [PyVal.depth] at hdepth ⊢
            omega
          | _ => simp [Parse.asDict] at hparams
      · -- the shorthand of an expression is the mapping itself
        simp only [Parse.shorthandOperand, bind_eq_ok] at h
        obtain ⟨pair, hpair, h⟩ := h
        cases pair with
        | some o =>
          obtain rfl := Except.ok.inj h
          exact absurd hkind (kind_of_pairOperand hpair)
        | none =>
          simp only [bind_eq_ok] at h
          obtain ⟨params, -, h⟩ := h
          split at h
          · simp only [bind_eq_ok, Except.ok.injEq] at h
            obtain ⟨name, -, rfl⟩ := h
            simp at hkind
          · simp only [bind_eq_ok, Except.ok.injEq] at h
            obtain ⟨name, hname, rfl⟩ := h
            have hne := Parse.ne_empty_of_nonEmptyStr hname
            simp [Operand.namedAs, hne] at hunnamed
          · simp only [bind_eq_ok, Except.ok.injEq] at h
            obtain ⟨value, -, rfl⟩ := h
            simp at hkind
          · obtain rfl := Except.ok.inj h
            exact le_refl _
  · simp at h

theorem depth_of_coerce {v : PyVal F} {child : Operand F}
    (h : coerceExpressionArg v = .ok (some child)) (hexpr : child.IsExpression) :
    PyVal.depthDict child.params ≤ v.depth := by
  have hkind := hexpr.kind
  unfold coerceExpressionArg at h
  split at h
  · split at h
    · obtain rfl := Option.some.inj (Except.ok.inj h)
      simp at hkind
    · simp at h
  · obtain rfl := Option.some.inj (Except.ok.inj h)
    simp at hkind
  · next d =>
      split at h
      · cases hparse : Parse.operand (.dict d) "expr" with
        | error e => simp [hparse] at h
        | ok o =>
          rw [hparse] at h
          obtain rfl := Option.some.inj (Except.ok.inj h)
          exact depth_of_operand hparse hexpr
      · split at h
        · obtain rfl := Option.some.inj (Except.ok.inj h)
          exact le_refl _
        · simp at h
  · simp at h

omit [PyFloat F] in
theorem depth_of_arithmeticArgs {params : Dict Key (PyVal F)} {op : ArithmeticOp} {a b v : PyVal F}
    (h : arithmeticArgs params = some (op, a, b)) (hv : v ∈ [a, b]) :
    v.depth + 2 ≤ PyVal.depthDict params := by
  unfold arithmeticArgs at h
  split at h
  · next key x y hfind =>
      obtain ⟨op', -, hop⟩ := Option.map_eq_some_iff.mp h
      obtain ⟨-, rfl, rfl⟩ : op' = op ∧ x = a ∧ y = b := by simpa using hop
      have hmem := depth_lt_of_mem (mem_of_find?_eq_some hfind)
      simp only [PyVal.depth, PyVal.depthList] at hmem
      simp only [mem_cons, not_mem_nil, or_false] at hv
      rcases hv with rfl | rfl <;> omega
  · simp at h

/-! ### more known leaves -/

theorem ArgsConvert.child {operand child : Operand F} {op : ArithmeticOp} {a b v : PyVal F}
    (h : ArgsConvert operand) (hexpr : operand.IsExpression)
    (hargs : arithmeticArgs operand.params = some (op, a, b)) (hv : v ∈ [a, b])
    (hchild : coerceExpressionArg v = .ok (some child)) : ArgsConvert child :=
  fun e hreach => h e (.arg hexpr hargs hv hchild hreach)

theorem LeavesInform.child {input input' : EvalInput F} {operand child : Operand F}
    {op : ArithmeticOp} {a b v : PyVal F} (h : LeavesInform input input' operand)
    (hexpr : operand.IsExpression) (hargs : arithmeticArgs operand.params = some (op, a, b))
    (hv : v ∈ [a, b]) (hchild : coerceExpressionArg v = .ok (some child)) :
    LeavesInform input input' child :=
  fun leaf hreach => h leaf (.arg hexpr hargs hv hchild hreach)

theorem resolveNested_total {n : Nat} {operand : Operand F} (hconvert : ArgsConvert operand)
    (input : EvalInput F) (hdepth : operand.IsExpression → PyVal.depthDict operand.params < n) :
    ∃ r, resolveNested input n operand = .ok r := by
  induction n generalizing operand with
  | zero =>
    refine exists_resolveNested_leaf (fun hexpr => ?_) input 0
    have := hdepth hexpr
    omega
  | succ n ih =>
    by_cases hexpr : operand.IsExpression
    · rw [resolveNested_expression hexpr, resolveArithmetic]
      cases hargs : arithmeticArgs operand.params with
      | none => exact ⟨none, rfl⟩
      | some args =>
        obtain ⟨op, a, b⟩ := args
        have harg : ∀ v ∈ [a, b], ∃ r, resolveArithmetic.arg (resolveNested input n) v = .ok r := by
          intro v hv
          obtain ⟨child, hchild⟩ := hconvert operand (.self operand) hexpr op a b hargs v hv
          cases child with
          | none => exact ⟨none, by simp [resolveArithmetic.arg, hchild]⟩
          | some child =>
            have hbelow := depth_of_arithmeticArgs hargs hv
            have hparent := hdepth hexpr
            obtain ⟨r, hr⟩ := ih (hconvert.child hexpr hargs hv hchild) fun hexpr' => by
              have := depth_of_coerce hchild hexpr'
              omega
            exact ⟨r, by simp [resolveArithmetic.arg, hchild, hr]⟩
        obtain ⟨x, hx⟩ := harg a (by simp)
        obtain ⟨y, hy⟩ := harg b (by simp)
        cases x with
        | none => exact ⟨none, by simp [hx]⟩
        | some x => exact ⟨y.bind (op.apply x), by simp [hx, hy]⟩
    · exact exists_resolveNested_leaf hexpr input (n + 1)

theorem resolveOperand_total {operand : Operand F} (hconvert : ArgsConvert operand)
    (input : EvalInput F) : ∃ r, resolveOperand input operand = .ok r :=
  resolveNested_total hconvert input fun _ => Nat.lt_succ_self _

theorem resolveNested_informs {input input' : EvalInput F} {n : Nat} {operand : Operand F}
    (h : LeavesInform input input' operand) {v : F}
    (hv : resolveNested input n operand = .ok (some v)) :
    resolveNested input' n operand = .ok (some v) := by
  induction n generalizing operand v with
  | zero =>
    have hleaf : ¬ operand.IsExpression := by
      intro hexpr
      rw [resolveNested] at hv
      simp [hexpr.kind, hexpr.unnamed] at hv
    rw [resolveNested_leaf hleaf input' 0 (PyVal.depthDict operand.params + 1)]
    refine h operand (.self operand) hleaf v ?_
    rw [← hv]
    exact resolveNested_leaf hleaf input _ _
  | succ n ih =>
    by_cases hexpr : operand.IsExpression
    · rw [resolveNested_expression hexpr, resolveArithmetic] at hv ⊢
      cases hargs : arithmeticArgs operand.params with
      | none => simp [hargs] at hv
      | some args =>
        obtain ⟨op, a, b⟩ := args
        simp only [hargs, bind_eq_ok] at hv ⊢
        have harg : ∀ w ∈ [a, b], ∀ x,
            resolveArithmetic.arg (resolveNested input n) w = .ok (some x) →
              resolveArithmetic.arg (resolveNested input' n) w = .ok (some x) := by
          intro w hw x hx
          simp only [resolveArithmetic.arg, bind_eq_ok] at hx ⊢
          obtain ⟨child, hchild, hx⟩ := hx
          refine ⟨child, hchild, ?_⟩
          cases child with
          | none => simp at hx
          | some child => exact ih (h.child hexpr hargs hw hchild) hx
        obtain ⟨x, hx, hv⟩ := hv
        cases x with
        | none => simp at hv
        | some x =>
          simp only [bind_eq_ok] at hv
          obtain ⟨y, hy, hv⟩ := hv
          cases y with
          | none => simp at hv
          | some y =>
            refine ⟨some x, harg a (by simp) x hx, ?_⟩
            simp only [bind_eq_ok]
            exact ⟨some y, harg b (by simp) y hy, hv⟩
    · rw [resolveNested_leaf hexpr input' (n + 1) (PyVal.depthDict operand.params + 1)]
      refine h operand (.self operand) hexpr v ?_
      rw [← hv]
      exact resolveNested_leaf hexpr input _ _

/-! ## verdicts -/

def Condition.IsPlainLevel (cond : Condition F) : Prop :=
  cond.hysteresis = none ∧ ∃ op, op ∈ [Op.gt, .gte, .lt, .lte] ∧ cond.op = .known op

def resolvedValue (input : EvalInput F) (operand : Operand F) : Option F :=
  (resolveOperand input operand).toOption.join

theorem resolvedValue_eq {input : EvalInput F} {operand : Operand F} {r : Option F}
    (h : resolveOperand input operand = .ok r) : resolvedValue input operand = r := by
  rw [resolvedValue, h]
  cases r <;> rfl

/-- The verdict of a level condition: known when both operands are. -/
def levelVerdict (input : EvalInput F) (cond : Condition F) : Option Bool :=
  match cond.op with
  | .known op =>
    (resolvedValue input cond.left).bind fun cur =>
      (resolvedValue input cond.right).map (compareLevel op cur)
  | _ => none

theorem evaluateOp_level {op : Op} (hop : op ∈ [Op.gt, .gte, .lt, .lte]) (input : EvalInput F)
    (cond : Condition F) (cur : F) (sub : CondState F) :
    evaluateOp op input cond cur sub =
      withRight input cond fun level => .ok (some (evaluateLevelOp op cond cur level sub)) := by
  simp only [mem_cons, not_mem_nil, or_false] at hop
  rcases hop with rfl | rfl | rfl | rfl <;> rfl

theorem evaluateCondition_level {cond : Condition F} (hlevel : cond.IsPlainLevel)
    (hleft : ArgsConvert cond.left) (hright : ArgsConvert cond.right) (input : EvalInput F)
    (state : EvalState F) :
    ∃ r, evaluateCondition cond input state = .ok r ∧ r.matched = levelVerdict input cond := by
  obtain ⟨hplain, op, hop, hcond⟩ := hlevel
  obtain ⟨left, hl⟩ := resolveOperand_total hleft input
  obtain ⟨right, hr⟩ := resolveOperand_total hright input
  rw [levelVerdict, hcond]
  simp only [resolvedValue_eq hl, resolvedValue_eq hr]
  rw [evaluateCondition, conditionOutcome, hl, hcond]
  simp only [ok_bind]
  cases left with
  | none => exact ⟨_, rfl, rfl⟩
  | some cur =>
    simp only [evaluateOp_level hop, withRight, hr, ok_bind]
    cases right with
    | none => exact ⟨_, rfl, rfl⟩
    | some level =>
      refine ⟨_, rfl, ?_⟩
      simp [evaluateLevelOp, hplain]

/-! ### groups -/

theorem combineAll_informs {ms ns : List (Option Bool)} (h : List.Forall₂ Informs ms ns) :
    Informs (combineAll ms) (combineAll ns) := by
  intro b hb
  unfold combineAll at hb
  by_cases hfalse : some false ∈ ms
  · rw [if_pos hfalse] at hb
    rw [combineAll, if_pos (Informs.mem h hfalse)]
    exact hb
  · rw [if_neg hfalse] at hb
    by_cases hnone : none ∈ ms
    · simp [hnone] at hb
    · rw [Informs.eq_of_known h hnone, combineAll, if_neg hfalse]
      exact hb

theorem combineAny_informs {ms ns : List (Option Bool)} (h : List.Forall₂ Informs ms ns) :
    Informs (combineAny ms) (combineAny ns) := by
  intro b hb
  unfold combineAny at hb
  by_cases htrue : some true ∈ ms
  · rw [if_pos htrue] at hb
    rw [combineAny, if_pos (Informs.mem h htrue)]
    exact hb
  · rw [if_neg htrue] at hb
    by_cases hnone : none ∈ ms
    · simp [hnone] at hb
    · rw [Informs.eq_of_known h hnone, combineAny, if_neg htrue]
      exact hb

theorem combineNot_informs {ms ns : List (Option Bool)} (h : List.Forall₂ Informs ms ns) :
    Informs (combineNot ms) (combineNot ns) := by
  cases h with
  | nil => exact Informs.refl _
  | cons hab _ => exact hab.map _

theorem GroupKind.combine_informs (kind : GroupKind) {ms ns : List (Option Bool)}
    (h : List.Forall₂ Informs ms ns) : Informs (kind.combine ms) (kind.combine ns) := by
  cases kind with
  | all => exact combineAll_informs h
  | any => exact combineAny_informs h
  | not => exact combineNot_informs h

/-- The verdict of a group of level conditions. -/
def groupVerdict (input : EvalInput F) (group : ConditionGroup F) : Option Bool :=
  group.kind.combine (group.conditions.map (levelVerdict input))

/-- The verdict of a stage of level conditions. -/
def stageVerdict (input : EvalInput F) (stage : Stage F) : Option Bool :=
  combineAll (stage.groupPairs.map (groupVerdict input))

/-- Level conditions whose arguments convert. -/
def EvaluatesPlainly (conds : List (Condition F)) : Prop :=
  ∀ c ∈ conds, c.IsPlainLevel ∧ ArgsConvert c.left ∧ ArgsConvert c.right

theorem evaluateConditions_level {conds : List (Condition F)} (h : EvaluatesPlainly conds)
    (input : EvalInput F) (state : EvalState F) :
    ∃ run, evaluateConditions input conds state = .ok run ∧
      run.1.map PredicateResult.matched = conds.map (levelVerdict input) := by
  induction conds generalizing state with
  | nil => exact ⟨_, rfl, rfl⟩
  | cons cond conds ih =>
    obtain ⟨hlevel, hleft, hright⟩ := h cond mem_cons_self
    obtain ⟨r, hr, hmatched⟩ := evaluateCondition_level hlevel hleft hright input state
    obtain ⟨rest, hrest, hflags⟩ := ih (fun c hc => h c (mem_cons_of_mem cond hc)) r.state
    refine ⟨(r :: rest.1, rest.2), ?_, ?_⟩
    · simp only [evaluateConditions, hr, hrest, ok_bind]
    · rw [map_cons, map_cons, hmatched, hflags]

theorem runGroups_level {groups : List (ConditionGroup F)}
    (h : EvaluatesPlainly (groupConditions groups)) (input : EvalInput F) (state : EvalState F) :
    ∃ run, runGroups input groups state = .ok run ∧ run.flags = groups.map (groupVerdict input) := by
  induction groups generalizing state with
  | nil => exact ⟨_, rfl, rfl⟩
  | cons group groups ih =>
    have hown : EvaluatesPlainly group.conditions := fun c hc =>
      h c (mem_flatMap.mpr ⟨group, mem_cons_self, hc⟩)
    have hothers : EvaluatesPlainly (groupConditions groups) := by
      intro c hc
      obtain ⟨g, hg, hcg⟩ := mem_flatMap.mp hc
      exact h c (mem_flatMap.mpr ⟨g, mem_cons_of_mem group hg, hcg⟩)
    obtain ⟨run, hrun, hmatched⟩ := evaluateConditions_level hown input state
    obtain ⟨rest, hrest, hflags⟩ := ih hothers run.2
    refine ⟨⟨run.1 ++ rest.results, group.kind.combine (run.1.map PredicateResult.matched) ::
      rest.flags, rest.state⟩, ?_, ?_⟩
    · simp only [runGroups, hrun, hrest, ok_bind]
    · rw [map_cons, hmatched, hflags, groupVerdict]

theorem evaluateStage_verdict {stage : Stage F} (hbars : stage.consecutiveBars = none)
    (hsequence : stage.sequence = none) (h : EvaluatesPlainly stage.ownConditions)
    (input : EvalInput F) (state : EvalState F) :
    ∃ r, evaluateStage stage input state = .ok r ∧ r.matched = stageVerdict input stage := by
  rw [← groupConditions_groupPairs] at h
  obtain ⟨run, hrun, hflags⟩ := runGroups_level h input state
  refine ⟨⟨run.matched, run.matched == some true && run.anyFired, run.evidence, run.state⟩, ?_, ?_⟩
  · simp only [evaluateStage, hrun, hbars, hsequence, ok_bind]
  · rw [stageVerdict, ← hflags]
    rfl

theorem levelVerdict_informs {input input' : EvalInput F} {cond : Condition F}
    (hleft : LeavesInform input input' cond.left) (hright : LeavesInform input input' cond.right) :
    Informs (levelVerdict input cond) (levelVerdict input' cond) := by
  have hresolved : ∀ {operand}, LeavesInform input input' operand →
      Informs (resolvedValue input operand) (resolvedValue input' operand) := by
    intro operand h v hv
    have hfirst : resolveOperand input operand = .ok (some v) := by
      unfold resolvedValue at hv
      cases hr : resolveOperand input operand with
      | error e => simp [hr, Except.toOption] at hv
      | ok r =>
        rw [hr] at hv
        cases r with
        | none => simp [Except.toOption] at hv
        | some w => rw [← hv]; rfl
    exact resolvedValue_eq (resolveNested_informs h hfirst)
  unfold levelVerdict
  cases cond.op with
  | known op => exact (hresolved hleft).bind fun cur => (hresolved hright).map _
  | _ => exact Informs.refl none

theorem fired_of_unknown {stage : Stage F} {input : EvalInput F} {state : EvalState F}
    {r : PredicateResult F} (h : evaluateStage stage input state = .ok r)
    (hunknown : r.matched = none) : r.fired = false := by
  simp only [evaluateStage, bind_eq_ok] at h
  obtain ⟨own, -, h⟩ := h
  split at h
  · obtain rfl := Except.ok.inj h
    simp at hunknown
  · simp only [bind_eq_ok] at h
    obtain ⟨step, -, h⟩ := h
    obtain rfl := Except.ok.inj h
    simp at hunknown
  · obtain rfl := Except.ok.inj h
    simp only at hunknown ⊢
    rw [hunknown]
    rfl

/-- Unknown is monotone: a stage of level conditions keeps every verdict when more of its
leaves are known, and an unknown result never comes with a fire. -/
theorem unknown_is_monotone {stage : Stage F} (hbars : stage.consecutiveBars = none)
    (hsequence : stage.sequence = none) (hplain : EvaluatesPlainly stage.ownConditions)
    {input input' : EvalInput F} (hleaves : ∀ c ∈ stage.ownConditions,
      LeavesInform input input' c.left ∧ LeavesInform input input' c.right)
    (state state' : EvalState F) :
    (∀ r b, evaluateStage stage input state = .ok r → r.matched = some b →
      ∃ r', evaluateStage stage input' state' = .ok r' ∧ r'.matched = some b) ∧
      ∀ (s : Stage F) (i : EvalInput F) (st : EvalState F) (r : PredicateResult F),
        evaluateStage s i st = .ok r → r.matched = none → r.fired = false := by
  refine ⟨fun r b hr hmatched => ?_, fun s i st r => fired_of_unknown⟩
  obtain ⟨first, hfirst, hverdict⟩ := evaluateStage_verdict hbars hsequence hplain input state
  obtain ⟨r', hr', hverdict'⟩ := evaluateStage_verdict hbars hsequence hplain input' state'
  obtain rfl : r = first := Except.ok.inj (hr.symm.trans hfirst)
  refine ⟨r', hr', ?_⟩
  rw [hverdict']
  have hgroups : Informs (stageVerdict input stage) (stageVerdict input' stage) := by
    refine combineAll_informs (forall₂_informs_map fun group hgroup => ?_)
    refine group.kind.combine_informs (forall₂_informs_map fun cond hcond => ?_)
    have hmem : cond ∈ stage.ownConditions := by
      rw [← groupConditions_groupPairs]
      exact List.mem_flatMap.mpr ⟨group, hgroup, hcond⟩
    exact levelVerdict_informs (hleaves cond hmem).1 (hleaves cond hmem).2
  exact hgroups b (hverdict ▸ hmatched)

theorem argsConvert_of_validAt {levels : Nat} {operand : Operand F} (h : ValidAt levels operand) :
    ArgsConvert operand := by
  intro e hreach hexpr op a b hargs v hv
  obtain ⟨below, hbelow⟩ := hreach.validAt h
  obtain ⟨_, -, ⟨parts⟩⟩ := hbelow.parts hexpr
  rw [parts.arithmeticArgs] at hargs
  obtain ⟨-, rfl, rfl⟩ : parts.op = op ∧ parts.a = a ∧ parts.b = b := by simpa using hargs
  obtain ⟨child, hchild, -⟩ := parts.coerced v hv
  exact ⟨some child, hchild⟩

theorem evaluatesPlainly_of_accepted {conds : List (Condition F)}
    (hlevel : ∀ c ∈ conds, c.IsPlainLevel) (haccepted : ∀ o ∈ operandsOf conds, Validated o) :
    EvaluatesPlainly conds := by
  have hconvert : ∀ c ∈ conds, ∀ o ∈ c.operands, ArgsConvert o := by
    intro c hc o ho
    exact argsConvert_of_validAt
      (validAt_of_validated (haccepted o (mem_flatMap.mpr ⟨c, hc, ho⟩)))
  intro c hc
  exact ⟨hlevel c hc, hconvert c hc c.left (by simp [Condition.operands]),
    hconvert c hc c.right (by simp [Condition.operands])⟩

theorem leavesInform_of_fields {input input' : EvalInput F} (hcontext : input'.context = input.context)
    (hfeatures : input'.features = input.features)
    (hfields : ∀ name, Informs (resolveField input name) (resolveField input' name))
    (operand : Operand F) : LeavesInform input input' operand := by
  intro leaf _ hleaf v hv
  unfold resolveOperand resolveNested at hv ⊢
  cases hkind : leaf.kind with
  | field =>
    simp only [hkind, Except.ok.injEq] at hv ⊢
    exact hfields _ v hv
  | indicator =>
    cases hname : leaf.namedAs with
    | none => exact absurd ⟨hkind, hname⟩ hleaf
    | some name => simpa only [hkind, hname, hfeatures] using hv
  | value => simpa only [hkind] using hv
  | pair => simpa only [hkind, hcontext] using hv

/-! ## a stage of levels -/

/-- `close - 1 > 100`. -/
def closeLessOne : Condition ℚ where
  left :=
    { kind := .indicator, params := [("subtract", .list [.dict [("field", .str "close")], .int 1])] }
  op := .known .gt
  right := { kind := .value, value := some 100 }

/-- `field op level`. -/
def fieldLevel (field : String) (op : Op) (level : ℚ) : Condition ℚ where
  left := { kind := .field, name := some field }
  op := .known op
  right := { kind := .value, value := some level }

/-- All of the first, any of the next two and not the last. -/
def levelStage : Stage ℚ where
  id := "levels"
  type := .known .signal
  clock := .known .candleClose
  timeframe := some "5m"
  conditions := [closeLessOne]
  anyConditions := [fieldLevel "volume" .gt 5, fieldLevel "high" .gte 103]
  notConditions := [fieldLevel "low" .lt 90]

def partialBar (volume : Option ℚ) : EvalInput ℚ where
  obs := { ts := 0, epochId := "A", high := some 103, low := some 95, close := some 102, volume }

theorem partialBar_informs (volume : ℚ) (operand : Operand ℚ) :
    LeavesInform (partialBar none) (partialBar (some volume)) operand := by
  have hcontext : (partialBar (some volume)).context = (partialBar none).context := rfl
  have hfeatures : (partialBar (some volume)).features = (partialBar none).features := rfl
  refine leavesInform_of_fields hcontext hfeatures (fun name => ?_) operand
  unfold resolveField
  cases hname : (Named.ofName? name : Option BarField) with
  | none => exact Informs.refl _
  | some f =>
    cases f with
    | volume => exact Informs.none_left _
    | _ => exact Informs.refl _

theorem validated_of_passes {conds : List (Condition ℚ)}
    (h : ((operandsOf conds).all fun o => (validateOperand none o "").passes) = true) :
    ∀ o ∈ operandsOf conds, Validated o :=
  fun o ho => ⟨none, "", all_eq_true.mp h o ho⟩

/-- The stage holds without the volume, and goes on to hold with it. -/
theorem levelStage_is_monotone :
    ∃ r r', evaluateStage levelStage (partialBar none) {} = .ok r ∧ r.matched = some true ∧
      evaluateStage levelStage (partialBar (some 3)) {} = .ok r' ∧ r'.matched = some true := by
  have hlevel : ∀ c ∈ levelStage.ownConditions, c.IsPlainLevel := by
    intro c hc
    simp only [levelStage, Stage.ownConditions, List.cons_append, List.nil_append, List.mem_cons,
      List.not_mem_nil, or_false] at hc
    rcases hc with rfl | rfl | rfl | rfl
    · exact ⟨rfl, .gt, by simp, rfl⟩
    · exact ⟨rfl, .gt, by simp, rfl⟩
    · exact ⟨rfl, .gte, by simp, rfl⟩
    · exact ⟨rfl, .lt, by simp, rfl⟩
  have hplain : EvaluatesPlainly levelStage.ownConditions :=
    evaluatesPlainly_of_accepted hlevel (validated_of_passes (by decide +kernel))
  have hfirst : ((evaluateStage levelStage (partialBar none) {}).map (·.matched)).toOption =
      some (some true) := by decide +kernel
  cases hr : evaluateStage levelStage (partialBar none) {} with
  | error e => simp [hr, Except.map, Except.toOption] at hfirst
  | ok r =>
    simp only [hr, Except.map, Except.toOption, Option.some.injEq] at hfirst
    obtain ⟨r', hr', hmatched⟩ := (unknown_is_monotone rfl rfl hplain
      (fun c _ => ⟨partialBar_informs 3 c.left, partialBar_informs 3 c.right⟩) {} {}).1 r true hr
        hfirst
    exact ⟨r, r', rfl, hfirst, hr', hmatched⟩

def streakStage : Stage ℚ where
  id := "streak"
  type := .known .signal
  clock := .known .candleClose
  timeframe := some "5m"
  conditions := [fieldLevel "volume" .gt 5]
  consecutiveBars := some 1

/-- A bar whose volume is not known yet does not count towards a streak: the stage reports
that the streak is not reached, and the contrary once the volume is known. -/
theorem streak_is_not_monotone :
    ¬ ∀ stage : Stage ℚ, EvaluatesPlainly stage.ownConditions →
      ∀ input input' : EvalInput ℚ, (∀ c ∈ stage.ownConditions,
        LeavesInform input input' c.left ∧ LeavesInform input input' c.right) →
      ∀ (state : EvalState ℚ) r b, evaluateStage stage input state = .ok r → r.matched = some b →
        ∃ r', evaluateStage stage input' state = .ok r' ∧ r'.matched = some b := by
  intro h
  have hlevel : ∀ c ∈ streakStage.ownConditions, c.IsPlainLevel := by
    intro c hc
    obtain rfl := List.mem_singleton.mp hc
    exact ⟨rfl, .gt, by simp, rfl⟩
  have hplain : EvaluatesPlainly streakStage.ownConditions :=
    evaluatesPlainly_of_accepted hlevel (validated_of_passes (by decide +kernel))
  have hfirst : ((evaluateStage streakStage (partialBar none) {}).map (·.matched)).toOption =
      some (some false) := by decide +kernel
  have hsecond : ((evaluateStage streakStage (partialBar (some 6)) {}).map (·.matched)).toOption =
      some (some true) := by decide +kernel
  cases hr : evaluateStage streakStage (partialBar none) {} with
  | error e => simp [hr, Except.map, Except.toOption] at hfirst
  | ok r =>
    simp only [hr, Except.map, Except.toOption, Option.some.injEq] at hfirst
    obtain ⟨r', hr', hmatched⟩ := h streakStage hplain _ _
      (fun c _ => ⟨partialBar_informs 6 c.left, partialBar_informs 6 c.right⟩) {} r false hr hfirst
    simp only [hr', Except.map, Except.toOption, Option.some.injEq] at hsecond
    simp [hsecond] at hmatched

end KiteAlgo
