import KiteAlgo.Compiler.Accepted
import KiteAlgo.Predicates

/-!
# KiteAlgo.Predicates.Reach

The operands that resolving an operand reads: itself, and below an arithmetic
expression the operands of its two arguments.  In an accepted document every one of
them passed its validator, at most `maxArithmeticDepth` levels down, so an
expression there is a single operator with two arguments that coerce.
-/

namespace KiteAlgo

open Compile Check

variable {F : Type} [PyFloat F]

/-- The name of an inline indicator: a named indicator that is no reference to a
feature stage. -/
def Operand.inlineName (operand : Operand F) : Option String :=
  if operand.kind = .indicator then
    operand.namedAs.filter fun name => !Text.startsWith name stageRefPrefix
  else none

structure Operand.IsExpression (operand : Operand F) : Prop where
  kind : operand.kind = .indicator
  unnamed : operand.namedAs = none

/-- Resolving the first operand reads the second. -/
inductive Reaches : Operand F → Operand F → Prop
  | self (operand : Operand F) : Reaches operand operand
  | arg {operand child target : Operand F} {op : ArithmeticOp} {a b v : PyVal F}
      (expression : operand.IsExpression) (args : arithmeticArgs operand.params = some (op, a, b))
      (mem : v ∈ [a, b]) (coerced : coerceExpressionArg v = .ok (some child))
      (rest : Reaches child target) : Reaches operand target

variable {operand target : Operand F}

theorem Reaches.eq_of_not_isExpression (h : Reaches operand target)
    (hleaf : ¬ operand.IsExpression) : target = operand := by
  cases h with
  | self => rfl
  | arg expression => exact absurd expression hleaf

/-! ## accepted operands -/

/-- The operand passed its validator with this many arithmetic levels left. -/
def ValidAt (levels : Nat) (operand : Operand F) : Prop :=
  ∃ featureIds where_, (validateIndicatorOperand featureIds levels operand where_).passes = true

theorem validAt_of_validated (h : Validated operand) : ValidAt maxArithmeticDepth operand := by
  obtain ⟨featureIds, where_, h⟩ := h
  refine ⟨featureIds, where_, ?_⟩
  cases hkind : operand.kind with
  | indicator => simpa only [validateOperand, hkind] using h
  | _ =>
    rw [validateIndicatorOperand]
    simpa only [validateOperand, hkind] using h

variable {levels : Nat}

theorem ValidAt.function {name : String} (h : ValidAt levels operand)
    (hkind : operand.kind = .indicator) (hname : operand.name = some name)
    (hinline : Text.startsWith name stageRefPrefix = false) :
    ∃ f : FeatureFunction, Named.name f = name := by
  obtain ⟨featureIds, where_, h⟩ := h
  rw [stageRefPrefix] at hinline
  rw [validateIndicatorOperand] at h
  simp only [hkind, hname, hinline, Bool.false_eq_true, if_false, validateNamedIndicator,
    passes_all_cons, Bool.and_eq_true] at h
  cases hf : (Named.ofName? name : Option FeatureFunction) with
  | none => simp [hf] at h
  | some f => exact ⟨f, Named.name_of_ofName? hf⟩

theorem ValidAt.name_none (h : ValidAt levels operand) (hexpr : operand.IsExpression) :
    operand.name = none := by
  cases hname : operand.name with
  | none => rfl
  | some name =>
    have hempty : name = "" := by simpa [Operand.namedAs, hname] using hexpr.unnamed
    subst hempty
    obtain ⟨f, hf⟩ := h.function hexpr.kind hname (by decide)
    cases f <;> simp [Named.name] at hf

structure ExpressionParts (levels : Nat) (operand : Operand F) where
  op : ArithmeticOp
  key : Key
  a : PyVal F
  b : PyVal F
  params : operand.params = [(key, .list [a, b])]
  key_eq : arithmeticOp? key = some op
  coerced : ∀ v ∈ [a, b], ∃ child, coerceExpressionArg v = .ok (some child) ∧ ValidAt levels child

theorem ValidAt.parts (h : ValidAt levels operand) (hexpr : operand.IsExpression) :
    ∃ below, levels = below + 1 ∧ Nonempty (ExpressionParts below operand) := by
  have hname := h.name_none hexpr
  obtain ⟨featureIds, where_, h⟩ := h
  rw [validateIndicatorOperand] at h
  simp only [hexpr.kind, hname, passes_all_cons, Bool.and_eq_true] at h
  obtain ⟨hkeys, hargs, _⟩ := h
  have hfilter : operand.params.filter (fun e => isArithmeticKey e.1) = operand.params := by
    refine List.filter_eq_self.mpr fun e he => ?_
    obtain ⟨i, hi⟩ := exists_passes_of_each hkeys he
    simpa using hi
  split at hargs
  · next key args hsingle =>
      rw [hfilter] at hsingle
      have hmem : (key, args) ∈ operand.params.filter fun e => isArithmeticKey e.1 := by
        rw [hfilter, hsingle]
        exact List.mem_singleton_self _
      obtain ⟨op, hop⟩ := Option.isSome_iff_exists.mp (List.mem_filter.mp hmem).2
      cases levels with
      | zero => simp at hargs
      | succ below =>
        simp only at hargs
        split at hargs
        · next a b =>
            refine ⟨below, rfl, ⟨⟨op, key, a, b, hsingle, hop, fun v hv => ?_⟩⟩⟩
            obtain ⟨i, hi⟩ := exists_passes_of_each hargs hv
            cases hc : coerceExpressionArg v with
            | error e => simp [hc, passes, error_bind] at hi
            | ok child =>
              cases child with
              | none => simp [hc] at hi
              | some child => exact ⟨child, rfl, featureIds, _, by simpa [hc] using hi⟩
        · simp at hargs
  · simp at hargs

theorem ExpressionParts.arithmeticArgs (parts : ExpressionParts levels operand) :
    arithmeticArgs operand.params = some (parts.op, parts.a, parts.b) := by
  have hkey : isArithmeticKey parts.key := by simp [isArithmeticKey, parts.key_eq]
  simp [KiteAlgo.arithmeticArgs, parts.params, hkey, parts.key_eq]

theorem ExpressionParts.reaches_iff (parts : ExpressionParts levels operand)
    (hexpr : operand.IsExpression) :
    Reaches operand target ↔ target = operand ∨ ∃ v ∈ [parts.a, parts.b], ∃ child,
      coerceExpressionArg v = .ok (some child) ∧ ValidAt levels child ∧ Reaches child target := by
  constructor
  · intro h
    cases h with
    | self => exact .inl rfl
    | arg _ args mem coerced rest =>
      rw [parts.arithmeticArgs] at args
      obtain ⟨_, rfl, rfl⟩ : parts.op = _ ∧ parts.a = _ ∧ parts.b = _ := by simpa using args
      obtain ⟨child, hchild, hbelow⟩ := parts.coerced _ mem
      obtain rfl : child = _ := by simpa [hchild] using coerced
      exact .inr ⟨_, mem, child, hchild, hbelow, rest⟩
  · rintro (rfl | ⟨v, hv, child, hchild, _, hreach⟩)
    · exact .self target
    · exact .arg hexpr parts.arithmeticArgs hv hchild hreach

theorem Reaches.validAt (h : Reaches operand target) (hvalid : ValidAt levels operand) :
    ∃ below, ValidAt below target := by
  induction levels generalizing operand with
  | zero =>
    refine ⟨0, ?_⟩
    rw [h.eq_of_not_isExpression fun hexpr => ?_]
    · exact hvalid
    · obtain ⟨below, hbelow, _⟩ := hvalid.parts hexpr
      omega
  | succ levels ih =>
    by_cases hexpr : operand.IsExpression
    · obtain ⟨below, hlevels, ⟨parts⟩⟩ := hvalid.parts hexpr
      obtain rfl : levels = below := by omega
      rcases (parts.reaches_iff hexpr).mp h with rfl | ⟨v, _, child, _, hbelow, hreach⟩
      · exact ⟨_, hvalid⟩
      · exact ih hreach hbelow
    · rw [h.eq_of_not_isExpression hexpr]
      exact ⟨_, hvalid⟩

end KiteAlgo
