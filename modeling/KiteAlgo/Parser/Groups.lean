import KiteAlgo.Parser.WellFormed
import Mathlib.Data.List.Forall2

/-!
# KiteAlgo.Parser.Groups

Where the conditions of a stage are authored.  A group may be written under its own key,
under a long alias and inside `conditions`; of these spellings the parser reads one.  A
stage keeps every authored condition exactly when the spellings it does not read hold none.
-/

namespace KiteAlgo

open List Option
namespace Parse

variable {F : Type} [PyFloat F]

/-! ## the spellings of a group -/

def isMapping : PyVal F → Bool
  | .dict _ => true
  | _ => false

/-- The condition mappings under a spelling of a group. -/
def mappings (kind : GroupKind) (items : PyVal F) : List (PyVal F) :=
  match singleNot kind items with
  | .list xs => xs.filter isMapping
  | _ => []

/-- The keys of a stage that hold a group, the one that is read first. -/
def groupKeys : GroupKind → List String
  | .all => []
  | .any => ["any", "any_conditions"]
  | .not => ["not", "not_conditions"]

/-- The group inside `conditions`; a plain list there is the `all` group. -/
def insideConditions (raw : Dict Key (PyVal F)) (kind : GroupKind) : Option (PyVal F) :=
  match raw.get? "conditions" with
  | some (.dict block) => Dict.get? block (Key.str (Named.name kind))
  | some (.list xs) => if kind = .all then some (.list xs) else none
  | _ => none

/-- The spellings of a group in a stage mapping, the one that is read first. -/
def spellings (raw : Dict Key (PyVal F)) (kind : GroupKind) : List (PyVal F) :=
  (groupKeys kind).filterMap (fun key => Dict.get? raw (Key.str key)) ++ (insideConditions raw kind).toList

def ParsesTo (v : PyVal F) (c : Condition F) : Prop := ∃ path, condition v path = .ok c

/-- Every authored mapping appears, parsed, once in the group, and the mappings of each
spelling in their order. -/
def KeepsAll (authored : List (List (PyVal F))) (parsed : List (Condition F)) : Prop :=
  ∃ parts, List.Forall₂ (List.Forall₂ ParsesTo) authored parts ∧ parts.flatten.Perm parsed ∧
    ∀ part ∈ parts, part.Sublist parsed

/-- The conditions of a stage by their group. -/
def groupOf (s : Stage F) : GroupKind → List (Condition F)
  | .all => s.conditions
  | .any => s.anyConditions
  | .not => s.notConditions

/-- The stage keeps every authored condition in its group. -/
def KeepsConditions (raw : Dict Key (PyVal F)) (s : Stage F) : Prop :=
  ∀ kind, KeepsAll ((spellings raw kind).map (mappings kind)) (groupOf s kind)

/-- No condition is authored under a spelling behind the first. -/
def OneSpelling (raw : Dict Key (PyVal F)) : Prop :=
  ∀ kind, ∀ v ∈ (spellings raw kind).tail, mappings kind v = []

theorem forall₂_of_mapIdxM {α β : Type} {f : Nat → α → Except PyErr β} {R : α → β → Prop}
    (hf : ∀ i a b, f i a = .ok b → R a b) {i : Nat} {as : List α} {bs : List β}
    (h : mapIdxM f i as = .ok bs) : List.Forall₂ R as bs := by
  induction as generalizing i bs with
  | nil =>
    obtain rfl := Except.ok.inj h
    exact .nil
  | cons a as ih =>
    simp only [mapIdxM, bind_eq_ok, Except.ok.injEq] at h
    obtain ⟨b, hb, rest, hrest, rfl⟩ := h
    exact .cons (hf i a b hb) (ih hrest)

variable {path : String} {v : PyVal F}

theorem isMapping_of_condition {c : Condition F} (h : condition v path = .ok c) :
    isMapping v := by
  simp only [condition, bind_eq_ok] at h
  obtain ⟨d, hd, -⟩ := h
  cases v with
  | dict d' => rfl
  | _ => simp [asDict] at hd

variable {cs : List (Condition F)} {kind : GroupKind}

theorem forall₂_of_conditionList (h : conditionList (singleNot kind v) path = .ok cs) :
    List.Forall₂ ParsesTo (mappings kind v) cs := by
  simp only [conditionList, bind_eq_ok] at h
  obtain ⟨xs, hxs, -, -, h⟩ := h
  have hlist : singleNot kind v = .list xs := by
    cases hv : singleNot kind v with
    | list ys =>
      rw [hv] at hxs
      obtain rfl := Except.ok.inj hxs
      rfl
    | _ => simp [hv, asList] at hxs
  have hparsed : List.Forall₂ (fun x c => isMapping x = true ∧ ParsesTo x c) xs cs :=
    forall₂_of_mapIdxM (fun i a b hb => ⟨isMapping_of_condition hb, _, hb⟩) h
  have hall : xs.filter isMapping = xs := by
    rw [filter_eq_self]
    intro x hx
    obtain ⟨i, hi, rfl⟩ := getElem_of_mem hx
    exact (hparsed.get hi (hparsed.length_eq ▸ hi)).1
  rw [mappings, hlist]
  simp only [hall]
  exact hparsed.imp fun _ _ hc => hc.2

/-! ## the spelling that is read -/

/-- The group parses the first of its spellings; without one it is empty. -/
def ReadsHead (kind : GroupKind) (parsed : List (Condition F)) : List (PyVal F) → Prop
  | [] => parsed = []
  | v :: _ => List.Forall₂ ParsesTo (mappings kind v) parsed

variable {parsed : List (Condition F)}

@[simp] theorem readsHead_nil : ReadsHead kind parsed [] ↔ parsed = [] := Iff.rfl

@[simp] theorem readsHead_cons {others : List (PyVal F)} :
    ReadsHead kind parsed (v :: others) ↔ List.Forall₂ ParsesTo (mappings kind v) parsed := Iff.rfl

def ReadsFirst (raw : Dict Key (PyVal F)) (kind : GroupKind) (parsed : List (Condition F)) : Prop :=
  ReadsHead kind parsed (spellings raw kind)

omit [PyFloat F] in
theorem length_flatten_parts {authored : List (List (PyVal F))} {parts : List (List (Condition F))}
    {R : PyVal F → Condition F → Prop} (h : List.Forall₂ (List.Forall₂ R) authored parts) :
    parts.flatten.length = authored.flatten.length := by
  induction h with
  | nil => rfl
  | cons hab _ ih => simp [hab.length_eq, ih]

variable {raw : Dict Key (PyVal F)}

theorem keepsAll_iff (h : ReadsFirst raw kind parsed) :
    KeepsAll ((spellings raw kind).map (mappings kind)) parsed ↔
      ∀ v ∈ (spellings raw kind).tail, mappings kind v = [] := by
  unfold ReadsFirst at h
  cases hspell : spellings raw kind with
  | nil =>
    rw [hspell] at h
    subst h
    refine ⟨fun _ v hv => by simp at hv, fun _ => ⟨[], .nil, .refl _, by simp⟩⟩
  | cons v others =>
    rw [hspell] at h
    simp only [map_cons, tail_cons]
    constructor
    · rintro ⟨parts, hparts, hperm, -⟩ w hw
      have htotal := length_flatten_parts hparts
      rw [hperm.length_eq, flatten_cons, length_append, ← h.length_eq] at htotal
      have hzero : (others.map (mappings kind)).flatten = [] := by
        rw [← length_eq_zero_iff]
        omega
      exact flatten_eq_nil_iff.mp hzero _ (mem_map_of_mem hw)
    · intro hothers
      have hempty : ∀ xs ∈ others.map (mappings kind), xs = [] := by
        intro xs hxs
        obtain ⟨w, hw, rfl⟩ := mem_map.mp hxs
        exact hothers w hw
      have hrest : ∀ ls : List (List (PyVal F)), (∀ xs ∈ ls, xs = []) →
          List.Forall₂ (List.Forall₂ ParsesTo) ls (ls.map fun _ => ([] : List (Condition F))) := by
        intro ls hls
        rw [forall₂_map_right_iff, forall₂_same]
        intro xs hxs
        rw [hls xs hxs]
        exact .nil
      refine ⟨parsed :: (others.map (mappings kind)).map fun _ => [], .cons h (hrest _ hempty), ?_, ?_⟩
      · have hnil : ((others.map (mappings kind)).map
            fun _ => ([] : List (Condition F))).flatten = [] := by simp
        rw [flatten_cons, hnil, append_nil]
      · intro part hpart
        rcases mem_cons.mp hpart with rfl | hpart
        · exact List.Sublist.refl _
        · obtain ⟨-, -, rfl⟩ := mem_map.mp hpart
          exact nil_sublist parsed

/-! ## stages -/

theorem forall₂_of_inlineGroup (hkind : kind ≠ .all)
    (h : inlineGroup ((raw.get? "conditions").getD (.list [])) kind path = .ok cs) :
    ReadsHead kind cs (insideConditions raw kind).toList := by
  unfold insideConditions
  cases hblock : raw.get? "conditions" with
  | none =>
    rw [hblock] at h
    exact (Except.ok.inj h).symm
  | some block =>
    rw [hblock, getD_some] at h
    cases block with
    | dict d =>
      simp only [inlineGroup] at h
      cases hitems : Dict.get? d (Key.str (Named.name kind)) with
      | none =>
        rw [hitems] at h
        simpa [hitems] using (Except.ok.inj h).symm
      | some items =>
        rw [hitems] at h
        simpa [hitems] using forall₂_of_conditionList h
    | list xs =>
      simp only [if_neg hkind]
      exact (Except.ok.inj h).symm
    | _ => exact (Except.ok.inj h).symm

theorem readsFirst_of_stageGroup {alias_ path' : String} {inline : List (Condition F)}
    (hkind : kind ≠ .all) (hkeys : groupKeys kind = [Named.name kind, alias_])
    (hinline : inlineGroup ((raw.get? "conditions").getD (.list [])) kind path' = .ok inline)
    (h : stageGroup raw kind alias_ path inline = .ok cs) : ReadsFirst raw kind cs := by
  unfold stageGroup at h
  unfold ReadsFirst spellings
  rw [hkeys]
  cases hown : Dict.get? raw (Key.str (Named.name kind)) with
  | some items =>
    rw [hown, some_or] at h
    simpa [hown] using forall₂_of_conditionList h
  | none =>
    rw [hown, none_or] at h
    cases halias : Dict.get? raw (Key.str alias_) with
    | some items =>
      rw [halias] at h
      simpa [hown, halias] using forall₂_of_conditionList h
    | none =>
      rw [halias] at h
      obtain rfl := Except.ok.inj h
      simpa [hown, halias] using forall₂_of_inlineGroup hkind hinline

theorem readsFirst_of_conditions
    (h : conditions ((raw.get? "conditions").getD (.list [])) path = .ok cs) :
    ReadsFirst raw .all cs := by
  unfold ReadsFirst spellings insideConditions
  cases hblock : raw.get? "conditions" with
  | none =>
    rw [hblock] at h
    exact (Except.ok.inj h).symm
  | some block =>
    rw [hblock, getD_some] at h
    cases block with
    | dict d =>
      simp only [conditions, bind_eq_ok] at h
      obtain ⟨-, -, -, -, h⟩ := h
      cases hitems : Dict.get? d (Key.str "all") with
      | none =>
        rw [hitems] at h
        simpa [groupKeys, Named.name, hitems] using (Except.ok.inj h).symm
      | some items =>
        rw [hitems] at h
        have hparsed : List.Forall₂ ParsesTo (mappings .all items) cs :=
          forall₂_of_conditionList h
        simpa [groupKeys, Named.name, hitems] using hparsed
    | list xs =>
      have hparsed : List.Forall₂ ParsesTo (mappings .all (.list xs)) cs :=
        forall₂_of_conditionList h
      simpa [groupKeys] using hparsed
    | _ => simp [conditions] at h

theorem readsFirst_of_stage {raw : PyVal F} {index : Nat} {s : Stage F}
    (h : stage raw index = .ok s) (kind : GroupKind) :
    ReadsFirst raw.entries kind (groupOf s kind) := by
  simp only [stage, bind_eq_ok, ensure_eq_ok, exists_const, Except.ok.injEq] at h
  obtain ⟨d, hd, _, id, _, _, _, type, _, clock, _, tf, _, input, _, fn, _, params, _, src, _,
    bars, _, seq, _, br, _, _, cs, hcs, inAny, hinAny, inNot, hinNot, anyC, hany, notC, hnot, hs⟩ := h
  obtain rfl : raw.entries = d := by
    cases raw with
    | dict e => exact Except.ok.inj hd
    | _ => simp [asDict] at hd
  rw [← hs]
  cases kind with
  | all => exact readsFirst_of_conditions hcs
  | any => exact readsFirst_of_stageGroup (by decide) rfl hinAny hany
  | not => exact readsFirst_of_stageGroup (by decide) rfl hinNot hnot

/-- An accepted stage keeps every authored condition in its group, in its order, exactly
when none is authored under a spelling behind the first. -/
theorem keepsConditions_iff {raw : PyVal F} {index : Nat} {s : Stage F}
    (h : stage raw index = .ok s) :
    KeepsConditions raw.entries s ↔ OneSpelling raw.entries :=
  forall_congr' fun kind => keepsAll_iff (readsFirst_of_stage h kind)

/-- `{field: ltp, op: gt, value: level}`. -/
def above (level : Int) : PyVal ℚ :=
  .ofPairs [("field", .str "ltp"), ("op", .str "gt"), ("value", .int level)]

/-- A stage with an `all` and an `any` group inside `conditions`. -/
def layeredStage (more : List (String × PyVal ℚ)) : PyVal ℚ :=
  .ofPairs ([("id", .str "s"), ("clock", .str "ltp"),
    ("conditions", .ofPairs [("all", .list [above 1]), ("any", .list [above 2, above 3])])] ++ more)

/-- The layered form alone keeps its conditions. -/
theorem layeredStage_keeps :
    ∃ s, stage (layeredStage []) 0 = .ok s ∧ KeepsConditions (layeredStage []).entries s := by
  have haccepted : (stage (layeredStage []) 0).toOption.isSome = true := by decide +kernel
  cases hs : stage (layeredStage []) 0 with
  | error e => simp [hs, Except.toOption] at haccepted
  | ok s =>
    refine ⟨s, rfl, (keepsConditions_iff hs).mpr fun kind v hv => ?_⟩
    cases kind with
    | all => exact absurd hv List.not_mem_nil
    | any => exact absurd hv List.not_mem_nil
    | not => exact absurd hv List.not_mem_nil

/-- With `any_conditions` next to it the inline `any` group is dropped, and the stage is
accepted. -/
theorem inline_group_dropped :
    ¬ ∀ (raw : PyVal ℚ) (index : Nat) (s : Stage ℚ), stage raw index = .ok s →
      KeepsConditions raw.entries s := by
  intro h
  let raw := layeredStage [("any_conditions", .list [above 4])]
  have haccepted : (stage raw 0).toOption.isSome = true := by decide +kernel
  cases hs : stage raw 0 with
  | error e => simp [hs, Except.toOption] at haccepted
  | ok s =>
    have hunread := (keepsAll_iff (readsFirst_of_stage hs .any)).mp (h raw 0 s hs .any)
    have hinline := hunread (.list [above 2, above 3]) (List.mem_singleton_self _)
    simp [mappings, singleNot, isMapping, above, PyVal.ofPairs] at hinline

end Parse

end KiteAlgo
