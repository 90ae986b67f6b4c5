import Mathlib.Data.List.Chain
import Mathlib.Data.List.Nodup
import Mathlib.Data.List.Perm.Subperm
import Mathlib.Logic.Relation
import KiteAlgo.Compiler.Accepted
import KiteAlgo.Planner

/-!
# KiteAlgo.Planner.Chains

The chains of inputs of an accepted document: how many edges they have, and that `stage_chain`
lists the ancestors of a stage.
-/

namespace KiteAlgo

open Check Compile Relation List Option Bool Dict

variable {F : Type}

/-! ## chains of inputs -/

/-- The stage `b` is the input of the stage `a`. -/
def FedBy (stages : List (Stage F)) (a b : Stage F) : Prop := b ∈ stages ∧ a.input = some b.id

/-- The inputs lead from the stage, along so many edges, to a stage without input or to the universe. -/
inductive EndsAfter (document : WorkflowDocument F) : Stage F → Nat → Prop
  | root {s : Stage F} : s.input = none → EndsAfter document s 0
  | source {s : Stage F} : s.input = some "universe" → document.universe_.isSome = true →
      (∀ t ∈ document.stages, t.id ≠ "universe") → EndsAfter document s 1
  | edge {s t : Stage F} {n : Nat} : FedBy document.stages s t → EndsAfter document t n →
      EndsAfter document s (n + 1)

/-- The list holds the proper ancestors of the stage, root first, without repetition. -/
structure IsAncestors (stages : List (Stage F)) (s : Stage F) (chain : List (Stage F)) : Prop where
  mem_iff : ∀ t, t ∈ chain ↔ TransGen (FedBy stages) s t
  rootFirst : (chain ++ [s]).IsChain fun a b => FedBy stages b a
  nodup : chain.Nodup

def UniqueIds (document : WorkflowDocument F) : Prop := (document.stages.map Stage.id).Nodup

variable {document : WorkflowDocument F} {s t : Stage F} {m n : Nat}

theorem UniqueIds.eq (h : UniqueIds document) (hs : s ∈ document.stages) (ht : t ∈ document.stages)
    (hid : s.id = t.id) : s = t :=
  inj_on_of_nodup_map h hs ht hid

theorem UniqueIds.lastStage?_eq_some_iff (h : UniqueIds document) {id : String} :
    document.lastStage? id = some t ↔ t ∈ document.stages ∧ t.id = id := by
  unfold WorkflowDocument.lastStage?
  constructor
  · intro hfind
    exact ⟨mem_reverse.mp (mem_of_find?_eq_some hfind), by simpa using find?_some hfind⟩
  · rintro ⟨ht, rfl⟩
    cases hfind : document.stages.reverse.find? fun s => s.id = t.id with
    | none =>
      have := find?_eq_none.mp hfind t (mem_reverse.mpr ht)
      simp at this
    | some u =>
      have hu : u ∈ document.stages := mem_reverse.mp (mem_of_find?_eq_some hfind)
      rw [h.eq hu ht (by simpa using find?_some hfind)]

theorem EndsAfter.unique (hids : UniqueIds document) (hm : EndsAfter document s m)
    (hn : EndsAfter document s n) : m = n := by
  induction hm generalizing n with
  | root hnone =>
    cases hn with
    | root => rfl
    | source huniverse => rw [hnone] at huniverse; cases huniverse
    | edge hreads => rw [hreads.2] at hnone; cases hnone
  | source huniverse _ hfree =>
    cases hn with
    | root hnone => rw [hnone] at huniverse; cases huniverse
    | source => rfl
    | edge hreads =>
      rw [hreads.2] at huniverse
      exact absurd (some.inj huniverse) (hfree _ hreads.1)
  | edge hreads _ ih =>
    cases hn with
    | root hnone => rw [hreads.2] at hnone; cases hnone
    | source huniverse _ hfree =>
      rw [hreads.2] at huniverse
      exact absurd (some.inj huniverse) (hfree _ hreads.1)
    | edge hreads' hends =>
      have hid := some.inj (hreads.2.symm.trans hreads'.2)
      rw [hids.eq hreads.1 hreads'.1 hid] at ih
      rw [ih hends]

theorem EndsAfter.of_fedBy (hids : UniqueIds document) (h : EndsAfter document s m)
    (hreads : FedBy document.stages s t) : ∃ n < m, EndsAfter document t n := by
  cases h with
  | root hnone => rw [hreads.2] at hnone; cases hnone
  | source huniverse _ hfree =>
    rw [hreads.2] at huniverse
    exact absurd (some.inj huniverse) (hfree _ hreads.1)
  | @edge _ u n hreads' hends =>
    have hid := some.inj (hreads.2.symm.trans hreads'.2)
    rw [hids.eq hreads.1 hreads'.1 hid]
    exact ⟨n, by omega, hends⟩

theorem EndsAfter.not_self (hids : UniqueIds document) (h : EndsAfter document s m) :
    ¬ TransGen (FedBy document.stages) s s := by
  have hnear : ∀ t, TransGen (FedBy document.stages) s t → ∃ n < m, EndsAfter document t n := by
    intro t hreach
    induction hreach with
    | single hreads => exact h.of_fedBy hids hreads
    | tail _ hreads ih =>
      obtain ⟨n, hn, hends⟩ := ih
      obtain ⟨k, hk, hends'⟩ := hends.of_fedBy hids hreads
      exact ⟨k, by omega, hends'⟩
  intro hself
  obtain ⟨n, hn, hends⟩ := hnear s hself
  have := h.unique hids hends
  omega

theorem EndsAfter.exists_stages (hids : UniqueIds document) (hs : s ∈ document.stages)
    (h : EndsAfter document s n) :
    ∃ chain : List (Stage F), chain.length = n ∧ chain.Nodup ∧
      ∀ t ∈ chain, t ∈ document.stages ∧ ∃ m ≤ n, EndsAfter document t m := by
  induction h with
  | root => exact ⟨[], rfl, nodup_nil, by simp⟩
  | @source s huniverse hdeclared hfree =>
    refine ⟨[s], rfl, nodup_singleton _, fun t ht => ?_⟩
    rw [mem_singleton.mp ht]
    exact ⟨hs, 1, le_rfl, .source huniverse hdeclared hfree⟩
  | @edge s t n hreads hends ih =>
    obtain ⟨chain, hlen, hnodup, hchain⟩ := ih hreads.1
    refine ⟨s :: chain, by simp [hlen], nodup_cons.mpr ⟨fun hmem => ?_, hnodup⟩, ?_⟩
    · obtain ⟨-, m, hm, hends'⟩ := hchain s hmem
      have := hends'.unique hids (.edge hreads hends)
      omega
    · intro u hu
      rcases mem_cons.mp hu with rfl | hu
      · exact ⟨hs, n + 1, le_rfl, .edge hreads hends⟩
      · obtain ⟨hmem, m, hm, hends'⟩ := hchain u hu
        exact ⟨hmem, m, by omega, hends'⟩

theorem EndsAfter.le_length (hids : UniqueIds document) (hs : s ∈ document.stages)
    (h : EndsAfter document s n) : n ≤ document.stages.length := by
  obtain ⟨chain, rfl, hnodup, hchain⟩ := h.exists_stages hids hs
  exact (subperm_of_subset hnodup fun t ht => (hchain t ht).1).length_le

theorem isAncestors_chainFrom (hids : UniqueIds document) (h : EndsAfter document s n)
    {steps : Nat} (hsteps : n ≤ steps) {seen : List String}
    (hseen : ∀ id ∈ seen, ∃ t ∈ document.stages, t.id = id ∧ ∃ m ≥ n, EndsAfter document t m) :
    IsAncestors document.stages s (chainFrom document steps seen s) := by
  -- a stage whose input is no stage has no ancestors
  have hnone : ∀ {s : Stage F} {steps : Nat} {seen : List String}, s.input.bind document.lastStage? = none →
      IsAncestors document.stages s (chainFrom document steps seen s) := by
    intro s steps seen hinput
    have hempty : chainFrom document steps seen s = [] := by
      cases steps with
      | zero => rfl
      | succ steps => simp only [chainFrom, hinput]
    rw [hempty]
    refine ⟨fun t => ⟨fun ht => (by cases ht), fun ht => ?_⟩, isChain_singleton s, nodup_nil⟩
    obtain ⟨u, hreads, -⟩ := TransGen.head'_iff.mp ht
    rw [hreads.2, bind_some, hids.lastStage?_eq_some_iff.mpr ⟨hreads.1, rfl⟩] at hinput
    cases hinput
  induction h generalizing steps seen with
  | root hinput => exact hnone (by rw [hinput]; rfl)
  | source huniverse _ hfree =>
    refine hnone ?_
    rw [huniverse, bind_some, eq_none_iff_forall_ne_some]
    intro t ht
    obtain ⟨hmem, hid⟩ := hids.lastStage?_eq_some_iff.mp ht
    exact hfree t hmem hid
  | @edge s t n hreads hends ih =>
    obtain ⟨steps, rfl⟩ : ∃ k, steps = k + 1 := ⟨steps - 1, by omega⟩
    have hparent : s.input.bind document.lastStage? = some t := by
      rw [hreads.2, bind_some, hids.lastStage?_eq_some_iff]
      exact ⟨hreads.1, rfl⟩
    have hnew : t.id ∉ seen := by
      intro hmem
      obtain ⟨u, hu, hid, m, hm, hends'⟩ := hseen t.id hmem
      rw [hids.eq hu hreads.1 hid] at hends'
      have := hends.unique hids hends'
      omega
    have hrest := @ih steps (by omega) (t.id :: seen) (by
      intro id hid
      rcases mem_cons.mp hid with rfl | hid
      · exact ⟨t, hreads.1, rfl, n, le_rfl, hends⟩
      · obtain ⟨u, hu, rfl, m, hm, hends'⟩ := hseen id hid
        exact ⟨u, hu, rfl, m, by omega, hends'⟩)
    have hwalk : chainFrom document (steps + 1) seen s =
        chainFrom document steps (t.id :: seen) t ++ [t] := by
      simp only [chainFrom, hparent, if_neg hnew]
    rw [hwalk]
    generalize chainFrom document steps (t.id :: seen) t = chain at hrest
    constructor
    · intro u
      rw [mem_append, mem_singleton, hrest.mem_iff, TransGen.head'_iff (a := s)]
      constructor
      · rintro (hreach | rfl)
        · exact ⟨t, hreads, hreach.to_reflTransGen⟩
        · exact ⟨u, hreads, .refl⟩
      · rintro ⟨v, hv, hreach⟩
        have hid := some.inj (hreads.2.symm.trans hv.2)
        rw [← hids.eq hreads.1 hv.1 hid] at hreach
        rcases ReflTransGen.cases_head hreach with rfl | ⟨w, htw, hwu⟩
        · exact .inr rfl
        · exact .inl (TransGen.head' htw hwu)
    · refine List.IsChain.append hrest.rootFirst (isChain_singleton s) ?_
      intro a ha b hb
      obtain rfl : t = a := by simpa using ha
      obtain rfl : s = b := by simpa using hb
      exact hreads
    · refine nodup_append.mpr ⟨hrest.nodup, nodup_singleton t, ?_⟩
      intro a ha b hb hab
      rw [mem_singleton.mp hb] at hab
      exact hends.not_self hids ((hrest.mem_iff t).mp (hab ▸ ha))

theorem isAncestors_stageChain (hids : UniqueIds document) (hs : s ∈ document.stages)
    (h : EndsAfter document s n) : IsAncestors document.stages s (stageChain document s.id) := by
  have hlast : document.lastStage? s.id = some s := hids.lastStage?_eq_some_iff.mpr ⟨hs, rfl⟩
  simp only [stageChain, hlast]
  refine isAncestors_chainFrom hids h (h.le_length hids hs) fun id hid => ?_
  rw [mem_singleton.mp hid]
  exact ⟨s, hs, rfl, n, le_rfl, h⟩

/-! ## the validator's walk -/

variable [PyFloat F]

omit [PyFloat F] in
theorem nodup_of_collectIds {label one : String} {i : Nat} {seen ids : List String}
    (h : (collectIds label one i seen ids).2.passes) (hseen : seen.Nodup) :
    (collectIds label one i seen ids).1 = seen ++ ids ∧ (seen ++ ids).Nodup ∧ ∀ id ∈ ids, id ≠ "" := by
  induction ids generalizing i seen with
  | nil => simpa [collectIds] using hseen
  | cons id ids ih =>
    rw [collectIds] at h ⊢
    split at h
    · simp at h
    · next hid =>
      rw [if_neg hid]
      split at h
      · simp at h
      · next hnew =>
        have hmem : id ∉ seen := by simpa using hnew
        have hgrown : (seen ++ [id]).Nodup :=
          nodup_append.mpr ⟨hseen, nodup_singleton id, fun a ha b hb hab => by
            rw [mem_singleton.mp hb] at hab
            exact hmem (hab ▸ ha)⟩
        obtain ⟨heq, hnodup, hne⟩ := ih h hgrown
        rw [if_neg hnew]
        refine ⟨by simpa using heq, by simpa using hnodup, fun a ha => ?_⟩
        rcases mem_cons.mp ha with rfl | ha
        · exact hid
        · exact hne a ha

omit [PyFloat F] in
theorem byId_eq (hids : UniqueIds document) (hne : ∀ s ∈ document.stages, s.id ≠ "") :
    (document.stages.filter fun s => s.id ≠ "").foldl (fun acc s => Dict.set acc s.id s)
      ([] : Dict String (Stage F)) = document.stages.map fun s => (s.id, s) := by
  have hfilter : document.stages.filter (fun s => s.id ≠ "") = document.stages :=
    filter_eq_self.mpr fun s hs => decide_eq_true (hne s hs)
  have hupdate : document.stages.foldl (fun acc s => Dict.set acc s.id s) ([] : Dict String (Stage F)) =
      Dict.update [] (document.stages.map fun s => (s.id, s)) := by
    rw [Dict.update, foldl_map]
  rw [hfilter, hupdate, Dict.update_eq_append (by simpa [Dict.keys, Function.comp_def, UniqueIds] using hids)]
  rfl

omit [PyFloat F] in
theorem endsAfter_of_chainTooDeep (hids : UniqueIds document)
    (hinputs : ∀ s ∈ document.stages, ∀ input, s.input = some input →
      (∃ t ∈ document.stages, t.id = input) ∨ input = "universe" ∧ document.universe_.isSome)
    {fuel : Nat} {seen : List String} (hs : s ∈ document.stages)
    (h : chainTooDeep (document.stages.map fun s => (s.id, s)) fuel seen s = false) :
    ∃ n ≤ fuel, EndsAfter document s n := by
  induction fuel generalizing seen s with
  | zero =>
    cases hinput : s.input with
    | none => exact ⟨0, le_rfl, .root hinput⟩
    | some input =>
      rw [chainTooDeep, hinput] at h
      simp at h
  | succ fuel ih =>
    cases hinput : s.input with
    | none => exact ⟨0, Nat.zero_le _, .root hinput⟩
    | some input =>
      by_cases hstage : ∃ t ∈ document.stages, t.id = input
      · obtain ⟨t, ht, rfl⟩ := hstage
        have hget : get? (document.stages.map fun s => (s.id, s)) t.id = some t := by
          rw [← mem_iff_get? (by simpa [Dict.keys, Function.comp_def, UniqueIds] using hids)]
          exact mem_map.mpr ⟨t, ht, rfl⟩
        rw [chainTooDeep, hinput] at h
        simp only [hget, or_eq_false_iff] at h
        obtain ⟨n, hn, hends⟩ := ih ht h.2
        exact ⟨n + 1, by omega, .edge ⟨ht, hinput⟩ hends⟩
      · obtain hstage' | ⟨rfl, hdeclared⟩ := hinputs s hs input hinput
        · exact absurd hstage' hstage
        · exact ⟨1, by omega, .source hinput hdeclared fun t ht hid => hstage ⟨t, ht, hid⟩⟩

theorem inputs_of_accepts {fromIso : String → Option Int} {p : Parse.Parsed F}
    (h : accepts fromIso p) :
    UniqueIds p.document ∧ (∀ s ∈ p.document.stages, s.id ≠ "") ∧
      ∀ s ∈ p.document.stages, ∃ n ≤ maxInputChainDepth + 1, EndsAfter p.document s n := by
  unfold accepts at h
  rw [and_eq_true] at h
  have hv := h.1
  unfold validate at hv
  simp only [passes_all_cons, and_eq_true] at hv
  obtain ⟨_, _, _, _, _, _, _, hcollect, hstages, _⟩ := hv
  obtain ⟨hseen, hids, hne⟩ := nodup_of_collectIds hcollect nodup_nil
  rw [nil_append] at hseen hids
  have hnonempty : ∀ s ∈ p.document.stages, s.id ≠ "" := fun s hs => hne s.id (mem_map_of_mem hs)
  refine ⟨hids, hnonempty, fun s hs => ?_⟩
  unfold validateStages at hstages
  simp only [passes_all_cons, and_eq_true, hseen] at hstages
  obtain ⟨hvalid, _, hdepth, _⟩ := hstages
  unfold validateChainDepth at hdepth
  simp only [byId_eq hids hnonempty] at hdepth
  have hentry : s ∈ Dict.values (p.document.stages.map fun s => (s.id, s)) := by
    simpa [Dict.values, Function.comp_def] using hs
  obtain ⟨_, hshort⟩ := exists_passes_of_each hdepth (a := s) hentry
  refine endsAfter_of_chainTooDeep hids ?_ hs (by simpa using hshort)
  intro u hu input hinput
  obtain ⟨_, hstage⟩ := exists_passes_of_each hvalid (a := u) hu
  unfold validateStage at hstage
  rw [if_neg (hnonempty u hu)] at hstage
  simp only [passes_all_cons, and_eq_true] at hstage
  obtain ⟨_, _, _, _, hpass, _⟩ := hstage
  simp only [validateInput, hinput] at hpass
  split at hpass
  · next hmem => exact .inl (by simpa using hmem)
  · split at hpass
    · next huniverse => exact .inr ⟨huniverse, by simpa using hpass⟩
    · simp at hpass

/-- The chains of an accepted document have at most `MAX_INPUT_CHAIN_DEPTH` edges, and `stage_chain` lists
the ancestors, exactly when no chain has one edge more: the walk tests the depth before it counts. -/
theorem bounded_chains_iff {fromIso : String → Option Int} {p : Parse.Parsed F}
    (h : accepts fromIso p = true) :
    (∀ s ∈ p.document.stages, (∃ n ≤ maxInputChainDepth, EndsAfter p.document s n) ∧
        IsAncestors p.document.stages s (stageChain p.document s.id)) ↔
      ∀ s ∈ p.document.stages, ¬ EndsAfter p.document s (maxInputChainDepth + 1) := by
  obtain ⟨hids, -, hends⟩ := inputs_of_accepts h
  constructor
  · intro hbounded s hs hlong
    obtain ⟨⟨n, hn, hshort⟩, -⟩ := hbounded s hs
    have := hshort.unique hids hlong
    omega
  · intro hshort s hs
    obtain ⟨n, hn, hend⟩ := hends s hs
    refine ⟨⟨n, ?_, hend⟩, isAncestors_stageChain hids hs hend⟩
    by_contra hlong
    obtain rfl : n = maxInputChainDepth + 1 := by omega
    exact hshort s hs hend

/-! ## the boundary -/

def chainStage (id : String) (input : List (String × PyVal ℚ)) : PyVal ℚ :=
  .ofPairs
    ([("id", .str id), ("clock", .str "candle_close"), ("timeframe", .str "1d"), ("conditions", .list
        [.ofPairs [("field", .str "close"), ("op", .str "crosses_above"), ("value", .int 100)]])] ++ input)

/-- Each stage reads the next, and the last none. -/
def chainStages : List String → List (PyVal ℚ)
  | [] => []
  | [id] => [chainStage id []]
  | id :: next :: ids => chainStage id [("input", .str next)] :: chainStages (next :: ids)

def chainDocument (ids : List String) : PyVal ℚ :=
  .ofPairs
    [("version", .int 1), ("name", .str "breakouts"), ("instruments", .list [.str "NSE:INFY"]),
     ("stages", .list (chainStages ids)), ("alerts", .list
       [.ofPairs
         [("id", .str "breakout"), ("source", .str "a"), ("trigger", .str "on_transition"),
          ("channels", .list [.str "telegram"])]])]

/-- The inputs lead, along so many edges, to a stage without input. -/
def endsIn (document : WorkflowDocument F) : Nat → Stage F → Bool
  | 0, s => s.input.isNone
  | n + 1, s => document.stages.any fun t => decide (s.input = some t.id) && endsIn document n t

omit [PyFloat F] in
theorem EndsAfter.of_endsIn (h : endsIn document n s = true) : EndsAfter document s n := by
  induction n generalizing s with
  | zero => exact .root (by simpa [endsIn] using h)
  | succ n ih =>
    simp only [endsIn, List.any_eq_true, Bool.and_eq_true, decide_eq_true_eq] at h
    obtain ⟨t, ht, hinput, hends⟩ := h
    exact .edge ⟨ht, hinput⟩ (ih hends)

/-- A chain of three stages. -/
theorem bounded_chains_short :
    ∃ p, Parse.parseWorkflowDict (chainDocument ["a", "b", "c"]) = .ok p ∧
      ∀ s ∈ p.document.stages, (∃ n ≤ maxInputChainDepth, EndsAfter p.document s n) ∧
        IsAncestors p.document.stages s (stageChain p.document s.id) := by
  obtain ⟨p, hp, hcheck⟩ := exists_of_parsesWith (chainDocument ["a", "b", "c"])
    (fun p => accepts (fun _ => none) p && decide (p.document.stages.length ≤ maxInputChainDepth))
    (by decide +kernel)
  rw [Bool.and_eq_true, decide_eq_true_eq] at hcheck
  refine ⟨p, hp, (bounded_chains_iff hcheck.1).mpr fun s hs hends => ?_⟩
  have := hends.le_length (inputs_of_accepts hcheck.1).1 hs
  omega

/-- A chain of ten stages is accepted: it has nine edges. -/
theorem bounded_chains_ten :
    ¬ ∀ (fromIso : String → Option Int) (raw : PyVal ℚ) (p : Parse.Parsed ℚ),
      Parse.parseWorkflowDict raw = .ok p → accepts fromIso p = true →
      ∀ s ∈ p.document.stages, (∃ n ≤ maxInputChainDepth, EndsAfter p.document s n) ∧
        IsAncestors p.document.stages s (stageChain p.document s.id) := by
  intro h
  obtain ⟨p, hp, hcheck⟩ := exists_of_parsesWith
    (chainDocument ["a", "b", "c", "d", "e", "f", "g", "h", "i", "j"])
    (fun p => accepts (fun _ => none) p && p.document.stages.any (endsIn p.document 9))
    (by decide +kernel)
  rw [Bool.and_eq_true, List.any_eq_true] at hcheck
  obtain ⟨haccepts, s, hs, hlong⟩ := hcheck
  obtain ⟨⟨n, hn, hends⟩, -⟩ := h (fun _ => none) _ p hp haccepts s hs
  have heq := hends.unique (inputs_of_accepts haccepts).1 (.of_endsIn hlong)
  rw [heq, maxInputChainDepth] at hn
  omega

end KiteAlgo
