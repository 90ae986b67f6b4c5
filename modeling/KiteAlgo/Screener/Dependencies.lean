import KiteAlgo.Lib.Except
import KiteAlgo.Lib.Table
import KiteAlgo.Value
import Mathlib.Data.List.Chain
import Mathlib.Logic.Relation

/-!
# KiteAlgo.Screener.Dependencies

The dependency check of screener universes (`universes.py`).  It walks from workflow to workflow over the
universes that their active revisions reference, and leaves cycles that are not loops to its depth bound.
-/

namespace KiteAlgo.Dependencies

open Relation List

/-! ## the tables of an owner -/

/-- A stored reference to a universe; entries that are missing are empty. -/
inductive Ref where
  | mapping (kind name inUniverse inWatchlist : String)
  | other

/-- A row of `workflow_revisions`, with the references of its document. -/
structure Revision where
  workflowId : String
  status : String
  union : List Ref := []
  intersect : List Ref := []
  exclude : List Ref := []

/-- A row of `universes`, with the workflow of its configuration. -/
structure Universe where
  name : String
  kind : String
  workflow : String := ""

/-- The tables; `workflows` has the names by id. -/
structure Tables where
  workflows : Table String String
  revisions : List Revision
  universes : List Universe

inductive Failure where
  | tooDeep
  | refersToOrigin (workflow name : String)
  | consumesItself (workflow name : String)
  | multipleResults
  deriving DecidableEq

def universeRefName : Ref → Option String
  | .mapping kind name inUniverse inWatchlist =>
    if (kind = "universe" ∨ kind = "watchlist") ∧ name ≠ "" then some name
    else [inUniverse, inWatchlist].find? (· ≠ "")
  | .other => none

section Walk

variable (t : Tables) (origin : Option String)

/-- `ref_names` of the active revision of a workflow. -/
def refNames (workflow : String) : List String :=
  match t.revisions.find? fun revision => revision.workflowId = workflow ∧ revision.status = "active" with
  | some revision => (revision.union ++ revision.intersect ++ revision.exclude).filterMap universeRefName
  | none => []

def findWorkflow (ref : String) : Except Failure (Option String) :=
  match t.workflows.rows.filter fun workflow => workflow.2 = ref ∨ workflow.1 = ref with
  | [] => .ok none
  | [workflow] => .ok (some workflow.1)
  | _ => .error .multipleResults

/-- The workflow whose results are the universe of a name. -/
def sourceOf (name : String) : Except Failure (Option String) :=
  match t.universes.find? fun row => row.name = name with
  | some row =>
    if row.kind ≠ "screener" ∨ Text.strip row.workflow = "" then .ok none
    else findWorkflow t (Text.strip row.workflow)
  | none => .ok none

/-- `_assert_no_screener_universe_cycle`, with as many levels left; the first call has nine. -/
def assertNoScreenerUniverseCycle : Nat → String → Except Failure Unit
  | 0, _ => .error .tooDeep
  | levels + 1, workflow =>
    (refNames t workflow).forM fun name => do
      if origin = some name then .error (.refersToOrigin workflow name)
      else
        match ← sourceOf t name with
        | none => .ok ()
        | some next =>
          if next = workflow then .error (.consumesItself workflow name)
          else assertNoScreenerUniverseCycle levels next

/-! ## the dependencies -/

/-- A workflow references a universe that is another's results. -/
def DependsOn (workflow next : String) : Prop :=
  ∃ name ∈ refNames t workflow, sourceOf t name = .ok (some next)

/-- The origin is reached, there is a cycle, or a path of more workflows than there are levels. -/
def Forbidden (levels : Nat) (workflow : String) : Prop :=
  (∃ w, ReflTransGen (DependsOn t) workflow w ∧ ∃ name ∈ refNames t w, origin = some name) ∨
    (∃ w, ReflTransGen (DependsOn t) workflow w ∧ TransGen (DependsOn t) w w) ∨
    ∃ path, (workflow :: path).IsChain (DependsOn t) ∧ levels < (workflow :: path).length

/-- A workflow on the way references a universe whose workflow is the name of one and the id of another. -/
def Ambiguous (workflow : String) : Prop :=
  ∃ w, ReflTransGen (DependsOn t) workflow w ∧
    ∃ name ∈ refNames t w, sourceOf t name = .error .multipleResults

end Walk

variable {t : Tables} {origin : Option String} {levels : Nat} {workflow : String}

variable {α : Type} {f : α → Except Failure Unit} {xs : List α}

theorem forM_eq_ok : xs.forM f = .ok () ↔ ∀ x ∈ xs, f x = .ok () := by
  induction xs with
  | nil => simp [pure, Except.pure]
  | cons x xs ih =>
    rw [forM_eq_forM, forM_cons, bind_eq_ok, forall_mem_cons, ← ih]
    exact ⟨fun ⟨(), hx, h⟩ => ⟨hx, h⟩, fun ⟨hx, h⟩ => ⟨(), hx, h⟩⟩

variable {e : Failure}

theorem exists_of_forM_eq_error (h : xs.forM f = .error e) : ∃ x ∈ xs, f x = .error e := by
  induction xs with
  | nil => cases h
  | cons x xs ih =>
    rw [forM_eq_forM, forM_cons] at h
    cases hx : f x with
    | ok u =>
      rw [hx] at h
      obtain ⟨y, hy, he⟩ := ih h
      exact ⟨y, mem_cons_of_mem x hy, he⟩
    | error e' =>
      rw [hx] at h
      cases h
      exact ⟨x, (.head _), hx⟩

/-- A walk that returns leaves no reference to the origin, none that is ambiguous, and returns from the
workflows that are depended on with fewer levels. -/
theorem walk_ok (h : assertNoScreenerUniverseCycle t origin levels workflow = .ok ()) :
    (∀ name ∈ refNames t workflow, origin ≠ some name ∧ sourceOf t name ≠ .error .multipleResults) ∧
      ∀ next, DependsOn t workflow next →
        ∃ m < levels, assertNoScreenerUniverseCycle t origin m next = .ok () := by
  cases levels with
  | zero => cases h
  | succ levels =>
    have hall := forM_eq_ok.mp h
    refine ⟨fun name hname => ?_, fun next ⟨name, hname, hsource⟩ => ⟨levels, Nat.lt_succ_self _, ?_⟩⟩
    · have := hall name hname
      split at this
      · cases this
      · next horigin => exact ⟨horigin, fun hsource => by simp [hsource] at this⟩
    · have := hall name hname
      simp only [hsource, ok_bind] at this
      repeat' split at this
      all_goals first | cases this | exact this

theorem walk_reach {w : String} (hreach : ReflTransGen (DependsOn t) workflow w)
    (h : assertNoScreenerUniverseCycle t origin levels workflow = .ok ()) :
    ∃ m, assertNoScreenerUniverseCycle t origin m w = .ok () := by
  induction hreach with
  | refl => exact ⟨levels, h⟩
  | tail _ hstep ih =>
    obtain ⟨m, hm⟩ := ih
    obtain ⟨m', -, hm'⟩ := (walk_ok hm).2 _ hstep
    exact ⟨m', hm'⟩

theorem walk_acyclic (h : assertNoScreenerUniverseCycle t origin levels workflow = .ok ()) :
    ¬TransGen (DependsOn t) workflow workflow := by
  intro hcycle
  have hless : ∀ w, TransGen (DependsOn t) workflow w → ∀ m,
      assertNoScreenerUniverseCycle t origin m workflow = .ok () →
      ∃ m' < m, assertNoScreenerUniverseCycle t origin m' w = .ok () := by
    intro w hw m hm
    induction hw with
    | single hstep => exact (walk_ok hm).2 _ hstep
    | tail _ hstep ih =>
      obtain ⟨m', hlt, hm'⟩ := ih
      obtain ⟨m'', hlt', hm''⟩ := (walk_ok hm').2 _ hstep
      exact ⟨m'', by omega, hm''⟩
  induction levels using Nat.strong_induction_on with
  | _ levels ih =>
    obtain ⟨m, hlt, hm⟩ := hless workflow hcycle levels h
    exact ih m hlt hm

theorem walk_path {path : List String} (hpath : (workflow :: path).IsChain (DependsOn t))
    (h : assertNoScreenerUniverseCycle t origin levels workflow = .ok ()) :
    (workflow :: path).length ≤ levels := by
  induction path generalizing workflow levels with
  | nil =>
    cases levels with
    | zero => cases h
    | succ => simp
  | cons w path ih =>
    obtain ⟨hstep, hrest⟩ := isChain_cons_cons.mp hpath
    obtain ⟨m, hlt, hm⟩ := (walk_ok h).2 w hstep
    have := ih hrest hm
    simp only [length_cons] at this ⊢
    omega

theorem walk_sound (h : assertNoScreenerUniverseCycle t origin levels workflow = .ok ()) :
    ¬Forbidden t origin levels workflow ∧ ¬Ambiguous t workflow := by
  refine ⟨?_, fun ⟨w, hreach, name, hname, hsource⟩ => ?_⟩
  · rintro (⟨w, hreach, name, hname, horigin⟩ | ⟨w, hreach, hcycle⟩ | ⟨path, hpath, hlength⟩)
    · obtain ⟨m, hm⟩ := walk_reach hreach h
      exact ((walk_ok hm).1 name hname).1 horigin
    · obtain ⟨m, hm⟩ := walk_reach hreach h
      exact walk_acyclic hm hcycle
    · have := walk_path hpath h
      omega
  · obtain ⟨m, hm⟩ := walk_reach hreach h
    exact ((walk_ok hm).1 name hname).2 hsource

theorem Forbidden.of_next {next : String} (hstep : DependsOn t workflow next)
    (h : Forbidden t origin levels next) : Forbidden t origin (levels + 1) workflow := by
  obtain ⟨w, hreach, h⟩ | ⟨w, hreach, h⟩ | ⟨path, hpath, hlength⟩ := h
  · exact .inl ⟨w, hreach.head hstep, h⟩
  · exact .inr (.inl ⟨w, hreach.head hstep, h⟩)
  · exact .inr (.inr ⟨next :: path, hpath.cons_cons hstep, by simpa using hlength⟩)

theorem walk_raises (h : assertNoScreenerUniverseCycle t origin levels workflow = .error e) :
    Forbidden t origin levels workflow ∨ Ambiguous t workflow := by
  induction levels generalizing workflow with
  | zero => exact .inl (.inr (.inr ⟨[], by simp, by simp⟩))
  | succ levels ih =>
    obtain ⟨name, hname, hstep⟩ := exists_of_forM_eq_error h
    split at hstep
    · next horigin => exact .inl (.inl ⟨workflow, .refl, name, hname, horigin⟩)
    · cases hsource : sourceOf t name with
      | error e' =>
        refine .inr ⟨workflow, .refl, name, hname, ?_⟩
        simp only [sourceOf, findWorkflow] at hsource ⊢
        grind
      | ok next =>
        simp only [hsource, ok_bind] at hstep
        cases next with
        | none => cases hstep
        | some next =>
          have hdepends : DependsOn t workflow next := ⟨name, hname, hsource⟩
          dsimp only at hstep
          split at hstep
          · next heq =>
              subst heq
              exact .inl (.inr (.inl ⟨next, .refl, .single hdepends⟩))
          · obtain hforbidden | ⟨w, hreach, hw⟩ := ih hstep
            · exact .inl (hforbidden.of_next hdepends)
            · exact .inr ⟨w, hreach.head hdepends, hw⟩

/-- The check returns only if nothing is forbidden and raises only if something is, exactly if something is
or no reference on the way is ambiguous. -/
theorem check_sound_iff :
    ((assertNoScreenerUniverseCycle t origin 9 workflow = .ok () → ¬Forbidden t origin 9 workflow) ∧
        ∀ e, assertNoScreenerUniverseCycle t origin 9 workflow = .error e → Forbidden t origin 9 workflow) ↔
      (Forbidden t origin 9 workflow ∨ ¬Ambiguous t workflow) := by
  constructor
  · rintro ⟨-, hraises⟩
    cases h : assertNoScreenerUniverseCycle t origin 9 workflow with
    | ok => exact .inr (walk_sound h).2
    | error e => exact .inl (hraises e h)
  · exact fun h => ⟨fun hok => (walk_sound hok).1, fun e he => h.elim id fun hnot =>
      (walk_raises he).resolve_right hnot⟩

/-- A workflow has the id of another for its name. -/
def namedByIdTables : Tables where
  workflows := ⟨[("w1", "scan"), ("w2", "w1"), ("w3", "alerts")], by decide⟩
  revisions := [⟨"w3", "active", [.mapping "universe" "movers" "" ""], [], []⟩]
  universes := [⟨"movers", "screener", "w1"⟩]

/-- The check raises though nothing is forbidden. -/
theorem check_namedByIdTables :
    assertNoScreenerUniverseCycle namedByIdTables (some "new") 9 "w3" = .error .multipleResults ∧
      ¬Forbidden namedByIdTables (some "new") 9 "w3" := by
  have hnames : refNames namedByIdTables "w3" = ["movers"] := by decide +kernel
  have hsource : sourceOf namedByIdTables "movers" = .error .multipleResults := by decide +kernel
  have hnone : ∀ next, ¬DependsOn namedByIdTables "w3" next := by
    rintro next ⟨name, hname, hnext⟩
    rw [hnames, List.mem_singleton] at hname
    simp [hname, hsource] at hnext
  refine ⟨by decide +kernel, ?_⟩
  rintro (⟨w, hreach, name, hname, horigin⟩ | ⟨w, hreach, hcycle⟩ | ⟨path, hpath, hlength⟩)
  · obtain rfl | ⟨next, hstep, -⟩ := hreach.cases_head
    · rw [hnames, List.mem_singleton] at hname
      simp [hname] at horigin
    · exact hnone next hstep
  · obtain rfl | ⟨next, hstep, -⟩ := hreach.cases_head
    · obtain ⟨next, hstep, -⟩ := TransGen.head'_iff.mp hcycle
      exact hnone next hstep
    · exact hnone next hstep
  · cases path with
    | nil => simp at hlength
    | cons next path => exact hnone next (List.isChain_cons_cons.mp hpath).1

end KiteAlgo.Dependencies
