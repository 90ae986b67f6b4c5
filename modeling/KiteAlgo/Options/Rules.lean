import KiteAlgo.Algo.Kernel
import KiteAlgo.Lib.Except
import KiteAlgo.Options

/-!
# KiteAlgo.Options.Rules

The protection rules of an option run: what `normalize_protection_config` accepts and which
rule `evaluate_option_rules` fires.
-/

namespace KiteAlgo.Options

open List
open Algo (truthy)

variable {F : Type} [PyFloat F]

structure Rule (F : Type) where
  key : PyVal F
  metric : String
  operator : String
  threshold : F
  role : PyVal F
  action : PyVal F

structure ProtectionConfig (F : Type) where
  rules : List (Rule F) := []
  precedence : List String := []

/-- `raw.get(key) or default`. -/
def getOr (raw : Dict Key (PyVal F)) (key default : String) : PyVal F :=
  match raw.get? (.str key) with
  | some value => if truthy value then value else .str default
  | none => .str default

/-- `float(value)`, with `parse` for `float` of a text. -/
def floatOf (parse : String → Option F) : PyVal F → Except PyErr F
  | .int n => ((PyFloat.ofInt n).map .ok).getD (.error .overflow)
  | .bool b => ((PyFloat.ofInt (if b then 1 else 0)).map .ok).getD (.error .overflow)
  | .float f => .ok f
  | .str s => ((parse s).map .ok).getD (.error (.value s!"could not convert string to float: {s}"))
  | _ => .error (.type "float() argument must be a string or a real number")

def supportedMetrics : List String :=
  ["index_ltp", "combined_premium", "combined_premium_change_pct", "strategy_mtm", "open_quantity"]

/-- The threshold of the rule at an index: only an overflow is passed on as it is. -/
def thresholdOf (parse : String → Option F) (index : Nat) (raw : Dict Key (PyVal F)) :
    Except PyErr F :=
  match raw.get? (.str "threshold") with
  | none | some .none => .error (.value s!"Protection rule at index {index} is missing threshold")
  | some value =>
    match floatOf parse value with
    | .error (.value _) | .error (.type _) =>
      .error (.value s!"Protection rule at index {index} has invalid threshold")
    | result => result

/-- One turn of the loop over the raw rules. -/
def normalizeRule (parse : String → Option F) (index : Nat) : PyVal F → Except PyErr (Rule F)
  | .dict raw =>
    let metric := Text.strip (getOr raw "metric" "").toText
    let operator := Text.lower (Text.strip (getOr raw "operator" "").toText)
    if metric ∉ supportedMetrics then
      .error (.value ("Unsupported protection metric: " ++ orText metric "<missing>"))
    else if operator ∉ ["gte", "lte"] then
      .error (.value ("Unsupported protection operator: " ++ orText operator "<missing>"))
    else (thresholdOf parse index raw).map fun threshold =>
      { key := getOr raw "key" s!"rule_{index + 1}", metric, operator, threshold,
        role := getOr raw "role" "exit", action := getOr raw "action" "exit" }
  | _ => .error (.value s!"Protection rule at index {index} must be an object")

/-- The list under a key, a missing one and null as `absent`. -/
def listOf (raw : Dict Key (PyVal F)) (key message : String) : Except PyErr (Option (List (PyVal F))) :=
  match raw.get? (.str key) with
  | none | some .none => .ok none
  | some (.list items) => .ok (some items)
  | some _ => .error (.value message)

def normalizeProtectionConfig (parse : String → Option F) :
    PyVal F → Except PyErr (ProtectionConfig F)
  | .none => .ok {}
  | .dict raw => do
    let raws ← listOf raw "rules" "Protection rules must be a list"
    let rules ← mapIdxM (normalizeRule parse) 0 (raws.getD [])
    match ← listOf raw "precedence" "Protection precedence must be a list" with
    | none => return { rules, precedence := rules.map (·.role.toText) }
    | some items => return { rules, precedence := items.map (·.toText) }
  | _ => .error (.value "Protection config must be an object")

/-- The test of a rule on the metrics, each as its `float()`; a null metric is an absent one. -/
def Rule.Satisfied (metrics : Dict String F) (rule : Rule F) : Prop :=
  ∃ value, metrics.get? rule.metric = some value ∧
    (rule.operator = "lte" ∧ PyFloat.le value rule.threshold = true ∨
      rule.operator = "gte" ∧ PyFloat.le rule.threshold value = true)

instance (metrics : Dict String F) (rule : Rule F) : Decidable (rule.Satisfied metrics) :=
  decidable_of_iff ((metrics.get? rule.metric).any fun value =>
      rule.operator = "lte" ∧ PyFloat.le value rule.threshold = true ∨
        rule.operator = "gte" ∧ PyFloat.le rule.threshold value = true) (by
    simp [Rule.Satisfied, Option.any_eq_true])

def evaluateOptionRules (metrics : Dict String F) (rules : List (Rule F)) (precedence : List String) :
    Option (Rule F) :=
  precedence.findSome? fun role =>
    rules.find? fun rule => rule.role.toText = role ∧ rule.Satisfied metrics

/-! ## the rule that fires -/

/-- The place of a rule's role in the precedence, its length for a role that is not there. -/
def ProtectionConfig.rank (config : ProtectionConfig F) (rule : Rule F) : Nat :=
  config.precedence.idxOf rule.role.toText

/-- Some rule fires exactly if one is satisfied, and the one that fires is satisfied, with the
least rank and the first of that rank. -/
structure ProtectionConfig.Fires (config : ProtectionConfig F) (metrics : Dict String F) : Prop where
  isSome_iff : (evaluateOptionRules metrics config.rules config.precedence).isSome ↔
    ∃ rule ∈ config.rules, rule.Satisfied metrics
  first : ∀ rule, evaluateOptionRules metrics config.rules config.precedence = some rule →
    rule.Satisfied metrics ∧ ∃ earlier later, config.rules = earlier ++ rule :: later ∧
      (∀ other ∈ earlier, other.Satisfied metrics → config.rank rule < config.rank other) ∧
      ∀ other ∈ later, other.Satisfied metrics → config.rank rule ≤ config.rank other

/-- The satisfied rules, if there are any, are not all of roles outside of the precedence. -/
def ProtectionConfig.Listed (config : ProtectionConfig F) (metrics : Dict String F) : Prop :=
  (∃ rule ∈ config.rules, rule.Satisfied metrics) →
    ∃ rule ∈ config.rules, rule.Satisfied metrics ∧ rule.role.toText ∈ config.precedence

variable {metrics : Dict String F} {rules : List (Rule F)} {config : ProtectionConfig F}

theorem evaluateOptionRules_isSome_iff {precedence : List String} :
    (evaluateOptionRules metrics rules precedence).isSome ↔
      ∃ rule ∈ rules, rule.Satisfied metrics ∧ rule.role.toText ∈ precedence := by
  simp only [evaluateOptionRules, findSome?_isSome_iff, find?_isSome, decide_eq_true_eq]
  constructor
  · rintro ⟨role, hrole, rule, hmem, rfl, hsat⟩
    exact ⟨rule, hmem, hsat, hrole⟩
  · rintro ⟨rule, hmem, hsat, hrole⟩
    exact ⟨_, hrole, rule, hmem, rfl, hsat⟩

theorem lt_idxOf {roles others : List String} {role other : String} (hnot : other ∉ roles)
    (hne : other ≠ role) : roles.length < (roles ++ role :: others).idxOf other := by
  rw [idxOf_append_of_notMem hnot, idxOf_cons_ne _ (Ne.symm hne)]
  omega

theorem first_of_evaluateOptionRules {rule : Rule F}
    (hfire : evaluateOptionRules metrics config.rules config.precedence = some rule) :
    rule.Satisfied metrics ∧ ∃ earlier later, config.rules = earlier ++ rule :: later ∧
      (∀ other ∈ earlier, other.Satisfied metrics → config.rank rule < config.rank other) ∧
      ∀ other ∈ later, other.Satisfied metrics → config.rank rule ≤ config.rank other := by
  obtain ⟨roles, role, others, hprec, hfind, hnone⟩ := findSome?_eq_some_iff.mp hfire
  obtain ⟨hrule, earlier, later, hrules, hearlier⟩ := find?_eq_some_iff_append.mp hfind
  obtain ⟨rfl, hsat⟩ := of_decide_eq_true hrule
  -- no satisfied rule has a role before the one that fired
  have hnotin : ∀ other ∈ config.rules, other.Satisfied metrics → other.role.toText ∉ roles := by
    intro other hmem hother hrole
    have := find?_eq_none.mp (hnone _ hrole) other hmem
    exact this (decide_eq_true ⟨rfl, hother⟩)
  have hrank : config.rank rule = roles.length := by
    rw [ProtectionConfig.rank, hprec, idxOf_append_of_notMem
      (hnotin rule (hrules ▸ mem_append_right _ (.head _)) hsat), idxOf_cons_self]
    rfl
  have hlt : ∀ other ∈ config.rules, other.Satisfied metrics →
      other.role.toText ≠ rule.role.toText → config.rank rule < config.rank other := by
    intro other hmem hother hne
    rw [hrank, ProtectionConfig.rank, hprec]
    exact lt_idxOf (hnotin other hmem hother) hne
  refine ⟨hsat, earlier, later, hrules, fun other hmem hother => ?_, fun other hmem hother => ?_⟩
  · refine hlt other (hrules ▸ mem_append_left _ hmem) hother fun heq => ?_
    simpa [heq, hother] using hearlier other hmem
  · by_cases heq : other.role.toText = rule.role.toText
    · rw [ProtectionConfig.rank, ProtectionConfig.rank, heq]
    · exact (hlt other (hrules ▸ by simp [hmem]) hother heq).le

theorem fires_iff_listed : config.Fires metrics ↔ config.Listed metrics := by
  constructor
  · intro hfires hsat
    exact evaluateOptionRules_isSome_iff.mp (hfires.isSome_iff.mpr hsat)
  · intro hlisted
    refine ⟨evaluateOptionRules_isSome_iff.trans ⟨?_, hlisted⟩, fun _ => first_of_evaluateOptionRules⟩
    rintro ⟨rule, hmem, hsat, _⟩
    exact ⟨rule, hmem, hsat⟩

theorem accepted_rules_fire_iff (parse : String → Option F) (protection : PyVal F)
    (metrics : Dict String F) :
    (∀ config, normalizeProtectionConfig parse protection = .ok config → config.Fires metrics) ↔
      ∀ config, normalizeProtectionConfig parse protection = .ok config → config.Listed metrics := by
  simp only [fires_iff_listed]

/-- A stop without a role, with an empty precedence: it is accepted and never fires. -/
theorem accepted_stop_never_fires :
    ¬ ∀ (protection : PyVal ℚ) (metrics : Dict String ℚ) (config : ProtectionConfig ℚ),
      normalizeProtectionConfig (fun _ => none) protection = .ok config → config.Fires metrics := by
  intro h
  have hfires := h (.ofPairs [("rules", .list [.ofPairs [("metric", .str "strategy_mtm"),
    ("operator", .str "lte"), ("threshold", .int (-1000))]]), ("precedence", .list [])])
    [("strategy_mtm", -5000)]
    ⟨[⟨.str "rule_1", "strategy_mtm", "lte", -1000, .str "exit", .str "exit"⟩], []⟩ (by rfl)
  have hsome := hfires.isSome_iff.mpr
    ⟨_, List.mem_singleton_self _, -5000, rfl, .inl ⟨rfl, by decide⟩⟩
  exact absurd hsome (by decide)

end KiteAlgo.Options
