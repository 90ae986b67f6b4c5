import KiteAlgo.Parser

/-!
# KiteAlgo.Parser.WellFormed

What the parser guarantees about every document it returns: the texts it
requires are not empty, numbers lie in the bounds it enforces, a timeframe is
already in canonical spelling, a sequence has a bound.

Each lemma peels one parsing function apart with `bind_eq_ok` and reads the
guarantee off the successful steps.
-/

namespace KiteAlgo

open Parse

variable {F : Type} [PyFloat F]

/-! ## the guarantees -/

/-- An operand as the parser returns it.  Only the shorthand form of a named
indicator lets an empty source through. -/
structure Operand.WF (o : Operand F) : Prop where
  name : o.name ≠ some ""
  source : o.source = some "" → o.kind = .indicator ∧ o.name ≠ none

structure Condition.WF (c : Condition F) : Prop where
  op : c.op.text ≠ ""
  left : c.left.WF
  right : c.right.WF

structure ConditionGroup.WF (g : ConditionGroup F) : Prop where
  conditions : ∀ c ∈ g.conditions, c.WF
  not_single : g.kind = .not → g.conditions.length ≤ 1

structure SequenceSpec.WF (q : SequenceSpec F) : Prop where
  first_ne_nil : q.first ≠ []
  then_ne_nil : q.andThen ≠ []
  first : ∀ g ∈ q.first, g.WF
  andThen : ∀ g ∈ q.andThen, g.WF
  bound : (q.withinBars.isSome || q.withinS.isSome) = true
  withinS : ∀ n, q.withinS = some n → 0 ≤ n

/-- A breadth block as the parser returns it. -/
structure BreadthSpec.WF (b : BreadthSpec F) : Prop where
  condition_ne_nil : b.condition ≠ []
  condition : ∀ g ∈ b.condition, g.WF
  distinctInstruments : 2 ≤ b.distinctInstruments
  windowS : 0 ≤ b.windowS
  mode : b.mode.text ≠ ""

structure Stage.WF (s : Stage F) : Prop where
  id : s.id ≠ ""
  type : s.type.text ≠ ""
  clock : s.clock.text ≠ ""
  timeframe : s.timeframe ≠ some ""
  timeframeOf : ∀ t, s.timeframe = some t → timeframeOf t = t
  input : s.input ≠ some ""
  function : s.function ≠ some ""
  sourceField : s.sourceField ≠ some ""
  conditions : ∀ c ∈ s.conditions, c.WF
  anyConditions : ∀ c ∈ s.anyConditions, c.WF
  notConditions : ∀ c ∈ s.notConditions, c.WF
  not_single : s.notConditions.length ≤ 1
  sequence : ∀ q, s.sequence = some q → q.WF
  breadth : ∀ b, s.breadth = some b → b.WF

structure AlertSpec.WF (a : AlertSpec F) : Prop where
  id : a.id ≠ ""
  source : a.source ≠ ""
  trigger : a.trigger.text ≠ ""
  trigger_canonical : a.trigger.text ≠ "on_signal"
  cooldownS : ∀ n, a.cooldownS = some n → 0 ≤ n
  rearm : a.rearmLevel.isSome = a.rearmDirection.isSome
  expiresAt : a.expiresAt ≠ some ""
  channels : ∀ ch ∈ a.channels, ch ≠ ""
  message : a.message ≠ some ""
  sessionCapReset : a.sessionCapReset ≠ some ""

/-- A universe expression as the parser returns it. -/
structure UniverseSpec.WF (u : UniverseSpec) : Prop where
  refs_ne_nil : u.refs ≠ []
  refs : ∀ r ∈ u.refs, r.name ≠ ""
  exclude : ∀ r ∈ u.exclude, r.name ≠ ""
  intersect : ∀ r ∈ u.intersect, r.name ≠ ""

structure ScheduleSpec.WF (s : ScheduleSpec) : Prop where
  every : ∃ n : Int, 300 ≤ n ∧ n ≤ 31 * 24 * 3600 ∧ s.every = toString n ++ "s"
  calendar : s.calendar = "nse_equity"
  at_ : ∀ t, s.at_ = some t → isScheduleTime t = true

/-- An optional rank lies in `[1, 1000]`. -/
def RankInRange (n : Option Int) : Prop := ∀ k, n = some k → 1 ≤ k ∧ k ≤ 1000

/-- An attachment as the parser returns it.  The exit rank may be a default, so
it has no upper bound of its own. -/
structure AttachmentSpec.WF (a : AttachmentSpec) : Prop where
  id : a.id ≠ ""
  channels : a.channels ≠ []
  topN : RankInRange a.topN
  rankDelta : RankInRange a.rankDelta
  entryRank : RankInRange a.entryRank
  exitRank : ∀ k, a.exitRank = some k → 1 ≤ k
  exitAfter : RankInRange a.exitAfter
  message : a.message ≠ some ""
  topN_isSome : a.trigger = .topN → a.topN.isSome ∧ a.entryRank.isSome ∧ a.exitRank.isSome
  rankDelta_isSome : a.trigger = .rankDelta → a.rankDelta.isSome ∧ a.entryRank = none ∧ a.exitRank = none
  ranks : ∀ entry exit, a.entryRank = some entry → a.exitRank = some exit → entry < exit

structure ScreenerSpec.WF (s : ScreenerSpec F) : Prop where
  schedule : s.schedule.WF
  rank : ∀ r, s.rank = some r → r.by_.WF
  topN : RankInRange s.topN
  freshness : 300 ≤ s.freshnessLimitS ∧ s.freshnessLimitS ≤ 30 * 24 * 3600
  attachments : ∀ a ∈ s.attachments, a.WF

structure WorkflowDocument.WF (d : WorkflowDocument F) : Prop where
  version : d.version = 1
  name : d.name ≠ ""
  session : d.session ≠ ""
  instruments : ∀ i ∈ d.instruments, i.symbol ≠ "" ∧ i.exchange ≠ ""
  stages : ∀ s ∈ d.stages, s.WF
  alerts : ∀ a ∈ d.alerts, a.WF
  dataPolicy : d.dataPolicy.missing ≠ "" ∧ d.dataPolicy.insufficientHistory ≠ ""
  universe_ : ∀ u, d.universe_ = some u → u.WF
  screener : ∀ s, d.screener = some s → s.WF

omit [PyFloat F] in
theorem Stage.WF.of_mem_allConditions {s : Stage F} (h : s.WF) {c : Condition F}
    (hc : c ∈ s.allConditions) : c.WF := by
  have hgroups : ∀ gs : List (ConditionGroup F), (∀ g ∈ gs, g.WF) → c ∈ groupConditions gs → c.WF := by
    intro gs hgs hmem
    obtain ⟨g, hg, hcg⟩ := List.mem_flatMap.mp hmem
    exact (hgs g hg).conditions c hcg
  simp only [Stage.allConditions, Stage.ownConditions, List.mem_append] at hc
  rcases hc with ((((hc | hc) | hc) | hc) | hc)
  · exact h.conditions c hc
  · exact h.anyConditions c hc
  · exact h.notConditions c hc
  · cases hq : s.sequence with
    | none => simp [Stage.sequenceConditions, hq] at hc
    | some q =>
      simp only [Stage.sequenceConditions, hq, List.mem_append] at hc
      rcases hc with hc | hc
      · exact hgroups _ (h.sequence q hq).first hc
      · exact hgroups _ (h.sequence q hq).andThen hc
  · cases hb : s.breadth with
    | none => simp [Stage.breadthConditions, hb] at hc
    | some b =>
      simp only [Stage.breadthConditions, hb] at hc
      exact hgroups _ (h.breadth b hb).condition hc

namespace Parse

/-! ## reading helpers -/

variable {path s : String} {v : PyVal F}

theorem nonEmptyStr_eq_ok : nonEmptyStr v path = .ok s ↔ v = .str s ∧ s ≠ "" := by
  cases v with
  | str t =>
    by_cases ht : t = ""
    · subst ht
      simp only [nonEmptyStr, if_true, PyVal.str.injEq]
      exact ⟨fun h => absurd h (by simp), fun h => absurd h.1.symm h.2⟩
    · simp only [nonEmptyStr, if_neg ht, Except.ok.injEq, PyVal.str.injEq]
      exact ⟨fun h => ⟨h, h ▸ ht⟩, fun h => h.1⟩
  | _ => simp [nonEmptyStr]

theorem ne_empty_of_nonEmptyStr (h : nonEmptyStr v path = .ok s) : s ≠ "" :=
  (nonEmptyStr_eq_ok.mp h).2

variable {key : String}

theorem ne_empty_of_requireStr {raw : Dict Key (PyVal F)} (h : requireStr raw key path = .ok s) :
    s ≠ "" := by
  unfold requireStr at h
  split at h
  · exact absurd h (by simp)
  · exact ne_empty_of_nonEmptyStr h

variable {r : Option α} {read : PyVal F → Except PyErr α}

omit [PyFloat F] in
theorem optional_eq_ok {raw : Dict Key (PyVal F)} (h : optional raw key read = .ok r) :
    (present raw key = none ∧ r = none) ∨
      ∃ v a, present raw key = some v ∧ read v = .ok a ∧ r = some a := by
  unfold optional at h
  cases hp : present raw key with
  | none =>
    simp only [hp, Except.ok.injEq] at h
    exact .inl ⟨rfl, h.symm⟩
  | some v =>
    simp only [hp, bind_eq_ok, Except.ok.injEq] at h
    obtain ⟨a, ha, hr⟩ := h
    exact .inr ⟨v, a, rfl, ha, hr.symm⟩

variable {P : α → Prop}

omit [PyFloat F] in
theorem of_optional {raw : Dict Key (PyVal F)} (h : optional raw key read = .ok r)
    (hP : ∀ v a, read v = .ok a → P a) : ∀ a, r = some a → P a := by
  rintro a rfl
  rcases optional_eq_ok h with ⟨_, hr⟩ | ⟨v, b, _, hb, hr⟩
  · cases hr
  · cases hr
    exact hP v a hb

omit [PyFloat F] in
theorem of_block {raw : Dict Key (PyVal F)} (h : block raw key read = .ok r)
    (hP : ∀ v a, read v = .ok a → P a) : ∀ a, r = some a → P a := by
  rintro a rfl
  unfold block at h
  split at h
  · exact absurd h (by simp)
  · simp only [bind_eq_ok, Except.ok.injEq, Option.some.injEq] at h
    obtain ⟨b, hb, rfl⟩ := h
    exact hP _ _ hb

theorem ne_empty_of_optionalStr {raw : Dict Key (PyVal F)} {r : Option String}
    (h : optionalStr raw key path = .ok r) : r ≠ some "" := by
  intro hr
  exact of_optional h (fun v a ha => ne_empty_of_nonEmptyStr ha) "" hr rfl

omit [PyFloat F] in
theorem ne_empty_of_strEntry {raw : Dict Key (PyVal F)} {default : String} {bad : PyVal F → PyErr}
    (hd : default ≠ "") (h : strEntry raw key default bad = .ok s) : s ≠ "" := by
  unfold strEntry at h
  split at h
  · simp only [Except.ok.injEq] at h
    exact h ▸ hd
  · split at h
    · exact absurd h (by simp)
    · next hs =>
        simp only [Except.ok.injEq] at h
        exact h ▸ hs
  · exact absurd h (by simp)

variable {minimum n : Int}

theorem le_of_positiveInt (h : positiveInt v path minimum = .ok n) : minimum ≤ n := by
  unfold positiveInt at h
  split at h
  · split at h
    · exact absurd h (by simp)
    · next hlt =>
        simp only [Except.ok.injEq] at h
        omega
  · exact absurd h (by simp)

theorem nonneg_of_intOfDigits {cs : List Char} (h : intOfDigits cs = .ok n) : 0 ≤ n := by
  unfold intOfDigits at h
  split at h
  · simp only [Except.ok.injEq] at h
    omega
  · exact absurd h (by simp)

theorem pos_of_durationUnit? {c : Char} {k : Int} (h : durationUnit? c = some k) : 0 < k := by
  unfold durationUnit? at h
  grind

theorem nonneg_of_durationSeconds (h : durationSeconds v path = .ok n) : 0 ≤ n := by
  unfold durationSeconds at h
  split at h
  · exact absurd h (by simp)
  · exact le_of_positiveInt h
  · simp only at h
    split at h
    · exact absurd h (by simp)
    · split at h
      · exact nonneg_of_intOfDigits h
      · split at h
        · split at h
          · next k hk =>
              simp only [bind_eq_ok, Except.ok.injEq] at h
              obtain ⟨m, hm, rfl⟩ := h
              exact Int.mul_nonneg (nonneg_of_intOfDigits hm) (Int.le_of_lt (pos_of_durationUnit? hk))
          · exact absurd h (by simp)
        · exact absurd h (by simp)
  · exact absurd h (by simp)

omit [PyFloat F] in
theorem rankInRange_of_intField {raw : Dict Key (PyVal F)} {r : Option Int}
    (h : intField raw key path = .ok r) : RankInRange r := by
  refine of_optional h fun v a ha => ?_
  split at ha
  · split at ha
    · exact absurd ha (by simp)
    · next hlt =>
        simp only [Except.ok.injEq] at ha
        simp only [Bool.or_eq_true, decide_eq_true_eq, not_or] at hlt
        omega
  · exact absurd ha (by simp)

theorem forall_of_mapIdxM {f : Nat → α → Except PyErr β} {i : Nat} {as : List α} {bs : List β}
    (h : mapIdxM f i as = .ok bs) {P : β → Prop} (hP : ∀ j a b, f j a = .ok b → P b) :
    ∀ b ∈ bs, P b := by
  intro b hb
  obtain ⟨j, a, _, hj⟩ := exists_of_mem_mapIdxM h hb
  exact hP j a b hj

/-! ## operands and conditions -/

variable {o : Operand F}

omit [PyFloat F] in
theorem wf_of_pairOperand {raw : Dict Key (PyVal F)} (h : pairOperand raw path = .ok (some o)) :
    o.WF := by
  have hone : ∀ kind spec, kind ≠ "" → pairOperand.one raw path kind spec = .ok (some o) → o.WF := by
    intro kind spec hkind hk
    unfold pairOperand.one at hk
    split at hk
    · simp only [bind_eq_ok, reduceCtorEq, and_false, exists_false, false_and] at hk
    · simp only [bind_eq_ok, Except.ok.injEq, Option.some.injEq] at hk
      obtain ⟨_, _, _, _, _, _, rfl⟩ := hk
      exact ⟨by simpa using hkind, by simp⟩
  unfold pairOperand at h
  split at h
  · exact absurd h (by simp)
  · exact absurd h (by simp)
  · exact hone _ _ (by decide) h
  · exact hone _ _ (by decide) h

theorem wf_of_explicitOperand {raw : Dict Key (PyVal F)} (h : explicitOperand raw path = .ok o) :
    o.WF := by
  simp only [explicitOperand, bind_eq_ok, Except.ok.injEq] at h
  obtain ⟨_, _, _, _, kind, _, name, hname, _, _, _, _, source, hsource, rfl⟩ := h
  exact ⟨ne_empty_of_optionalStr hname, fun hs => absurd hs (ne_empty_of_optionalStr hsource)⟩

theorem wf_of_shorthandOperand {raw : Dict Key (PyVal F)} (h : shorthandOperand raw path = .ok o) :
    o.WF := by
  simp only [shorthandOperand, bind_eq_ok] at h
  obtain ⟨pair, hpair, h⟩ := h
  cases pair with
  | some p =>
    simp only [Except.ok.injEq] at h
    exact h ▸ wf_of_pairOperand hpair
  | none =>
    simp only [bind_eq_ok] at h
    obtain ⟨params, _, h⟩ := h
    split at h
    · simp only [bind_eq_ok, Except.ok.injEq] at h
      obtain ⟨name, hname, rfl⟩ := h
      exact ⟨by simpa using ne_empty_of_nonEmptyStr hname, by simp⟩
    · simp only [bind_eq_ok, Except.ok.injEq] at h
      obtain ⟨name, hname, rfl⟩ := h
      exact ⟨by simpa using ne_empty_of_nonEmptyStr hname, by simp⟩
    · simp only [bind_eq_ok, Except.ok.injEq] at h
      obtain ⟨value, _, rfl⟩ := h
      exact ⟨by simp, by simp⟩
    · simp only [Except.ok.injEq] at h
      subst h
      exact ⟨by simp, by simp⟩

variable {raw : PyVal F}

theorem wf_of_operand (h : operand raw path = .ok o) : o.WF := by
  unfold operand at h
  split at h
  · simp only [Except.ok.injEq] at h
    subst h
    exact ⟨by simp, by simp⟩
  · exact absurd h (by simp)
  · simp only [bind_eq_ok, Except.ok.injEq] at h
    obtain ⟨value, _, rfl⟩ := h
    exact ⟨by simp, by simp⟩
  · simp only [bind_eq_ok, Except.ok.injEq] at h
    obtain ⟨value, _, rfl⟩ := h
    exact ⟨by simp, by simp⟩
  · split at h
    · exact wf_of_explicitOperand h
    · exact wf_of_shorthandOperand h
  · exact absurd h (by simp)

theorem wf_of_condition {c : Condition F} (h : condition raw path = .ok c) : c.WF := by
  simp only [condition, bind_eq_ok] at h
  obtain ⟨d, _, _, _, _, _, op, hop, _, _, h⟩ := h
  have hop := ne_empty_of_requireStr hop
  split at h
  · simp only [bind_eq_ok, Except.ok.injEq] at h
    obtain ⟨left, hleft, right, hright, rfl⟩ := h
    exact ⟨by simpa using hop, wf_of_operand hleft, wf_of_operand hright⟩
  · split at h
    · simp only [bind_eq_ok, Except.ok.injEq] at h
      obtain ⟨name, hname, value, _, rfl⟩ := h
      exact ⟨by simpa using hop, ⟨by simpa using ne_empty_of_requireStr hname, by simp⟩, ⟨by simp, by simp⟩⟩
    · exact absurd h (by simp)
  · exact absurd h (by simp)

variable {cs : List (Condition F)}

theorem wf_of_conditionList (h : conditionList raw path = .ok cs) :
    (∀ c ∈ cs, c.WF) ∧ (Text.endsWith path ".not" = true → cs.length ≤ 1) := by
  simp only [conditionList, bind_eq_ok, ensure_eq_ok, exists_const] at h
  obtain ⟨items, _, hnot, h⟩ := h
  refine ⟨forall_of_mapIdxM h fun j v c hc => wf_of_condition hc, fun hpath => ?_⟩
  rw [length_of_mapIdxM h]
  simp only [hpath, Bool.and_true, Bool.not_eq_true', decide_eq_false_iff_not] at hnot
  omega

theorem endsWith_append (p suffix s : String) (h : suffix.toList.length ≤ s.toList.length) :
    Text.endsWith (p ++ s) suffix = Text.endsWith s suffix := by
  unfold Text.endsWith
  rw [String.toList_append, Bool.eq_iff_iff, List.isSuffixOf_iff_suffix, List.isSuffixOf_iff_suffix]
  constructor
  · intro hs
    exact List.suffix_of_suffix_length_le hs (List.suffix_append _ _) h
  · intro hs
    exact hs.trans (List.suffix_append _ _)

theorem endsWith_not_sub (path : String) : Text.endsWith (sub path "not") ".not" = true := by
  unfold sub
  rw [endsWith_append _ _ _ (by decide)]
  decide

variable {kind : GroupKind}

theorem wf_of_namedGroup {items : PyVal F} {g : ConditionGroup F}
    (h : namedGroup kind items path = .ok g) : g.WF := by
  simp only [namedGroup, bind_eq_ok, Except.ok.injEq] at h
  obtain ⟨cs, hcs, rfl⟩ := h
  have hwf := wf_of_conditionList hcs
  refine ⟨hwf.1, fun hk => hwf.2 ?_⟩
  simp only at hk
  subst hk
  exact endsWith_not_sub path

variable {d : Dict Key (PyVal F)} {gs : List (ConditionGroup F)}

theorem wf_of_groupsOfDict (h : groupsOfDict path d = .ok gs) :
    gs.length = d.length ∧ ∀ g ∈ gs, g.WF := by
  induction d generalizing gs with
  | nil =>
    simp only [groupsOfDict, Except.ok.injEq] at h
    subst h
    simp
  | cons e d ih =>
    obtain ⟨k, v⟩ := e
    unfold groupsOfDict at h
    split at h
    · exact absurd h (by simp)
    · simp only [bind_eq_ok, Except.ok.injEq] at h
      obtain ⟨g, hg, gs', hgs', rfl⟩ := h
      have hrest := ih hgs'
      refine ⟨by simp [hrest.1], fun x hx => ?_⟩
      rcases List.mem_cons.mp hx with rfl | hx
      · exact wf_of_namedGroup hg
      · exact hrest.2 x hx

omit [PyFloat F] in
theorem length_of_groupEntries? {vs : List (PyVal F)} {es : List (GroupKind × PyVal F)}
    (h : groupEntries? vs = some es) : es.length = vs.length := by
  induction vs generalizing es with
  | nil =>
    simp only [groupEntries?, Option.some.injEq] at h
    simp [← h]
  | cons v vs ih =>
    unfold groupEntries? at h
    split at h
    · next e es' _ hes =>
        simp only [Option.some.injEq] at h
        simp [← h, ih hes]
    · exact absurd h (by simp)

theorem wf_of_conditionGroups (h : conditionGroups raw path = .ok gs) :
    gs ≠ [] ∧ ∀ g ∈ gs, g.WF := by
  unfold conditionGroups at h
  split at h
  · split at h
    · next es hes =>
        have hlen : gs.length = es.length := length_of_mapIdxM h
        rw [length_of_groupEntries? hes] at hlen
        refine ⟨fun hnil => by simp [hnil] at hlen, ?_⟩
        exact forall_of_mapIdxM h fun _ _ _ hg => wf_of_namedGroup hg
    · simp only [bind_eq_ok, Except.ok.injEq] at h
      obtain ⟨cs, hcs, rfl⟩ := h
      exact ⟨by simp, by simpa using ⟨(wf_of_conditionList hcs).1, by simp⟩⟩
  · simp only [Except.ok.injEq] at h
    subst h
    exact ⟨by simp, by simpa using ⟨by simp, by simp⟩⟩
  · exact absurd h (by simp)
  · next d hd =>
      have hwf := wf_of_groupsOfDict h
      refine ⟨fun hnil => ?_, hwf.2⟩
      have hlen := hwf.1
      simp only [hnil, List.length_nil] at hlen
      exact hd (List.length_eq_zero_iff.mp hlen.symm)
  · exact absurd h (by simp)

theorem wf_of_conditions (h : conditions raw path = .ok cs) : ∀ c ∈ cs, c.WF := by
  unfold conditions at h
  split at h
  · simp only [bind_eq_ok] at h
    obtain ⟨_, _, _, _, h⟩ := h
    split at h
    · exact (wf_of_conditionList h).1
    · simp only [Except.ok.injEq] at h
      simp [← h]
  · exact (wf_of_conditionList h).1
  · exact absurd h (by simp)

theorem wf_of_inlineGroup (h : inlineGroup raw kind path = .ok cs) :
    (∀ c ∈ cs, c.WF) ∧ (kind = .not → cs.length ≤ 1) := by
  unfold inlineGroup at h
  split at h
  · split at h
    · have hwf := wf_of_conditionList h
      refine ⟨hwf.1, fun hk => hwf.2 ?_⟩
      subst hk
      exact endsWith_not_sub path
    · simp only [Except.ok.injEq] at h
      simp [← h]
  · simp only [Except.ok.injEq] at h
    simp [← h]

theorem wf_of_stageGroup {raw : Dict Key (PyVal F)} {alias_ : String} {inline : List (Condition F)}
    (h : stageGroup raw kind alias_ path inline = .ok cs)
    (hinline : (∀ c ∈ inline, c.WF) ∧ (kind = .not → inline.length ≤ 1)) :
    (∀ c ∈ cs, c.WF) ∧ (kind = .not → cs.length ≤ 1) := by
  unfold stageGroup at h
  split at h
  · have hwf := wf_of_conditionList h
    refine ⟨hwf.1, fun hk => hwf.2 ?_⟩
    subst hk
    exact endsWith_not_sub path
  · simp only [Except.ok.injEq] at h
    exact h ▸ hinline

/-! ## stages -/

theorem wf_of_sequenceSpec {q : SequenceSpec F} (h : sequenceSpec raw path = .ok q) : q.WF := by
  simp only [sequenceSpec, bind_eq_ok, ensure_eq_ok, exists_const, Except.ok.injEq] at h
  obtain ⟨d, _, _, _, _, _, bars, _, within, hwithin, hbound, first, hfirst, andThen, hthen, rfl⟩ := h
  have hf := wf_of_conditionGroups hfirst
  have ht := wf_of_conditionGroups hthen
  refine ⟨hf.1, ht.1, hf.2, ht.2, hbound, fun n hn => ?_⟩
  exact of_block hwithin (fun _ _ hs => nonneg_of_durationSeconds hs) n hn

omit [PyFloat F] in
theorem two_le_of_distinctInstruments (h : distinctInstruments d path = .ok n) : 2 ≤ n := by
  unfold distinctInstruments at h
  split at h
  · split at h
    · exact absurd h (by simp)
    · simp only [Except.ok.injEq] at h
      omega
  · exact absurd h (by simp)

theorem wf_of_breadthSpec {b : BreadthSpec F} (h : breadthSpec raw path = .ok b) : b.WF := by
  simp only [breadthSpec, bind_eq_ok, ensure_eq_ok, exists_const, Except.ok.injEq] at h
  obtain ⟨d, _, _, _, _, _, n, hn, _, w, hw, mode, hmode, cond, hcond, rfl⟩ := h
  have hc := wf_of_conditionGroups hcond
  refine ⟨hc.1, hc.2, ?_, nonneg_of_durationSeconds hw, ?_⟩
  · exact two_le_of_distinctInstruments hn
  · have hne := ne_empty_of_optionalStr hmode
    cases mode with
    | none => simp
    | some m => simpa using hne

theorem timeframeOf_timeframeOf (t : String) : timeframeOf (timeframeOf t) = timeframeOf t := by
  unfold timeframeOf
  cases h : timeframeAliases.get? (Text.lower (Text.strip t)) with
  | none => simp [h]
  | some name =>
    have hmem := Dict.mem_of_get? h
    have hstable : ∀ e ∈ timeframeAliases,
        timeframeAliases.get? (Text.lower (Text.strip e.2)) = none := by decide +kernel
    simp [hstable _ hmem]

theorem timeframeOf_ne_empty {t : String} (h : t ≠ "") : timeframeOf t ≠ "" := by
  unfold timeframeOf
  cases hget : timeframeAliases.get? (Text.lower (Text.strip t)) with
  | none => simpa using h
  | some name =>
    have hnames : ∀ e ∈ timeframeAliases, e.2 ≠ "" := by decide +kernel
    simpa using hnames _ (Dict.mem_of_get? hget)

theorem ne_empty_of_stageClock {raw : Dict Key (PyVal F)} {clock : String}
    (h : stageClock raw path = .ok clock) : clock ≠ "" := by
  simp only [stageClock, bind_eq_ok] at h
  obtain ⟨given, hgiven, evaluateOn, hon, h⟩ := h
  split at h
  · next e =>
      simp only [bind_eq_ok, Except.ok.injEq] at h
      obtain ⟨_, _, rfl⟩ := h
      have hne := of_block hon (fun _ _ hs => ne_empty_of_nonEmptyStr hs) e rfl
      unfold evaluateOnToClock
      split
      · decide
      · exact hne
  · next c =>
      simp only [Except.ok.injEq] at h
      subst h
      exact of_block hgiven (fun _ _ hs => ne_empty_of_nonEmptyStr hs) c rfl
  · exact absurd h (by simp)

theorem ne_empty_of_stageSourceField {raw : Dict Key (PyVal F)} {field : Option String}
    (h : stageSourceField raw path = .ok field) : field ≠ some "" := by
  simp only [stageSourceField, bind_eq_ok, Except.ok.injEq] at h
  obtain ⟨field', hfield, _, _, rfl⟩ := h
  simp only [sourceOrField, bind_eq_ok] at hfield
  obtain ⟨source, hsource, hfield⟩ := hfield
  split at hfield
  · simp only [Except.ok.injEq] at hfield
    exact hfield ▸ ne_empty_of_optionalStr hsource
  · exact ne_empty_of_optionalStr hfield

variable {index : Nat}

theorem wf_of_stage {s : Stage F} (h : stage raw index = .ok s) : s.WF := by
  simp only [stage, bind_eq_ok, ensure_eq_ok, exists_const, Except.ok.injEq] at h
  obtain ⟨d, _, _, id, hid, _, _, type, htype, clock, hclock, tf, htf, input, hinput, fn, hfn,
    params, _, src, hsrc, bars, _, seq, hseq, br, hbr, _, cs, hcs, inAny, hinAny, inNot, hinNot,
    anyC, hany, notC, hnot, rfl⟩ := h
  have hany' := wf_of_stageGroup hany (wf_of_inlineGroup hinAny)
  have hnot' := wf_of_stageGroup hnot (wf_of_inlineGroup hinNot)
  have htf' := ne_empty_of_optionalStr htf
  exact
    { id := ne_empty_of_requireStr hid
      type := by simpa using ne_empty_of_strEntry (by decide) htype
      clock := by simpa using ne_empty_of_stageClock hclock
      timeframe := by
        cases tf with
        | none => simp
        | some t => simpa using timeframeOf_ne_empty (by simpa using htf')
      timeframeOf := by
        cases tf with
        | none => simp
        | some t => simpa using timeframeOf_timeframeOf t
      input := ne_empty_of_optionalStr hinput
      function := ne_empty_of_optionalStr hfn
      sourceField := ne_empty_of_stageSourceField hsrc
      conditions := wf_of_conditions hcs
      anyConditions := hany'.1
      notConditions := hnot'.1
      not_single := hnot'.2 rfl
      sequence := of_block hseq fun _ _ hq => wf_of_sequenceSpec hq
      breadth := of_block hbr fun _ _ hb => wf_of_breadthSpec hb }

theorem wf_of_alertTrigger {raw : Dict Key (PyVal F)} {trigger : String}
    (h : alertTrigger raw path = .ok trigger) : trigger ≠ "" ∧ trigger ≠ "on_signal" := by
  simp only [alertTrigger, bind_eq_ok] at h
  obtain ⟨given, hgiven, h⟩ := h
  have hword : ∀ t, given = some t → t ≠ "" ∧ t ≠ "on_signal" := by
    refine of_optional hgiven fun v t ht => ?_
    simp only [bind_eq_ok, Except.ok.injEq] at ht
    obtain ⟨u, hu, rfl⟩ := ht
    have hne := ne_empty_of_nonEmptyStr hu
    split
    · exact ⟨by decide, by decide⟩
    · next hu' => exact ⟨hne, hu'⟩
  split at h
  · simp only [Except.ok.injEq] at h
    subst h
    cases given with
    | none => exact ⟨by decide, by decide⟩
    | some t => exact hword t rfl
  · simp only [bind_eq_ok, Except.ok.injEq] at h
    obtain ⟨_, _, rfl⟩ := h
    split <;> exact ⟨by decide, by decide⟩
  · exact absurd h (by simp)

theorem nonneg_of_seconds {raw : Dict Key (PyVal F)} {r : Option Int} (hmin : 0 ≤ minimum)
    (h : seconds raw key path minimum = .ok r) : ∀ n, r = some n → 0 ≤ n := by
  rintro n rfl
  simp only [seconds, bind_eq_ok] at h
  obtain ⟨direct, hdirect, h⟩ := h
  split at h
  · simp only [Except.ok.injEq] at h
    have hle := of_optional hdirect (fun v a ha => le_of_positiveInt ha) n h
    omega
  · simp only [bind_eq_ok, Except.ok.injEq, Option.some.injEq] at h
    obtain ⟨s, hs, _, _, rfl⟩ := h
    exact nonneg_of_durationSeconds hs

theorem ne_empty_of_expiresAt {raw : Dict Key (PyVal F)} {r : Option String}
    (h : expiresAt raw path = .ok r) : r ≠ some "" := by
  simp only [expiresAt, bind_eq_ok] at h
  obtain ⟨at_, hat, alias_, halias, h⟩ := h
  split at h
  · simp only [Except.ok.injEq] at h
    exact h ▸ ne_empty_of_optionalStr hat
  · simp only [bind_eq_ok, Except.ok.injEq] at h
    obtain ⟨_, _, rfl⟩ := h
    exact ne_empty_of_optionalStr halias

theorem wf_of_alert {a : AlertSpec F} (h : alert raw index = .ok a) : a.WF := by
  simp only [alert, bind_eq_ok, ensure_eq_ok, exists_const, Except.ok.injEq] at h
  obtain ⟨d, _, _, id, hid, _, _, source, hsource, trigger, htrigger, cool, hcool, rem, _, rearm, _,
    notify, _, exp, hexp, chans, hchans, msg, hmsg, cap, _, reset, hreset, rfl⟩ := h
  simp only [alertChannels, bind_eq_ok] at hchans
  obtain ⟨items, _, hchans⟩ := hchans
  exact
    { id := ne_empty_of_requireStr hid
      source := ne_empty_of_requireStr hsource
      trigger := by simpa using (wf_of_alertTrigger htrigger).1
      trigger_canonical := by simpa using (wf_of_alertTrigger htrigger).2
      cooldownS := nonneg_of_seconds (by decide) hcool
      rearm := by simp
      expiresAt := ne_empty_of_expiresAt hexp
      channels := forall_of_mapIdxM hchans fun _ _ _ hc => ne_empty_of_nonEmptyStr hc
      message := ne_empty_of_optionalStr hmsg
      sessionCapReset := ne_empty_of_optionalStr hreset }

/-! ## universe and screener -/

theorem wf_of_universeRef {r : UniverseRef} (h : universeRef raw path = .ok r) : r.name ≠ "" := by
  simp only [universeRef, bind_eq_ok] at h
  obtain ⟨d, _, _, _, h⟩ := h
  split at h
  · simp only [bind_eq_ok, Except.ok.injEq] at h
    obtain ⟨_, _, _, _, name, hname, rfl⟩ := h
    exact ne_empty_of_requireStr hname
  · split at h
    · simp only [bind_eq_ok, Except.ok.injEq] at h
      obtain ⟨name, hname, rfl⟩ := h
      exact ne_empty_of_requireStr hname
    · exact absurd h (by simp)

variable {rs : List UniverseRef}

theorem wf_of_universeRefs {items : List (PyVal F)} (h : universeRefs items path = .ok rs) :
    ∀ r ∈ rs, r.name ≠ "" :=
  forall_of_mapIdxM h fun _ _ _ hr => wf_of_universeRef hr

theorem wf_of_unionRefs (h : unionRefs d = .ok rs) : rs ≠ [] ∧ ∀ r ∈ rs, r.name ≠ "" := by
  unfold unionRefs at h
  split at h
  · exact absurd h (by simp)
  · exact absurd h (by simp)
  · simp only [bind_eq_ok, ensure_eq_ok, exists_const] at h
    obtain ⟨items, _, hne, h⟩ := h
    refine ⟨fun hnil => ?_, wf_of_universeRefs h⟩
    have hlen := length_of_mapIdxM h
    rw [hnil, List.length_nil] at hlen
    simp [List.length_eq_zero_iff.mp hlen.symm] at hne

theorem wf_of_excludeRefs (h : excludeRefs d = .ok rs) : ∀ r ∈ rs, r.name ≠ "" := by
  unfold excludeRefs at h
  split at h
  · simp only [Except.ok.injEq] at h
    simp [← h]
  · simp only [bind_eq_ok] at h
    obtain ⟨items, _, h⟩ := h
    exact wf_of_universeRefs h

theorem wf_of_intersectRefs (h : intersectRefs d = .ok rs) : ∀ r ∈ rs, r.name ≠ "" := by
  unfold intersectRefs at h
  split at h
  · simp only [Except.ok.injEq] at h
    simp [← h]
  · simp only [bind_eq_ok] at h
    obtain ⟨items, _, _, _, h⟩ := h
    exact wf_of_universeRefs h

theorem wf_of_universeSpec {u : UniverseSpec} (h : universeSpec raw = .ok u) : u.WF := by
  simp only [universeSpec, bind_eq_ok, Except.ok.injEq] at h
  obtain ⟨d, _, _, _, refs, hrefs, exclude, hexclude, intersect, hintersect, dedup, _, rfl⟩ := h
  exact ⟨(wf_of_unionRefs hrefs).1, (wf_of_unionRefs hrefs).2, wf_of_excludeRefs hexclude,
    wf_of_intersectRefs hintersect⟩

theorem wf_of_scheduleSpec {s : ScheduleSpec} (h : scheduleSpec raw = .ok s) : s.WF := by
  simp only [scheduleSpec, bind_eq_ok, ensure_eq_ok, exists_const, Except.ok.injEq] at h
  obtain ⟨d, _, _, _, text, _, every, _, hevery, calendar, _, hcalendar, hat, rfl⟩ := h
  simp only [Bool.and_eq_true, decide_eq_true_eq] at hevery
  refine ⟨⟨every, hevery.1, hevery.2, rfl⟩, by simpa using hcalendar, fun t ht => ?_⟩
  simp only at ht
  rw [ht] at hat
  simpa using hat

variable {entryRank exitRank : Option Int}

theorem wf_of_topNRanks {topN : Int} {ranks : Int × Int}
    (h : topNRanks topN entryRank exitRank path = .ok ranks) :
    ranks.1 = entryRank.getD topN ∧ ranks.2 = exitRank.getD (topN + max 1 (topN / 2)) ∧
      ranks.1 < ranks.2 := by
  simp only [topNRanks, bind_eq_ok, ensure_eq_ok, exists_const, Except.ok.injEq] at h
  obtain ⟨hlt, rfl⟩ := h
  exact ⟨rfl, rfl, by simpa using hlt⟩

variable {a : AttachmentSpec}

/-- What a successful `_attachment_spec` has read and checked.  The ranks of the
result are the explicit ones, or for `top_n` those of `topNRanks`. -/
theorem attachmentSpec_eq_ok (h : attachmentSpec raw path = .ok a) :
    ∃ d, raw = .dict d ∧ requireStr d "id" path = .ok a.id ∧
      requireStr d "trigger" path = .ok (Named.name a.trigger) ∧
      attachmentChannels d path = .ok a.channels ∧ intField d "top_n" (sub path "top_n") = .ok a.topN ∧
      intField d "rank_delta" (sub path "rank_delta") = .ok a.rankDelta ∧
      intField d "exit_after" (sub path "exit_after") = .ok a.exitAfter ∧
      optionalStr d "message" path = .ok a.message ∧ (a.trigger = .rankDelta → a.rankDelta.isSome) ∧
      ∃ entryRank exitRank,
        intField d "entry_rank" (sub path "entry_rank") = .ok entryRank ∧
        intField d "exit_rank" (sub path "exit_rank") = .ok exitRank ∧
        checkRanks entryRank exitRank path = .ok ⟨⟩ ∧ ((a.trigger = .topN ∧ ∃ n ranks, a.topN = some n ∧
            topNRanks n entryRank exitRank path = .ok ranks ∧
            a.entryRank = some ranks.1 ∧ a.exitRank = some ranks.2) ∨
          (a.trigger ≠ .topN ∧ a.entryRank = entryRank ∧ a.exitRank = exitRank ∧
            (a.trigger = .rankDelta → entryRank = none ∧ exitRank = none))) := by
  simp only [attachmentSpec, bind_eq_ok, ensure_eq_ok, exists_const] at h
  obtain ⟨d, hd, _, _, id, hid, word, hword, trigger, htrigger, channels, hchannels, topN, htopN,
    rankDelta, hrankDelta, entryRank, hentry, exitRank, hexit, exitAfter, hafter, initial, _,
    message, hmessage, hneedTop, hneedDelta, hneedRanks, _, hranks, h⟩ := h
  have hraw : raw = .dict d := by
    unfold asDict at hd
    split at hd
    · simp only [Except.ok.injEq] at hd
      rw [hd]
    · exact absurd hd (by simp)
  have hname : word = Named.name trigger := by
    unfold enumOf at htrigger
    split at htrigger
    · next e he =>
        simp only [Except.ok.injEq] at htrigger
        rw [← htrigger, Named.name_of_ofName? he]
    · exact absurd htrigger (by simp)
  have hdelta : trigger = .rankDelta → rankDelta.isSome = true ∧ entryRank = none ∧ exitRank = none := by
    rintro rfl
    cases rankDelta <;> cases entryRank <;> cases exitRank <;> simp_all
  split at h
  · next n =>
      simp only [bind_eq_ok, Except.ok.injEq] at h
      obtain ⟨ranks, hr, rfl⟩ := h
      exact ⟨d, hraw, hid, hname ▸ hword, hchannels, htopN, hrankDelta, hafter, hmessage,
        fun hk => (hdelta hk).1, entryRank, exitRank, hentry, hexit, hranks,
        .inl ⟨rfl, n, ranks, rfl, hr, rfl, rfl⟩⟩
  · next hother =>
      simp only [Except.ok.injEq] at h
      subst h
      have hne : trigger ≠ .topN := by
        rintro rfl
        cases topN with
        | none => simp at hneedTop
        | some n => exact hother n rfl rfl
      exact ⟨d, hraw, hid, hname ▸ hword, hchannels, htopN, hrankDelta, hafter, hmessage,
        fun hk => (hdelta hk).1, entryRank, exitRank, hentry, hexit, hranks,
        .inr ⟨hne, rfl, rfl, fun hk => (hdelta hk).2⟩⟩

omit [PyFloat F] in
theorem checkRanks_eq_ok :
    checkRanks entryRank exitRank path = .ok ⟨⟩ ↔
      ∀ entry exit, entryRank = some entry → exitRank = some exit → entry < exit := by
  cases entryRank with
  | none => simp [checkRanks]
  | some entry =>
    cases exitRank with
    | none => simp [checkRanks]
    | some exit => simp [checkRanks, ensure_eq_ok]

theorem ne_nil_of_attachmentChannels {cs : List String} (h : attachmentChannels d path = .ok cs) :
    cs ≠ [] := by
  unfold attachmentChannels at h
  split at h
  · simp only [Except.ok.injEq] at h
    simp [← h]
  · exact absurd h (by simp)

theorem wf_of_attachmentSpec (h : attachmentSpec raw path = .ok a) : a.WF := by
  obtain ⟨d, _, hid, _, hchannels, htopN, hrankDelta, hafter, hmessage, hdelta, entryRank, exitRank,
    hentry, hexit, hranks, hcase⟩ := attachmentSpec_eq_ok h
  have hentry := rankInRange_of_intField hentry
  have hexit := rankInRange_of_intField hexit
  have htop := rankInRange_of_intField htopN
  rw [checkRanks_eq_ok] at hranks
  have hbase : ∀ (he : RankInRange a.entryRank) (hx : ∀ k, a.exitRank = some k → 1 ≤ k)
      (ht : a.trigger = .topN → a.topN.isSome ∧ a.entryRank.isSome ∧ a.exitRank.isSome)
      (hd : a.trigger = .rankDelta → a.entryRank = none ∧ a.exitRank = none)
      (hr : ∀ entry exit, a.entryRank = some entry → a.exitRank = some exit → entry < exit),
      a.WF := fun he hx ht hd hr =>
    { id := ne_empty_of_requireStr hid
      channels := ne_nil_of_attachmentChannels hchannels
      topN := htop
      rankDelta := rankInRange_of_intField hrankDelta
      entryRank := he
      exitRank := hx
      exitAfter := rankInRange_of_intField hafter
      message := ne_empty_of_optionalStr hmessage
      topN_isSome := ht
      rankDelta_isSome := fun hk => ⟨hdelta hk, hd hk⟩
      ranks := hr }
  rcases hcase with ⟨htrig, n, ranks, hn, hr, he, hx⟩ | ⟨htrig, he, hx, hnone⟩
  · obtain ⟨hr1, hr2, hlt⟩ := wf_of_topNRanks hr
    have hn' := htop n hn
    have he1 : 1 ≤ ranks.1 ∧ ranks.1 ≤ 1000 := by
      cases entryRank with
      | none => simpa [hr1] using hn'
      | some e => simpa [hr1] using hentry e rfl
    refine hbase ?_ ?_ ?_ ?_ ?_
    · intro k hk
      rw [he, Option.some.injEq] at hk
      omega
    · intro k hk
      rw [hx, Option.some.injEq] at hk
      omega
    · intro _
      simp [hn, he, hx]
    · intro hk
      rw [htrig] at hk
      cases hk
    · intro entry exit h1 h2
      rw [he, Option.some.injEq] at h1
      rw [hx, Option.some.injEq] at h2
      omega
  · refine hbase (he ▸ hentry) (fun k hk => (hexit k (hx ▸ hk)).1) (fun hk => absurd hk htrig)
      (fun hk => ?_) (fun entry exit h1 h2 => hranks entry exit (he ▸ h1) (hx ▸ h2))
    rw [he, hx]
    exact hnone hk

theorem wf_of_screenerSpec {s : ScreenerSpec F} (h : screenerSpec raw = .ok s) : s.WF := by
  simp only [screenerSpec, bind_eq_ok, ensure_eq_ok, exists_const, Except.ok.injEq] at h
  obtain ⟨d, _, _, _, _, sched, hsched, rank, hrank, topN, htopN, fresh, hfresh, items, _, atts, hatts,
    rfl⟩ := h
  simp only [freshnessLimit, bind_eq_ok, ensure_eq_ok, exists_const, Except.ok.injEq] at hfresh
  obtain ⟨limit, _, hlimit, rfl⟩ := hfresh
  exact
    { schedule := wf_of_scheduleSpec hsched
      rank := of_optional hrank fun v r hr => by
        simp only [rankSpec, bind_eq_ok] at hr
        obtain ⟨_, _, _, _, _, _, hr⟩ := hr
        split at hr
        · exact absurd hr (by simp)
        · simp only [bind_eq_ok, Except.ok.injEq] at hr
          obtain ⟨o, ho, rfl⟩ := hr
          exact wf_of_operand ho
      topN := rankInRange_of_intField htopN
      freshness := by simpa using hlimit
      attachments := forall_of_mapIdxM hatts fun _ _ _ ha => wf_of_attachmentSpec ha }

/-! ## the document -/

theorem wf_of_instrument {i : InstrumentRef} (h : instrument raw path = .ok i) :
    i.symbol ≠ "" ∧ i.exchange ≠ "" := by
  unfold instrument at h
  split at h
  · simp only [bind_eq_ok, ensure_eq_ok, exists_const, Except.ok.injEq] at h
    obtain ⟨_, hne, rfl⟩ := h
    simp only [Bool.and_eq_true, decide_eq_true_eq] at hne
    exact hne.symm
  · simp only [bind_eq_ok, Except.ok.injEq] at h
    obtain ⟨_, _, _, _, symbol, hsymbol, exchange, hexchange, rfl⟩ := h
    exact ⟨ne_empty_of_requireStr hsymbol, ne_empty_of_requireStr hexchange⟩
  · exact absurd h (by simp)

omit [PyFloat F] in
theorem wf_of_dataPolicy {p : DataPolicy} (h : dataPolicy raw = .ok p) :
    p.missing ≠ "" ∧ p.insufficientHistory ≠ "" := by
  simp only [dataPolicy, bind_eq_ok, Except.ok.injEq] at h
  obtain ⟨d, _, _, _, missing, hmissing, history, hhistory, closed, _, rfl⟩ := h
  exact ⟨ne_empty_of_strEntry (by decide) hmissing, ne_empty_of_strEntry (by decide) hhistory⟩

theorem wf_of_optUniverse {u : Option UniverseSpec} (h : optUniverse d = .ok u) :
    ∀ v, u = some v → v.WF := by
  rintro v rfl
  unfold optUniverse at h
  split at h
  all_goals try exact absurd h (by simp)
  simp only [bind_eq_ok, Except.ok.injEq, Option.some.injEq] at h
  obtain ⟨w, hw, rfl⟩ := h
  exact wf_of_universeSpec hw

theorem wf_of_optScreener {s : Option (ScreenerSpec F)} (h : optScreener d = .ok s) :
    ∀ v, s = some v → v.WF := by
  rintro v rfl
  unfold optScreener at h
  split at h
  all_goals try exact absurd h (by simp)
  simp only [bind_eq_ok, Except.ok.injEq, Option.some.injEq] at h
  obtain ⟨w, hw, rfl⟩ := h
  exact wf_of_screenerSpec hw

variable {p : Parsed F}

theorem wf_of_parseDocument (h : parseDocument d = .ok p) : p.document.WF := by
  simp only [parseDocument, bind_eq_ok, ensure_eq_ok, exists_const, Except.ok.injEq] at h
  obtain ⟨_, _, _, name, hname, session, hsession, _, _, insts, hinsts, _, _, stages, hstages, _, _,
    alerts, halerts, policy, hpolicy, univ, huniv, scr, hscr, rfl⟩ := h
  exact
    { version := rfl
      name := ne_empty_of_nonEmptyStr hname
      session := ne_empty_of_strEntry (by decide) hsession
      instruments := forall_of_mapIdxM hinsts fun _ _ _ hi => wf_of_instrument hi
      stages := forall_of_mapIdxM hstages fun _ _ _ hs => wf_of_stage hs
      alerts := forall_of_mapIdxM halerts fun _ _ _ ha => wf_of_alert ha
      dataPolicy := wf_of_dataPolicy hpolicy
      universe_ := wf_of_optUniverse huniv
      screener := wf_of_optScreener hscr }

theorem wf_of_parseWorkflowDict {obj : PyVal F} (h : parseWorkflowDict obj = .ok p) :
    p.document.WF := by
  simp only [parseWorkflowDict, bind_eq_ok] at h
  obtain ⟨d, _, _, _, hd⟩ := h
  exact wf_of_parseDocument hd

end Parse

end KiteAlgo
