import KiteAlgo.Compiler.Accepted
import KiteAlgo.Parser.RoundTrip

/-!
# KiteAlgo.Compiler.Canonical

When the canonical mapping of an accepted document parses again.

The worker reads a stored revision with `parse_workflow_dict`, so this decides
which accepted documents it can run.  Two things can go wrong: the canonical
mapping is larger than the authored one and may exceed the parse budget, and a
`top_n` attachment without an explicit `exit_rank` gets a default that may lie
beyond the bound the parser enforces on explicit ranks.
-/

namespace KiteAlgo

open Parse Compile List Option

variable {F : Type} [PyFloat F]

variable {p : Parsed F}

theorem checked_of_accepts {fromIso : String → Option Int} (hwf : p.document.WF)
    (h : accepts fromIso p) : Checked p.document := by
  obtain ⟨_, _, _, _, halerts, _⟩ := passes_of_accepts h
  refine ⟨fun o ho => ?_, fun a ha => ?_⟩
  · refine source_ne_empty_of_validated ?_ (validated_of_accepts hwf h o ho)
    rcases mem_append.mp ho with ho | ho
    · obtain ⟨s, hs, ho⟩ := mem_flatMap.mp ho
      obtain ⟨c, hc, ho⟩ := mem_flatMap.mp ho
      have hcwf : c.WF := (hwf.stages s hs).of_mem_allConditions hc
      simp only [Condition.operands, mem_cons, not_mem_nil, or_false] at ho
      rcases ho with rfl | rfl
      · exact hcwf.left
      · exact hcwf.right
    · unfold WorkflowDocument.rankOperands at ho
      split at ho
      · next r heq =>
          simp only [mem_cons, not_mem_nil, or_false] at ho
          subst ho
          exact (hwf.screener _ heq).rank _ rfl
      · simp at ho
  · exact reminder_pos_of_validateAlert (hwf.alerts a ha).id (halerts a ha)

/-! ## exit ranks -/

/-- The raw attachments of a screener mapping. -/
def screenerAttachments (screener : PyVal F) : List (PyVal F) :=
  match screener.entries.get? "attachments" with
  | some (.list items) => items
  | _ => []

/-- The raw attachments of a loaded document. -/
def rawAttachments (x : PyVal F) : List (PyVal F) :=
  match x.entries.get? "screener" with
  | some screener => screenerAttachments screener
  | none => []

/-- A `top_n` attachment without `exit_rank` whose default exit rank,
`top_n + max(1, top_n // 2)`, exceeds 1000. -/
def DefaultExitRankTooHigh (raw : PyVal F) : Prop :=
  raw.entries.get? "trigger" = some (.str "top_n") ∧ present raw.entries "exit_rank" = none ∧
    ∃ n, present raw.entries "top_n" = some (.int n) ∧ 668 ≤ n

variable {key path : String} {raw : Dict Key (PyVal F)}

omit [PyFloat F] in
theorem present_of_intField {r : Option Int} (h : intField raw key path = .ok r) :
    present raw key = r.map .int := by
  rcases optional_eq_ok h with ⟨hp, rfl⟩ | ⟨v, n, hp, hv, rfl⟩
  · simp [hp]
  · rw [hp]
    split at hv
    · split at hv
      · exact absurd hv (by simp)
      · simp only [Except.ok.injEq] at hv
        simp [hv]
    · exact absurd hv (by simp)

theorem get?_of_requireStr {s : String} (h : requireStr raw key path = .ok s) :
    raw.get? key = some (.str s) := by
  unfold requireStr at h
  split at h
  · exact absurd h (by simp)
  · next hget => rw [hget, (nonEmptyStr_eq_ok.mp h).1]

theorem exitRank_le_iff {raw : PyVal F} {a : AttachmentSpec} (h : attachmentSpec raw path = .ok a) :
    (∀ k, a.exitRank = some k → k ≤ 1000) ↔ ¬ DefaultExitRankTooHigh raw := by
  obtain ⟨d, rfl, _, htrigger, _, htopN, _, _, _, _, entryRank, exitRank, _, hexit, _, hcase⟩ :=
    attachmentSpec_eq_ok h
  have htrig := get?_of_requireStr htrigger
  have htop := present_of_intField htopN
  have hex := present_of_intField hexit
  have hexRange := rankInRange_of_intField hexit
  unfold DefaultExitRankTooHigh
  rcases hcase with ⟨ht, n, ranks, hn, hr, _, hx⟩ | ⟨ht, _, hx, _⟩
  · obtain ⟨_, hr2, _⟩ := wf_of_topNRanks hr
    simp only [entries_dict, htrig, ht, htop, hex, hn, hx]
    cases exitRank with
    | none =>
      simp only [getD_none] at hr2
      simp only [some.injEq, forall_eq', map_some, map_none, PyVal.int.injEq,
        true_and, Named.name]
      constructor
      · rintro hle ⟨m, rfl, hm⟩
        omega
      · intro hno
        by_contra hgt
        exact hno ⟨n, rfl, by omega⟩
    | some k =>
      have hk := hexRange k rfl
      simp only [getD_some] at hr2
      simp [hr2, hk.2]
  · have hne : Named.name a.trigger ≠ Named.name AttachmentTrigger.topN := fun he =>
      ht (Named.name_inj he)
    constructor
    · rintro _ ⟨h1, _, _⟩
      simp only [entries_dict, htrig, some.injEq, PyVal.str.injEq] at h1
      exact hne h1
    · intro _ k hk
      exact (hexRange k (hx ▸ hk)).2

variable {s : ScreenerSpec F} {v : PyVal F}

theorem attachments_of_screenerSpec (h : screenerSpec v = .ok s) :
    mapIdxM (fun i v => attachmentSpec v (item "document.screener.attachments" i)) 0
      (screenerAttachments v) = .ok s.attachments := by
  simp only [screenerSpec, bind_eq_ok, ensure_eq_ok, exists_const, Except.ok.injEq] at h
  obtain ⟨d, hd, _, _, _, _, _, _, _, _, _, _, _, items, hitems, atts, hatts, rfl⟩ := h
  have hv : v = .dict d := by
    cases v <;> simp_all [asDict]
  subst hv
  have hraw : screenerAttachments (.dict d) = items := by
    unfold screenerAttachments
    cases hget : d.get? "attachments" with
    | none =>
      simp only [hget, getD_none, asList, Except.ok.injEq] at hitems
      simp [hget, ← hitems]
    | some w =>
      cases w <;> simp_all [asList]
  rw [hraw]
  exact hatts

theorem exitRanksInBounds_iff (h : screenerSpec v = .ok s) :
    ExitRanksInBounds s ↔ ∀ raw ∈ screenerAttachments v, ¬ DefaultExitRankTooHigh raw := by
  have hread := attachments_of_screenerSpec h
  constructor
  · intro hin raw hraw
    obtain ⟨j, a, ha, hj⟩ := exists_ok_of_mem_mapIdxM hread hraw
    exact (exitRank_le_iff hj).mp (hin a ha)
  · intro hno a ha
    obtain ⟨j, raw, hraw, hj⟩ := exists_of_mem_mapIdxM hread ha
    exact (exitRank_le_iff hj).mpr (hno raw hraw)

theorem documentExitRanks_iff {x : PyVal F} (h : parseWorkflowDict x = .ok p) :
    DocumentExitRanks p.document ↔ ∀ raw ∈ rawAttachments x, ¬ DefaultExitRankTooHigh raw := by
  simp only [parseWorkflowDict, bind_eq_ok] at h
  obtain ⟨d, hd, _, _, h⟩ := h
  have hx : x = .dict d := by
    cases x <;> simp_all [asDict]
  subst hx
  simp only [parseDocument, bind_eq_ok, ensure_eq_ok, exists_const, Except.ok.injEq] at h
  obtain ⟨_, _, _, name, _, session, _, _, _, insts, _, _, _, stages, _, _, _, alerts, _, policy, _,
    univ, _, scr, hscr, rfl⟩ := h
  unfold DocumentExitRanks rawAttachments
  simp only [entries_dict]
  unfold optScreener at hscr
  split at hscr
  · next hget =>
      simp only [Except.ok.injEq] at hscr
      simp [hget, ← hscr]
  · next hget =>
      simp only [Except.ok.injEq] at hscr
      simp [hget, ← hscr, screenerAttachments, PyVal.entries]
  · next hget =>
      simp only [Except.ok.injEq] at hscr
      simp [hget, ← hscr, screenerAttachments]
  · next v _ _ hget =>
      simp only [bind_eq_ok, Except.ok.injEq] at hscr
      obtain ⟨s, hs, rfl⟩ := hscr
      simp only [hget, some.injEq, forall_eq']
      exact exitRanksInBounds_iff hs

/-! ## the round trip -/

omit [PyFloat F] in
theorem not_defaultExitRankTooHigh_of_canonical {doc : WorkflowDocument F} (hwf : doc.WF) :
    ∀ raw ∈ rawAttachments (toDocumentDict doc), ¬ DefaultExitRankTooHigh raw := by
  intro raw hraw hdefault
  cases hs : doc.screener with
  | none => simp [rawAttachments, toDocumentDict, hs] at hraw
  | some s =>
    have hitems : rawAttachments (toDocumentDict doc) = s.attachments.map attachmentDict := by
      cases ha : s.attachments <;>
        simp [rawAttachments, toDocumentDict, hs, screenerAttachments, screenerDict, ha]
    rw [hitems, List.mem_map] at hraw
    obtain ⟨a, ha, rfl⟩ := hraw
    obtain ⟨htrigger, hexit, _⟩ := hdefault
    have htopN : a.trigger = .topN := by
      simp only [attachmentDict, entries_record, Dict.get?_append, Dict.get?_cons, Key.str.injEq,
        String.reduceEq, if_false, if_true, some_or, some.injEq, PyVal.str.injEq] at htrigger
      exact Named.name_inj (show Named.name a.trigger = Named.name AttachmentTrigger.topN from htrigger)
    obtain ⟨k, hk⟩ := isSome_iff_exists.mp
      (((hwf.screener s hs).attachments a ha).topN_isSome htopN).2.2
    rw [present_of_get?_map (o := a.exitRank) (f := .int) (by simp [attachmentDict])
      fun _ => by simp] at hexit
    simp [hk] at hexit

/-- The canonical mapping of an accepted document parses back to that document
exactly when it fits the parse budget and no attachment of the input relies on
a default exit rank beyond 1000. -/
theorem parse_canonical_iff {fromIso : String → Option Int} {sha256 : String → String}
    {x : PyVal F} {p : Parsed F} {c : CompiledWorkflow F} (hparse : parseWorkflowDict x = .ok p)
    (hcompile : compileDocument fromIso sha256 p = .ok c) :
    (∃ q, parseWorkflowDict (toDocumentDict p.document) = .ok q ∧ q.document = p.document) ↔
      ((toDocumentDict p.document).depth ≤ maxDepth ∧ (toDocumentDict p.document).nodes ≤ maxNodes ∧
        ∀ raw ∈ rawAttachments x, ¬ DefaultExitRankTooHigh raw) := by
  have hwf := wf_of_parseWorkflowDict hparse
  have hchecked := checked_of_accepts hwf (accepts_of_compileDocument hcompile)
  rw [← documentExitRanks_iff hparse]
  constructor
  · rintro ⟨q, hq, hdoc⟩
    have hexit := (documentExitRanks_iff hq).mpr (not_defaultExitRankTooHigh_of_canonical hwf)
    simp only [parseWorkflowDict, bind_eq_ok] at hq
    obtain ⟨_, _, _, hbudget, _⟩ := hq
    obtain ⟨hdepth, hnodes⟩ := checkBudget_eq_ok.mp hbudget
    exact ⟨hdepth, hnodes, hdoc ▸ hexit⟩
  · rintro ⟨hdepth, hnodes, hexit⟩
    refine ⟨{ document := p.document }, ?_, rfl⟩
    have hbudget : checkBudget (toDocumentDict p.document) = .ok () :=
      checkBudget_eq_ok.mpr ⟨hdepth, hnodes⟩
    have hdict : toDocumentDict p.document = .dict (toDocumentDict p.document).entries := rfl
    have hread := parseDocument_toDocumentDict hwf hchecked hexit
    unfold parseWorkflowDict
    rw [hbudget, hdict]
    simp only [asDict, ok_bind]
    exact hread

/-- A screener that reports the first `n` names of its ranking. -/
def topNScreener (n : Int) : PyVal ℚ :=
  .ofPairs
    [("version", .int 1), ("name", .str "breakouts"), ("instruments", .list [.str "NSE:INFY"]),
     ("stages", .list
       [.ofPairs
         [("id", .str "momentum"), ("clock", .str "candle_close"), ("timeframe", .str "1d"),
          ("conditions", .list
            [.ofPairs [("field", .str "close"), ("op", .str "gt"), ("value", .int 100)]])]]),
     ("screener", .ofPairs
       [("schedule", .ofPairs [("every", .str "1d"), ("at", .str "15:30")]), ("attachments", .list
          [.ofPairs
            [("id", .str "leaders"), ("trigger", .str "top_n"), ("top_n", .int n),
             ("channels", .list [.str "telegram"])]])])]

/-- With `top_n: 667` the default exit rank is 1000 and the document parses
again. -/
theorem parse_canonical_topN_667 :
    ∃ p, parseWorkflowDict (topNScreener 667) = .ok p ∧
      (∀ fromIso sha256, ∃ c, compileDocument fromIso sha256 p = .ok c) ∧
      ∃ q, parseWorkflowDict (toDocumentDict p.document) = .ok q ∧ q.document = p.document := by
  obtain ⟨p, hp, hcheck⟩ := exists_of_parsesWith (topNScreener 667)
    (fun p => compilesPlainly p && decide ((toDocumentDict p.document).depth ≤ maxDepth) &&
      decide ((toDocumentDict p.document).nodes ≤ maxNodes)) (by decide +kernel)
  simp only [Bool.and_eq_true, decide_eq_true_eq] at hcheck
  obtain ⟨⟨hcompiles, hdepth⟩, hnodes⟩ := hcheck
  have hcompile := exists_compile_of_compilesPlainly hcompiles
  obtain ⟨c, hc⟩ := hcompile (fun _ => none) id
  refine ⟨p, hp, hcompile, (parse_canonical_iff hp hc).mpr ⟨hdepth, hnodes, ?_⟩⟩
  intro raw hraw
  have hitems : rawAttachments (topNScreener 667) =
      [.ofPairs [("id", .str "leaders"), ("trigger", .str "top_n"), ("top_n", .int 667),
        ("channels", .list [.str "telegram"])]] := rfl
  rw [hitems, List.mem_singleton] at hraw
  subst hraw
  rintro ⟨_, _, n, hn, hge⟩
  simp [present, PyVal.ofPairs] at hn
  omega

/-- With `top_n: 668` the default exit rank is 1002: the document is accepted and
never parses again. -/
theorem canonical_topN_668_rejected :
    ∃ p, parseWorkflowDict (topNScreener 668) = .ok p ∧
      (∀ fromIso sha256, ∃ c, compileDocument fromIso sha256 p = .ok c) ∧
      ∀ q, parseWorkflowDict (toDocumentDict p.document) ≠ .ok q := by
  obtain ⟨p, hp, hcheck⟩ := exists_of_parsesWith (topNScreener 668)
    (fun p => compilesPlainly p && !(parseWorkflowDict (toDocumentDict p.document)).isOk)
    (by decide +kernel)
  simp only [Bool.and_eq_true, Bool.not_eq_true'] at hcheck
  refine ⟨p, hp, exists_compile_of_compilesPlainly hcheck.1, fun q hq => ?_⟩
  simp [hq, Except.isOk, Except.toBool] at hcheck

end KiteAlgo
