import KiteAlgo.Bindings

/-!
# KiteAlgo.Bindings.Replacement

A replaced token over whole runs of changes and bars.  `key in change.changed` asks for a
pair in a mapping keyed by texts (`inChanged_pair`), so no window is ever released and
what is left of the old token is what the history does not overwrite: nothing of a
dispatch window is, and of a feature-only window what has no bar in the history, or
everything when the window is full.
-/

namespace KiteAlgo

variable {F : Type} [PyFloat F]

theorem BindingChange.inChanged_pair (change : BindingChange) (key : WindowKey) :
    change.inChanged (.pair key) = false := by
  rw [inChanged, ← Bool.not_eq_true, List.contains_iff_mem]
  intro hmem
  obtain ⟨e, -, he⟩ := List.mem_map.mp hmem
  cases he

/-! ## one window -/

namespace FeedEngine

variable {compute : FeatureSpec F → List (Bar F) → Option F} {feed : FeedEngine F}
  {key : WindowKey}

/-- Every bar of the window was read after `replaced` replacements. -/
def ReadUnder (feed : FeedEngine F) (key : WindowKey) (replaced : Nat) : Prop :=
  ∀ ts ∈ feed.held key, feed.readAt key ts = some replaced

variable {bars : List (Observation F)} {engine : FeatureEngine F} {key' : WindowKey}
  {replaced : Nat}

theorem withWindow_of_ne {h} (hne : key ≠ key') :
    (feed.withWindow engine key bars replaced h).held key' = feed.held key' ∧
      (feed.withWindow engine key bars replaced h).readAt key' = feed.readAt key' := by
  constructor
  · simp only [held, withWindow]
    rw [h, Dict.get?_set, if_neg hne]
  · funext ts
    simp only [readAt, withWindow]
    rw [Dict.get?_set, if_neg hne]

theorem readUnder_withWindow {h}
    (hclean : feed.ReadUnder key replaced ∨ ∀ ts ∈ feed.held key, ∃ obs ∈ bars, obs.ts = ts) :
    (feed.withWindow engine key bars replaced h).ReadUnder key replaced := by
  intro ts hts
  have haligned := (feed.withWindow engine key bars replaced h).aligned key
  have hkeys : ts ∈ Dict.keys ((((feed.withWindow engine key bars replaced h).reads).get? key).getD
      []) := by
    rw [haligned]
    exact hts
  simp only [withWindow, Dict.get?_set_self, Option.getD_some] at hkeys
  simp only [readAt, withWindow, Dict.get?_set_self, Option.getD_some]
  have hnodup : (Dict.keys ((feed.reads.get? key).getD [])).Nodup := by
    rw [feed.aligned key]
    exact feed.nodup key
  cases get?_fillReads hnodup hkeys with
  | inl hnew => exact hnew
  | inr hold =>
    obtain ⟨hheld, hbars, hget⟩ := hold
    rw [feed.aligned key] at hheld
    rw [hget]
    cases hclean with
    | inl hread => exact hread ts hheld
    | inr hcovered =>
      obtain ⟨obs, hobs, heq⟩ := hcovered ts hheld
      exact absurd heq (hbars obs hobs)

theorem warm_of_ne (hne : key ≠ key') (compute : FeatureSpec F → List (Bar F) → Option F)
    (feed : FeedEngine F) (history : Nat → Option (List (Observation F))) (replaced : Nat) :
    (feed.warm compute key history replaced).held key' = feed.held key' ∧
      (feed.warm compute key history replaced).readAt key' = feed.readAt key' := by
  unfold warm
  exact withWindow_of_ne hne

theorem onBar_of_ne (hne : key ≠ key') (compute : FeatureSpec F → List (Bar F) → Option F)
    (feed : FeedEngine F) (obs : Observation F) (replaced : Nat) :
    (feed.onBar compute key obs replaced).held key' = feed.held key' ∧
      (feed.onBar compute key obs replaced).readAt key' = feed.readAt key' := by
  unfold onBar
  exact withWindow_of_ne hne

theorem readUnder_onBar {obs : Observation F} (h : feed.ReadUnder key replaced) :
    (feed.onBar compute key obs replaced).ReadUnder key replaced := by
  unfold onBar
  exact readUnder_withWindow (.inl h)

theorem readUnder_warm {history : Nat → Option (List (Observation F))}
    (h : feed.ReadUnder key replaced) : (feed.warm compute key history replaced).ReadUnder key replaced :=
  readUnder_withWindow (.inl h)

theorem readUnder_warm_of_covered {history : Nat → Option (List (Observation F))}
    (hfull : (feed.held key).length < feed.engine.maxWindow)
    (hbars : history feed.engine.maxWindow = some bars)
    (hcovered : ∀ ts ∈ feed.held key, ∃ obs ∈ bars, obs.ts = ts) :
    (feed.warm compute key history replaced).ReadUnder key replaced := by
  have hwarm : feed.warmBars key history = bars := by
    rw [warmBars, if_neg (by omega), hbars]
    rfl
  refine readUnder_withWindow (.inr fun ts hts => ?_)
  rw [hwarm]
  exact hcovered ts hts

theorem warm_engine (compute : FeatureSpec F → List (Bar F) → Option F) (feed : FeedEngine F)
    (key : WindowKey) (history : Nat → Option (List (Observation F))) (replaced : Nat) :
    (feed.warm compute key history replaced).engine.specs = feed.engine.specs ∧
      (feed.warm compute key history replaced).engine.maxWindow = feed.engine.maxWindow := by
  have hrecompute : ∀ engine : FeatureEngine F,
      (engine.recompute compute key.1 key.2).2.specs = engine.specs ∧
        (engine.recompute compute key.1 key.2).2.maxWindow = engine.maxWindow := by
    intro engine
    simp only [FeatureEngine.recompute]
    split
    · exact ⟨rfl, rfl⟩
    · split <;> exact ⟨rfl, rfl⟩
  show (feed.engine.warm compute key.1 key.2 history).2.specs = _ ∧
    (feed.engine.warm compute key.1 key.2 history).2.maxWindow = _
  simp only [FeatureEngine.warm]
  split
  · exact ⟨rfl, rfl⟩
  · split
    · exact ⟨rfl, rfl⟩
    · exact hrecompute _

theorem release_of_ne {instrumentKey : String} (hne : key.1 ≠ instrumentKey) :
    (feed.release instrumentKey none).held key = feed.held key ∧
      (feed.release instrumentKey none).readAt key = feed.readAt key ∧
      (feed.release instrumentKey none).engine.declaredFor key = feed.engine.declaredFor key := by
  have hkept : (!feed.engine.doomed instrumentKey none key) = true := by
    simp [FeatureEngine.doomed, hne]
  refine ⟨?_, ?_, ?_⟩
  · simp only [held, release, FeatureEngine.release]
    rw [Dict.get?_filterKeys fun k => !feed.engine.doomed instrumentKey none k, if_pos hkept]
  · funext ts
    simp only [readAt, release]
    rw [Dict.get?_filterKeys fun k => !feed.engine.doomed instrumentKey none k, if_pos hkept]
  · simp only [FeatureEngine.declaredFor, release, FeatureEngine.release]
    rw [Dict.get?_filterKeys fun k => !feed.engine.doomed instrumentKey none k, if_pos hkept]

end FeedEngine

theorem FeatureEngine.keys_onBar (compute : FeatureSpec F → List (Bar F) → Option F)
    (engine : FeatureEngine F) (instrumentKey timeframe : String) (obs : Observation F) :
    Dict.keys (engine.onBar compute instrumentKey timeframe obs).1 =
      Dict.keys (engine.declaredFor (instrumentKey, timeframe)) := by
  simp only [onBar, recompute, Dict.get?_set_self]
  split
  · next hempty =>
    have hnil : engine.declaredFor (instrumentKey, timeframe) = [] := List.isEmpty_iff.mp hempty
    rw [hnil]
    rfl
  · simp only [results, Dict.keys, List.map_map]
    rfl

/-! ## the loops of a change -/

namespace Feeds

variable {compute : FeatureSpec F → List (Bar F) → Option F} {history : CandleHistory F}
  {change : BindingChange}

theorem foldl_rebuildTick (change : BindingChange) (keys : List String) (feeds : Feeds F) :
    ∃ sources, keys.foldl (rebuildTick change) feeds = { feeds with tickSources := sources } := by
  induction keys generalizing feeds with
  | nil => exact ⟨feeds.tickSources, rfl⟩
  | cons key keys ih =>
    have hstep : ∃ sources, rebuildTick change feeds key = { feeds with tickSources := sources } := by
      simp only [rebuildTick]
      split
      · exact ⟨_, rfl⟩
      · exact ⟨_, rfl⟩
    obtain ⟨sources, hstep⟩ := hstep
    rw [List.foldl_cons, hstep]
    obtain ⟨sources', hrest⟩ := ih { feeds with tickSources := sources }
    exact ⟨sources', hrest⟩

/-- The dispatch source of a group after the candle loop. -/
def opened (feeds : Feeds F) (change : BindingChange) (key : WindowKey) : Option Nat :=
  if feeds.usable change key.1 && ((feeds.candleSubs.get? key).getD []).length ≠ 0 then
    some (feeds.replaced key.1)
  else none

variable {feeds : Feeds F}

theorem opened_eq_some {key : WindowKey} {g : Nat} (h : feeds.opened change key = some g) :
    feeds.usable change key.1 = true ∧ (feeds.candleSubs.get? key).getD [] ≠ [] ∧
      g = feeds.replaced key.1 := by
  unfold opened at h
  split at h
  · next hand =>
    rw [Bool.and_eq_true] at hand
    exact ⟨hand.1, by simpa using hand.2, (Option.some.inj h).symm⟩
  · cases h

theorem rebuildCandle_eq_ok (change : BindingChange) {key : WindowKey}
    (hreadable : feeds.opened change key ≠ none → history key feeds.warmupBars ≠ none) :
    ∃ sources replays, rebuildCandle history change feeds key =
        .ok { feeds with candleSources := sources, replays := replays } ∧
      ∀ key', sources.get? key' =
        if key = key' then feeds.opened change key else feeds.candleSources.get? key' := by
  unfold rebuildCandle opened usable
  unfold opened usable at hreadable
  simp only
  split
  · next hopen =>
    rw [if_pos hopen] at hreadable
    obtain ⟨bars, hbars⟩ := Option.ne_none_iff_exists'.mp (hreadable (by simp))
    simp only [hbars]
    refine ⟨_, _, rfl, fun key' => ?_⟩
    rw [Dict.get?_set, Dict.get?_erase]
    by_cases hkey : key = key'
    · simp [hkey]
    · simp [hkey]
  · refine ⟨_, _, rfl, fun key' => ?_⟩
    rw [Dict.get?_erase]

theorem foldlM_rebuildCandle {keys : List WindowKey} {feeds : Feeds F}
    (hreadable : ∀ key ∈ keys, feeds.opened change key ≠ none → history key feeds.warmupBars ≠ none) :
    ∃ sources replays, keys.foldlM (rebuildCandle history change) feeds =
        .ok { feeds with candleSources := sources, replays := replays } ∧
      ∀ key, sources.get? key =
        if key ∈ keys then feeds.opened change key else feeds.candleSources.get? key := by
  induction keys generalizing feeds with
  | nil => exact ⟨feeds.candleSources, feeds.replays, rfl, by simp⟩
  | cons key keys ih =>
    obtain ⟨sources, replays, hstep, hget⟩ :=
      rebuildCandle_eq_ok change (hreadable key (.head _))
    have hrest : ∀ k ∈ keys, feeds.opened change k ≠ none → history k feeds.warmupBars ≠ none :=
      fun k hk => hreadable k (List.mem_cons_of_mem key hk)
    obtain ⟨sources', replays', hfold, hget'⟩ :=
      @ih { feeds with candleSources := sources, replays := replays } hrest
    refine ⟨sources', replays', ?_, fun k => ?_⟩
    · rw [List.foldlM_cons, hstep]
      exact hfold
    · rw [hget' k]
      have hopened : Feeds.opened { feeds with candleSources := sources, replays := replays } change k =
        feeds.opened change k := rfl
      rw [hopened, hget k]
      by_cases hmem : k ∈ keys
      · simp [hmem]
      · by_cases hkey : key = k
        · simp [hmem, hkey]
        · have hkey' : ¬ k = key := fun h => hkey h.symm
          simp [hmem, hkey, hkey']

/-- What the feature loop does to one window. -/
structure FeatureStep (history : CandleHistory F) (change : BindingChange) (keys : List WindowKey)
    (before after : Feeds F) : Prop where
  frame : ∃ sources feed warmed, after =
    { before with featureSources := sources, feed := feed, featureWarmed := warmed }
  sources : ∀ key, after.featureSources.get? key =
    if key ∈ keys then if before.usable change key.1 then some (before.replaced key.1) else none
    else before.featureSources.get? key
  declared : ∀ key, after.feed.engine.declaredFor key = before.feed.engine.declaredFor key
  maxWindow : after.feed.engine.maxWindow = before.feed.engine.maxWindow
  others : ∀ key, key ∉ keys → after.feed.held key = before.feed.held key
  clean : ∀ key, before.feed.ReadUnder key (before.replaced key.1) ∨
    key ∈ keys ∧ before.usable change key.1 = true ∧ Covers history before key →
      after.feed.ReadUnder key (before.replaced key.1)

theorem rebuildFeature_step (compute : FeatureSpec F → List (Bar F) → Option F)
    (history : CandleHistory F) (change : BindingChange) (feeds : Feeds F) (key : WindowKey) :
    FeatureStep history change [key] feeds (rebuildFeature compute history change feeds key) := by
  have husable : Feeds.usable { feeds with featureSources := feeds.featureSources.erase key } change
    key.1 = feeds.usable change key.1 := rfl
  unfold rebuildFeature
  simp only [husable, change.inChanged_pair, Bool.false_eq_true, if_false]
  by_cases huse : feeds.usable change key.1 = true
  · simp only [huse, if_true]
    obtain ⟨hspecs, hmax⟩ := feeds.feed.warm_engine compute key (history key) (feeds.replaced key.1)
    constructor
    · exact ⟨_, _, _, rfl⟩
    · intro key'
      rw [Dict.get?_set, Dict.get?_erase]
      by_cases hkey : key = key'
      · subst hkey
        simp [huse]
      · have hkey' : ¬ key' = key := fun h => hkey h.symm
        simp [hkey, hkey']
    · intro key'
      simp only [FeatureEngine.declaredFor, hspecs]
    · exact hmax
    · intro key' hnot
      have hne : key ≠ key' := fun h => hnot (h ▸ (.head _))
      exact (FeedEngine.warm_of_ne hne compute feeds.feed (history key) (feeds.replaced key.1)).1
    · intro key' hclean
      by_cases hkey : key = key'
      · subst hkey
        cases hclean with
        | inl hread => exact FeedEngine.readUnder_warm hread
        | inr hcovers =>
          obtain ⟨-, -, hfull, bars, hbars, hcovered⟩ := hcovers
          exact FeedEngine.readUnder_warm_of_covered hfull hbars hcovered
      · have hread := hclean.resolve_right fun h => hkey (List.mem_singleton.mp h.1).symm
        obtain ⟨hheld, hreadAt⟩ :=
          FeedEngine.warm_of_ne hkey compute feeds.feed (history key) (feeds.replaced key.1)
        intro ts hts
        have hts : ts ∈ feeds.feed.held key' := hheld ▸ hts
        exact (congrFun hreadAt ts).trans (hread ts hts)
  · simp only [huse]
    constructor
    · exact ⟨_, _, _, rfl⟩
    · intro key'
      simp only [Bool.false_eq_true, if_false]
      rw [Dict.get?_erase]
      by_cases hkey : key = key'
      · subst hkey
        simp [huse]
      · have hkey' : ¬ key' = key := fun h => hkey h.symm
        simp [hkey, hkey']
    · intro key'
      rfl
    · rfl
    · intro key' hnot
      rfl
    · intro key' hclean
      refine hclean.resolve_right fun h => ?_
      rw [List.mem_singleton.mp h.1] at h
      exact huse h.2.1

theorem covers_congr {before after : Feeds F} {key : WindowKey}
    (hheld : after.feed.held key = before.feed.held key)
    (hmax : after.feed.engine.maxWindow = before.feed.engine.maxWindow)
    (h : Covers history before key) : Covers history after key := by
  unfold Covers at *
  rw [hheld, hmax]
  exact h

theorem foldl_rebuildFeature (compute : FeatureSpec F → List (Bar F) → Option F)
    (history : CandleHistory F) (change : BindingChange) (keys : List WindowKey) (feeds : Feeds F) :
    FeatureStep history change keys feeds
      (keys.foldl (rebuildFeature compute history change) feeds) := by
  induction keys generalizing feeds with
  | nil =>
    exact ⟨⟨_, _, _, rfl⟩, by simp, by simp, rfl, by simp, fun key h =>
      h.resolve_right fun hmem => by simp at hmem⟩
  | cons key keys ih =>
    have hone := rebuildFeature_step compute history change feeds key
    have hrest := ih (rebuildFeature compute history change feeds key)
    obtain ⟨sources, feed, warmed, hframe⟩ := hone.frame
    have husable : ∀ k, (rebuildFeature compute history change feeds key).usable change k =
        feeds.usable change k := by
      intro k
      rw [hframe]
      rfl
    have hreplaced : (rebuildFeature compute history change feeds key).replaced = feeds.replaced := by
      rw [hframe]
    rw [List.foldl_cons]
    constructor
    · obtain ⟨sources', feed', warmed', hframe'⟩ := hrest.frame
      refine ⟨sources', feed', warmed', ?_⟩
      rw [hframe', hframe]
    · intro k
      rw [hrest.sources k, husable, hreplaced, hone.sources k]
      by_cases hmem : k ∈ keys
      · simp [hmem]
      · simp [hmem]
    · intro k
      rw [hrest.declared k, hone.declared k]
    · rw [hrest.maxWindow, hone.maxWindow]
    · intro k hnot
      rw [List.mem_cons, not_or] at hnot
      rw [hrest.others k hnot.2, hone.others k (by simpa using hnot.1)]
    · intro k hclean
      have hclean' := hrest.clean k
      rw [hreplaced, husable] at hclean'
      apply hclean'
      rcases hclean with hread | ⟨hmem, huse, hcovers⟩
      · exact .inl (hone.clean k (.inl hread))
      · by_cases hkey : k = key
        · exact .inl (hone.clean k (.inr ⟨by simp [hkey], huse, hcovers⟩))
        · have hkeys : k ∈ keys := (List.mem_cons.mp hmem).resolve_left hkey
          exact .inr ⟨hkeys, huse,
            covers_congr (hone.others k (by simpa using hkey)) hone.maxWindow hcovers⟩

theorem foldl_retire (removed : List String) (feeds : Feeds F) (key : WindowKey) :
    (removed.foldl retire feeds).candleSources = feeds.candleSources ∧
      (removed.foldl retire feeds).replaced = feeds.replaced ∧
      (key.1 ∈ removed → (removed.foldl retire feeds).featureSources.get? key = none) ∧ (key.1 ∉ removed →
        (removed.foldl retire feeds).featureSources.get? key = feeds.featureSources.get? key ∧
        (removed.foldl retire feeds).feed.held key = feeds.feed.held key ∧
        (removed.foldl retire feeds).feed.readAt key = feeds.feed.readAt key ∧
        (removed.foldl retire feeds).feed.engine.declaredFor key = feeds.feed.engine.declaredFor key) := by
  have hsources : ∀ (feeds : Feeds F) (k : String), (retire feeds k).featureSources.get? key =
      if key.1 = k then none else feeds.featureSources.get? key := by
    intro feeds k
    simp only [retire]
    rw [Dict.get?_filterKeys fun wk : WindowKey => decide (wk.1 ≠ k)]
    by_cases hk : key.1 = k
    · simp [hk]
    · simp [hk]
  have hgone : ∀ (removed : List String) (feeds : Feeds F), feeds.featureSources.get? key = none →
      (removed.foldl retire feeds).featureSources.get? key = none := by
    intro removed
    induction removed with
    | nil => exact fun feeds h => h
    | cons k removed ih =>
      intro feeds h
      refine ih _ ?_
      rw [hsources, h]
      split <;> rfl
  induction removed generalizing feeds with
  | nil => exact ⟨rfl, rfl, by simp, fun _ => ⟨rfl, rfl, rfl, rfl⟩⟩
  | cons k removed ih =>
    obtain ⟨hcandle, hreplaced, hin, hout⟩ := ih (retire feeds k)
    refine ⟨hcandle, hreplaced, fun hmem => ?_, fun hmem => ?_⟩
    · by_cases hk : key.1 = k
      · refine hgone removed _ ?_
        rw [hsources, if_pos hk]
      · exact hin ((List.mem_cons.mp hmem).resolve_left hk)
    · rw [List.mem_cons, not_or] at hmem
      obtain ⟨hfeature, hheld, hread, hdeclared⟩ := hout hmem.2
      obtain ⟨hheld', hread', hdeclared'⟩ := @FeedEngine.release_of_ne F _ feeds.feed key k hmem.1
      rw [List.foldl_cons]
      refine ⟨?_, hheld.trans hheld', hread.trans hread', hdeclared.trans hdeclared'⟩
      rw [hfeature, hsources, if_neg hmem.1]

/-! ## a change -/

omit [PyFloat F] in
theorem mem_affectedOf {β : Type} {table : Dict WindowKey β} {key : WindowKey} :
    key ∈ affectedOf change table ↔ table.contains key = true ∧ change.affected key.1 = true := by
  rw [affectedOf, List.mem_filter, Dict.contains_iff_mem_keys]

variable {k : String}

theorem affected_of_changed (h : change.changed.contains k = true) : change.affected k = true := by
  simp [BindingChange.affected, h]

theorem step_change {feeds : Feeds F} (h : Overwrites feeds change history) {k : String}
    (hk : change.changed.contains k = true) :
    ∃ opened : Feeds F, opened.feed = feeds.feed ∧ opened.replaced = (feeds.accept change).replaced ∧
      opened.tokens = (feeds.accept change).tokens ∧ opened.featureSources = feeds.featureSources ∧
      (∀ key, opened.candleSources.get? key = if key ∈ affectedOf change feeds.candleSubs then
          (feeds.accept change).opened change key else feeds.candleSources.get? key) ∧
      feeds.step compute (.change change history) = change.removed.foldl retire
        ((affectedOf change feeds.featureSources).foldl (rebuildFeature compute history change)
          opened) := by
  have hchanges : change.hasChanges = true := by
    cases hchanged : change.changed with
    | nil => simp [hchanged, Dict.contains] at hk
    | cons e rest => simp [BindingChange.hasChanges, hchanged]
  obtain ⟨ticks, hticks⟩ := foldl_rebuildTick change change.affectedKeys (feeds.accept change)
  have hreadable : ∀ key ∈ affectedOf change feeds.candleSubs,
      (feeds.accept change).opened change key ≠ none → history key feeds.warmupBars ≠ none := by
    intro key hkey hopen
    obtain ⟨g, hg⟩ := Option.ne_none_iff_exists'.mp hopen
    obtain ⟨huse, hsubs, -⟩ := opened_eq_some hg
    rw [usable, Bool.and_eq_true, Bool.not_eq_true'] at huse
    exact h.replayed key (mem_affectedOf.mp hkey).2 huse.1 hsubs
  obtain ⟨sources, replays, hcandles, hget⟩ := @foldlM_rebuildCandle F _ history change
    (affectedOf change feeds.candleSubs) { feeds.accept change with tickSources := ticks } hreadable
  refine ⟨{ feeds.accept change with
    tickSources := ticks, candleSources := sources, replays := replays }, rfl, rfl, rfl, rfl, ?_, ?_⟩
  · exact hget
  · have happly : applyBindingChange compute history change (feeds.accept change) =
        .ok (change.removed.foldl retire ((affectedOf change feeds.featureSources).foldl
          (rebuildFeature compute history change) { feeds.accept change with
            tickSources := ticks, candleSources := sources, replays := replays })) := by
      simp only [applyBindingChange, hchanges, hticks, Bool.not_true, Bool.false_eq_true, if_false]
      show ((affectedOf change feeds.candleSubs).foldlM (rebuildCandle history change)
        { feeds.accept change with tickSources := ticks } >>= _ : Except (Feeds F) (Feeds F)) = _
      rw [hcandles]
      rfl
    rw [step, happly]

/-- The feeds of a replaced instrument before the rejected ones are retired. -/
structure Reopened (feeds : Feeds F) (change : BindingChange) (history : CandleHistory F) (k : String)
    (rebuilt : Feeds F) : Prop where
  replaced : rebuilt.replaced = (feeds.accept change).replaced
  candle : ∀ timeframe g, rebuilt.candleSources.get? (k, timeframe) = some g →
    (feeds.accept change).usable change k = true ∧
      (feeds.candleSubs.get? (k, timeframe)).getD [] ≠ [] ∧ g = (feeds.accept change).replaced k
  feature : ∀ timeframe g, rebuilt.featureSources.get? (k, timeframe) = some g →
    (feeds.accept change).usable change k = true ∧
      feeds.featureSources.contains (k, timeframe) = true ∧ g = (feeds.accept change).replaced k
  declared : ∀ key, rebuilt.feed.engine.declaredFor key = feeds.feed.engine.declaredFor key
  clean : ∀ timeframe, (feeds.accept change).usable change k = true → feeds.feed.held (k, timeframe) = [] ∨
      feeds.featureSources.contains (k, timeframe) = true ∧ Covers history feeds (k, timeframe) →
    rebuilt.feed.ReadUnder (k, timeframe) ((feeds.accept change).replaced k)

theorem reopened_change (compute : FeatureSpec F → List (Bar F) → Option F)
    (h : Overwrites feeds change history) (hk : change.changed.contains k = true) :
    ∃ rebuilt, Reopened feeds change history k rebuilt ∧
      feeds.step compute (.change change history) = change.removed.foldl retire rebuilt := by
  obtain ⟨opened, hfeed, hreplaced, htokens, hfeatures, hcandles, hstep⟩ :=
    @step_change F _ compute history change feeds h k hk
  have hloop := foldl_rebuildFeature compute history change
    (affectedOf change feeds.featureSources) opened
  refine ⟨_, ?_, hstep⟩
  generalize (affectedOf change feeds.featureSources).foldl (rebuildFeature compute history change)
    opened = rebuilt at hloop ⊢
  obtain ⟨sources, feed, warmed, hframe⟩ := hloop.frame
  have husable : ∀ i, opened.usable change i = (feeds.accept change).usable change i := by
    intro i
    rw [usable, usable, htokens]
  have haffected := affected_of_changed hk
  constructor
  · rw [hframe]
    exact hreplaced
  · intro timeframe g hg
    have hsame : rebuilt.candleSources = opened.candleSources := by rw [hframe]
    rw [hsame, hcandles] at hg
    by_cases hmem : (k, timeframe) ∈ affectedOf change feeds.candleSubs
    · rw [if_pos hmem] at hg
      exact opened_eq_some hg
    · -- an open source belongs to a group, and the loop visits all groups of `k`
      rw [if_neg hmem] at hg
      have hgroup := h.grouped (k, timeframe) hk (by simp [Dict.contains, hg])
      exact absurd (mem_affectedOf.mpr ⟨hgroup, haffected⟩) hmem
  · intro timeframe g hg
    rw [hloop.sources] at hg
    by_cases hmem : (k, timeframe) ∈ affectedOf change feeds.featureSources
    · rw [if_pos hmem] at hg
      by_cases huse : opened.usable change k = true
      · rw [if_pos huse, hreplaced] at hg
        exact ⟨husable k ▸ huse, (mem_affectedOf.mp hmem).1, (Option.some.inj hg).symm⟩
      · rw [if_neg huse] at hg
        cases hg
    · rw [if_neg hmem, hfeatures] at hg
      exact absurd (mem_affectedOf.mpr ⟨by simp [Dict.contains, hg], haffected⟩) hmem
  · intro key
    rw [hloop.declared, hfeed]
  · intro timeframe huse hover
    have hclean := hloop.clean (k, timeframe)
    rw [hreplaced, husable] at hclean
    apply hclean
    cases hover with
    | inl hempty =>
      left
      intro ts hts
      rw [hfeed, hempty] at hts
      cases hts
    | inr hcovered =>
      right
      exact ⟨mem_affectedOf.mpr ⟨hcovered.1, haffected⟩, huse,
        covers_congr (by rw [hfeed]) (by rw [hfeed]) hcovered.2⟩

/-- The sources of an instrument read under the present token, and its windows with an
open source hold nothing else. -/
structure Clean (feeds : Feeds F) (k : String) : Prop where
  candle : ∀ timeframe g, feeds.candleSources.get? (k, timeframe) = some g → g = feeds.replaced k
  feature : ∀ timeframe g, feeds.featureSources.get? (k, timeframe) = some g → g = feeds.replaced k
  windows : ∀ timeframe, feeds.live (k, timeframe) = true →
    feeds.feed.ReadUnder (k, timeframe) (feeds.replaced k)

theorem Reopened.of_live {rebuilt : Feeds F} {timeframe : String}
    (hopen : Reopened feeds change history k rebuilt)
    (hlive : (change.removed.foldl retire rebuilt).live (k, timeframe) = true) :
    k ∉ change.removed ∧ (feeds.accept change).usable change k = true ∧
      ((feeds.candleSubs.get? (k, timeframe)).getD [] ≠ [] ∨
        feeds.featureSources.contains (k, timeframe) = true) := by
  obtain ⟨hretired, -, hgone, hkept⟩ := foldl_retire change.removed rebuilt (k, timeframe)
  rw [live, Bool.or_eq_true] at hlive
  cases hlive with
  | inl hcandle =>
    rw [hretired] at hcandle
    obtain ⟨g, hg⟩ := Option.isSome_iff_exists.mp hcandle
    obtain ⟨huse, hsubs, -⟩ := hopen.candle timeframe g hg
    have hnot : k ∉ change.removed := by
      intro hmem
      simp [usable, hmem] at huse
    exact ⟨hnot, huse, .inl hsubs⟩
  | inr hfeature =>
    obtain ⟨g, hg⟩ := Option.isSome_iff_exists.mp hfeature
    have hnot : k ∉ change.removed := by
      intro hmem
      rw [hgone hmem] at hg
      cases hg
    rw [(hkept hnot).1] at hg
    obtain ⟨huse, hsource, -⟩ := hopen.feature timeframe g hg
    exact ⟨hnot, huse, .inr hsource⟩

theorem clean_change (compute : FeatureSpec F → List (Bar F) → Option F)
    (h : Overwrites feeds change history) (hk : change.changed.contains k = true) :
    (feeds.step compute (.change change history)).Clean k ∧
      StillComputed compute feeds (feeds.step compute (.change change history)) k := by
  obtain ⟨rebuilt, hopen, hstep⟩ := reopened_change compute h hk
  rw [hstep]
  have hreplaced : (change.removed.foldl retire rebuilt).replaced = (feeds.accept change).replaced := by
    rw [(foldl_retire change.removed rebuilt (k, "")).2.1, hopen.replaced]
  refine ⟨⟨?_, ?_, ?_⟩, ?_⟩
  · intro timeframe g hg
    rw [(foldl_retire change.removed rebuilt (k, timeframe)).1] at hg
    rw [hreplaced]
    exact (hopen.candle timeframe g hg).2.2
  · intro timeframe g hg
    obtain ⟨-, -, hgone, hkept⟩ := foldl_retire change.removed rebuilt (k, timeframe)
    by_cases hmem : k ∈ change.removed
    · rw [hgone hmem] at hg
      cases hg
    · rw [(hkept hmem).1] at hg
      rw [hreplaced]
      exact (hopen.feature timeframe g hg).2.2
  · intro timeframe hlive ts hts
    obtain ⟨hnot, huse, hsource⟩ := hopen.of_live hlive
    obtain ⟨-, -, -, hkept⟩ := foldl_retire change.removed rebuilt (k, timeframe)
    obtain ⟨-, hheld, hread, -⟩ := hkept hnot
    have hover := h.overwritten (k, timeframe) hk (by simpa using hnot) hsource
    rw [hheld] at hts
    rw [hread, hreplaced]
    exact hopen.clean timeframe huse hover ts hts
  · intro timeframe obs hlive
    obtain ⟨hnot, -, -⟩ := hopen.of_live hlive
    obtain ⟨-, -, -, hkept⟩ := foldl_retire change.removed rebuilt (k, timeframe)
    rw [FeatureEngine.keys_onBar, (hkept hnot).2.2.2, hopen.declared]

theorem clean_bar (compute : FeatureSpec F → List (Bar F) → Option F) (h : feeds.Clean k)
    (featureOnly : Bool) (key : WindowKey) (obs : Observation F) :
    (feeds.step compute (.bar featureOnly key obs)).Clean k := by
  simp only [step]
  cases hsource : (if featureOnly = true then feeds.featureSources else feeds.candleSources).get? key with
  | none => exact h
  | some replaced =>
    refine ⟨h.candle, h.feature, fun timeframe hlive => ?_⟩
    by_cases hkey : key = (k, timeframe)
    · subst hkey
      have hpresent : replaced = feeds.replaced k := by
        cases featureOnly with
        | true => exact h.feature timeframe replaced hsource
        | false => exact h.candle timeframe replaced hsource
      rw [hpresent]
      exact FeedEngine.readUnder_onBar (h.windows timeframe hlive)
    · obtain ⟨hheld, hread⟩ := FeedEngine.onBar_of_ne hkey compute feeds.feed obs replaced
      intro ts hts
      have hts : ts ∈ feeds.feed.held (k, timeframe) := hheld ▸ hts
      exact (congrFun hread ts).trans (h.windows timeframe hlive ts hts)

theorem clean_bars (compute : FeatureSpec F → List (Bar F) → Option F) (h : feeds.Clean k)
    {bars : List (Event F)} (hbars : ∀ e ∈ bars, e.isBar = true) :
    (feeds.after compute bars).Clean k := by
  induction bars generalizing feeds with
  | nil => exact h
  | cons event bars ih =>
    have hrest : ∀ e ∈ bars, e.isBar = true := fun e he => hbars e (List.mem_cons_of_mem event he)
    have hevent := hbars event (.head _)
    cases event with
    | change change history => cases hevent
    | bar featureOnly key obs => exact ih (clean_bar compute h featureOnly key obs) hrest

/-- Every change of a run overwrites what it replaces. -/
def OverwritesAlong (compute : FeatureSpec F → List (Bar F) → Option F) (feeds : Feeds F)
    (events : List (Event F)) : Prop :=
  ∀ past change history rest, events = past ++ .change change history :: rest →
    Overwrites (feeds.after compute past) change history

theorem after_append (compute : FeatureSpec F → List (Bar F) → Option F) (feeds : Feeds F)
    (past rest : List (Event F)) :
    feeds.after compute (past ++ rest) = (feeds.after compute past).after compute rest :=
  List.foldl_append

/-- In every run whose changes overwrite what they replace, no replaced token
contaminates a feature. -/
theorem never_contaminated_of_overwrites (compute : FeatureSpec F → List (Bar F) → Option F)
    (feeds : Feeds F) (events : List (Event F)) (h : OverwritesAlong compute feeds events) :
    NeverContaminated compute feeds events := by
  constructor
  · intro past change history bars rest hevents hbars k hk
    have hover := h past change history (bars ++ rest) hevents
    have hclean := clean_bars compute (clean_change compute hover hk).1 hbars
    rw [after_append]
    exact hclean.windows
  · intro past change history rest hevents k hk
    have hover := h past change history rest hevents
    rw [after_append]
    exact (clean_change compute hover hk).2

/-! ## one window of one instrument -/

/-- A booted worker with one open source, feature-only or of a dispatch group. -/
def booted (featureOnly : Bool) : Feeds ℚ where
  tokens := [("NSE:A", 1)]
  candleSubs := if featureOnly then [] else [(("NSE:A", "5minute"), ["s1"])]
  candleSources := if featureOnly then [] else [(("NSE:A", "5minute"), 0)]
  featureSources := if featureOnly then [(("NSE:A", "5minute"), 0)] else []
  feed := { engine := .fresh, reads := [], aligned := fun _ => rfl, nodup := fun _ => List.nodup_nil }

def lastClose (_ : FeatureSpec ℚ) (bars : List (Bar ℚ)) : Option ℚ :=
  bars.getLast?.bind (·.close)

/-- A bar read before the token was replaced. -/
def oldBar : Observation ℚ := { ts := 300, epochId := "candle", close := some 100, final := true }

/-- The same bar in the history of the new token. -/
def newBar : Observation ℚ := { oldBar with close := some 7 }

/-- The token of the instrument is replaced. -/
def replacement : BindingChange := { changed := [("NSE:A", 2)] }

def replacedRun (featureOnly : Bool) : List (Event ℚ) :=
  [.bar featureOnly ("NSE:A", "5minute") oldBar, .change replacement fun _ _ => some [newBar]]

theorem replacement_changed (h : replacement.changed.contains k = true) : k = "NSE:A" := by
  have hmem := Dict.contains_iff_mem_keys.mp h
  simpa [replacement, Dict.keys] using hmem

theorem overwritesAlong_replacedRun : OverwritesAlong lastClose (booted true) (replacedRun true) := by
  intro past change history rest hevents
  cases past with
  | nil => cases hevents
  | cons event past =>
    cases past with
    | cons event' past => simp [replacedRun] at hevents
    | nil =>
      simp only [replacedRun, List.singleton_append, List.cons.injEq] at hevents
      obtain ⟨rfl, hchange, -⟩ := hevents
      cases hchange
      constructor
      · intro key _ _ hsubs
        exact absurd rfl hsubs
      · intro key _ hsource
        simp [after, step, booted, Dict.contains] at hsource
      · rintro ⟨k, timeframe⟩ hkey _ hsource
        obtain rfl := replacement_changed hkey
        have htimeframe : "5minute" = timeframe := by
          simpa [after, step, booted, Dict.contains, Dict.get?] using hsource
        subst htimeframe
        right
        refine ⟨rfl, by decide +kernel, [newBar], rfl, ?_⟩
        decide +kernel

/-- The run never mixes the two tokens. -/
theorem never_contaminated_replacedRun : OverwritesAlong lastClose (booted true) (replacedRun true) ∧
    NeverContaminated lastClose (booted true) (replacedRun true) :=
  ⟨overwritesAlong_replacedRun, never_contaminated_of_overwrites lastClose (booted true) (replacedRun true)
      overwritesAlong_replacedRun⟩

/-- The window of a dispatch source still holds the bar of the old token. -/
theorem contaminated_dispatch_window :
    ¬ NeverContaminated lastClose (booted false) (replacedRun false) := by
  intro h
  have hclean := h.clean [.bar false ("NSE:A", "5minute") oldBar] replacement (fun _ _ => some [newBar])
    [] [] rfl (by simp) "NSE:A" rfl "5minute" (by decide +kernel) 300 (by decide +kernel)
  exact absurd hclean (by decide +kernel)

end Feeds

end KiteAlgo
