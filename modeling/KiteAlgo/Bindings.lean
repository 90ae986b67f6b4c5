import KiteAlgo.FeatureEngine
import KiteAlgo.Lib.Run

/-!
# KiteAlgo.Bindings

What an accepted change of broker tokens does to the feeds of a worker
(`EvaluationWorker._apply_binding_change`): the sources of the instruments it names are
rebuilt, and the feature windows are meant to lose every bar of a replaced token.

Bars do not say which token they were read under, so the model keeps that beside the
windows: `FeedEngine.reads` has the same timestamps as the windows, each with the
number of replacements its instrument had seen when the bar was read.
-/

namespace KiteAlgo

open List Dict
/-! ## changes -/

structure BindingChange where
  added : Dict String Int := []
  changed : Dict String Int := []
  removed : List String := []
  deriving DecidableEq, Repr

/-- A key of a Python mapping: a text, or a pair of texts. -/
inductive MapKey where
  | text (s : String)
  | pair (key : WindowKey)
  deriving DecidableEq, Repr

namespace BindingChange

def hasChanges (change : BindingChange) : Bool :=
  !(change.added.isEmpty && change.changed.isEmpty && change.removed.isEmpty)

/-- `key in change.changed`. -/
def inChanged (change : BindingChange) (key : MapKey) : Bool :=
  (change.changed.map fun e => MapKey.text e.1).contains key

/-- `set(change.added) | set(change.changed) | set(change.removed)`. -/
def affected (change : BindingChange) (instrumentKey : String) : Bool :=
  change.added.contains instrumentKey || change.changed.contains instrumentKey ||
    change.removed.contains instrumentKey

def affectedKeys (change : BindingChange) : List String :=
  sortBy Text.le (change.added.keys ++ change.changed.keys ++ change.removed).eraseDups

def accept (change : BindingChange) (tokens : Dict String Int) : Dict String Int :=
  ((tokens.update change.added).update change.changed).eraseAll change.removed

end BindingChange

variable {F : Type} [PyFloat F]

/-- The feature engine, and for every bar of a window the number of token replacements
of its instrument when it was read. -/
structure FeedEngine (F : Type) [PyFloat F] where
  engine : FeatureEngine F
  reads : Dict WindowKey (Dict Int Nat)
  aligned : ∀ key, Dict.keys ((reads.get? key).getD []) = Dict.keys ((engine.windows.get? key).getD [])
  nodup : ∀ key, (Dict.keys ((engine.windows.get? key).getD [])).Nodup

namespace FeedEngine

/-- The timestamps of the bars a window holds. -/
def held (feed : FeedEngine F) (key : WindowKey) : List Int :=
  Dict.keys ((feed.engine.windows.get? key).getD [])

def readAt (feed : FeedEngine F) (key : WindowKey) (ts : Int) : Option Nat :=
  ((feed.reads.get? key).getD []).get? ts

/-! ## bars that come in -/

/-- Bars put into a window one after the other. -/
def fillWindow (maxWindow : Nat) (bars : List (Observation F)) (window : Window F) : Window F :=
  bars.foldl (fun w obs => w.upsert maxWindow (.ofObservation obs)) window

def fillReads (maxWindow : Nat) (bars : List (Observation F)) (replaced : Nat)
    (reads : Dict Int Nat) : Dict Int Nat :=
  bars.foldl (fun r obs => r.setBounded maxWindow obs.ts replaced) reads

variable {bars : List (Observation F)} {maxWindow replaced : Nat} {reads : Dict Int Nat}
  {window : Window F}

omit [PyFloat F] in
theorem keys_fill (h : keys reads = keys window) :
    keys (fillReads maxWindow bars replaced reads) = keys (fillWindow maxWindow bars window) := by
  induction bars generalizing window reads with
  | nil => exact h
  | cons obs bars ih => exact ih (keys_setBounded h maxWindow obs.ts replaced (.ofObservation obs))

omit [PyFloat F] in
theorem nodup_fill (h : (keys window).Nodup) :
    (keys (fillWindow maxWindow bars window)).Nodup := by
  induction bars generalizing window with
  | nil => exact h
  | cons obs bars ih => exact ih (nodup_keys_setBounded h maxWindow obs.ts (.ofObservation obs))

omit [PyFloat F] in
theorem nodup_fillReads (h : (keys reads).Nodup) :
    (keys (fillReads maxWindow bars replaced reads)).Nodup := by
  induction bars generalizing reads with
  | nil => exact h
  | cons obs bars ih => exact ih (nodup_keys_setBounded h maxWindow obs.ts replaced)

omit [PyFloat F] in
theorem get?_fillReads (hnodup : (keys reads).Nodup) {ts : Int}
    (hts : ts ∈ keys (fillReads maxWindow bars replaced reads)) :
    (fillReads maxWindow bars replaced reads).get? ts = some replaced ∨
      ts ∈ keys reads ∧ (∀ obs ∈ bars, obs.ts ≠ ts) ∧
        (fillReads maxWindow bars replaced reads).get? ts = reads.get? ts := by
  induction bars using reverseRecOn with
  | nil => exact .inr ⟨hts, by simp, rfl⟩
  | append_singleton bars obs ih =>
    have hstep : fillReads maxWindow (bars ++ [obs]) replaced reads =
        (fillReads maxWindow bars replaced reads).setBounded maxWindow obs.ts replaced := by
      simp [fillReads]
    rw [hstep] at hts ⊢
    rw [get?_setBounded (nodup_fillReads hnodup) maxWindow hts]
    by_cases heq : obs.ts = ts
    · rw [if_pos heq]
      exact .inl rfl
    · rw [if_neg heq]
      have hheld := (mem_keys_setBounded hts).resolve_left fun h => heq h.symm
      cases ih hheld with
      | inl hnew => exact .inl hnew
      | inr hold =>
        obtain ⟨hkeys, hbars, hget⟩ := hold
        refine .inr ⟨hkeys, fun o ho => ?_, hget⟩
        rw [mem_append, mem_singleton] at ho
        cases ho with
        | inl hmem => exact hbars o hmem
        | inr hlast => exact hlast ▸ heq

def withWindow (feed : FeedEngine F) (engine : FeatureEngine F) (key : WindowKey)
    (bars : List (Observation F)) (replaced : Nat)
    (h : engine.windows = feed.engine.windows.set key
      (fillWindow feed.engine.maxWindow bars ((feed.engine.windows.get? key).getD []))) :
    FeedEngine F where
  engine := engine
  reads := feed.reads.set key
    (fillReads feed.engine.maxWindow bars replaced ((feed.reads.get? key).getD []))
  aligned := by
    intro key'
    rw [h, Dict.get?_set, Dict.get?_set]
    by_cases hkey : key = key'
    · rw [if_pos hkey, if_pos hkey]
      exact keys_fill (feed.aligned key)
    · rw [if_neg hkey, if_neg hkey]
      exact feed.aligned key'
  nodup := by
    intro key'
    rw [h, Dict.get?_set]
    by_cases hkey : key = key'
    · rw [if_pos hkey]
      exact nodup_fill (feed.nodup key)
    · rw [if_neg hkey]
      exact feed.nodup key'

/-- `on_bar`, of a bar read after `replaced` replacements. -/
def onBar (compute : FeatureSpec F → List (Bar F) → Option F) (feed : FeedEngine F)
    (key : WindowKey) (obs : Observation F) (replaced : Nat) : FeedEngine F :=
  feed.withWindow (feed.engine.onBar compute key.1 key.2 obs).2 key [obs] replaced
    (by rw [FeatureEngine.onBar, FeatureEngine.windows_recompute]; rfl)

def release (feed : FeedEngine F) (instrumentKey : String) (timeframe : Option String) :
    FeedEngine F where
  engine := feed.engine.release instrumentKey timeframe
  reads := feed.reads.filter fun e => !feed.engine.doomed instrumentKey timeframe e.1
  aligned := by
    intro key
    simp only [FeatureEngine.release]
    rw [Dict.get?_filterKeys fun k => !feed.engine.doomed instrumentKey timeframe k,
      Dict.get?_filterKeys fun k => !feed.engine.doomed instrumentKey timeframe k]
    by_cases hkept : (!feed.engine.doomed instrumentKey timeframe key) = true
    · rw [if_pos hkept, if_pos hkept]
      exact feed.aligned key
    · rw [if_neg hkept, if_neg hkept]
      rfl
  nodup := by
    intro key
    simp only [FeatureEngine.release]
    rw [Dict.get?_filterKeys fun k => !feed.engine.doomed instrumentKey timeframe k]
    by_cases hkept : (!feed.engine.doomed instrumentKey timeframe key) = true
    · rw [if_pos hkept]
      exact feed.nodup key
    · rw [if_neg hkept]
      exact List.nodup_nil

/-- The bars `warm` puts into a window. -/
def warmBars (feed : FeedEngine F) (key : WindowKey)
    (history : Nat → Option (List (Observation F))) : List (Observation F) :=
  if feed.engine.maxWindow ≤ (feed.held key).length then []
  else (history feed.engine.maxWindow).getD []

theorem windows_warm (compute : FeatureSpec F → List (Bar F) → Option F) (feed : FeedEngine F)
    (key : WindowKey) (history : Nat → Option (List (Observation F))) :
    (feed.engine.warm compute key.1 key.2 history).2.windows = feed.engine.windows.set key
      (fillWindow feed.engine.maxWindow (feed.warmBars key history)
        ((feed.engine.windows.get? key).getD [])) := by
  have hlength : (Window.bars ((feed.engine.windows.get? key).getD [])).length =
      (feed.held key).length := by
    simp [Window.bars, values, held, Dict.keys]
  unfold FeatureEngine.warm warmBars
  simp only
  by_cases hfull : feed.engine.maxWindow ≤ (feed.held key).length
  · rw [if_pos hfull, if_pos (by rw [hlength]; exact hfull)]
    rfl
  · rw [if_neg hfull, if_neg (by rw [hlength]; exact hfull)]
    cases hbars : history feed.engine.maxWindow with
    | none => rfl
    | some bars =>
      simp only [FeatureEngine.windows_recompute]
      exact set_set feed.engine.windows key _ _

/-- `warm`, from a history read after `replaced` replacements. -/
def warm (compute : FeatureSpec F → List (Bar F) → Option F) (feed : FeedEngine F)
    (key : WindowKey) (history : Nat → Option (List (Observation F))) (replaced : Nat) :
    FeedEngine F :=
  feed.withWindow (feed.engine.warm compute key.1 key.2 history).2 key (feed.warmBars key history)
    replaced (windows_warm compute feed key history)

end FeedEngine

/-! ## the feeds of a worker -/

/-- `candle_history.recent_bars`; none is an exception. -/
abbrev CandleHistory (F : Type) := WindowKey → Nat → Option (List (Observation F))

/-- What `EvaluationWorker` keeps about feeds.  A source is the number of replacements
its instrument had seen when the source was built. -/
structure Feeds (F : Type) [PyFloat F] where
  tokens : Dict String Int := []
  replaced : String → Nat := fun _ => 0
  ltpSubs : Dict String (List String) := []
  tickSources : Dict String Nat := []
  candleSubs : Dict WindowKey (List String) := []
  candleSources : Dict WindowKey Nat := []
  featureSources : Dict WindowKey Nat := []
  featureWarmed : List WindowKey := []
  /-- The replays of dispatch groups, with `ignore_boundary`. -/
  replays : List (WindowKey × Bool) := []
  warmupBars : Nat := 10
  feed : FeedEngine F

namespace Feeds

/-- The sources of an instrument may be open: it is bound and not rejected. -/
def usable (feeds : Feeds F) (change : BindingChange) (instrumentKey : String) : Bool :=
  !change.removed.contains instrumentKey && feeds.tokens.contains instrumentKey

/-- The tick source of an affected instrument. -/
def rebuildTick (change : BindingChange) (feeds : Feeds F) (instrumentKey : String) : Feeds F :=
  let feeds := { feeds with tickSources := feeds.tickSources.erase instrumentKey }
  if feeds.usable change instrumentKey && ((feeds.ltpSubs.get? instrumentKey).getD []).length ≠ 0 then
    { feeds with
      tickSources := feeds.tickSources.set instrumentKey (feeds.replaced instrumentKey) }
  else feeds

/-- The dispatch source of an affected group: the group replays the history before the
source is exposed, and a history that cannot be read stops the change where it is. -/
def rebuildCandle (history : CandleHistory F) (change : BindingChange) (feeds : Feeds F)
    (key : WindowKey) : Except (Feeds F) (Feeds F) :=
  let feeds := { feeds with candleSources := feeds.candleSources.erase key }
  if feeds.usable change key.1 && ((feeds.candleSubs.get? key).getD []).length ≠ 0 then
    match history key feeds.warmupBars with
    | none => .error feeds
    | some _ =>
      .ok { feeds with
        replays := feeds.replays ++ [(key, change.inChanged (.pair key))]
        candleSources := feeds.candleSources.set key (feeds.replaced key.1) }
  else .ok feeds

/-- The feature-only source of an affected window. -/
def rebuildFeature (compute : FeatureSpec F → List (Bar F) → Option F) (history : CandleHistory F)
    (change : BindingChange) (feeds : Feeds F) (key : WindowKey) : Feeds F :=
  let feeds := { feeds with featureSources := feeds.featureSources.erase key }
  if feeds.usable change key.1 then
    let feeds :=
      if change.inChanged (.pair key) then
        { feeds with
          feed := feeds.feed.release key.1 (some key.2)
          featureWarmed := feeds.featureWarmed.filter fun k => decide (k ≠ key) }
      else feeds
    { feeds with
      feed := feeds.feed.warm compute key (history key) (feeds.replaced key.1)
      featureWarmed := feeds.featureWarmed.filter (fun k => decide (k ≠ key)) ++ [key]
      featureSources := feeds.featureSources.set key (feeds.replaced key.1) }
  else feeds

def retire (feeds : Feeds F) (instrumentKey : String) : Feeds F :=
  { feeds with
    ltpSubs := feeds.ltpSubs.erase instrumentKey
    candleSubs := feeds.candleSubs.filter fun e => decide (e.1.1 ≠ instrumentKey)
    featureSources := feeds.featureSources.filter fun e => decide (e.1.1 ≠ instrumentKey)
    feed := feeds.feed.release instrumentKey none
    featureWarmed := feeds.featureWarmed.filter fun k => decide (k.1 ≠ instrumentKey) }

def accept (change : BindingChange) (feeds : Feeds F) : Feeds F :=
  { feeds with
    tokens := change.accept feeds.tokens
    replaced := fun k => if change.changed.contains k then feeds.replaced k + 1 else feeds.replaced k }

def affectedOf {β : Type} (change : BindingChange) (table : Dict WindowKey β) : List WindowKey :=
  table.keys.filter fun key => change.affected key.1

/-- `_apply_binding_change`, with the feeds an exception leaves. -/
def applyBindingChange (compute : FeatureSpec F → List (Bar F) → Option F)
    (history : CandleHistory F) (change : BindingChange) (feeds : Feeds F) :
    Except (Feeds F) (Feeds F) :=
  if !change.hasChanges then .ok feeds
  else do
    let feeds := change.affectedKeys.foldl (rebuildTick change) feeds
    let feeds ← (affectedOf change feeds.candleSubs).foldlM (rebuildCandle history change) feeds
    let feeds := (affectedOf change feeds.featureSources).foldl
      (rebuildFeature compute history change) feeds
    .ok (change.removed.foldl retire feeds)

inductive Event (F : Type) where
  /-- The registry accepts a change and the worker applies it. -/
  | change (change : BindingChange) (history : CandleHistory F)
  /-- An open source, dispatch or feature-only, delivers a completed bar. -/
  | bar (featureOnly : Bool) (key : WindowKey) (obs : Observation F)

def Event.isBar : Event F → Bool
  | .change _ _ => false
  | .bar _ _ _ => true

def step (compute : FeatureSpec F → List (Bar F) → Option F) (feeds : Feeds F) : Event F → Feeds F
  | .change change history =>
    match applyBindingChange compute history change (feeds.accept change) with
    | .ok feeds => feeds
    | .error feeds => feeds
  | .bar featureOnly key obs =>
    match (if featureOnly then feeds.featureSources else feeds.candleSources).get? key with
    | some replaced => { feeds with feed := feeds.feed.onBar compute key obs replaced }
    | none => feeds

def after (compute : FeatureSpec F → List (Bar F) → Option F) (feeds : Feeds F)
    (events : List (Event F)) : Feeds F :=
  events.foldl (step compute) feeds

/-! ## what a replacement is to leave -/

def live (feeds : Feeds F) (key : WindowKey) : Bool :=
  feeds.candleSources.contains key || feeds.featureSources.contains key

/-- Every bar of a window with an open source was read under the present token. -/
def Uncontaminated (feeds : Feeds F) (instrumentKey : String) : Prop :=
  ∀ timeframe, feeds.live (instrumentKey, timeframe) = true →
    ∀ ts ∈ feeds.feed.held (instrumentKey, timeframe),
      feeds.feed.readAt (instrumentKey, timeframe) ts = some (feeds.replaced instrumentKey)

/-- The next bar computes the features that were declared before. -/
def StillComputed (compute : FeatureSpec F → List (Bar F) → Option F) (before after : Feeds F)
    (instrumentKey : String) : Prop :=
  ∀ timeframe obs, after.live (instrumentKey, timeframe) = true →
    Dict.keys (after.feed.engine.onBar compute instrumentKey timeframe obs).1 =
      Dict.keys (before.feed.engine.declaredFor (instrumentKey, timeframe))

/-- No replaced token contaminates a feature: neither at the change nor while bars come
in after it. -/
structure NeverContaminated (compute : FeatureSpec F → List (Bar F) → Option F) (feeds : Feeds F)
    (events : List (Event F)) : Prop where
  clean : ∀ past change history bars rest,
    events = past ++ .change change history :: (bars ++ rest) → (∀ e ∈ bars, e.isBar = true) →
    ∀ k, change.changed.contains k = true →
      (feeds.after compute (past ++ .change change history :: bars)).Uncontaminated k
  computed : ∀ past change history rest, events = past ++ .change change history :: rest →
    ∀ k, change.changed.contains k = true → StillComputed compute (feeds.after compute past)
        (feeds.after compute (past ++ [.change change history])) k

/-- The history has a bar for every timestamp a window holds. -/
def Covers (history : CandleHistory F) (feeds : Feeds F) (key : WindowKey) : Prop :=
  (feeds.feed.held key).length < feeds.feed.engine.maxWindow ∧
    ∃ bars, history key feeds.feed.engine.maxWindow = some bars ∧
      ∀ ts ∈ feeds.feed.held key, ∃ obs ∈ bars, obs.ts = ts

/-- The windows of a replaced instrument are empty, or feature-only and overwritten by
the history; its dispatch sources belong to groups; no replay of an affected group
fails. -/
structure Overwrites (feeds : Feeds F) (change : BindingChange) (history : CandleHistory F) :
    Prop where
  replayed : ∀ key, change.affected key.1 = true → change.removed.contains key.1 = false →
    (feeds.candleSubs.get? key).getD [] ≠ [] → history key feeds.warmupBars ≠ none
  grouped : ∀ key, change.changed.contains key.1 = true → feeds.candleSources.contains key = true →
    feeds.candleSubs.contains key = true
  overwritten : ∀ key, change.changed.contains key.1 = true → change.removed.contains key.1 = false →
    (feeds.candleSubs.get? key).getD [] ≠ [] ∨ feeds.featureSources.contains key = true →
      feeds.feed.held key = [] ∨ feeds.featureSources.contains key = true ∧ Covers history feeds key

end Feeds

end KiteAlgo
