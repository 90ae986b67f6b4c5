import KiteAlgo.Lib.Interleaving

/-!
# KiteAlgo.Lib.Growth

Programs over a store with an invariant that every operation keeps, as long as it meets a
condition.  A `Growth` names the invariant and what an operation may do besides (`grows`):
a fact that growth keeps, once read, survives every step of other threads.

`Growth.Spec` is a triple with such facts as pre- and postconditions; locks play no part in
it.  `Growth.run` is the induction over a schedule: the invariant holds in every store
reached.
-/

namespace KiteAlgo

/-- An invariant of the store, and what every operation does to it. -/
structure Growth (σ : Type) where
  inv : σ → Prop
  grows : σ → σ → Prop
  refl : ∀ s, grows s s

namespace Growth

variable {κ Λ σ α β γ : Type} [DecidableEq κ] (G : Growth σ) (C : Λ → σ → Prop)

/-- A step that starts where the invariant holds keeps it and grows the store. -/
def protocol : Protocol κ Λ σ where
  guar _ w w' := G.inv w.store → G.inv w'.store ∧ G.grows w.store w'.store
  cond := C

/-- The invariant and a fact about the store. -/
def Known (P : σ → Prop) (w : World κ σ) : Prop := G.inv w.store ∧ P w.store

def Kept (P : σ → Prop) : Prop := ∀ s s', G.inv s → G.grows s s' → P s → P s'

/-- From `P`, any thread runs the program within the protocol, and ends in `Q`. -/
def Spec (P : σ → Prop) (p : Prog κ Λ σ α) (Q : α → σ → Prop) : Prop :=
  ∀ i, Triple (G.protocol C) i (G.Known P) p fun a => G.Known (Q a)

variable {G C} {P P' : σ → Prop} {Q : α → σ → Prop} {Q' : β → σ → Prop}

theorem kept_const (p : Prop) : G.Kept fun _ => p := fun _ _ _ _ h => h

omit [DecidableEq κ] in
theorem Kept.stable (h : G.Kept P) (i : Nat) : (G.protocol C : Protocol κ Λ σ).Stable i (G.Known P) := by
  intro j w w' _ hguar hw
  obtain ⟨hinv, hgrows⟩ := hguar hw.1
  exact ⟨hinv, h _ _ hw.1 hgrows hw.2⟩

namespace Spec

variable {p : Prog κ Λ σ α}

theorem pre (hP : ∀ s, P' s → P s) (h : Spec G C P p Q) : Spec G C P' p Q :=
  fun i => .pre (fun w hw => ⟨hw.1, hP w.store hw.2⟩) (h i)

theorem assuming {fact : Prop} (h : fact → Spec G C (fun _ => fact) p Q) :
    Spec G C (fun _ => fact) p Q :=
  fun i w hw => h hw.2 i w hw

theorem ret {a : α} (hQ : G.Kept (Q a)) : Spec (κ := κ) G C (Q a) (.ret a) Q :=
  fun i => Triple.ret (Q := fun a => G.Known (Q a)) (hQ.stable i)

theorem bind {k : α → Prog κ Λ σ β} (hp : Spec G C P p Q) (hk : ∀ a, Spec G C (Q a) (k a) Q') :
    Spec G C P (p.bind k) Q' :=
  fun i => .bind (hp i) fun a => hk a i

variable {label : Λ}

theorem call {f : σ → α × σ} (hP : G.Kept P) (hQ : ∀ a, G.Kept (Q a))
    (h : ∀ s, G.inv s → P s → C label s → G.inv (f s).2 ∧ G.grows s (f s).2 ∧ Q (f s).1 (f s).2) :
    Spec (κ := κ) G C P (.call label f) Q := by
  intro i
  refine .call (hP.stable i) (fun a => (hQ a).stable i) fun w hw hcond => ?_
  obtain ⟨hinv, hgrows, hpost⟩ := h w.store hw.1 hw.2 hcond
  exact ⟨fun _ => ⟨hinv, hgrows⟩, hinv, hpost⟩

theorem read {f : σ → α} (hP : G.Kept P) (hQ : ∀ a, G.Kept (Q a))
    (h : ∀ s, G.inv s → P s → Q (f s) s) : Spec (κ := κ) G C P (.read label f) Q :=
  call hP hQ fun s hinv hs _ => ⟨hinv, G.refl s, h s hinv hs⟩

theorem of_readOnly (hP : G.Kept P) (hp : p.ReadOnly) : Spec G C P p fun _ => P := by
  intro i
  refine .neutral (hP.stable i) ?_
  induction p with
  | ret a => trivial
  | op label act next ih =>
    refine ⟨fun j w hinv => ?_, fun s => ih s (hp.2 s)⟩
    rw [World.act_store, hp.1]
    exact ⟨hinv, G.refl w.store⟩
  | acquire key next => exact hp.elim
  | release key next => exact hp.elim

theorem withLock {key : κ} (hP : G.Kept P) (hQ : ∀ a, G.Kept (Q a)) (h : Spec G C P p Q) :
    Spec G C P (.withLock key p) Q := by
  intro i
  have hsame : ∀ w w' : World κ σ, w'.store = w.store → (G.protocol C : Protocol κ Λ σ).guar i w w' := by
    intro w w' hstore hinv
    rw [hstore]
    exact ⟨hinv, G.refl w.store⟩
  exact .withLock (hP.stable i) (fun a => (hQ a).stable i) (fun a => (hQ a).stable i)
    (fun w hw _ => ⟨hsame w _ rfl, hw⟩) (h i) fun a w hw => ⟨hsame w _ rfl, hw⟩

end Spec

theorem run {program : γ → Prog κ Λ σ α}
    (hprogram : ∀ request, Spec G C (fun _ => True) (program request) fun _ _ => True)
    {s : σ} (hs : G.inv s) {events : List (Event γ)} {last : Config κ Λ σ α}
    (hrun : (Config.idle s).run program events = some last)
    (hmeets : (Config.idle s).MeetsAlong program C events) : G.inv last.world.store := by
  have hinv : ∀ (i : Nat) (w w' : World κ σ), (G.protocol C : Protocol κ Λ σ).guar i w w' →
      G.inv w.store → G.inv w'.store := fun i w w' hguar hw => (hguar hw).1
  have hentry : ∀ request (i : Nat) (w : World κ σ), G.inv w.store → (∀ key, w.holder key ≠ some i) →
      (program request).Safe (G.protocol C) i (fun _ => G.Known fun _ => True) w :=
    fun request i w hw _ => hprogram request i w ⟨hw, trivial⟩
  exact (Config.Safe.run (Q := fun _ _ => G.Known fun _ => True) hinv hentry
    (Config.idle_safe s) hs hrun hmeets).2.1

end Growth

end KiteAlgo
