import Mathlib.Logic.Relation
import Mathlib.Logic.Function.Basic

/-!
# KiteAlgo.Lib.Interleaving

Programs that share a store and take locks, and what holds of them in every
interleaving.

A `Prog` is a tree of atomic operations: `op` reads the store and writes it in one
step, `acquire` waits until its lock is free.  `Prog.run` runs one program alone;
`Config.run` runs any number of them under a schedule that starts programs and
chooses whose turn it is.

Interleavings are reasoned about by rely and guarantee.  A `Protocol` says what a step
of thread `i` may do (`guar i`), and which steps are considered (`cond`, on the labels
of operations and the store they find).  `Prog.Safe` is the weakest precondition of a
program among threads that keep the protocol, the rules build it up (`Triple.bind`,
`Triple.call`, …), and `Config.Safe.run` says that a schedule of safe programs only
takes steps that the protocol allows.
-/

namespace KiteAlgo

open List Option
/-- A program with results in `α` over a store `σ`, locks `κ` and labels `Λ`. -/
inductive Prog (κ Λ σ : Type) (α : Type) where
  | ret (value : α)
  | op (label : Λ) (act : σ → σ) (next : σ → Prog κ Λ σ α)
  | acquire (key : κ) (next : Prog κ Λ σ α)
  | release (key : κ) (next : Prog κ Λ σ α)

namespace Prog

variable {κ Λ σ α β : Type}

def bind : Prog κ Λ σ α → (α → Prog κ Λ σ β) → Prog κ Λ σ β
  | ret a, k => k a
  | op label act next, k => op label act fun s => bind (next s) k
  | acquire key next, k => acquire key (bind next k)
  | release key next, k => release key (bind next k)

instance : Monad (Prog κ Λ σ) where
  pure := ret
  bind := bind

def call (label : Λ) (f : σ → α × σ) : Prog κ Λ σ α :=
  op label (fun s => (f s).2) fun s => ret (f s).1

def read (label : Λ) (f : σ → α) : Prog κ Λ σ α := call label fun s => (f s, s)

/-- `async with lock: p`. -/
def withLock (key : κ) (p : Prog κ Λ σ α) : Prog κ Λ σ α :=
  acquire key (bind p fun a => release key (ret a))

/-! ## one program alone -/

/-- The result and the store when nothing else runs. -/
def run : Prog κ Λ σ α → σ → α × σ
  | ret a, s => (a, s)
  | op _ act next, s => run (next s) (act s)
  | acquire _ next, s => run next s
  | release _ next, s => run next s

/-- Every operation of that run meets `C` in the store it finds. -/
def Along (C : Λ → σ → Prop) : Prog κ Λ σ α → σ → Prop
  | ret _, _ => True
  | op label act next, s => C label s ∧ Along C (next s) (act s)
  | acquire _ next, s => Along C next s
  | release _ next, s => Along C next s

instance decidableAlong (C : Λ → σ → Prop) [∀ label s, Decidable (C label s)] :
    (p : Prog κ Λ σ α) → (s : σ) → Decidable (p.Along C s)
  | ret _, _ => .isTrue trivial
  | op label act next, s =>
    have := decidableAlong C (next s) (act s)
    inferInstanceAs (Decidable (C label s ∧ (next s).Along C (act s)))
  | acquire _ next, s => decidableAlong C next s
  | release _ next, s => decidableAlong C next s

@[simp] theorem pure_eq (a : α) : (pure a : Prog κ Λ σ α) = ret a := rfl

@[simp] theorem bind_eq (p : Prog κ Λ σ α) (k : α → Prog κ Λ σ β) : p >>= k = p.bind k := rfl

@[simp] theorem run_ret (a : α) (s : σ) : (ret a : Prog κ Λ σ α).run s = (a, s) := rfl

@[simp] theorem run_call (label : Λ) (f : σ → α × σ) (s : σ) :
    (call label f : Prog κ Λ σ α).run s = f s := rfl

@[simp] theorem run_read (label : Λ) (f : σ → α) (s : σ) :
    (read label f : Prog κ Λ σ α).run s = (f s, s) := rfl

@[simp] theorem run_bind (p : Prog κ Λ σ α) (k : α → Prog κ Λ σ β) (s : σ) :
    (p.bind k).run s = (k (p.run s).1).run (p.run s).2 := by
  induction p generalizing s with
  | ret a => rfl
  | op label act next ih => exact ih s (act s)
  | acquire key next ih => exact ih s
  | release key next ih => exact ih s

@[simp] theorem run_withLock (key : κ) (p : Prog κ Λ σ α) (s : σ) :
    (withLock key p).run s = p.run s := by
  rw [withLock, run, run_bind]
  rfl

@[simp] theorem along_ret (C : Λ → σ → Prop) (a : α) (s : σ) :
    (ret a : Prog κ Λ σ α).Along C s := trivial

@[simp] theorem along_call (C : Λ → σ → Prop) (label : Λ) (f : σ → α × σ) (s : σ) :
    (call label f : Prog κ Λ σ α).Along C s ↔ C label s := by
  simp [call, Along]

@[simp] theorem along_read (C : Λ → σ → Prop) (label : Λ) (f : σ → α) (s : σ) :
    (read label f : Prog κ Λ σ α).Along C s ↔ C label s := along_call C label _ s

@[simp] theorem along_bind (C : Λ → σ → Prop) (p : Prog κ Λ σ α) (k : α → Prog κ Λ σ β) (s : σ) :
    (p.bind k).Along C s ↔ p.Along C s ∧ (k (p.run s).1).Along C (p.run s).2 := by
  induction p generalizing s with
  | ret a => simp [bind, Along, run]
  | op label act next ih =>
    rw [bind, Along, Along, ih, run, and_assoc]
  | acquire key next ih => exact ih s
  | release key next ih => exact ih s

@[simp] theorem along_withLock (C : Λ → σ → Prop) (key : κ) (p : Prog κ Λ σ α) (s : σ) :
    (withLock key p).Along C s ↔ p.Along C s := by
  rw [withLock, Along, along_bind]
  simp [Along]

theorem along_true (p : Prog κ Λ σ α) (s : σ) : p.Along (fun _ _ => True) s := by
  induction p generalizing s with
  | ret a => trivial
  | op label act next ih => exact ⟨trivial, ih s (act s)⟩
  | acquire key next ih => exact ih s
  | release key next ih => exact ih s

/-- No operation of the program takes or frees a lock. -/
def LockFree : Prog κ Λ σ α → Prop
  | ret _ => True
  | op _ _ next => ∀ s, LockFree (next s)
  | acquire _ _ => False
  | release _ _ => False

variable {k : α → Prog κ Λ σ β} {p : Prog κ Λ σ α}

theorem LockFree.bind (hp : p.LockFree) (hk : ∀ a, (k a).LockFree) : (p.bind k).LockFree := by
  induction p with
  | ret a => exact hk a
  | op label act next ih => exact fun s => ih s (hp s)
  | acquire key next => exact hp.elim
  | release key next => exact hp.elim

@[simp] theorem lockFree_call (label : Λ) (f : σ → α × σ) :
    (call label f : Prog κ Λ σ α).LockFree := fun _ => trivial

@[simp] theorem lockFree_read (label : Λ) (f : σ → α) :
    (read label f : Prog κ Λ σ α).LockFree := lockFree_call label _

@[simp] theorem lockFree_ret (a : α) : (ret a : Prog κ Λ σ α).LockFree := trivial

/-- No operation of the program changes the store, and none takes or frees a lock. -/
def ReadOnly : Prog κ Λ σ α → Prop
  | ret _ => True
  | op _ act next => (∀ s, act s = s) ∧ ∀ s, ReadOnly (next s)
  | acquire _ _ => False
  | release _ _ => False

theorem readOnly_read (label : Λ) (f : σ → α) : (read label f : Prog κ Λ σ α).ReadOnly :=
  ⟨fun _ => rfl, fun _ => trivial⟩

theorem ReadOnly.bind (hp : p.ReadOnly) (hk : ∀ a, (k a).ReadOnly) : (p.bind k).ReadOnly := by
  induction p with
  | ret a => exact hk a
  | op label act next ih => exact ⟨hp.1, fun s => ih s (hp.2 s)⟩
  | acquire key next => exact hp.elim
  | release key next => exact hp.elim

theorem ReadOnly.run {p : Prog κ Λ σ α} (hp : p.ReadOnly) (s : σ) : (p.run s).2 = s := by
  induction p generalizing s with
  | ret a => rfl
  | op label act next ih =>
    rw [Prog.run, ih s (hp.2 s), hp.1]
  | acquire key next => exact hp.elim
  | release key next => exact hp.elim

end Prog

/-! ## worlds and schedules -/

/-- The store, and for each lock the thread that holds it. -/
structure World (κ σ : Type) where
  store : σ
  holder : κ → Option Nat

namespace World

variable {κ σ : Type}

def act (w : World κ σ) (f : σ → σ) : World κ σ := { w with store := f w.store }

/-- Thread `i` takes a lock. -/
def take [DecidableEq κ] (w : World κ σ) (key : κ) (i : Nat) : World κ σ :=
  { w with holder := Function.update w.holder key (some i) }

def drop [DecidableEq κ] (w : World κ σ) (key : κ) : World κ σ :=
  { w with holder := Function.update w.holder key none }

@[simp] theorem act_store (w : World κ σ) (f : σ → σ) : (w.act f).store = f w.store := rfl

@[simp] theorem act_holder (w : World κ σ) (f : σ → σ) : (w.act f).holder = w.holder := rfl

@[simp] theorem take_store [DecidableEq κ] (w : World κ σ) (key : κ) (i : Nat) :
    (w.take key i).store = w.store := rfl

@[simp] theorem drop_store [DecidableEq κ] (w : World κ σ) (key : κ) :
    (w.drop key).store = w.store := rfl

theorem take_holder [DecidableEq κ] (w : World κ σ) (key key' : κ) (i : Nat) :
    (w.take key i).holder key' = if key' = key then some i else w.holder key' :=
  Function.update_apply w.holder key (some i) key'

theorem drop_holder [DecidableEq κ] (w : World κ σ) (key key' : κ) :
    (w.drop key).holder key' = if key' = key then none else w.holder key' :=
  Function.update_apply w.holder key none key'

/-- Thread `i` holds no lock. -/
def Idle (w : World κ σ) (i : Nat) : Prop := ∀ key, w.holder key ≠ some i

/-- Thread `i` holds this lock and no other. -/
def Holds (w : World κ σ) (i : Nat) (key : κ) : Prop :=
  w.holder key = some i ∧ ∀ other, w.holder other = some i → other = key

/-- No thread but `i` takes or frees a lock. -/
def OwnLocks (i : Nat) (w w' : World κ σ) : Prop :=
  ∀ key j, j ≠ i → (w'.holder key = some j ↔ w.holder key = some j)

variable {w w' : World κ σ} {i j : Nat}

theorem OwnLocks.of_eq (h : w'.holder = w.holder) : OwnLocks i w w' := fun key j _ => by rw [h]

theorem OwnLocks.idle (h : OwnLocks j w w') (hij : i ≠ j) (hidle : w.Idle i) : w'.Idle i :=
  fun key hkey => hidle key ((h key i hij).mp hkey)

variable {key : κ}

theorem OwnLocks.holds (h : OwnLocks j w w') (hij : i ≠ j) (hholds : w.Holds i key) :
    w'.Holds i key :=
  ⟨(h key i hij).mpr hholds.1, fun other hother => hholds.2 other ((h other i hij).mp hother)⟩

theorem Holds.of_eq (h : w'.holder = w.holder) (hholds : w.Holds i key) : w'.Holds i key := by
  rw [Holds, h]
  exact hholds

variable [DecidableEq κ]

theorem ownLocks_take (hfree : w.holder key = none) : OwnLocks i w (w.take key i) := by
  intro other j hj
  rw [take_holder]
  split
  · next hother =>
    subst hother
    rw [hfree]
    simp [Ne.symm hj]
  · rfl

theorem Idle.holds_take (h : w.Idle i) (key : κ) : (w.take key i).Holds i key := by
  refine ⟨by rw [take_holder, if_pos rfl], fun other hother => ?_⟩
  rw [take_holder] at hother
  split at hother
  · next heq => exact heq
  · exact absurd hother (h other)

theorem Holds.ownLocks_drop (h : w.Holds i key) : OwnLocks i w (w.drop key) := by
  intro other j hj
  rw [drop_holder]
  split
  · next hother =>
    subst hother
    rw [h.1]
    simp [Ne.symm hj]
  · rfl

theorem Holds.idle_drop (h : w.Holds i key) : (w.drop key).Idle i := by
  intro other hother
  rw [drop_holder] at hother
  split at hother
  · simp at hother
  · next hne => exact hne (h.2 other hother)

end World

section Schedules

variable {κ Λ σ α γ : Type} [DecidableEq κ]

/-- The next step of thread `i`, unless it is done or waits for a lock. -/
def Prog.step (i : Nat) : Prog κ Λ σ α → World κ σ → Option (Prog κ Λ σ α × World κ σ)
  | .ret _, _ => none
  | .op _ act next, w => some (next w.store, w.act act)
  | .acquire key next, w => if w.holder key = none then some (next, w.take key i) else none
  | .release key next, w => some (next, w.drop key)

/-- Threads over one world, numbered from the first started. -/
structure Config (κ Λ σ α : Type) where
  world : World κ σ
  threads : List (Prog κ Λ σ α)

/-- What the scheduler does: start a program or let a thread take a step. -/
inductive Event (γ : Type) where
  | start (request : γ)
  | step (thread : Nat)
  deriving DecidableEq

namespace Config

def idle (s : σ) : Config κ Λ σ α := ⟨⟨s, fun _ => none⟩, []⟩

/-- One event; a thread that cannot move is not scheduled. -/
def step (program : γ → Prog κ Λ σ α) (cfg : Config κ Λ σ α) :
    Event γ → Option (Config κ Λ σ α)
  | .start request => some { cfg with threads := cfg.threads ++ [program request] }
  | .step i =>
    (cfg.threads[i]?).bind fun p =>
      (p.step i cfg.world).map fun next => ⟨next.2, cfg.threads.set i next.1⟩

def run (program : γ → Prog κ Λ σ α) : Config κ Λ σ α → List (Event γ) → Option (Config κ Λ σ α)
  | cfg, [] => some cfg
  | cfg, e :: events => (cfg.step program e).bind fun next => run program next events

/-- The operation that an event runs, if any, meets `C` in the store it finds. -/
def Meets (C : Λ → σ → Prop) (cfg : Config κ Λ σ α) : Event γ → Prop
  | .start _ => True
  | .step i => ∀ label act next, cfg.threads[i]? = some (.op label act next) → C label cfg.world.store

def MeetsAlong (program : γ → Prog κ Λ σ α) (C : Λ → σ → Prop) :
    Config κ Λ σ α → List (Event γ) → Prop
  | _, [] => True
  | cfg, e :: events =>
    cfg.Meets C e ∧ ∀ next, cfg.step program e = some next → MeetsAlong program C next events

instance (C : Λ → σ → Prop) [∀ label s, Decidable (C label s)] (cfg : Config κ Λ σ α) :
    (e : Event γ) → Decidable (cfg.Meets C e)
  | .start _ => .isTrue trivial
  | .step i =>
    match h : cfg.threads[i]? with
    | some (.op label act next) =>
      decidable_of_iff (C label cfg.world.store) (by simp [Meets, h])
    | some (.ret _) | some (.acquire _ _) | some (.release _ _) | none =>
      .isTrue (by simp [Meets, h])

instance decidableMeetsAlong (program : γ → Prog κ Λ σ α) (C : Λ → σ → Prop)
    [∀ label s, Decidable (C label s)] :
    (cfg : Config κ Λ σ α) → (events : List (Event γ)) → Decidable (cfg.MeetsAlong program C events)
  | _, [] => .isTrue trivial
  | cfg, e :: events =>
    match h : cfg.step program e with
    | none => decidable_of_iff (cfg.Meets C e) (by simp [MeetsAlong, h])
    | some next =>
      have := decidableMeetsAlong program C next events
      decidable_of_iff (cfg.Meets C e ∧ next.MeetsAlong program C events) (by simp [MeetsAlong, h])

variable {C : Λ → σ → Prop} {events : List (Event γ)}

theorem meetsAlong_start {program : γ → Prog κ Λ σ α} {cfg : Config κ Λ σ α} {request : γ}
    (h : MeetsAlong program C { cfg with threads := cfg.threads ++ [program request] } events) :
    cfg.MeetsAlong program C (.start request :: events) :=
  ⟨trivial, fun _ hnext => some.inj hnext ▸ h⟩

theorem meetsAlong_op {program : γ → Prog κ Λ σ α} {cfg : Config κ Λ σ α} {i : Nat} {label : Λ}
    {act : σ → σ} {next : σ → Prog κ Λ σ α} (hop : cfg.threads[i]? = some (.op label act next))
    (hC : C label cfg.world.store) (h : MeetsAlong program C
      ⟨cfg.world.act act, cfg.threads.set i (next cfg.world.store)⟩ events) :
    cfg.MeetsAlong program C (.step i :: events) := by
  constructor
  · intro label' act' next' hop'
    rw [hop, some.injEq, Prog.op.injEq] at hop'
    exact hop'.1 ▸ hC
  · intro cfg' hstep
    rw [step, hop, bind_some, Prog.step, map_some, some.injEq] at hstep
    exact hstep ▸ h

theorem meetsAlong_of_forall {program : γ → Prog κ Λ σ α} (hC : ∀ label s, C label s)
    (cfg : Config κ Λ σ α) (events : List (Event γ)) : cfg.MeetsAlong program C events := by
  induction events generalizing cfg with
  | nil => trivial
  | cons e events ih =>
    refine ⟨?_, fun next _ => ih next⟩
    cases e with
    | start request => trivial
    | step i => exact fun label _ _ _ => hC label cfg.world.store

theorem meetsAlong_append {program : γ → Prog κ Λ σ α} {cfg mid : Config κ Λ σ α}
    {later : List (Event γ)} (h : cfg.MeetsAlong program C (events ++ later))
    (hmid : cfg.run program events = some mid) :
    cfg.MeetsAlong program C events ∧ mid.MeetsAlong program C later := by
  induction events generalizing cfg with
  | nil =>
    simp only [run, some.injEq] at hmid
    subst hmid
    exact ⟨trivial, h⟩
  | cons e events ih =>
    rw [run, bind_eq_some_iff] at hmid
    obtain ⟨next, hnext, hrest⟩ := hmid
    obtain ⟨hevents, hlater⟩ := ih (h.2 next hnext) hrest
    refine ⟨⟨h.1, fun other hother => ?_⟩, hlater⟩
    rw [hnext, some.injEq] at hother
    rw [← hother]
    exact hevents

def Quiet (cfg : Config κ Λ σ α) : Prop := ∀ p ∈ cfg.threads, ∃ a, p = .ret a

def returned (cfg : Config κ Λ σ α) : Bool :=
  cfg.threads.all fun p =>
    match p with
    | .ret _ => true
    | _ => false

omit [DecidableEq κ] in
theorem quiet_of_returned {cfg : Config κ Λ σ α} (h : cfg.returned) : cfg.Quiet := by
  intro p hp
  have hreturned := all_eq_true.mp h p hp
  cases p with
  | ret a => exact ⟨a, rfl⟩
  | op label act next => simp at hreturned
  | acquire key next => simp at hreturned
  | release key next => simp at hreturned

end Config

end Schedules

/-! ## rely and guarantee -/

/-- What a step of each thread may do, and which operations are considered. -/
structure Protocol (κ Λ σ : Type) where
  guar : Nat → World κ σ → World κ σ → Prop
  cond : Λ → σ → Prop := fun _ _ => True

namespace Protocol

variable {κ Λ σ α β : Type} (π : Protocol κ Λ σ)

/-- Any number of steps of threads other than `i`. -/
def Rely (i : Nat) : World κ σ → World κ σ → Prop :=
  Relation.ReflTransGen fun w w' => ∃ j, j ≠ i ∧ π.guar j w w'

/-- `P` survives the steps of threads other than `i`. -/
def Stable (i : Nat) (P : World κ σ → Prop) : Prop :=
  ∀ j w w', j ≠ i → π.guar j w w' → P w → P w'

variable {π} {i : Nat}

theorem Stable.rely {P : World κ σ → Prop} (h : π.Stable i P) {w w' : World κ σ}
    (hrely : π.Rely i w w') (hw : P w) : P w' := by
  induction hrely with
  | refl => exact hw
  | tail _ hstep ih =>
    obtain ⟨j, hj, hguar⟩ := hstep
    exact h j _ _ hj hguar ih

theorem Stable.and {P Q : World κ σ → Prop} (hP : π.Stable i P) (hQ : π.Stable i Q) :
    π.Stable i fun w => P w ∧ Q w :=
  fun j w w' hj hguar h => ⟨hP j w w' hj hguar h.1, hQ j w w' hj hguar h.2⟩

theorem Stable.of_steps {step : Nat → World κ σ → World κ σ → Prop} {P : World κ σ → Prop}
    (hguar : ∀ j w w', π.guar j w w' → Relation.ReflTransGen (step j) w w')
    (h : ∀ j w w', j ≠ i → step j w w' → P w → P w') : π.Stable i P := by
  intro j w w' hj hsteps hw
  have hchain := hguar j w w' hsteps
  clear hsteps
  induction hchain with
  | refl => exact hw
  | tail _ hstep ih => exact h j _ _ hj hstep ih

theorem stable_const (p : Prop) : π.Stable i fun _ => p := fun _ _ _ _ _ h => h

end Protocol

section Safety

variable {κ Λ σ α β γ : Type} [DecidableEq κ]

/-- Among threads that keep the protocol, thread `i` keeps it while it runs the program
from `w`, and ends in `Q`. -/
def Prog.Safe (π : Protocol κ Λ σ) (i : Nat) (Q : α → World κ σ → Prop) :
    Prog κ Λ σ α → World κ σ → Prop
  | .ret a, w => ∀ w', π.Rely i w w' → Q a w'
  | .op label act next, w => ∀ w', π.Rely i w w' → π.cond label w'.store →
      π.guar i w' (w'.act act) ∧ (next w'.store).Safe π i Q (w'.act act)
  | .acquire key next, w => ∀ w', π.Rely i w w' → w'.holder key = none →
      π.guar i w' (w'.take key i) ∧ next.Safe π i Q (w'.take key i)
  | .release key next, w => ∀ w', π.Rely i w w' → π.guar i w' (w'.drop key) ∧ next.Safe π i Q (w'.drop key)

namespace Prog.Safe

variable {π : Protocol κ Λ σ} {i : Nat} {Q : α → World κ σ → Prop}

variable {p : Prog κ Λ σ α}

theorem rely {w w' : World κ σ} (h : p.Safe π i Q w) (hrely : π.Rely i w w') : p.Safe π i Q w' := by
  cases p with
  | ret a => exact fun w'' h' => h w'' (hrely.trans h')
  | op label act next => exact fun w'' h' => h w'' (hrely.trans h')
  | acquire key next => exact fun w'' h' => h w'' (hrely.trans h')
  | release key next => exact fun w'' h' => h w'' (hrely.trans h')

theorem mono {Q' : α → World κ σ → Prop} (hQ : ∀ a w, Q a w → Q' a w) {w : World κ σ}
    (h : p.Safe π i Q w) : p.Safe π i Q' w := by
  induction p generalizing w with
  | ret a => exact fun w' h' => hQ a w' (h w' h')
  | op label act next ih =>
    exact fun w' h' hcond => ⟨(h w' h' hcond).1, ih _ (h w' h' hcond).2⟩
  | acquire key next ih =>
    exact fun w' h' hfree => ⟨(h w' h' hfree).1, ih (h w' h' hfree).2⟩
  | release key next ih => exact fun w' h' => ⟨(h w' h').1, ih (h w' h').2⟩

theorem of_unconditional {C : Λ → σ → Prop} {w : World κ σ} (h : p.Safe { guar := π.guar } i Q w) :
    p.Safe { guar := π.guar, cond := C } i Q w := by
  induction p generalizing w with
  | ret a => exact h
  | op label act next ih =>
    exact fun w' h' _ => ⟨(h w' h' trivial).1, ih _ (h w' h' trivial).2⟩
  | acquire key next ih =>
    exact fun w' h' hfree => ⟨(h w' h' hfree).1, ih (h w' h' hfree).2⟩
  | release key next ih => exact fun w' h' => ⟨(h w' h').1, ih (h w' h').2⟩

theorem bind {Q' : β → World κ σ → Prop} {k : α → Prog κ Λ σ β} {w : World κ σ}
    (h : p.Safe π i (fun a w => (k a).Safe π i Q' w) w) : (p.bind k).Safe π i Q' w := by
  induction p generalizing w with
  | ret a => exact h w .refl
  | op label act next ih =>
    exact fun w' h' hcond => ⟨(h w' h' hcond).1, ih _ (h w' h' hcond).2⟩
  | acquire key next ih =>
    exact fun w' h' hfree => ⟨(h w' h' hfree).1, ih (h w' h' hfree).2⟩
  | release key next ih => exact fun w' h' => ⟨(h w' h').1, ih (h w' h').2⟩

theorem frame {R : World κ σ → Prop} (hR : ∀ j w w', π.guar j w w' → R w → R w') {w : World κ σ}
    (h : p.Safe π i Q w) (hw : R w) : p.Safe π i (fun a w => Q a w ∧ R w) w := by
  have hrely : ∀ w w', π.Rely i w w' → R w → R w' := fun w w' hsteps hw =>
    Protocol.Stable.rely (fun j w w' _ hguar => hR j w w' hguar) hsteps hw
  induction p generalizing w with
  | ret a => exact fun w' h' => ⟨h w' h', hrely w w' h' hw⟩
  | op label act next ih =>
    intro w' h' hcond
    obtain ⟨hguar, hnext⟩ := h w' h' hcond
    exact ⟨hguar, ih w'.store hnext (hR i _ _ hguar (hrely w w' h' hw))⟩
  | acquire key next ih =>
    intro w' h' hfree
    obtain ⟨hguar, hnext⟩ := h w' h' hfree
    exact ⟨hguar, ih hnext (hR i _ _ hguar (hrely w w' h' hw))⟩
  | release key next ih =>
    intro w' h'
    obtain ⟨hguar, hnext⟩ := h w' h'
    exact ⟨hguar, ih hnext (hR i _ _ hguar (hrely w w' h' hw))⟩

theorem run {p : Prog κ Λ σ α} {w : World κ σ} (hfree : p.LockFree) (h : p.Safe π i Q w)
    (halong : p.Along π.cond w.store) :
    Relation.ReflTransGen (π.guar i) w (w.act fun s => (p.run s).2) ∧
      Q (p.run w.store).1 (w.act fun s => (p.run s).2) := by
  induction p generalizing w with
  | ret a => exact ⟨.refl, h w .refl⟩
  | op label act next ih =>
    obtain ⟨hguar, hnext⟩ := h w .refl halong.1
    obtain ⟨hsteps, hQ⟩ := ih w.store (hfree w.store) hnext halong.2
    exact ⟨.head hguar hsteps, hQ⟩
  | acquire key next => exact hfree.elim
  | release key next => exact hfree.elim

theorem step {p' : Prog κ Λ σ α} {w w' : World κ σ} (h : p.Safe π i Q w)
    (hstep : p.step i w = some (p', w'))
    (hcond : ∀ label act k, p = .op label act k → π.cond label w.store) :
    π.guar i w w' ∧ p'.Safe π i Q w' := by
  cases p with
  | ret a => simp [Prog.step] at hstep
  | op label act k =>
    simp only [Prog.step, some.injEq, Prod.mk.injEq] at hstep
    obtain ⟨rfl, rfl⟩ := hstep
    exact h w .refl (hcond label act k rfl)
  | acquire key k =>
    simp only [Prog.step] at hstep
    split at hstep
    · next hfree =>
      simp only [some.injEq, Prod.mk.injEq] at hstep
      obtain ⟨rfl, rfl⟩ := hstep
      exact h w .refl hfree
    · simp at hstep
  | release key k =>
    simp only [Prog.step, some.injEq, Prod.mk.injEq] at hstep
    obtain ⟨rfl, rfl⟩ := hstep
    exact h w .refl

end Prog.Safe

/-! ## rules -/

/-- From `P`, thread `i` runs the program safely and ends in `Q`. -/
def Triple (π : Protocol κ Λ σ) (i : Nat) (P : World κ σ → Prop) (p : Prog κ Λ σ α)
    (Q : α → World κ σ → Prop) : Prop :=
  ∀ w, P w → p.Safe π i Q w

/-- No operation of the program is more than a step that any thread may take. -/
def Prog.Neutral (π : Protocol κ Λ σ) : Prog κ Λ σ α → Prop
  | .ret _ => True
  | .op _ act next => (∀ j w, π.guar j w (w.act act)) ∧ ∀ s, (next s).Neutral π
  | .acquire _ _ => False
  | .release _ _ => False

namespace Triple

variable {π : Protocol κ Λ σ} {i : Nat} {P P' : World κ σ → Prop} {Q : α → World κ σ → Prop}

variable {p : Prog κ Λ σ α}

theorem pre (hP : ∀ w, P' w → P w) (h : Triple π i P p Q) : Triple π i P' p Q :=
  fun w hw => h w (hP w hw)

variable {Q' : α → World κ σ → Prop}

theorem post (hQ : ∀ a w, Q a w → Q' a w) (h : Triple π i P p Q) : Triple π i P p Q' :=
  fun w hw => (h w hw).mono hQ

theorem ret {a : α} (hQ : π.Stable i (Q a)) : Triple π i (Q a) (.ret a) Q :=
  fun _ hw _ hrely => hQ.rely hrely hw

theorem bind {Q' : β → World κ σ → Prop} {k : α → Prog κ Λ σ β} (hp : Triple π i P p Q)
    (hk : ∀ a, Triple π i (Q a) (k a) Q') : Triple π i P (p.bind k) Q' :=
  fun w hw => ((hp w hw).mono fun a w' hw' => hk a w' hw').bind

theorem of_unconditional {C : Λ → σ → Prop} (h : Triple { guar := π.guar } i P p Q) :
    Triple { guar := π.guar, cond := C } i P p Q :=
  fun w hw => (h w hw).of_unconditional

theorem frame {R : World κ σ → Prop} (hR : ∀ j w w', π.guar j w w' → R w → R w')
    (h : Triple π i P p Q) : Triple π i (fun w => P w ∧ R w) p fun a w => Q a w ∧ R w :=
  fun w hw => (h w hw.1).frame hR hw.2

theorem call {label : Λ} {f : σ → α × σ} (hP : π.Stable i P) (hQ : ∀ a, π.Stable i (Q a))
    (h : ∀ w, P w → π.cond label w.store →
      π.guar i w (w.act fun s => (f s).2) ∧ Q (f w.store).1 (w.act fun s => (f s).2)) :
    Triple π i P (.call label f) Q := by
  intro w hw w' hrely hcond
  obtain ⟨hguar, hpost⟩ := h w' (hP.rely hrely hw) hcond
  exact ⟨hguar, fun w'' hrely' => (hQ _).rely hrely' hpost⟩

theorem withLock {key : κ} (hP : π.Stable i P) (hQ : ∀ a, π.Stable i (Q a))
    (hQ' : ∀ a, π.Stable i (Q' a))
    (htake : ∀ w, P w → w.holder key = none → π.guar i w (w.take key i) ∧ P' (w.take key i))
    (hp : Triple π i P' p Q') (hdrop : ∀ a w, Q' a w → π.guar i w (w.drop key) ∧ Q a (w.drop key)) :
    Triple π i P (.withLock key p) Q := by
  intro w hw w' hrely hfree
  obtain ⟨hguar, hheld⟩ := htake w' (hP.rely hrely hw) hfree
  refine ⟨hguar, Prog.Safe.bind ((hp _ hheld).mono fun a v hv v' hrely' => ?_)⟩
  obtain ⟨hfreed, hpost⟩ := hdrop a v' ((hQ' a).rely hrely' hv)
  exact ⟨hfreed, fun u hrely'' => (hQ a).rely hrely'' hpost⟩

theorem neutral (hP : π.Stable i P) (hp : p.Neutral π) : Triple π i P p fun _ w => P w := by
  intro w hw
  induction p generalizing w with
  | ret a => exact fun w' hrely => hP.rely hrely hw
  | op label act next ih =>
    intro w' hrely _
    have hpost : P (w'.act act) :=
      hP (i + 1) w' (w'.act act) (Nat.succ_ne_self i) (hp.1 (i + 1) w') (hP.rely hrely hw)
    exact ⟨hp.1 i w', ih w'.store (hp.2 w'.store) (w'.act act) hpost⟩
  | acquire key next => exact hp.elim
  | release key next => exact hp.elim

end Triple

namespace Prog.Neutral

variable {π : Protocol κ Λ σ}

variable {p : Prog κ Λ σ α}

omit [DecidableEq κ] in
theorem bind {k : α → Prog κ Λ σ β} (hp : p.Neutral π) (hk : ∀ a, (k a).Neutral π) :
    (p.bind k).Neutral π := by
  induction p with
  | ret a => exact hk a
  | op label act next ih => exact ⟨hp.1, fun s => ih s (hp.2 s)⟩
  | acquire key next => exact hp.elim
  | release key next => exact hp.elim

omit [DecidableEq κ] in
theorem call {label : Λ} {f : σ → α × σ} (h : ∀ j w, π.guar j w (w.act fun s => (f s).2)) :
    (Prog.call label f : Prog κ Λ σ α).Neutral π :=
  ⟨h, fun _ => trivial⟩

omit [DecidableEq κ] in
theorem ret (a : α) : (Prog.ret a : Prog κ Λ σ α).Neutral π := trivial

omit [DecidableEq κ] in
theorem lockFree (hp : p.Neutral π) : p.LockFree := by
  induction p with
  | ret a => trivial
  | op label act next ih => exact fun s => ih s (hp.2 s)
  | acquire key next => exact hp.elim
  | release key next => exact hp.elim

end Prog.Neutral

/-! ## schedules of safe programs -/

/-- Every thread is safe, and only threads hold locks. -/
structure Config.Safe (π : Protocol κ Λ σ) (Q : Nat → α → World κ σ → Prop)
    (cfg : Config κ Λ σ α) : Prop where
  threads : ∀ i (p : Prog κ Λ σ α), cfg.threads[i]? = some p → p.Safe π i (Q i) cfg.world
  holders : ∀ key i, cfg.world.holder key = some i → i < cfg.threads.length

namespace Config

variable {π : Protocol κ Λ σ} {Q : Nat → α → World κ σ → Prop} {Inv : World κ σ → Prop}
  {program : γ → Prog κ Λ σ α} {cfg next : Config κ Λ σ α}

theorem idle_safe (s : σ) : (idle s : Config κ Λ σ α).Safe π Q :=
  ⟨fun i p h => by simp [idle] at h, fun key i h => by simp [idle] at h⟩

theorem Safe.unlocked (hsafe : cfg.Safe π Q) (hquiet : cfg.Quiet)
    (hidle : ∀ i a w, Q i a w → w.Idle i) (key : κ) : cfg.world.holder key = none := by
  cases hkey : cfg.world.holder key with
  | none => rfl
  | some i =>
    have hlt := hsafe.holders key i hkey
    obtain ⟨a, ha⟩ := hquiet _ (getElem_mem hlt)
    have hthread := hsafe.threads i _ (getElem?_eq_getElem hlt)
    rw [ha] at hthread
    exact absurd hkey (hidle i a _ (hthread _ .refl) key)

theorem step_thread {i : Nat} (h : cfg.step program (.step i) = some next) :
    ∃ p p', cfg.threads[i]? = some p ∧ p.step i cfg.world = some (p', next.world) ∧
      next.threads = cfg.threads.set i p' := by
  rw [step, bind_eq_some_iff] at h
  obtain ⟨p, hp, h⟩ := h
  rw [map_eq_some_iff] at h
  obtain ⟨⟨p', w'⟩, hstep, rfl⟩ := h
  exact ⟨p, p', hp, hstep, rfl⟩

theorem step_holder {i j : Nat} {key : κ} {p p' : Prog κ Λ σ α} {w w' : World κ σ}
    (h : p.step i w = some (p', w')) (hkey : w'.holder key = some j) :
    j = i ∨ w.holder key = some j := by
  cases p with
  | ret a => simp [Prog.step] at h
  | op label act k =>
    simp only [Prog.step, some.injEq, Prod.mk.injEq] at h
    obtain ⟨-, rfl⟩ := h
    exact .inr hkey
  | acquire lock k =>
    simp only [Prog.step] at h
    split at h
    · simp only [some.injEq, Prod.mk.injEq] at h
      obtain ⟨-, rfl⟩ := h
      rw [World.take_holder] at hkey
      grind
    · simp at h
  | release lock k =>
    simp only [Prog.step, some.injEq, Prod.mk.injEq] at h
    obtain ⟨-, rfl⟩ := h
    rw [World.drop_holder] at hkey
    grind

theorem Safe.event_guar {e : Event γ} (hsafe : cfg.Safe π Q)
    (hstep : cfg.step program e = some next) (hmeets : cfg.Meets π.cond e) :
    next.world = cfg.world ∨ ∃ i, π.guar i cfg.world next.world := by
  cases e with
  | start request =>
    simp only [step, some.injEq] at hstep
    subst hstep
    exact .inl rfl
  | step i =>
    obtain ⟨p, p', hp, hprog, -⟩ := step_thread hstep
    have hcond : ∀ label act k, p = .op label act k → π.cond label cfg.world.store := by
      intro label act k hop
      exact hmeets label act k (by rw [hp, hop])
    exact .inr ⟨i, ((hsafe.threads i p hp).step hprog hcond).1⟩

section Run

variable (hinv : ∀ i w w', π.guar i w w' → Inv w → Inv w')
  (hentry : ∀ request i w, Inv w → (∀ key, w.holder key ≠ some i) → (program request).Safe π i (Q i) w)

include hinv hentry

theorem Safe.event {e : Event γ} (hsafe : cfg.Safe π Q) (hI : Inv cfg.world)
    (hstep : cfg.step program e = some next) (hmeets : cfg.Meets π.cond e) :
    next.Safe π Q ∧ Inv next.world ∧
      Relation.ReflTransGen (fun w w' => ∃ i, π.guar i w w') cfg.world next.world := by
  cases e with
  | start request =>
    simp only [step, some.injEq] at hstep
    subst hstep
    refine ⟨⟨fun i p hp => ?_, fun key i hkey => ?_⟩, hI, .refl⟩
    · rw [getElem?_append] at hp
      split at hp
      · exact hsafe.threads i p hp
      · next hlt =>
        have hnew : p = program request := by
          rw [getElem?_singleton] at hp
          grind
        have hholder : ∀ key, cfg.world.holder key ≠ some i := by
          intro key hkey
          exact hlt (hsafe.holders key i hkey)
        rw [hnew]
        exact hentry request i cfg.world hI hholder
    · have hlt := hsafe.holders key i hkey
      simp only [length_append, length_singleton]
      omega
  | step i =>
    obtain ⟨p, p', hp, hprog, hthreads⟩ := step_thread hstep
    have hcond : ∀ label act k, p = .op label act k → π.cond label cfg.world.store := by
      intro label act k hop
      exact hmeets label act k (by rw [hp, hop])
    obtain ⟨hguar, hp'⟩ := (hsafe.threads i p hp).step hprog hcond
    refine ⟨⟨fun j q hq => ?_, fun key j hkey => ?_⟩, hinv i _ _ hguar hI, .single ⟨i, hguar⟩⟩
    · rw [hthreads, getElem?_set] at hq
      by_cases hij : i = j
      · subst hij
        have hq' : q = p' := by grind
        rw [hq']
        exact hp'
      · rw [if_neg hij] at hq
        exact (hsafe.threads j q hq).rely (.single ⟨i, hij, hguar⟩)
    · rw [hthreads, length_set]
      have hi : i < cfg.threads.length := (List.getElem?_eq_some_iff.mp hp).1
      rcases step_holder hprog hkey with rfl | hold
      · exact hi
      · exact hsafe.holders key j hold

/-- A schedule of safe programs, every operation of which meets the condition, keeps the
invariant, and each of its steps is one that the protocol allows. -/
theorem Safe.run {events : List (Event γ)} {last : Config κ Λ σ α} (hsafe : cfg.Safe π Q)
    (hI : Inv cfg.world) (hrun : cfg.run program events = some last)
    (hmeets : cfg.MeetsAlong program π.cond events) :
    last.Safe π Q ∧ Inv last.world ∧
      Relation.ReflTransGen (fun w w' => ∃ i, π.guar i w w') cfg.world last.world := by
  induction events generalizing cfg with
  | nil =>
    simp only [Config.run, some.injEq] at hrun
    subst hrun
    exact ⟨hsafe, hI, .refl⟩
  | cons e events ih =>
    rw [Config.run, bind_eq_some_iff] at hrun
    obtain ⟨mid, hmid, hrun⟩ := hrun
    obtain ⟨hsafe', hI', hsteps⟩ := hsafe.event hinv hentry hI hmid hmeets.1
    obtain ⟨hlast, hIlast, hrest⟩ := ih hsafe' hI' hrun (hmeets.2 mid hmid)
    exact ⟨hlast, hIlast, hsteps.trans hrest⟩

end Run

end Config

end Safety

end KiteAlgo
