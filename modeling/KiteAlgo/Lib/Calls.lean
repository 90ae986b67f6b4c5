/-!
# KiteAlgo.Lib.Calls

Code that changes a store by calls, any of which may raise: before the call has changed the
store, or after.  What an earlier call has changed stays changed.

`Calls.Keeps` says that some code keeps an invariant however its calls end; its rules follow
the code.
-/

namespace KiteAlgo

/-- How a call ends: it returns, or it raises, and may have done its work before. -/
inductive Ending where
  | returns
  | raises (done : Bool)
  deriving DecidableEq

namespace Ending

def effective : Ending → Bool
  | returns => true
  | raises done => done

end Ending

/-- Code with results in `α` that calls a store `σ`; the endings of the calls, by their names
`Λ`, come from outside. -/
def Calls (Λ σ α : Type) : Type := (Λ → Ending) → σ → Option α × σ

namespace Calls

variable {Λ Λ' σ α β : Type}

def ret (a : α) : Calls Λ σ α := fun _ s => (some a, s)

def raise : Calls Λ σ α := fun _ s => (none, s)

def bind (p : Calls Λ σ α) (k : α → Calls Λ σ β) : Calls Λ σ β := fun ends s =>
  match p ends s with
  | (some a, s') => k a ends s'
  | (none, s') => (none, s')

instance : Monad (Calls Λ σ) where
  pure := ret
  bind := bind

def call (label : Λ) (f : σ → α × σ) : Calls Λ σ α := fun ends s =>
  match ends label with
  | .returns => (some (f s).1, (f s).2)
  | .raises true => (none, (f s).2)
  | .raises false => (none, s)

def read (label : Λ) (f : σ → α) : Calls Λ σ α := call label fun s => (f s, s)

def write (label : Λ) (f : σ → σ) : Calls Λ σ Unit := call label fun s => ((), f s)

/-- `try: … except Exception: pass`. -/
def attempt (p : Calls Λ σ α) : Calls Λ σ (Option α) := fun ends s =>
  (some (p ends s).1, (p ends s).2)

def rename (f : Λ → Λ') (p : Calls Λ σ α) : Calls Λ' σ α := fun ends => p (ends ∘ f)

/-! ## results -/

section Results

variable {ends : Λ → Ending} {s s' : σ} {label : Λ}

@[simp] theorem pure_apply (a : α) : (pure a : Calls Λ σ α) ends s = (some a, s) := rfl

theorem rename_apply (f : Λ → Λ') (p : Calls Λ σ α) (ends : Λ' → Ending) :
    p.rename f ends s = p (ends ∘ f) s := rfl

variable {k : α → Calls Λ σ β} {p : Calls Λ σ α}

theorem bind_of_some {a : α} (h : p ends s = (some a, s')) : (p >>= k) ends s = k a ends s' := by
  show bind p k ends s = _
  rw [bind, h]

theorem bind_of_none (h : p ends s = (none, s')) : (p >>= k) ends s = (none, s') := by
  show bind p k ends s = _
  rw [bind, h]

theorem call_returns {f : σ → α × σ} (h : ends label = .returns) :
    call label f ends s = (some (f s).1, (f s).2) := by
  rw [call, h]

variable {done : Bool}

theorem call_raises {f : σ → α × σ} (h : ends label = .raises done) :
    call label f ends s = (none, if done then (f s).2 else s) := by
  rw [call, h]
  cases done <;> rfl

theorem read_returns {f : σ → α} (h : ends label = .returns) :
    read label f ends s = (some (f s), s) :=
  call_returns h

theorem read_raises {f : σ → α} (h : ends label = .raises done) :
    read label f ends s = (none, s) := by
  rw [read, call_raises h]
  cases done <;> rfl

variable {f : σ → σ}

theorem write_returns (h : ends label = .returns) : write label f ends s = (some (), f s) :=
  call_returns h

theorem write_raises (h : ends label = .raises done) :
    write label f ends s = (none, if done then f s else s) :=
  call_raises h

end Results

/-! ## no call raises -/

def run (p : Calls Λ σ α) (s : σ) : Option α × σ := p (fun _ => .returns) s

section Run

variable (s : σ) (label : Λ)

@[simp] theorem run_pure (a : α) : (pure a : Calls Λ σ α).run s = (some a, s) := rfl

@[simp] theorem run_call (f : σ → α × σ) : (call label f).run s = (some (f s).1, (f s).2) := rfl

@[simp] theorem run_read (f : σ → α) : (read label f).run s = (some (f s), s) := rfl

@[simp] theorem run_write (f : σ → σ) : (write label f).run s = (some (), f s) := rfl

@[simp] theorem run_attempt (p : Calls Λ σ α) :
    p.attempt.run s = (some (p.run s).1, (p.run s).2) := rfl

@[simp] theorem run_rename (f : Λ → Λ') (p : Calls Λ σ α) : (p.rename f).run s = p.run s := rfl

theorem run_bind (p : Calls Λ σ α) (k : α → Calls Λ σ β) :
    (p >>= k).run s = match p.run s with
      | (some a, s') => (k a).run s'
      | (none, s') => (none, s') := rfl

end Run

/-! ## invariants -/

/-- The code keeps `I`, however its calls end. -/
def Keeps (I : σ → Prop) (p : Calls Λ σ α) : Prop := ∀ ends s, I s → I (p ends s).2

namespace Keeps

variable {I : σ → Prop}

theorem pure (a : α) : Keeps I (pure a : Calls Λ σ α) := fun _ _ h => h

theorem raise : Keeps I (raise : Calls Λ σ α) := fun _ _ h => h

variable {p : Calls Λ σ α}

theorem bind {k : α → Calls Λ σ β} (hp : p.Keeps I) (hk : ∀ a, (k a).Keeps I) :
    (p >>= k).Keeps I := by
  intro ends s hs
  have hmid := hp ends s hs
  match h : p ends s with
  | (some a, s') =>
    rw [bind_of_some h]
    rw [h] at hmid
    exact hk a ends s' hmid
  | (none, s') =>
    rw [bind_of_none h]
    rw [h] at hmid
    exact hmid

theorem call {label : Λ} {f : σ → α × σ} (hf : ∀ s, I s → I (f s).2) : (call label f).Keeps I := by
  intro ends s hs
  match h : ends label with
  | .returns =>
    rw [call_returns h]
    exact hf s hs
  | .raises true =>
    rw [call_raises h]
    exact hf s hs
  | .raises false =>
    rw [call_raises h]
    exact hs

theorem read {label : Λ} {f : σ → α} : (read label f).Keeps I := call fun _ hs => hs

theorem write {label : Λ} {f : σ → σ} (hf : ∀ s, I s → I (f s)) : (write label f).Keeps I :=
  call hf

theorem attempt (hp : p.Keeps I) : p.attempt.Keeps I := hp

theorem after_attempt {k : Option α → Calls Λ σ β} (hk : ∀ a, (k a).Keeps I) {ends : Λ → Ending}
    {s : σ} (hp : I (p ends s).2) : I ((p.attempt >>= k) ends s).2 :=
  hk (p ends s).1 ends (p ends s).2 hp

theorem rename (hp : p.Keeps I) (f : Λ → Λ') : (p.rename f).Keeps I :=
  fun ends => hp (ends ∘ f)

end Keeps

end Calls

end KiteAlgo
