import Mathlib.Data.List.Forall2

/-!
# KiteAlgo.Lib.Known

Partial knowledge: `none` is not known yet, and `Informs a b` says that everything `a`
knows, `b` knows too.  What is built from parts in this order is again in it.
-/

namespace KiteAlgo

open List Option
universe u v

variable {α : Type u} {β : Type v}

def Informs (a b : Option α) : Prop := ∀ v, a = some v → b = some v

namespace Informs

theorem refl (a : Option α) : Informs a a := fun _ h => h

theorem none_left (a : Option α) : Informs none a := by simp [Informs]

variable {a b : Option α}

theorem map (h : Informs a b) (f : α → β) : Informs (a.map f) (b.map f) := by
  intro v hv
  obtain ⟨x, hx, rfl⟩ := map_eq_some_iff.mp hv
  rw [h x hx, map_some]

theorem bind {f g : α → Option β} (h : Informs a b) (hfg : ∀ x, Informs (f x) (g x)) :
    Informs (a.bind f) (b.bind g) := by
  intro v hv
  obtain ⟨x, hx, hfx⟩ := bind_eq_some_iff.mp hv
  rw [h x hx, bind_some, hfg x v hfx]

variable {as bs : List (Option α)}

theorem mem (h : List.Forall₂ Informs as bs) {v : α} (hv : some v ∈ as) : some v ∈ bs := by
  induction h with
  | nil => exact hv
  | @cons a b as bs hab _ ih =>
    rcases mem_cons.mp hv with ha | hmem
    · rw [hab v ha.symm]
      exact (.head _)
    · exact mem_cons_of_mem b (ih hmem)

theorem eq_of_known (h : List.Forall₂ Informs as bs) (hknown : none ∉ as) : bs = as := by
  induction h with
  | nil => rfl
  | @cons a b as bs hab _ ih =>
    rw [mem_cons, not_or] at hknown
    obtain ⟨v, rfl⟩ := ne_none_iff_exists'.mp (Ne.symm hknown.1)
    rw [hab v rfl, ih hknown.2]

end Informs

theorem forall₂_informs_map {γ : Type v} {f g : γ → Option α} {xs : List γ}
    (h : ∀ x ∈ xs, Informs (f x) (g x)) : List.Forall₂ Informs (xs.map f) (xs.map g) := by
  rw [forall₂_map_left_iff, forall₂_map_right_iff, forall₂_same]
  exact h

end KiteAlgo
