/-!
# KiteAlgo.Lib.Sorting

A stable insertion sort by a Boolean order, computable inside the kernel, with
the facts that sorting keeps the members and their number.
-/

namespace KiteAlgo

open List
def insertSorted (le : α → α → Bool) (a : α) : List α → List α
  | [] => [a]
  | b :: bs => if le a b then a :: b :: bs else b :: insertSorted le a bs

/-- `sorted(xs)`. -/
def sortBy (le : α → α → Bool) (xs : List α) : List α := xs.foldr (insertSorted le) []

variable {a b : α} {le : α → α → Bool} {xs : List α}

theorem mem_insertSorted : b ∈ insertSorted le a xs ↔ b = a ∨ b ∈ xs := by
  induction xs with
  | nil => simp [insertSorted]
  | cons x xs ih =>
    unfold insertSorted
    split
    · simp
    · simp only [mem_cons, ih]
      constructor
      · rintro (h | h | h) <;> simp [h]
      · rintro (h | h | h) <;> simp [h]

theorem perm_insertSorted (le : α → α → Bool) (a : α) (xs : List α) :
    (insertSorted le a xs).Perm (a :: xs) := by
  induction xs with
  | nil => exact .refl _
  | cons x xs ih =>
    unfold insertSorted
    split
    · exact .refl _
    · exact (ih.cons x).trans (.swap a x xs)

theorem perm_sortBy (le : α → α → Bool) (xs : List α) : (sortBy le xs).Perm xs := by
  induction xs with
  | nil => exact .refl _
  | cons x xs ih => exact (perm_insertSorted le x (sortBy le xs)).trans (ih.cons x)

@[simp] theorem mem_sortBy : b ∈ sortBy le xs ↔ b ∈ xs := by
  induction xs with
  | nil => simp [sortBy]
  | cons x xs ih =>
    have hcons : sortBy le (x :: xs) = insertSorted le x (sortBy le xs) := rfl
    rw [hcons, mem_insertSorted, ih, mem_cons]

@[simp] theorem length_sortBy (le : α → α → Bool) (xs : List α) :
    (sortBy le xs).length = xs.length := by
  have hins : ∀ (a : α) (ys : List α), (insertSorted le a ys).length = ys.length + 1 := by
    intro a ys
    induction ys with
    | nil => rfl
    | cons y ys ih =>
      unfold insertSorted
      split <;> simp [ih]
  induction xs with
  | nil => rfl
  | cons x xs ih =>
    have hcons : sortBy le (x :: xs) = insertSorted le x (sortBy le xs) := rfl
    rw [hcons, hins, ih, length_cons]

theorem pairwise_insertSorted (htotal : ∀ a b, le a b ∨ le b a)
    (htrans : ∀ a b c, le a b → le b c → le a c)
    (h : xs.Pairwise fun x y => le x y = true) :
    (insertSorted le a xs).Pairwise fun x y => le x y = true := by
  induction xs with
  | nil => exact pairwise_singleton _ a
  | cons x xs ih =>
    rw [pairwise_cons] at h
    unfold insertSorted
    split
    · next hle =>
        refine pairwise_cons.mpr ⟨fun y hy => ?_, pairwise_cons.mpr h⟩
        rcases mem_cons.mp hy with rfl | hy
        · exact hle
        · exact htrans a x y hle (h.1 y hy)
    · next hle =>
        refine pairwise_cons.mpr ⟨fun y hy => ?_, ih h.2⟩
        rcases mem_insertSorted.mp hy with rfl | hy
        · exact (htotal y x).resolve_left hle
        · exact h.1 y hy

theorem pairwise_sortBy (htotal : ∀ a b, le a b ∨ le b a)
    (htrans : ∀ a b c, le a b → le b c → le a c) (xs : List α) :
    (sortBy le xs).Pairwise fun x y => le x y = true := by
  induction xs with
  | nil => exact List.Pairwise.nil
  | cons x xs ih => exact pairwise_insertSorted htotal htrans ih

@[simp] theorem head?_sortBy_eq_none : (sortBy le xs).head? = none ↔ xs = [] := by
  rw [head?_eq_none_iff, ← length_eq_zero_iff, length_sortBy, length_eq_zero_iff]

theorem least_of_head?_sortBy (htotal : ∀ a b, le a b ∨ le b a)
    (htrans : ∀ a b c, le a b → le b c → le a c)
    (h : (sortBy le xs).head? = some a) : a ∈ xs ∧ ∀ b ∈ xs, le a b := by
  have hsorted := pairwise_sortBy htotal htrans xs
  obtain ⟨rest, hrest⟩ := head?_eq_some_iff.mp h
  refine ⟨mem_sortBy.mp (hrest ▸ mem_cons_self), fun b hb => ?_⟩
  have hmem : b ∈ a :: rest := hrest ▸ mem_sortBy.mpr hb
  rw [hrest, pairwise_cons] at hsorted
  rcases mem_cons.mp hmem with rfl | hmem
  · rcases htotal b b with hle | hle <;> exact hle
  · exact hsorted.1 b hmem

end KiteAlgo
