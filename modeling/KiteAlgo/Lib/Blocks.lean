import Mathlib.Data.List.Infix

/-!
# KiteAlgo.Lib.Blocks

Blocks of neighbours that satisfy a predicate, and the longest of them.

A pass from left to right keeps two counts: how long the block is that ends here
(`IsLastBlock.concat`, `IsLastBlock.concat_of_not`), and how long the longest has been
(`IsLongestBlock.concat`).
-/

namespace KiteAlgo

open List
universe u

variable {α : Type u} {p : α → Prop} {xs : List α} {n : Nat}

/-- `n` neighbours of the list satisfy `p`, and no more do. -/
structure IsLongestBlock (p : α → Prop) (xs : List α) (n : Nat) : Prop where
  block : ∃ block, block <:+: xs ∧ (∀ x ∈ block, p x) ∧ block.length = n
  longest : ∀ block, block <:+: xs → (∀ x ∈ block, p x) → block.length ≤ n

/-- The last `n` items of the list satisfy `p`, and no more do. -/
structure IsLastBlock (p : α → Prop) (xs : List α) (n : Nat) : Prop where
  block : ∃ block, block <:+ xs ∧ (∀ x ∈ block, p x) ∧ block.length = n
  longest : ∀ block, block <:+ xs → (∀ x ∈ block, p x) → block.length ≤ n

theorem IsLastBlock.nil (p : α → Prop) : IsLastBlock p [] 0 := by
  refine ⟨⟨[], suffix_refl [], by simp, rfl⟩, fun block hblock _ => ?_⟩
  rw [suffix_nil.mp hblock]
  exact le_rfl

theorem IsLongestBlock.nil (p : α → Prop) : IsLongestBlock p [] 0 := by
  refine ⟨⟨[], infix_refl [], by simp, rfl⟩, fun block hblock _ => ?_⟩
  rw [infix_nil.mp hblock]
  exact le_rfl

theorem IsLastBlock.concat {x : α} (h : IsLastBlock p xs n) (hx : p x) :
    IsLastBlock p (xs ++ [x]) (n + 1) := by
  obtain ⟨block, hends, hblock, hlength⟩ := h.block
  refine ⟨⟨block ++ [x], ?_, ?_, by rw [length_append, hlength]; rfl⟩, fun other hother hall => ?_⟩
  · obtain ⟨front, rfl⟩ := hends
    exact ⟨front, by rw [append_assoc]⟩
  · intro y hy
    rcases mem_append.mp hy with hy | hy
    · exact hblock y hy
    · rw [mem_singleton.mp hy]
      exact hx
  · rcases suffix_concat_iff.mp hother with rfl | ⟨rest, rfl, hrest⟩
    · exact Nat.zero_le _
    · have hle := h.longest rest hrest fun y hy => hall y (mem_append_left _ hy)
      rw [length_append, length_singleton]
      omega

theorem IsLastBlock.concat_of_not {x : α} (hx : ¬ p x) : IsLastBlock p (xs ++ [x]) 0 := by
  refine ⟨⟨[], nil_suffix, by simp, rfl⟩, fun other hother hall => ?_⟩
  rcases suffix_concat_iff.mp hother with rfl | ⟨rest, rfl, -⟩
  · exact le_rfl
  · exact absurd (hall x (by simp)) hx

theorem IsLongestBlock.concat {x : α} {m : Nat} (h : IsLongestBlock p xs n)
    (hlast : IsLastBlock p (xs ++ [x]) m) : IsLongestBlock p (xs ++ [x]) (max n m) := by
  constructor
  · rcases le_total n m with hle | hle
    · obtain ⟨block, hends, hblock, hlength⟩ := hlast.block
      exact ⟨block, hends.isInfix, hblock, by omega⟩
    · obtain ⟨block, hwithin, hblock, hlength⟩ := h.block
      exact ⟨block, hwithin.trans (prefix_append xs [x]).isInfix, hblock, by omega⟩
  · intro other hother hall
    rcases infix_concat_iff.mp hother with hother | hother
    · exact le_trans (hlast.longest other hother hall) (Nat.le_max_right n m)
    · exact le_trans (h.longest other hother hall) (Nat.le_max_left n m)

theorem IsLongestBlock.eq_zero_iff (h : IsLongestBlock p xs n) : n = 0 ↔ ∀ x ∈ xs, ¬ p x := by
  constructor
  · rintro rfl x hx hpx
    obtain ⟨front, back, rfl⟩ := append_of_mem hx
    have hone := h.longest [x] ⟨front, back, by simp⟩ (by simpa using hpx)
    simp at hone
  · intro hnone
    obtain ⟨block, hwithin, hblock, rfl⟩ := h.block
    cases block with
    | nil => rfl
    | cons x block =>
      exact absurd (hblock x (.head _)) (hnone x (hwithin.subset (.head _)))

end KiteAlgo
