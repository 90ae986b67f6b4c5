import Mathlib

/-!
# KiteAlgo.Lib.Segments

A list read from left to right in runs of equal keys, and sums over its neighbours.

`Runs` relates a list to its maximal runs.  When all runs but the last have increasing
keys, a run is what the list holds of its key up to the first later key
(`Runs.filter_takeWhile`); `Runs.pairwise_iff` says which lists those are.
-/

namespace KiteAlgo

open List Option
universe u v

/-! ## neighbours -/

section Neighbours

variable {α : Type u}

def neighbours : List α → List (α × α)
  | a :: b :: rest => (a, b) :: neighbours (b :: rest)
  | _ => []

theorem neighbours_concat (xs : List α) (a b : α) :
    neighbours (xs ++ [a] ++ [b]) = neighbours (xs ++ [a]) ++ [(a, b)] := by
  induction xs with
  | nil => rfl
  | cons x xs ih =>
    cases xs with
    | nil => rfl
    | cons y xs =>
      simp only [cons_append, neighbours] at ih ⊢
      rw [ih]

theorem rel_of_mem_neighbours {R : α → α → Prop} {xs : List α} (h : xs.Pairwise R) {p : α × α}
    (hp : p ∈ neighbours xs) : R p.1 p.2 := by
  induction xs with
  | nil => simp [neighbours] at hp
  | cons a xs ih =>
    cases xs with
    | nil => simp [neighbours] at hp
    | cons b xs =>
      rw [pairwise_cons] at h
      rw [neighbours, mem_cons] at hp
      cases hp with
      | inl heq =>
        rw [heq]
        exact h.1 b (.head _)
      | inr hrest => exact ih h.2 hrest

theorem of_mem_neighbours {xs : List α} {p : α × α} (hp : p ∈ neighbours xs) :
    p.1 ∈ xs ∧ p.2 ∈ xs := by
  induction xs with
  | nil => simp [neighbours] at hp
  | cons a xs ih =>
    cases xs with
    | nil => simp [neighbours] at hp
    | cons b xs =>
      rw [neighbours, mem_cons] at hp
      cases hp with
      | inl heq => simp [heq]
      | inr hrest =>
        obtain ⟨h1, h2⟩ := ih hrest
        exact ⟨mem_cons_of_mem a h1, mem_cons_of_mem a h2⟩

theorem sum_neighbours (f : α → ℤ) (x : α) (xs : List α) :
    ((neighbours (x :: xs)).map fun p => f p.2 - f p.1).sum =
      f ((x :: xs).getLast (cons_ne_nil x xs)) - f x := by
  induction xs generalizing x with
  | nil => simp [neighbours]
  | cons y xs ih =>
    rw [neighbours, map_cons, sum_cons, ih, getLast_cons (cons_ne_nil y xs)]
    show f y - f x + _ = _
    omega

/-- Of two sums of weights that are not negative, one over fewer items, the smaller one is
equal only when the items left out weigh nothing. -/
theorem sum_filter_eq_iff {p q : α → Prop} [DecidablePred p] [DecidablePred q] {weight : α → ℤ}
    {items : List α} (hweight : ∀ a ∈ items, 0 ≤ weight a) (hpq : ∀ a ∈ items, p a → q a) :
    ((items.filter p).map weight).sum = ((items.filter q).map weight).sum ↔
      ∀ a ∈ items, q a → p a ∨ weight a = 0 := by
  have hle : ∀ items : List α, (∀ a ∈ items, 0 ≤ weight a) → (∀ a ∈ items, p a → q a) →
      ((items.filter p).map weight).sum ≤ ((items.filter q).map weight).sum := by
    intro items hweight hpq
    induction items with
    | nil => simp
    | cons a items ih =>
      rw [forall_mem_cons] at hweight hpq
      have hrest := ih hweight.2 hpq.2
      have hkeep := hpq.1
      have hpos := hweight.1
      by_cases hp : p a <;> by_cases hq : q a <;> simp [hp, hq] <;> grind
  induction items with
  | nil => simp
  | cons a items ih =>
    rw [forall_mem_cons] at hweight hpq ⊢
    have hrest := hle items hweight.2 hpq.2
    have hiff := ih hweight.2 hpq.2
    have hkeep := hpq.1
    have hpos := hweight.1
    refine Iff.trans ?_ (and_congr_right fun _ => hiff)
    by_cases hp : p a <;> by_cases hq : q a <;> simp [hp, hq] <;> grind

end Neighbours

section Forall₂

variable {α : Type u} {β : Type v} {R : α → β → Prop} {S : α → α → Prop} {T : β → β → Prop}

variable {ys : List β}

theorem forall_mem_iff_of_forall₂ {p : α → Prop} {q : β → Prop} (hpq : ∀ x y, R x y → (p x ↔ q y))
    {xs : List α} (h : List.Forall₂ R xs ys) : (∀ x ∈ xs, p x) ↔ ∀ y ∈ ys, q y := by
  induction h with
  | nil => simp
  | cons hxy _ ih => rw [forall_mem_cons, forall_mem_cons, ih, hpq _ _ hxy]

theorem pairwise_iff_of_forall₂ (hST : ∀ x x' y y', R x y → R x' y' → (S x x' ↔ T y y'))
    {xs : List α} (h : List.Forall₂ R xs ys) : xs.Pairwise S ↔ ys.Pairwise T := by
  induction h with
  | nil => simp
  | cons hxy htail ih =>
    rw [pairwise_cons, pairwise_cons, ih,
      forall_mem_iff_of_forall₂ (fun x' y' => hST _ x' _ y' hxy) htail]

theorem exists_of_mem_right_of_forall₂ {xs : List α} (h : List.Forall₂ R xs ys) {y : β}
    (hy : y ∈ ys) : ∃ x ∈ xs, R x y := by
  induction h with
  | nil => simp at hy
  | cons hxy _ ih =>
    rw [mem_cons] at hy
    cases hy with
    | inl heq =>
      rw [heq]
      exact ⟨_, (.head _), hxy⟩
    | inr hrest =>
      obtain ⟨x, hx, hR⟩ := ih hrest
      exact ⟨x, mem_cons_of_mem _ hx, hR⟩

end Forall₂

/-! ## runs of equal keys -/

section Runs

variable {α : Type u} {κ : Type v} {key : α → κ}

/-- `runs` are the maximal runs of equal keys of `xs`, in order. -/
structure Runs (key : α → κ) (xs : List α) (runs : List (List α)) : Prop where
  flatten : runs.flatten = xs
  nonempty : ∀ run ∈ runs, run ≠ []
  same : ∀ run ∈ runs, ∀ x ∈ run, ∀ y ∈ run, key x = key y
  differ : runs.IsChain fun run next => ∀ x ∈ run, ∀ y ∈ next, key x ≠ key y

namespace Runs

theorem nil : Runs key [] [] := by
  constructor <;> simp

theorem single (x : α) : Runs key [x] [[x]] := by
  constructor <;> simp

variable {xs : List α} {closed : List (List α)} {current : List α}

theorem extend (h : Runs key xs (closed ++ [current])) {x : α} (hx : ∀ y ∈ current, key y = key x) :
    Runs key (xs ++ [x]) (closed ++ [current ++ [x]]) := by
  obtain ⟨hflatten, hnonempty, hsame, hdiffer⟩ := h
  have hne := hnonempty current (by simp)
  obtain ⟨y₀, hy₀⟩ := exists_mem_of_ne_nil current hne
  constructor
  · rw [← hflatten]
    simp
  · intro run hrun
    rw [mem_append, mem_singleton] at hrun
    cases hrun with
    | inl hclosed => exact hnonempty run (mem_append_left _ hclosed)
    | inr heq =>
      rw [heq]
      simp
  · intro run hrun a ha b hb
    rw [mem_append, mem_singleton] at hrun
    cases hrun with
    | inl hclosed => exact hsame run (mem_append_left _ hclosed) a ha b hb
    | inr heq =>
      have hkey : ∀ a ∈ run, key a = key x := by
        intro a ha
        rw [heq, mem_append, mem_singleton] at ha
        cases ha with
        | inl hcurrent => exact hx a hcurrent
        | inr heq => rw [heq]
      rw [hkey a ha, hkey b hb]
  · rw [isChain_append] at hdiffer ⊢
    refine ⟨hdiffer.1, isChain_singleton _, fun run hrun next hnext a ha b hb => ?_⟩
    have hold := hdiffer.2.2 run hrun current (by simp) a ha
    simp only [head?_cons, mem_def, some.injEq] at hnext
    rw [← hnext, mem_append, mem_singleton] at hb
    cases hb with
    | inl hcurrent => exact hold b hcurrent
    | inr heq =>
      rw [heq, ← hx y₀ hy₀]
      exact hold y₀ hy₀

theorem next (h : Runs key xs (closed ++ [current])) {x : α} (hx : ∀ y ∈ current, key y ≠ key x) :
    Runs key (xs ++ [x]) (closed ++ [current] ++ [[x]]) := by
  obtain ⟨hflatten, hnonempty, hsame, hdiffer⟩ := h
  constructor
  · rw [flatten_append, hflatten]
    simp
  · intro run hrun
    rw [mem_append, mem_singleton] at hrun
    cases hrun with
    | inl hold => exact hnonempty run hold
    | inr heq => simp [heq]
  · intro run hrun
    rw [mem_append, mem_singleton] at hrun
    cases hrun with
    | inl hold => exact hsame run hold
    | inr heq => simp [heq]
  · rw [isChain_append]
    refine ⟨hdiffer, isChain_singleton _, fun run hrun next hnext a ha b hb => ?_⟩
    simp only [getLast?_concat, mem_def, some.injEq] at hrun
    simp only [head?_cons, mem_def, some.injEq] at hnext
    rw [← hnext, mem_singleton] at hb
    rw [← hrun] at ha
    rw [hb]
    exact hx a ha

variable {rest : List (List α)} {run : List α}

theorem tail (h : Runs key xs (run :: rest)) : Runs key rest.flatten rest where
  flatten := rfl
  nonempty next hnext := h.nonempty next (mem_cons_of_mem run hnext)
  same next hnext := h.same next (mem_cons_of_mem run hnext)
  differ := h.differ.tail

/-! ## increasing keys -/

variable [LinearOrder κ]

def Below (key : α → κ) (run next : List α) : Prop := ∀ x ∈ run, ∀ y ∈ next, key x < key y

theorem below_of_no_late {next third : List α} (h : Runs key xs (run :: next :: third :: rest))
    (hlate : ∀ x y z, [x, y, z].Sublist xs → key y < key x → key z = key y) : Below key run next := by
  intro x hx y hy
  obtain ⟨hne, hdiffer⟩ := isChain_cons_cons.mp h.differ
  obtain ⟨hnext, -⟩ := isChain_cons_cons.mp hdiffer
  by_contra hnot
  have hyx : key y < key x := lt_of_le_of_ne (not_lt.mp hnot) (hne x hx y hy).symm
  obtain ⟨z, hz⟩ := exists_mem_of_ne_nil third (h.nonempty third (by simp))
  have hsub : [x, y, z].Sublist xs := by
    rw [← h.flatten]
    have hparts := ((singleton_sublist.mpr hx).append (singleton_sublist.mpr hy)).append
      ((singleton_sublist.mpr hz).trans (sublist_append_left third rest.flatten))
    simpa using hparts
  exact hnext y hy z hz (hlate x y z hsub hyx).symm

/-- All runs but the last have increasing keys exactly when an element with a smaller key
than one before it is followed by elements of its own key only. -/
theorem pairwise_iff (h : Runs key xs (closed ++ [current])) :
    closed.Pairwise (Below key) ↔ ∀ x y z, [x, y, z].Sublist xs → key y < key x → key z = key y := by
  constructor
  · intro hinc x y z hsub hyx
    have hmono : closed.flatten.Pairwise fun a b => key a ≤ key b := by
      rw [pairwise_flatten]
      constructor
      · intro run hrun
        apply pairwise_of_forall_mem_list
        intro a ha b hb
        exact (h.same run (mem_append_left _ hrun) a ha b hb).le
      · exact hinc.imp fun hbelow a ha b hb => (hbelow a ha b hb).le
    have hxs : xs = closed.flatten ++ current := by
      rw [← h.flatten]
      simp
    rw [hxs, sublist_append_iff] at hsub
    obtain ⟨front, back, hsplit, hfront, hback⟩ := hsub
    have hcurrent : ∀ w ∈ back, ∀ w' ∈ back, key w = key w' := by
      intro w hw w' hw'
      exact h.same current (by simp) w (hback.subset hw) w' (hback.subset hw')
    -- either the late element already is in the last run, or it is in a closed one
    cases front with
    | nil =>
      have hthree : [x, y, z] = back := hsplit
      rw [← hthree] at hcurrent
      exact hcurrent z (by simp) y (by simp)
    | cons a front =>
      cases front with
      | nil =>
        have htwo : [y, z] = back := (List.cons.inj hsplit).2
        rw [← htwo] at hcurrent
        exact hcurrent z (by simp) y (by simp)
      | cons b front =>
        have hab : x = a ∧ y = b := by
          simp only [cons_append, List.cons.injEq] at hsplit
          exact ⟨hsplit.1, hsplit.2.1⟩
        rw [← hab.1, ← hab.2] at hfront
        have hle := (pairwise_cons.mp (hmono.sublist hfront)).1 y mem_cons_self
        exact absurd hyx (not_lt.mpr hle)
  · intro hlate
    induction closed generalizing xs with
    | nil => exact List.Pairwise.nil
    | cons run closed ih =>
      have htail := h.tail
      have hrest := ih htail fun x y z hsub => hlate x y z (hsub.trans (by
        rw [← h.flatten, cons_append, flatten_cons]
        exact sublist_append_right run _))
      refine pairwise_cons.mpr ⟨?_, hrest⟩
      cases closed with
      | nil => simp
      | cons next closed =>
        have hbelow : Below key run next := by
          cases closed with
          | nil => exact below_of_no_late h hlate
          | cons third closed => exact below_of_no_late h hlate
        obtain ⟨y, hy⟩ := exists_mem_of_ne_nil next (h.nonempty next (by simp))
        intro later hlater
        rw [mem_cons] at hlater
        cases hlater with
        | inl heq =>
          rw [heq]
          exact hbelow
        | inr hlater =>
          intro x hx z hz
          exact (hbelow x hx y hy).trans
            ((pairwise_cons.mp hrest).1 later hlater y hy z hz)

theorem pairwise_of_monotone {runs : List (List α)} (h : Runs key xs runs)
    (hmono : xs.Pairwise fun x y => key x ≤ key y) : runs.Pairwise (Below key) := by
  induction runs generalizing xs with
  | nil => exact List.Pairwise.nil
  | cons run rest ih =>
    rw [← h.flatten, flatten_cons, pairwise_append] at hmono
    have hrest := ih h.tail hmono.2.1
    refine pairwise_cons.mpr ⟨?_, hrest⟩
    cases rest with
    | nil => simp
    | cons next rest =>
      have hbelow : Below key run next := by
        intro x hx y hy
        refine lt_of_le_of_ne (hmono.2.2 x hx y (by simp [hy])) ?_
        exact (isChain_cons_cons.mp h.differ).1 x hx y hy
      obtain ⟨y, hy⟩ := exists_mem_of_ne_nil next (h.nonempty next (by simp))
      intro later hlater
      rw [mem_cons] at hlater
      cases hlater with
      | inl heq =>
        rw [heq]
        exact hbelow
      | inr hlater =>
        intro x hx z hz
        exact (hbelow x hx y hy).trans
          ((pairwise_cons.mp hrest).1 later hlater y hy z hz)

theorem filter_takeWhile (h : Runs key xs (closed ++ [current]))
    (hinc : closed.Pairwise (Below key)) (hrun : run ∈ closed) {k : κ} (hk : ∀ x ∈ run, key x = k) :
    ((xs.takeWhile fun x => decide (key x ≤ k)).filter fun x => decide (key x = k)) = run := by
  obtain ⟨before, after, rfl⟩ := append_of_mem hrun
  have hxs : xs = before.flatten ++ (run ++ (after ++ [current]).flatten) := by
    rw [← h.flatten]
    simp
  obtain ⟨x₀, hx₀⟩ := exists_mem_of_ne_nil run (h.nonempty run (by simp))
  have hbefore : ∀ x ∈ before.flatten, key x < k := by
    intro x hx
    obtain ⟨earlier, hearlier, hmem⟩ := mem_flatten.mp hx
    rw [← hk x₀ hx₀]
    exact (pairwise_append.mp hinc).2.2 earlier hearlier run mem_cons_self x hmem x₀ hx₀
  have hlast : (((after ++ [current]).flatten.takeWhile fun x => decide (key x ≤ k)).filter
      fun x => decide (key x = k)) = [] := by
    cases after with
    | nil =>
      have hchain := h.differ
      rw [append_assoc, isChain_append] at hchain
      have hdiffer := isChain_cons_cons.mp hchain.2.1
      rw [filter_eq_nil_iff]
      intro x hx
      have hmem : x ∈ current := by simpa using (takeWhile_sublist _).subset hx
      have hne := hdiffer.1 x₀ hx₀ x hmem
      rw [hk x₀ hx₀] at hne
      simpa using fun he => hne he.symm
    | cons next after =>
      have hne := h.nonempty next (by simp)
      cases next with
      | nil => exact absurd rfl hne
      | cons y next =>
        have hbelow := (pairwise_cons.mp (pairwise_append.mp hinc).2.1).1 (y :: next)
          mem_cons_self x₀ hx₀ y mem_cons_self
        rw [hk x₀ hx₀] at hbelow
        simp [not_le.mpr hbelow]
  rw [hxs, takeWhile_append_of_pos fun x hx => decide_eq_true (hbefore x hx).le,
    takeWhile_append_of_pos fun x hx => decide_eq_true (hk x hx).le, filter_append,
    filter_append, hlast, append_nil]
  have hnone : (before.flatten.filter fun x => decide (key x = k)) = [] := by
    rw [filter_eq_nil_iff]
    intro x hx
    simpa using (hbefore x hx).ne
  have hall : (run.filter fun x => decide (key x = k)) = run := by
    rw [filter_eq_self]
    intro x hx
    exact decide_eq_true (hk x hx)
  rw [hnone, hall, nil_append]

end Runs

end Runs

end KiteAlgo
