import Mathlib.Algebra.BigOperators.Group.List.Basic
import Mathlib.Algebra.GroupWithZero.Nat

/-!
# KiteAlgo.Lib.Utf8

Texts as bytes: the size of a text, a decoder that replaces what is ill-formed
(`bytes.decode("utf-8", errors="replace")`), and lists that are cut into pieces by
length or by weight.

A decoded text has no more characters than there were bytes (`length_decode_le`), and an
encoded text is read back (`decode_encode`).  Cutting loses nothing (`flatten_slices`,
`flatten_cut`) and keeps to its limit (`length_le_of_mem_slices`, `weight_le_of_mem_cut`).
-/

namespace KiteAlgo

open List
/-! ## pieces of a list -/

section Pieces

variable {α : Type}

/-- `[xs[i : i + n] for i in range(0, len(xs), n)]`. -/
def slices (n : Nat) (xs : List α) : List (List α) :=
  if _h : xs = [] ∨ n = 0 then [] else xs.take n :: slices n (xs.drop n)
termination_by xs.length
decreasing_by
  rw [not_or] at _h
  have hlength := length_pos_iff.mpr _h.1
  rw [length_drop]
  omega

@[simp] theorem slices_nil (n : Nat) : slices n ([] : List α) = [] := by
  rw [slices, dif_pos (.inl rfl)]

theorem slices_of_ne {n : Nat} {xs : List α} (hxs : xs ≠ []) (hn : n ≠ 0) :
    slices n xs = xs.take n :: slices n (xs.drop n) := by
  rw [slices, dif_neg (by simp [hxs, hn])]

theorem length_slices_lt {n : Nat} (hn : n ≠ 0) (xs : List α) :
    (slices n xs).length * n < xs.length + n := by
  fun_induction slices n xs with
  | case1 xs h =>
    simp only [length_nil, Nat.zero_mul]
    omega
  | case2 xs h ih =>
    rw [not_or] at h
    have hlength := length_pos_iff.mpr h.1
    rw [length_cons, Nat.add_mul, Nat.one_mul]
    by_cases hlast : xs.length ≤ n
    · rw [drop_eq_nil_of_le hlast, slices_nil, length_nil, Nat.zero_mul]
      omega
    · rw [length_drop] at ih
      omega

variable (weight : α → Nat) (limit : Nat)

/-- The loop that cuts a list before the element that would make a piece too heavy. -/
def cutLoop : List α → List α → Nat → List (List α)
  | [], current, _ => if current.isEmpty then [] else [current]
  | x :: xs, current, size =>
    if !current.isEmpty && decide (limit < size + weight x) then
      current :: cutLoop xs [x] (weight x)
    else cutLoop xs (current ++ [x]) (size + weight x)

/-- A list in pieces that keep to a weight, where their elements do. -/
def cut (xs : List α) : List (List α) := cutLoop weight limit xs [] 0

theorem flatten_cutLoop (xs current : List α) (size : Nat) :
    (cutLoop weight limit xs current size).flatten = current ++ xs := by
  induction xs generalizing current size with
  | nil =>
    rw [cutLoop]
    split
    · next h => simp [List.isEmpty_iff.mp h]
    · simp
  | cons x xs ih =>
    rw [cutLoop]
    split
    · rw [flatten_cons, ih, singleton_append]
    · rw [ih, append_assoc, singleton_append]

theorem flatten_cut (xs : List α) : (cut weight limit xs).flatten = xs :=
  flatten_cutLoop weight limit xs [] 0

variable {weight limit}

theorem weight_le_of_mem_cutLoop (hone : ∀ x, weight x ≤ limit) {xs current piece : List α}
    {size : Nat} (hsize : (current.map weight).sum = size) (hle : size ≤ limit)
    (h : piece ∈ cutLoop weight limit xs current size) : (piece.map weight).sum ≤ limit := by
  induction xs generalizing current size with
  | nil =>
    rw [cutLoop] at h
    split at h
    · exact absurd h not_mem_nil
    · rw [mem_singleton.mp h, hsize]
      exact hle
  | cons x xs ih =>
    rw [cutLoop] at h
    split at h
    · rcases mem_cons.mp h with rfl | hrest
      · rw [hsize]
        exact hle
      · exact ih (by simp) (hone x) hrest
    · next hfits =>
      refine ih (by simp [hsize]) ?_ h
      simp only [Bool.and_eq_true, Bool.not_eq_true', decide_eq_true_eq, not_and] at hfits
      cases hcurrent : current.isEmpty with
      | false => exact Nat.le_of_not_lt (hfits hcurrent)
      | true =>
        rw [List.isEmpty_iff.mp hcurrent] at hsize
        have hzero : size = 0 := by simpa using hsize.symm
        rw [hzero, Nat.zero_add]
        exact hone x

theorem weight_le_of_mem_cut (hone : ∀ x, weight x ≤ limit) {xs piece : List α}
    (h : piece ∈ cut weight limit xs) : (piece.map weight).sum ≤ limit :=
  weight_le_of_mem_cutLoop hone (by simp) (Nat.zero_le limit) h

end Pieces

namespace Utf8

/-- `len(text.encode("utf-8"))`. -/
def size (text : List Char) : Nat := (text.map Char.utf8Size).sum

/-- `text.encode("utf-8")`. -/
def encode (text : List Char) : List UInt8 := text.flatMap String.utf8EncodeChar

/-! ## decoding -/

/-- The character that well-formed bytes start with. -/
def decodeChar? (bytes : List UInt8) : Option Char := bytes.toByteArray.utf8DecodeChar? 0

/-- The second byte goes with a first one of three or four. -/
def goesWith (lead second : UInt8) : Bool :=
  if lead = 0xE0 then 0xA0 ≤ second && second ≤ 0xBF
  else if lead = 0xED then 0x80 ≤ second && second ≤ 0x9F
  else if lead = 0xF0 then 0x90 ≤ second && second ≤ 0xBF
  else if lead = 0xF4 then 0x80 ≤ second && second ≤ 0x8F
  else (0xE1 ≤ lead && lead ≤ 0xF3) && (0x80 ≤ second && second ≤ 0xBF)

/-- How many bytes one replacement character stands for: an ill-formed start of bytes, as far
as it could have been the start of a character. -/
def illFormed : List UInt8 → Nat
  | lead :: second :: third :: _ =>
    if goesWith lead second then
      if 0xF0 ≤ lead && (0x80 ≤ third && third ≤ 0xBF) then 3 else 2
    else 1
  | [lead, second] => if goesWith lead second then 2 else 1
  | _ => 1

theorem illFormed_pos (bytes : List UInt8) : 0 < illFormed bytes := by
  unfold illFormed
  split
  · split
    · split <;> omega
    · omega
  · split <;> omega
  · omega

/-- `bytes.decode("utf-8", errors="replace")`. -/
def decode (bytes : List UInt8) : List Char :=
  if _h : bytes = [] then []
  else
    match decodeChar? bytes with
    | some c => c :: decode (bytes.drop c.utf8Size)
    | none => '\uFFFD' :: decode (bytes.drop (illFormed bytes))
termination_by bytes.length
decreasing_by
  all_goals
    have hlength := length_pos_iff.mpr _h
    rw [length_drop]
  · have hc := c.utf8Size_pos
    omega
  · have hn := illFormed_pos bytes
    omega

theorem length_decode_le (bytes : List UInt8) : (decode bytes).length ≤ bytes.length := by
  fun_induction decode bytes with
  | case1 => exact Nat.le_refl _
  | case2 bytes h c _ ih =>
    have hlength := length_pos_iff.mpr h
    have hc := c.utf8Size_pos
    rw [length_drop] at ih
    rw [length_cons]
    omega
  | case3 bytes h _ ih =>
    have hlength := length_pos_iff.mpr h
    have hn := illFormed_pos bytes
    rw [length_drop] at ih
    rw [length_cons]
    omega

theorem decodeChar?_encode (c : Char) (bytes : List UInt8) :
    decodeChar? (String.utf8EncodeChar c ++ bytes) = some c := by
  rw [decodeChar?, toByteArray_append]
  exact ByteArray.utf8DecodeChar?_utf8EncodeChar_append

theorem decode_encode (text : List Char) : decode (encode text) = text := by
  induction text with
  | nil => simp [encode, decode]
  | cons c text ih =>
    have hencode : encode (c :: text) = String.utf8EncodeChar c ++ encode text := rfl
    have hne : String.utf8EncodeChar c ++ encode text ≠ [] := by
      have hpos := c.utf8Size_pos
      rw [← String.length_utf8EncodeChar] at hpos
      exact fun h => by simp [(append_eq_nil_iff.mp h).1] at hpos
    have hdrop : (String.utf8EncodeChar c ++ encode text).drop c.utf8Size = encode text := by
      rw [← String.length_utf8EncodeChar, drop_left]
    rw [hencode, decode, dif_neg hne, decodeChar?_encode]
    simp only [hdrop, ih]

theorem decode_invalid (bytes : List UInt8) :
    decode (0xFF :: bytes) = '\uFFFD' :: decode bytes := by
  have hchar : decodeChar? (0xFF :: bytes) = none := by
    have hsize : 0 < (0xFF :: bytes).toByteArray.size := by
      rw [size_toByteArray]
      exact Nat.succ_pos _
    have hfirst : (0xFF :: bytes).toByteArray[0] = 0xFF := by
      simp [getElem_toByteArray]
    have hinvalid : ByteArray.utf8DecodeChar?.parseFirstByte 0xFF = .invalid := rfl
    unfold decodeChar? ByteArray.utf8DecodeChar?
    rw [dif_pos hsize]
    split
    · rfl
    all_goals
      next hparse =>
        rw [hfirst, hinvalid] at hparse
        cases hparse
  have hlength : illFormed (0xFF :: bytes) = 1 := by
    match bytes with
    | [] => rfl
    | [second] => simp [illFormed, goesWith]
    | second :: third :: rest => simp [illFormed, goesWith]
  rw [decode, dif_neg (cons_ne_nil _ _), hchar]
  simp only [hlength, drop_one, tail_cons]

theorem decode_replicate_invalid (n : Nat) :
    decode (replicate n 0xFF) = replicate n '\uFFFD' := by
  induction n with
  | zero => simp [decode]
  | succ n ih => rw [replicate_succ, decode_invalid, ih, replicate_succ]

end Utf8

end KiteAlgo
