import KiteAlgo.Lib.Dict

/-!
# KiteAlgo.Lib.Recent

Dictionaries in the order of last use: an `OrderedDict` whose used entries move to
the end, so that the entries that leave a full one are those unused for longest.
-/

namespace KiteAlgo

open List
universe u v

namespace Dict

variable {α : Type u} {β : Type v} [DecidableEq α]

/-- `d.move_to_end(k)`. -/
def moveToEnd (d : Dict α β) (k : α) : Dict α β :=
  (d.filter fun e => decide (e.1 ≠ k)) ++ d.filter fun e => decide (e.1 = k)

/-- `d[k] = v`, moved to the end; then the first entries leave until `n` are left. -/
def remember (n : Nat) (d : Dict α β) (k : α) (v : β) : Dict α β :=
  let grown := moveToEnd (d.set k v) k
  grown.drop (grown.length - n)

theorem moveToEnd_perm (d : Dict α β) (k : α) : (d.moveToEnd k).Perm d := by
  have hsplit := filter_append_perm (fun e : α × β => decide (e.1 ≠ k)) d
  have hrest : (d.filter fun e => !decide (e.1 ≠ k)) = d.filter fun e => decide (e.1 = k) := by
    refine filter_congr fun e _ => ?_
    by_cases h : e.1 = k <;> simp [h]
  rw [hrest] at hsplit
  exact hsplit

variable {d : Dict α β}

theorem nodup_keys_moveToEnd (h : d.keys.Nodup) (k : α) : (d.moveToEnd k).keys.Nodup :=
  ((moveToEnd_perm d k).map Prod.fst).nodup_iff.mpr h

theorem get?_moveToEnd (h : d.keys.Nodup) (k k' : α) : (d.moveToEnd k).get? k' = d.get? k' :=
  (get?_perm (moveToEnd_perm d k).symm h k').symm

theorem nodup_keys_remember (h : d.keys.Nodup) (n : Nat) (k : α) (v : β) :
    (d.remember n k v).keys.Nodup :=
  (nodup_keys_moveToEnd (nodup_keys_set h k v) k).sublist ((drop_sublist _ _).map Prod.fst)

variable {k : α} {n : Nat} {v : β}

theorem remember_of_room (hroom : (d.set k v).length ≤ n) :
    d.remember n k v = moveToEnd (d.set k v) k := by
  have hlength : (moveToEnd (d.set k v) k).length ≤ n := by
    rw [(moveToEnd_perm (d.set k v) k).length_eq]
    exact hroom
  rw [remember]
  simp only [Nat.sub_eq_zero_of_le hlength, drop_zero]

theorem get?_remember (h : d.keys.Nodup) (hroom : (d.set k v).length ≤ n) (k' : α) :
    (d.remember n k v).get? k' = if k = k' then some v else d.get? k' := by
  rw [remember_of_room hroom, get?_moveToEnd (nodup_keys_set h k v), get?_set]

end Dict

end KiteAlgo
