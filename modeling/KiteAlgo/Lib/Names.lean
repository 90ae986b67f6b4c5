/-!
# KiteAlgo.Lib.Names

Enumerations that are spelled as text.  A `Named` type is a finite enumeration
with a spelling for each member; `OpenName E` is a piece of text read against
that enumeration, either a known member or some other word.  The `other` case
carries the proof that no member has this spelling, so a text has exactly one
reading and `OpenName` and `String` are the same information.
-/

namespace KiteAlgo

/-- A finite enumeration with pairwise different spellings. -/
class Named (E : Type) where
  /-- The members, in declaration order. -/
  all : List E
  /-- The spelling of a member. -/
  name : E → String
  mem_all : ∀ e, e ∈ all
  name_inj : ∀ {e e'}, name e = name e' → e = e'

namespace Named

variable {E : Type} [Named E]

/-- The member spelled `s`, if there is one. -/
def ofName? (s : String) : Option E := (all : List E).find? fun e => name e == s

theorem name_of_ofName? {s : String} {e : E} (h : ofName? s = some e) : name e = s := by
  have hp := List.find?_some h
  simpa using hp

@[simp] theorem ofName?_name (e : E) : ofName? (name e) = some e := by
  cases h : ofName? (E := E) (name e) with
  | none =>
    have hnone := List.find?_eq_none.mp h e (mem_all e)
    simp at hnone
  | some e' => rw [name_inj (name_of_ofName? h)]

end Named

/-- A word read against the enumeration `E`. -/
inductive OpenName (E : Type) [Named E] where
  /-- A member of the enumeration. -/
  | known (e : E)
  /-- Some other word, which no member is spelled as. -/
  | other (s : String) (h : Named.ofName? (E := E) s = none)

namespace OpenName

variable {E : Type} [Named E]

def ofString (s : String) : OpenName E :=
  match h : Named.ofName? (E := E) s with
  | some e => .known e
  | none => .other s h

def text : OpenName E → String
  | .known e => Named.name e
  | .other s _ => s

@[simp] theorem text_ofString (s : String) : (ofString s : OpenName E).text = s := by
  unfold ofString
  split
  · next e h => exact Named.name_of_ofName? h
  · rfl

@[simp] theorem ofString_text (n : OpenName E) : ofString n.text = n := by
  cases n with
  | known e =>
    unfold ofString
    split
    · next e' h => simp [text] at h; simp [h]
    · next h => simp [text] at h
  | other s h =>
    unfold ofString
    split
    · next e h' => simp [text, h] at h'
    · rfl

theorem text_inj {m n : OpenName E} (h : m.text = n.text) : m = n := by
  rw [← ofString_text m, ← ofString_text n, h]

instance : DecidableEq (OpenName E) := fun m n =>
  decidable_of_iff (m.text = n.text) ⟨text_inj, fun h => congrArg text h⟩

/-- The word is a member of the enumeration (`name in NAMES`). -/
def isKnown : OpenName E → Bool
  | .known _ => true
  | .other _ _ => false

end OpenName

end KiteAlgo
