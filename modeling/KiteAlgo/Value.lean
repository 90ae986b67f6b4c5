import KiteAlgo.Lib.Dict
import KiteAlgo.Lib.Sorting
import Mathlib.Data.List.DropRight
import Mathlib.Data.Rat.Defs

/-!
# KiteAlgo.Value

The Python values that documents, checkpoints and evidence are made of, with
the operations of the language the code uses on them: text helpers
(`str.strip`, `str.startswith`, decimal digits), `==` across numeric types,
`repr`, and `json.dumps` with sorted keys.

Floating point numbers are a type parameter `F` with the operations of
`PyFloat` and no laws at all, so a result about the code holds for IEEE doubles
with their rounding, infinities and NaN.  Concrete runs use `ℚ` (exact
arithmetic, which agrees with doubles on the small whole numbers they use).
-/

namespace KiteAlgo

open List Bool
/-- The operations on Python floats that the code uses. -/
class PyFloat (F : Type) where
  /-- `float(n)` of an integer; `none` is `OverflowError`. -/
  ofInt : Int → Option F
  /-- `repr(f)`, which is also the text of an f-string. -/
  repr : F → String
  /-- The text `json.dumps` writes (`NaN` and `Infinity` included). -/
  jsonRepr : F → String
  /-- `math.isfinite(f)`. -/
  isFinite : F → Bool
  /-- `f == g`, `f < g`, `f <= g`. -/
  eq : F → F → Bool
  lt : F → F → Bool
  le : F → F → Bool
  /-- Comparisons with an exact number (Python compares `int` and `float`
  exactly). -/
  eqQ : F → ℚ → Bool
  leQ : F → ℚ → Bool
  qLe : ℚ → F → Bool
  /-- Arithmetic. -/
  add : F → F → F
  sub : F → F → F
  mul : F → F → F
  div : F → F → F
  neg : F → F
  /-- The literals `100.0`, `2.0` and `3.0`. -/
  hundred : F
  two : F
  three : F
  /-- `abs(f) < 1e-12`. -/
  absLtEps : F → Bool

/-- Exact rationals as floats, for concrete runs: right wherever the doubles
involved are small whole numbers. -/
instance : PyFloat ℚ where
  ofInt n := some n
  repr q := if q.den = 1 then s!"{q.num}.0" else s!"{q.num}/{q.den}"
  jsonRepr q := if q.den = 1 then s!"{q.num}.0" else s!"{q.num}/{q.den}"
  isFinite _ := true
  eq p q := decide (p = q)
  lt p q := decide (p < q)
  le p q := decide (p ≤ q)
  eqQ p q := decide (p = q)
  leQ p q := decide (p ≤ q)
  qLe p q := decide (p ≤ q)
  add p q := p + q
  sub p q := p - q
  mul p q := p * q
  div p q := p / q
  neg p := -p
  hundred := 100
  two := 2
  three := 3
  absLtEps q := decide (-(1 / 1000000000000) < q ∧ q < 1 / 1000000000000)

/-! ## text -/

namespace Text

/-- `s.startswith(p)`. -/
def startsWith (s p : String) : Bool := p.toList.isPrefixOf s.toList

/-- `s.endswith(p)`. -/
def endsWith (s p : String) : Bool := p.toList.isSuffixOf s.toList

/-- `s[n:]`. -/
def dropFront (s : String) (n : Nat) : String := String.ofList (s.toList.drop n)

/-- `c in s` for a single character. -/
def hasChar (s : String) (c : Char) : Bool := s.toList.contains c

/-- The code points `str.strip` removes (`str.isspace`). -/
def isSpace (c : Char) : Bool :=
  let n := c.toNat
  (9 ≤ n && n ≤ 13) || (28 ≤ n && n ≤ 32) || n == 0x85 || n == 0xA0 || n == 0x1680 ||
    (0x2000 ≤ n && n ≤ 0x200A) || n == 0x2028 || n == 0x2029 || n == 0x202F || n == 0x205F || n == 0x3000

/-- `s.strip()` on characters. -/
def stripChars (cs : List Char) : List Char :=
  ((cs.dropWhile isSpace).reverse.dropWhile isSpace).reverse

/-- `s.strip()`. -/
def strip (s : String) : String := String.ofList (stripChars s.toList)

theorem strip_strip (s : String) : strip (strip s) = strip s := by
  have hchars : ∀ cs, stripChars (stripChars cs) = stripChars cs := by
    intro cs
    have hstart : stripChars cs <+: cs.dropWhile isSpace := rdropWhile_prefix isSpace _
    have hfront : (stripChars cs).dropWhile isSpace = stripChars cs := by
      rw [dropWhile_eq_self_iff]
      intro hpos
      rw [hstart.getElem hpos]
      exact dropWhile_get_zero_not isSpace cs _
    show ((stripChars cs).dropWhile isSpace).rdropWhile isSpace = stripChars cs
    rw [hfront]
    exact rdropWhile_idempotent isSpace (cs.dropWhile isSpace)
  rw [strip, strip, String.toList_ofList, hchars]

/-- `s.lower()`, exact where the result is ASCII, as every word it is compared
with. -/
def lower (s : String) : String :=
  String.ofList (s.toList.map fun c => if c.toNat = 0x212A then 'k' else c.toLower)

/-- The upper case of a character, exact where it is ASCII. -/
def upperChar (c : Char) : List Char :=
  match c.toNat with
  | 0xDF => ['S', 'S']
  | 0x131 => ['I']
  | 0x17F => ['S']
  | 0xFB00 => ['F', 'F']
  | 0xFB01 => ['F', 'I']
  | 0xFB02 => ['F', 'L']
  | 0xFB03 => ['F', 'F', 'I']
  | 0xFB04 => ['F', 'F', 'L']
  | 0xFB05 | 0xFB06 => ['S', 'T']
  | _ => [c.toUpper]

/-- `s.upper()`, exact where the result is ASCII, as every exchange code is. -/
def upper (s : String) : String := String.ofList (s.toList.flatMap upperChar)

/-- The zeros of the Unicode blocks of ten decimal digits (`\d`). -/
def decimalZeros : List Nat :=
  [0x30, 0x660, 0x6F0, 0x7C0, 0x966, 0x9E6, 0xA66, 0xAE6, 0xB66, 0xBE6, 0xC66, 0xCE6, 0xD66,
   0xDE6, 0xE50, 0xED0, 0xF20, 0x1040, 0x1090, 0x17E0, 0x1810, 0x1946, 0x19D0, 0x1A80, 0x1A90,
   0x1B50, 0x1BB0, 0x1C40, 0x1C50, 0xA620, 0xA8D0, 0xA900, 0xA9D0, 0xA9F0, 0xAA50, 0xABF0, 0xFF10,
   0x104A0, 0x10D30, 0x10D40, 0x11066, 0x110F0, 0x11136, 0x111D0, 0x112F0, 0x11450, 0x114D0,
   0x11650, 0x116C0, 0x116D0, 0x116DA, 0x11730, 0x118E0, 0x11950, 0x11BF0, 0x11C50, 0x11D50,
   0x11DA0, 0x11F50, 0x16130, 0x16A60, 0x16AC0, 0x16B50, 0x16D70, 0x1CCF0, 0x1D7CE, 0x1D7D8,
   0x1D7E2, 0x1D7EC, 0x1D7F6, 0x1E140, 0x1E2F0, 0x1E4F0, 0x1E5F1, 0x1E950, 0x1FBF0]

def digitValue? (c : Char) : Option Nat :=
  (decimalZeros.find? fun z => z ≤ c.toNat && c.toNat < z + 10).map fun z => c.toNat - z

/-- The most digits `int(s)` converts before it raises `ValueError`. -/
def maxIntDigits : Nat := 4300

/-- The number a run of digit characters spells, most significant first. -/
def digitsValue (cs : List Char) : Option Nat :=
  cs.foldl (fun acc c => acc.bind fun n => (digitValue? c).map fun d => 10 * n + d) (some 0)

/-- `int(s)` of a non-empty run of digit characters. -/
def natOfDigits? (cs : List Char) : Option Nat :=
  if cs.isEmpty || maxIntDigits < cs.length then none else digitsValue cs

/-- Single underscores may stand between two digits. -/
def dropUnderscores : List Char → Option (List Char)
  | [] => some []
  | [c] => if c = '_' then none else some [c]
  | c :: d :: cs =>
    if c = '_' then none
    else if d = '_' then (if cs.isEmpty then none else (dropUnderscores cs).map (c :: ·))
    else (dropUnderscores (d :: cs)).map (c :: ·)

/-- `int(s)` of text: surrounding space, a sign, digits with underscores. -/
def intOf? (s : String) : Option Int :=
  let unsigned (cs : List Char) : Option Int :=
    ((dropUnderscores cs).bind natOfDigits?).map fun n => (n : Int)
  match stripChars s.toList with
  | '-' :: cs => (unsigned cs).map fun n => -n
  | '+' :: cs => unsigned cs
  | cs => unsigned cs

/-- `s.partition(c)`, without the separator itself. -/
def partition (s : String) (c : Char) : String × String :=
  let head := s.toList.takeWhile (· ≠ c)
  (String.ofList head, String.ofList (s.toList.drop (head.length + 1)))

/-- `s.split(c)`. -/
def split (s : String) (c : Char) : List String := (s.toList.splitOn c).map String.ofList

/-- `s.replace(c, r)` for a single character. -/
def replaceChar (s : String) (c : Char) (r : String) : String :=
  String.ofList (s.toList.flatMap fun x => if x = c then r.toList else [x])

/-- `a <= b` on text, by code points. -/
def leChars : List Char → List Char → Bool
  | [], _ => true
  | _ :: _, [] => false
  | a :: as, b :: bs => a.toNat < b.toNat || (a == b && leChars as bs)

/-- `a <= b`, by code points. -/
def le (a b : String) : Bool := leChars a.toList b.toList

theorem leChars_total (as bs : List Char) : leChars as bs ∨ leChars bs as := by
  induction as generalizing bs with
  | nil => simp [leChars]
  | cons a as ih =>
    cases bs with
    | nil => simp [leChars]
    | cons b bs =>
      simp only [leChars, or_eq_true, decide_eq_true_eq, and_eq_true, beq_iff_eq]
      rcases Nat.lt_trichotomy a.toNat b.toNat with h | h | h
      · exact .inl (.inl h)
      · have hab : a = b := Char.toNat_inj.mp h
        rcases ih bs with h | h
        · exact .inl (.inr ⟨hab, h⟩)
        · exact .inr (.inr ⟨hab.symm, h⟩)
      · exact .inr (.inl h)

theorem leChars_trans {as bs cs : List Char} (hab : leChars as bs)
    (hbc : leChars bs cs) : leChars as cs := by
  induction as generalizing bs cs with
  | nil => rfl
  | cons a as ih =>
    cases bs with
    | nil => simp [leChars] at hab
    | cons b bs =>
      cases cs with
      | nil => simp [leChars] at hbc
      | cons c cs =>
        simp only [leChars, or_eq_true, decide_eq_true_eq, and_eq_true, beq_iff_eq] at hab hbc ⊢
        rcases hab with hab | ⟨rfl, hab⟩
        · rcases hbc with hbc | ⟨rfl, _⟩
          · exact .inl (by omega)
          · exact .inl hab
        · rcases hbc with hbc | ⟨rfl, hbc⟩
          · exact .inl hbc
          · exact .inr ⟨rfl, ih hab hbc⟩

theorem leChars_antisymm {as bs : List Char} (hab : leChars as bs)
    (hba : leChars bs as) : as = bs := by
  induction as generalizing bs with
  | nil =>
    cases bs with
    | nil => rfl
    | cons b bs => simp [leChars] at hba
  | cons a as ih =>
    cases bs with
    | nil => simp [leChars] at hab
    | cons b bs =>
      simp only [leChars, or_eq_true, decide_eq_true_eq, and_eq_true, beq_iff_eq] at hab hba
      rcases hab with hab | ⟨rfl, hab⟩
      · rcases hba with hba | ⟨rfl, _⟩ <;> omega
      · rcases hba with hba | ⟨_, hba⟩
        · omega
        · rw [ih hab hba]

theorem le_total (a b : String) : le a b ∨ le b a := leChars_total _ _

theorem le_trans (a b c : String) (hab : le a b) (hbc : le b c) : le a c :=
  leChars_trans hab hbc

theorem le_antisymm {a b : String} (hab : le a b) (hba : le b a) : a = b :=
  String.toList_inj.mp (leChars_antisymm hab hba)

/-- `sep.join(xs)`. -/
def join (sep : String) : List String → String
  | [] => ""
  | [x] => x
  | x :: y :: ys => x ++ sep ++ join sep (y :: ys)

end Text

/-! ## values -/

/-- A mapping key.  Everything but text (numbers, booleans, dates and null from
YAML) is `other`, told apart by its `repr`; the code only asks whether a key is
text. -/
inductive Key where
  | str (s : String)
  | other (repr : String)
  deriving DecidableEq, Repr

instance : Coe String Key := ⟨.str⟩

inductive PyVal (F : Type) where
  | none
  | bool (b : Bool)
  | int (n : Int)
  | float (f : F)
  | str (s : String)
  | list (xs : List (PyVal F))
  | dict (d : List (Key × PyVal F))
  /-- Any other value a loader builds (a date, binary data), known by its
  `repr` and its `str`. -/
  | atom (repr text : String)

/-- The exceptions the modelled functions raise. -/
inductive PyErr where
  /-- `WorkflowParseError` with its message. -/
  | workflowParse (message : String)
  /-- `KeyError` of a missing mapping key. -/
  | keyError (key : String)
  /-- `OverflowError` of `float(n)`. -/
  | overflow
  /-- `ValueError`. -/
  | value (message : String)
  /-- `TypeError`. -/
  | type (message : String)
  /-- `ZeroDivisionError`. -/
  | zeroDivision
  /-- `RecursionError`. -/
  | recursion
  /-- `NameError` of an unbound global. -/
  | name (ident : String)
  /-- `LeaseConflict` of a fenced write. -/
  | leaseConflict
  /-- `IntegrityError` of a violated table constraint. -/
  | integrity
  deriving DecidableEq, Repr

namespace PyVal

variable {F : Type}

def ofPairs (kvs : List (String × PyVal F)) : PyVal F := .dict (kvs.map fun kv => (.str kv.1, kv.2))

def entries : PyVal F → Dict Key (PyVal F)
  | .dict d => d
  | _ => []

/-- `isinstance(v, (int, float)) and not isinstance(v, bool)`. -/
def isNumber : PyVal F → Bool
  | .int _ | .float _ => true
  | _ => false

variable [PyFloat F]

/-- `float(v)` of a number; `none` where the code takes the value as absent. -/
def toFloat? : PyVal F → Option F
  | .int n => PyFloat.ofInt n
  | .float f => some f
  | _ => Option.none

/-- `low <= v <= high` for a number `v`. -/
def between (low high : ℚ) : PyVal F → Bool
  | .int n => decide (low ≤ n) && decide ((n : ℚ) ≤ high)
  | .float f => PyFloat.qLe low f && PyFloat.leQ f high
  | _ => false

/-- `a == b` on numbers and booleans, which Python compares by value. -/
def scalarEq : PyVal F → PyVal F → Bool
  | .none, .none => true
  | .bool a, .bool b => a == b
  | .bool a, .int n => (if a then 1 else 0) == n
  | .int n, .bool a => (if a then 1 else 0) == n
  | .bool a, .float f => PyFloat.eqQ f (if a then 1 else 0)
  | .float f, .bool a => PyFloat.eqQ f (if a then 1 else 0)
  | .int m, .int n => m == n
  | .int n, .float f => PyFloat.eqQ f n
  | .float f, .int n => PyFloat.eqQ f n
  | .float f, .float g => PyFloat.eq f g
  | .str s, .str t => s == t
  | .atom r s, .atom r' s' => r == r' && s == s'
  | _, _ => false

mutual
/-- `a == b`.  Mappings compare as sets of entries. -/
def eq : PyVal F → PyVal F → Bool
  | .list xs, .list ys => eqList xs ys
  | .dict d, .dict e => d.length == e.length && eqDict d e
  | a, b => scalarEq a b

/-- `==` on lists. -/
def eqList : List (PyVal F) → List (PyVal F) → Bool
  | [], [] => true
  | x :: xs, y :: ys => eq x y && eqList xs ys
  | _, _ => false

/-- Every entry of the first mapping is in the second. -/
def eqDict : List (Key × PyVal F) → Dict Key (PyVal F) → Bool
  | [], _ => true
  | (k, v) :: d, e => (match Dict.get? e k with | some w => eq v w | Option.none => false) && eqDict d e
end

/-! ### `repr` -/

def apostrophe : Char := Char.ofNat 39

/-- `repr` of a text: single quotes unless only single quotes occur inside. -/
def reprStr (s : String) : String :=
  let cs := s.toList
  let quote := if cs.contains apostrophe && !cs.contains '"' then '"' else apostrophe
  let esc (c : Char) : List Char :=
    if c = '\\' then ['\\', '\\'] else if c = quote then ['\\', c]
    else if c = '\n' then ['\\', 'n'] else if c = '\r' then ['\\', 'r']
    else if c = '\t' then ['\\', 't'] else [c]
  String.ofList ([quote] ++ cs.flatMap esc ++ [quote])

/-- `repr` of a key. -/
def reprKey : Key → String
  | .str s => reprStr s
  | .other r => r

mutual
/-- `repr(v)`. -/
def repr : PyVal F → String
  | .none => "None"
  | .bool true => "True"
  | .bool false => "False"
  | .int n => toString n
  | .float f => PyFloat.repr f
  | .str s => reprStr s
  | .list xs => "[" ++ Text.join ", " (reprList xs) ++ "]"
  | .dict d => "\x7b" ++ Text.join ", " (reprDict d) ++ "\x7d"
  | .atom r _ => r

def reprList : List (PyVal F) → List String
  | [] => []
  | x :: xs => repr x :: reprList xs

def reprDict : List (Key × PyVal F) → List String
  | [] => []
  | (k, v) :: d => (reprKey k ++ ": " ++ repr v) :: reprDict d
end

/-- `str(v)`: text stands for itself. -/
def toText : PyVal F → String
  | .str s => s
  | .atom _ s => s
  | v => repr v

/-! ### `json.dumps` -/

def hex4 (n : Nat) : List Char :=
  let digit (d : Nat) : Char := Char.ofNat (if d < 10 then 48 + d else 87 + d)
  [digit (n / 4096 % 16), digit (n / 256 % 16), digit (n / 16 % 16), digit (n % 16)]

/-- One character of a JSON string; with `ascii` everything outside ASCII is
escaped as UTF-16 code units. -/
def jsonChar (ascii : Bool) (c : Char) : List Char :=
  let n := c.toNat
  if c = '"' then ['\\', '"'] else if c = '\\' then ['\\', '\\']
  else if c = '\n' then ['\\', 'n'] else if c = '\r' then ['\\', 'r']
  else if c = '\t' then ['\\', 't'] else if n = 8 then ['\\', 'b'] else if n = 12 then ['\\', 'f']
  else if n < 32 || (ascii && 127 ≤ n && n < 0x10000 && n ≠ 127) then ['\\', 'u'] ++ hex4 n
  else if ascii && 0x10000 ≤ n then
    ['\\', 'u'] ++ hex4 (0xD800 + (n - 0x10000) / 1024) ++
      ['\\', 'u'] ++ hex4 (0xDC00 + (n - 0x10000) % 1024)
  else [c]

def jsonStr (ascii : Bool) (s : String) : String :=
  String.ofList (['"'] ++ s.toList.flatMap (jsonChar ascii) ++ ['"'])

def keyText : Key → String
  | .str s => s
  | .other r => r

/-- The entries of a mapping in `sort_keys` order. -/
def sortEntries (es : List (String × String)) : List (String × String) :=
  sortBy (fun a b => Text.le a.1 b.1) es

mutual
/-- `json.dumps(v, sort_keys=True, separators=(",", ":"), ensure_ascii=ascii,
default=str)`. -/
def jsonDumps (ascii : Bool) : PyVal F → String
  | .none => "null"
  | .bool true => "true"
  | .bool false => "false"
  | .int n => toString n
  | .float f => PyFloat.jsonRepr f
  | .str s => jsonStr ascii s
  | .list xs => "[" ++ Text.join "," (jsonDumpsList ascii xs) ++ "]"
  | .dict d => "\x7b" ++ Text.join "," ((sortEntries (jsonDumpsDict ascii d)).map fun e =>
    jsonStr ascii e.1 ++ ":" ++ e.2) ++ "\x7d"
  | .atom _ s => jsonStr ascii s

def jsonDumpsList (ascii : Bool) : List (PyVal F) → List String
  | [] => []
  | x :: xs => jsonDumps ascii x :: jsonDumpsList ascii xs

/-- The entries of a mapping, keys as text, values dumped. -/
def jsonDumpsDict (ascii : Bool) : List (Key × PyVal F) → List (String × String)
  | [] => []
  | (k, v) :: d => (keyText k, jsonDumps ascii v) :: jsonDumpsDict ascii d
end

/-- Text and other keys do not sort together (`TypeError`). -/
def mixedKeys (d : List (Key × PyVal F)) : Bool :=
  d.any (fun e => e.1 matches .str _) && d.any (fun e => e.1 matches .other _)

mutual
/-- `json.dumps(v, sort_keys=True, allow_nan=False)` returns: infinities, NaN and
values without a JSON form raise. -/
def jsonSafe : PyVal F → Bool
  | .float f => PyFloat.isFinite f
  | .list xs => jsonSafeList xs
  | .dict d => !mixedKeys d && jsonSafeDict d
  | .atom _ _ => false
  | _ => true

/-- `jsonSafe` of every item. -/
def jsonSafeList : List (PyVal F) → Bool
  | [] => true
  | x :: xs => jsonSafe x && jsonSafeList xs

/-- `jsonSafe` of every value. -/
def jsonSafeDict : List (Key × PyVal F) → Bool
  | [] => true
  | (_, v) :: d => jsonSafe v && jsonSafeDict d
end

omit [PyFloat F] in
mutual
/-- Nesting depth: how far below the value its deepest part lies. -/
def depth : PyVal F → Nat
  | .list xs => depthList xs
  | .dict d => depthDict d
  | _ => 0

def depthList : List (PyVal F) → Nat
  | [] => 0
  | x :: xs => max (depth x + 1) (depthList xs)

/-- The depth of a mapping with these entries. -/
def depthDict : List (Key × PyVal F) → Nat
  | [] => 0
  | (_, v) :: d => max (depth v + 1) (depthDict d)
end

omit [PyFloat F] in
mutual
/-- The number of values in a value, itself included. -/
def nodes : PyVal F → Nat
  | .list xs => 1 + nodesList xs
  | .dict d => 1 + nodesDict d
  | _ => 1

def nodesList : List (PyVal F) → Nat
  | [] => 0
  | x :: xs => nodes x + nodesList xs

def nodesDict : List (Key × PyVal F) → Nat
  | [] => 0
  | (_, v) :: d => nodes v + nodesDict d
end

end PyVal

end KiteAlgo
