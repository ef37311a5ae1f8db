import Mathlib.Data.List.DropRight
import Mathlib.Data.List.Infix
import Mathlib.Data.Rat.Floor
import Mathlib.Tactic.Common

/-!
# Values of a dynamically typed program

JSON-like Python values with the operations that duck-typed code performs on them. What raises is
an `Except PyErr`; what is only displayed (`repr`), parsed as a float or formatted by
`str.format` is a parameter (`Builtins`).

* `Py`, `PyFloat`, `PyErr`;
* `Py.truthy`, `Py.eq`, `Py.contains`, `Py.key?`, `Py.get`, `Py.getItem`;
* `strip`, `splitLines`, `isDigitStr`, `intOfStr`, `Py.toInt`: the constructor `int(..)`;
* `except_bind_eq_ok`: the inversion rule for a computation that does not raise.
-/

namespace MMRelay

/-- The exceptions that callers tell apart. -/
inductive PyErr
  | attributeError
  | keyError
  | overflowError
  | typeError
  | valueError
  deriving DecidableEq

/-- A Python float, up to the sign of zero. -/
inductive PyFloat
  | fin (q : ℚ)
  | inf (negative : Bool)
  | nan
  deriving DecidableEq

/-- A Python value; dictionaries have string keys and keep their order. -/
inductive Py
  | none
  | bool (b : Bool)
  | int (n : ℤ)
  | float (x : PyFloat)
  | str (s : String)
  | list (xs : List Py)
  | dict (kvs : List (String × Py))

/-- What Python's run time computes and the code only hands on. -/
structure Builtins where
  /-- `str(x)` of a float, a list or a dictionary. -/
  repr : Py → String
  toFloat : Py → Except PyErr PyFloat
  /-- `s.format(**vars)`; `none` when it raises. -/
  format : String → List (String × Py) → Option String

namespace PyFloat

/-- `q < x`. -/
def gtRat (x : PyFloat) (q : ℚ) : Bool :=
  match x with
  | .fin p => decide (q < p)
  | .inf negative => !negative
  | .nan => false

/-- `x < q`. -/
def ltRat (x : PyFloat) (q : ℚ) : Bool :=
  match x with
  | .fin p => decide (p < q)
  | .inf negative => negative
  | .nan => false

end PyFloat

/-! ## Strings -/

/-- `str.isspace` of one character. -/
def isSpace (c : Char) : Bool :=
  [0x9, 0xa, 0xb, 0xc, 0xd, 0x1c, 0x1d, 0x1e, 0x1f, 0x20, 0x85, 0xa0, 0x1680, 0x2000, 0x2001,
    0x2002, 0x2003, 0x2004, 0x2005, 0x2006, 0x2007, 0x2008, 0x2009, 0x200a, 0x2028, 0x2029,
    0x202f, 0x205f, 0x3000].contains c.toNat

def stripChars (cs : List Char) : List Char :=
  ((cs.dropWhile isSpace).reverse.dropWhile isSpace).reverse

theorem stripChars_idem (cs : List Char) : stripChars (stripChars cs) = stripChars cs := by
  -- what is left is a prefix of a string that does not begin with a blank
  have hpre : stripChars cs <+: cs.dropWhile isSpace := List.rdropWhile_prefix isSpace _
  have hhead : (stripChars cs).dropWhile isSpace = stripChars cs := by
    rw [List.dropWhile_eq_self_iff]
    intro hl
    have hlen : 0 < (cs.dropWhile isSpace).length := lt_of_lt_of_le hl hpre.length_le
    rw [hpre.getElem hl]
    exact List.dropWhile_get_zero_not isSpace cs hlen
  have htail : (stripChars cs).rdropWhile isSpace = stripChars cs :=
    List.rdropWhile_idempotent isSpace (cs.dropWhile isSpace)
  calc stripChars (stripChars cs)
      = ((stripChars cs).dropWhile isSpace).rdropWhile isSpace := rfl
    _ = stripChars cs := by rw [hhead, htail]

/-- `s.strip()`. -/
def strip (s : String) : String := String.ofList (stripChars s.toList)

/-- `s.lower()` on ASCII letters. -/
def asciiLower (s : String) : String := String.ofList (s.toList.map Char.toLower)

/-- `s.lstrip()`. -/
def lstrip (s : String) : String := String.ofList (s.toList.dropWhile isSpace)

/-- `s.rstrip()`. -/
def rstrip (s : String) : String :=
  String.ofList (s.toList.reverse.dropWhile isSpace).reverse

/-- `s[len(p):]` of a string that starts with `p`. -/
def dropPrefix? (p s : String) : Option String :=
  if p.toList.isPrefixOf s.toList then some (String.ofList (s.toList.drop p.length)) else none

/-- `s.replace("\n", " ").replace("\r", " ")`. -/
def spaceNewlines (s : String) : String :=
  String.ofList (s.toList.map fun c => if c = '\n' ∨ c = '\r' then ' ' else c)

/-- The characters at which `str.splitlines` cuts. -/
def isLineBreak (c : Char) : Bool :=
  [0xa, 0xb, 0xc, 0xd, 0x1c, 0x1d, 0x1e, 0x85, 0x2028, 0x2029].contains c.toNat

/-- `str.splitlines`, with the current line in `acc`, last character first. -/
def splitLinesAux : List Char → List Char → List (List Char)
  | [], acc => if acc.isEmpty then [] else [acc.reverse]
  | '\r' :: '\n' :: cs, acc => acc.reverse :: splitLinesAux cs []
  | c :: cs, acc =>
    if isLineBreak c then acc.reverse :: splitLinesAux cs [] else splitLinesAux cs (c :: acc)

def splitLines (s : String) : List String := (splitLinesAux s.toList []).map String.ofList

/-- `s[:n]`. -/
def takeChars (s : String) (n : ℕ) : String := String.ofList (s.toList.take n)

/-- The code points of the decimal digit zero; the other nine digits follow each of them. -/
def zeroDigits : List ℕ :=
  [0x30, 0x660, 0x6f0, 0x7c0, 0x966, 0x9e6, 0xa66, 0xae6, 0xb66, 0xbe6, 0xc66, 0xce6, 0xd66,
    0xde6, 0xe50, 0xed0, 0xf20, 0x1040, 0x1090, 0x17e0, 0x1810, 0x1946, 0x19d0, 0x1a80, 0x1a90,
    0x1b50, 0x1bb0, 0x1c40, 0x1c50, 0xa620, 0xa8d0, 0xa900, 0xa9d0, 0xa9f0, 0xaa50, 0xabf0,
    0xff10, 0x104a0, 0x10d30, 0x11066, 0x110f0, 0x11136, 0x111d0, 0x112f0, 0x11450, 0x114d0,
    0x11650, 0x116c0, 0x11730, 0x118e0, 0x11950, 0x11c50, 0x11d50, 0x11da0, 0x16a60, 0x16ac0,
    0x16b50, 0x1d7ce, 0x1d7d8, 0x1d7e2, 0x1d7ec, 0x1d7f6, 0x1e140, 0x1e2f0, 0x1e950, 0x1fbf0]

/-- The value of a decimal digit. -/
def digitValue (c : Char) : Option ℕ :=
  (zeroDigits.find? fun z => decide (z ≤ c.toNat ∧ c.toNat < z + 10)).map (c.toNat - ·)

/-- Digits that are not decimal ones, such as superscripts; first and last code points. -/
def otherDigits : List (ℕ × ℕ) :=
  [(0xb2, 0xb3), (0xb9, 0xb9), (0x1369, 0x1371), (0x19da, 0x19da), (0x2070, 0x2070),
    (0x2074, 0x2079), (0x2080, 0x2089), (0x2460, 0x2468), (0x2474, 0x247c), (0x2488, 0x2490),
    (0x24ea, 0x24ea), (0x24f5, 0x24fd), (0x24ff, 0x24ff), (0x2776, 0x277e), (0x2780, 0x2788),
    (0x278a, 0x2792), (0x10a40, 0x10a43), (0x10e60, 0x10e68), (0x11052, 0x1105a),
    (0x1f100, 0x1f10a)]

/-- `s.isdigit()`. -/
def isDigitStr (s : String) : Bool :=
  !s.isEmpty && s.toList.all fun c =>
    (digitValue c).isSome || otherDigits.any fun r => decide (r.1 ≤ c.toNat ∧ c.toNat ≤ r.2)

/-- Digits, with single underscores between them. -/
def readDigits : List Char → Option (List ℕ)
  | [] => none
  | [c] => (digitValue c).map fun d => [d]
  | c :: '_' :: cs => do
    let d ← digitValue c
    let ds ← readDigits cs
    pure (d :: ds)
  | c :: cs => do
    let d ← digitValue c
    let ds ← readDigits cs
    pure (d :: ds)

/-- A string of more digits than this is refused by `int(..)`. -/
def maxStrDigits : ℕ := 4300

def readNat (cs : List Char) : Option ℕ := do
  let ds ← readDigits cs
  if ds.length ≤ maxStrDigits then some (ds.foldl (fun n d => 10 * n + d) 0) else none

/-- The blanks that `int(..)` ignores around a number; the separators from U+001C on are none. -/
def isIntSpace (c : Char) : Bool := isSpace c && !(0x1c ≤ c.toNat && c.toNat ≤ 0x1f)

/-- `int(s)` of a string; `none` is a `ValueError`. -/
def intOfStr (s : String) : Option ℤ :=
  match ((s.toList.dropWhile isIntSpace).reverse.dropWhile isIntSpace).reverse with
  | '-' :: cs => (readNat cs).map fun n => -(n : ℤ)
  | '+' :: cs => (readNat cs).map fun n => (n : ℤ)
  | cs => (readNat cs).map fun n => (n : ℤ)

/-! ## Values -/

namespace Py

/-- `bool(x)`. -/
def truthy : Py → Bool
  | none => false
  | bool b => b
  | int n => decide (n ≠ 0)
  | float (.fin q) => decide (q ≠ 0)
  | float _ => true
  | str s => !s.isEmpty
  | list xs => !xs.isEmpty
  | dict kvs => !kvs.isEmpty

def isNone : Py → Bool
  | none => true
  | _ => false

def isDict : Py → Bool
  | dict _ => true
  | _ => false

/-- `x == n` for an integer `n`. -/
def eqInt (x : Py) (n : ℤ) : Bool :=
  match x with
  | bool b => decide ((if b then 1 else 0) = n)
  | int m => decide (m = n)
  | float (.fin q) => decide (q = n)
  | _ => false

/-- `x == s` for a string `s`. -/
def eqStr (x : Py) (s : String) : Bool :=
  match x with
  | str t => decide (t = s)
  | _ => false

mutual

/-- `x == y`. -/
def eq : Py → Py → Bool
  | none, y => y.isNone
  | bool b, y => y.eqInt (if b then 1 else 0)
  | int n, y => y.eqInt n
  | float (.fin q), int m => decide (q = m)
  | float (.fin q), bool b => decide (q = if b then 1 else 0)
  | float (.fin q), float (.fin p) => decide (q = p)
  | float (.inf a), float (.inf b) => a == b
  | str s, y => y.eqStr s
  | list xs, list ys => eqList xs ys
  | dict kvs, dict kvs' => kvs.length == kvs'.length && eqDict kvs kvs'
  | _, _ => false

def eqList : List Py → List Py → Bool
  | [], [] => true
  | x :: xs, y :: ys => eq x y && eqList xs ys
  | _, _ => false

/-- Every key of the first dictionary has an equal value in the second one. -/
def eqDict : List (String × Py) → List (String × Py) → Bool
  | [], _ => true
  | (k, v) :: kvs, kvs' =>
    (match kvs'.lookup k with
      | some v' => eq v v'
      | Option.none => false) && eqDict kvs kvs'

end

/-- `k in x` for a string `k`. -/
def contains (x : Py) (k : String) : Except PyErr Bool :=
  match x with
  | dict kvs => .ok (kvs.lookup k).isSome
  | list xs => .ok (xs.any (·.eqStr k))
  | str s => .ok (decide (k.toList <:+: s.toList))
  | _ => .error .typeError

/-- The value of a key that is in the dictionary. -/
def key? (x : Py) (k : String) : Option Py :=
  match x with
  | dict kvs => kvs.lookup k
  | _ => Option.none

/-- `x.get(k)` of a dictionary. -/
def field (x : Py) (k : String) : Py := (x.key? k).getD none

/-- `x.get(k, default)`, or the `AttributeError` of anything that is not a dictionary. -/
def get (x : Py) (k : String) (default : Py) : Except PyErr Py :=
  match x with
  | dict kvs => .ok ((kvs.lookup k).getD default)
  | _ => .error .attributeError

/-- `x[k]` with a string key. -/
def getItem (x : Py) (k : String) : Except PyErr Py :=
  match x with
  | dict kvs =>
    match kvs.lookup k with
    | some v => .ok v
    | Option.none => .error .keyError
  | _ => .error .typeError

/-- `str(x)`. -/
def toStr (rt : Builtins) : Py → String
  | none => "None"
  | bool true => "True"
  | bool false => "False"
  | int n => toString n
  | str s => s
  | x => rt.repr x

/-- `int(x)`. -/
def toInt : Py → Except PyErr ℤ
  | bool b => .ok (if b then 1 else 0)
  | int n => .ok n
  | float (.fin q) => .ok (if 0 ≤ q then ⌊q⌋ else ⌈q⌉)
  | float (.inf _) => .error .overflowError
  | float .nan => .error .valueError
  | str s =>
    match intOfStr s with
    | some n => .ok n
    | Option.none => .error .valueError
  | _ => .error .typeError

/-- `x[:n]`. -/
def slice (x : Py) (n : ℕ) : Except PyErr Py :=
  match x with
  | str s => .ok (str (takeChars s n))
  | list xs => .ok (list (xs.take n))
  | _ => .error .typeError

/-- `x or y`. -/
def orElse (x y : Py) : Py := if x.truthy then x else y

end Py

/-! ## Computations that may raise -/

/-- Why a handler stopped early: it returned, or an exception left it. -/
inductive Halt
  | returned
  | raised (e : PyErr)
  deriving DecidableEq

def liftErr {α : Type} : Except PyErr α → Except Halt α
  | .ok a => .ok a
  | .error e => .error (.raised e)

/-- `return` unless the condition holds. -/
def require (b : Bool) : Except Halt Unit := if b then .ok () else .error .returned

section Except

variable {ε α β : Type}

theorem except_bind_eq_ok {x : Except ε α} {f : α → Except ε β} {b : β} :
    (x >>= f) = .ok b ↔ ∃ a, x = .ok a ∧ f a = .ok b := by
  cases x with
  | error e => simp [bind, Except.bind]
  | ok a => simp [bind, Except.bind]

theorem except_map_eq_ok {x : Except ε α} {f : α → β} {b : β} :
    x.map f = .ok b ↔ ∃ a, x = .ok a ∧ f a = b := by
  cases x with
  | error e => simp [Except.map]
  | ok a => simp [Except.map]

theorem isOk_iff {x : Except ε α} : x.isOk = true ↔ ∃ a, x = .ok a := by
  cases x with
  | error e => simp [Except.isOk, Except.toBool]
  | ok a => simp [Except.isOk, Except.toBool]

theorem liftErr_eq_ok {x : Except PyErr α} {a : α} : liftErr x = .ok a ↔ x = .ok a := by
  cases x with
  | error e => simp [liftErr]
  | ok b => simp [liftErr]

theorem require_eq_ok {b : Bool} {u : Unit} : require b = .ok u ↔ b = true := by
  cases b with
  | false => simp [require]
  | true => simp [require]

end Except

end MMRelay
