import Mathlib

/-!
# Column affinity in SQLite

How a column stores a value that stands for an integer: as the integer, as its decimal text, or,
in a column of floating-point numbers, as the nearest double, whose text is not that of the
integer.

* `NumValue`, `Affinity`, `affinity`: values, affinities and the rules for a declared type;
* `Affinity.store`, `NumValue.castText`: storing a value, `CAST(… AS TEXT)`;
* `Affinity.store_store`: a stored value is stored unchanged;
* **`Affinity.castText_store`**: only floating-point columns change the text of an integer.
-/

namespace MMRelay.Sqlite

/-- A value that stands for a number; integers of SQLite have 64 bits. A floating-point number
appears only with an integral value. -/
inductive NumValue
  | int (n : Int64)
  | text (n : Int64)
  | real (m : ℤ)
  | realText (m : ℤ)
  deriving DecidableEq

inductive Affinity
  | integer
  | text
  | blob
  | real
  | numeric
  deriving DecidableEq

/-- The affinity of a declared type; the first rule that applies decides. -/
def affinity (declared : String) : Affinity :=
  let has (part : String) : Bool := decide (part.toList <:+: declared.toUpper.toList)
  if has "INT" then .integer
  else if has "CHAR" || has "CLOB" || has "TEXT" then .text
  else if has "BLOB" || declared.isEmpty then .blob
  else if has "REAL" || has "FLOA" || has "DOUB" then .real
  else .numeric

/-- The double nearest to an integer, ties to even. -/
def nearestDouble (n : ℤ) : ℤ :=
  let unit : ℤ := 2 ^ (n.natAbs.log2 - 52)
  let q := n / unit
  let r := n % unit
  unit * if 2 * r < unit ∨ (2 * r = unit ∧ q % 2 = 0) then q else q + 1

/-- A double becomes an integer where it fits strictly between the extreme ones. -/
def ofDouble (m : ℤ) : NumValue :=
  if -2 ^ 63 < m ∧ m < 2 ^ 63 - 1 then .int (Int64.ofInt m) else .real m

/-- `CAST(… AS TEXT)`. -/
def NumValue.castText : NumValue → NumValue
  | .int n => .text n
  | .real m => .realText m
  | v => v

/-- What a column of the affinity keeps of a value. -/
def Affinity.store : Affinity → NumValue → NumValue
  | .blob, v => v
  | .text, v => v.castText
  | .real, .int n => .real (nearestDouble n.toInt)
  | .real, .text n => .real (nearestDouble n.toInt)
  | .real, .real m => .real m
  | .real, .realText m => .real m
  | _, .text n => .int n
  | _, .int n => .int n
  | _, .real m => ofDouble m
  | _, .realText m => ofDouble m

/-- An integer or its decimal text. -/
def NumValue.IsInteger : NumValue → Prop
  | .int _ => True
  | .text _ => True
  | _ => False

@[simp] theorem NumValue.castText_castText (v : NumValue) : v.castText.castText = v.castText := by
  cases v <;> rfl

theorem store_ofDouble (m : ℤ) :
    Affinity.integer.store (ofDouble m) = ofDouble m ∧
      Affinity.numeric.store (ofDouble m) = ofDouble m := by
  by_cases h : -2 ^ 63 < m ∧ m < 2 ^ 63 - 1
  · have hint : ofDouble m = .int (Int64.ofInt m) := if_pos h
    rw [hint]
    exact ⟨rfl, rfl⟩
  · have hreal : ofDouble m = .real m := if_neg h
    rw [hreal]
    exact ⟨hreal, hreal⟩

theorem Affinity.store_store (a : Affinity) (v : NumValue) : a.store (a.store v) = a.store v := by
  cases a with
  | integer =>
    cases v with
    | int n => rfl
    | text n => rfl
    | real m => exact (store_ofDouble m).1
    | realText m => exact (store_ofDouble m).1
  | text => exact v.castText_castText
  | blob => rfl
  | real => cases v <;> rfl
  | numeric =>
    cases v with
    | int n => rfl
    | text n => rfl
    | real m => exact (store_ofDouble m).2
    | realText m => exact (store_ofDouble m).2

/-- **Integer ids.** A column that is not one of floating-point numbers keeps the text of an
integer. -/
theorem Affinity.castText_store {a : Affinity} {v : NumValue} (ha : a ≠ .real)
    (hv : v.IsInteger) : (a.store v).castText = v.castText := by
  cases v with
  | int n => cases a <;> first | rfl | exact absurd rfl ha
  | text n => cases a <;> first | rfl | exact absurd rfl ha
  | real m => exact hv.elim
  | realText m => exact hv.elim

@[simp] theorem Affinity.castText_store_text (v : NumValue) :
    (Affinity.text.store v).castText = v.castText :=
  v.castText_castText

end MMRelay.Sqlite
