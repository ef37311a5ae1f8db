import Mathlib

/-!
# SQL tables with rowids

A table of SQLite with an implicit rowid and a key: the rows in the order of their rowids. A new row
gets the greatest rowid plus one, an upsert of a key that is there keeps the rowid of its row.

* `RowTable`, `RowTable.get?`, `RowTable.upsert`, `RowTable.oldest`, `RowTable.deleteRowids`;
* `RowTable.rows_upsert_of_new`, `RowTable.rows_upsert_of_mem`: the rows of an upsert;
* **`RowTable.rows_deleteOldest`**: the rows that are left after the oldest ones are deleted.
-/

namespace MMRelay

/-- A row: its rowid, its key and the other columns. -/
structure TableRow (κ ν : Type) where
  rowid : ℕ
  key : κ
  data : ν
  deriving DecidableEq

/-- The rows in ascending order of their rowids; no two have the same key. -/
structure RowTable (κ ν : Type) where
  rows : List (TableRow κ ν)
  ascending : rows.Pairwise fun a b => a.rowid < b.rowid
  keys : (rows.map TableRow.key).Nodup

namespace RowTable

variable {κ ν : Type}

def empty : RowTable κ ν := ⟨[], List.Pairwise.nil, List.nodup_nil⟩

/-- `SELECT COUNT(*)`. -/
def count (t : RowTable κ ν) : ℕ := t.rows.length

/-- The rowid of the next new row. -/
def nextRowid (t : RowTable κ ν) : ℕ :=
  match t.rows.getLast? with
  | none => 1
  | some r => r.rowid + 1

/-- `SELECT rowid … ORDER BY rowid ASC LIMIT n`. -/
def oldest (t : RowTable κ ν) (n : ℕ) : List ℕ := (t.rows.map TableRow.rowid).take n

/-- `DELETE … WHERE rowid IN …`. -/
def deleteRowids (t : RowTable κ ν) (ids : List ℕ) : RowTable κ ν where
  rows := t.rows.filter fun r => decide (r.rowid ∉ ids)
  ascending := t.ascending.filter _
  keys := (List.filter_sublist.map _).nodup t.keys

theorem rowid_lt_next {t : RowTable κ ν} {r : TableRow κ ν} (hr : r ∈ t.rows) :
    r.rowid < t.nextRowid := by
  rcases List.eq_nil_or_concat t.rows with hnil | ⟨init, last, hsplit⟩
  · rw [hnil] at hr
    cases hr
  · have hnext : t.nextRowid = last.rowid + 1 := by simp [nextRowid, hsplit]
    have hasc := t.ascending
    rw [hsplit, List.concat_eq_append] at hasc hr
    rw [List.pairwise_append] at hasc
    rw [hnext]
    rcases List.mem_append.mp hr with hr | hr
    · have := hasc.2.2 r hr last (List.mem_singleton_self last)
      omega
    · rw [List.mem_singleton.mp hr]
      omega

variable [DecidableEq κ]

/-- `SELECT … WHERE key = k`. -/
def get? (t : RowTable κ ν) (k : κ) : Option ν :=
  (t.rows.find? fun r => decide (r.key = k)).map TableRow.data

/-- The row of an upsert after the conflict. -/
def replace (k : κ) (v : ν) (r : TableRow κ ν) : TableRow κ ν :=
  if r.key = k then { r with data := v } else r

@[simp] theorem replace_rowid (k : κ) (v : ν) (r : TableRow κ ν) :
    (replace k v r).rowid = r.rowid := by
  unfold replace
  split_ifs <;> rfl

@[simp] theorem replace_key (k : κ) (v : ν) (r : TableRow κ ν) : (replace k v r).key = r.key := by
  unfold replace
  split_ifs <;> rfl

/-- `INSERT … ON CONFLICT(key) DO UPDATE`. -/
def upsert (t : RowTable κ ν) (k : κ) (v : ν) : RowTable κ ν :=
  if h : ∃ r ∈ t.rows, r.key = k then
    { rows := t.rows.map (replace k v)
      ascending := by
        rw [List.pairwise_map]
        simpa using t.ascending
      keys := by
        have hsame : TableRow.key ∘ replace k v = TableRow.key := by
          funext r
          exact replace_key k v r
        rw [List.map_map, hsame]
        exact t.keys }
  else
    { rows := t.rows ++ [⟨t.nextRowid, k, v⟩]
      ascending := by
        rw [List.pairwise_append]
        refine ⟨t.ascending, List.pairwise_singleton _ _, fun a ha b hb => ?_⟩
        rw [List.mem_singleton.mp hb]
        exact rowid_lt_next ha
      keys := by
        rw [List.map_append, List.nodup_append]
        refine ⟨t.keys, List.nodup_singleton _, fun a ha b hb heq => h ?_⟩
        obtain ⟨r, hr, rfl⟩ := List.mem_map.mp ha
        exact ⟨r, hr, heq.trans (List.mem_singleton.mp hb)⟩ }

variable {t : RowTable κ ν} {k : κ} {v : ν}

theorem rows_upsert_of_mem (h : ∃ r ∈ t.rows, r.key = k) :
    (t.upsert k v).rows = t.rows.map (replace k v) := by
  rw [upsert, dif_pos h]

theorem rows_upsert_of_new (h : ¬ ∃ r ∈ t.rows, r.key = k) :
    (t.upsert k v).rows = t.rows ++ [⟨t.nextRowid, k, v⟩] := by
  rw [upsert, dif_neg h]

theorem mem_rows_upsert {r : TableRow κ ν} (hr : r ∈ (t.upsert k v).rows) :
    r ∈ t.rows ∨ r.key = k ∧ r.data = v := by
  by_cases h : ∃ r ∈ t.rows, r.key = k
  · rw [rows_upsert_of_mem h] at hr
    obtain ⟨a, ha, rfl⟩ := List.mem_map.mp hr
    unfold replace
    split_ifs with hk
    · exact Or.inr ⟨hk, rfl⟩
    · exact Or.inl ha
  · rw [rows_upsert_of_new h] at hr
    rcases List.mem_append.mp hr with hold | hnew
    · exact Or.inl hold
    · rw [List.mem_singleton.mp hnew]
      exact Or.inr ⟨rfl, rfl⟩

omit [DecidableEq κ] in
/-- **Deleting the oldest rows.** -/
theorem rows_deleteOldest (t : RowTable κ ν) (n : ℕ) :
    (t.deleteRowids (t.oldest n)).rows = t.rows.drop n := by
  have hasc := t.ascending
  rw [← List.take_append_drop n t.rows, List.pairwise_append] at hasc
  have holdest : t.oldest n = (t.rows.take n).map TableRow.rowid := List.map_take.symm
  have hgone : (t.rows.take n).filter (fun r => decide (r.rowid ∉ t.oldest n)) = [] := by
    rw [List.filter_eq_nil_iff, holdest]
    intro r hr
    simpa using List.mem_map_of_mem hr
  have hstay : (t.rows.drop n).filter (fun r => decide (r.rowid ∉ t.oldest n)) = t.rows.drop n := by
    rw [List.filter_eq_self, holdest]
    intro r hr
    rw [decide_eq_true_eq, List.mem_map]
    rintro ⟨a, ha, heq⟩
    have := hasc.2.2 a ha r hr
    omega
  calc t.rows.filter (fun r => decide (r.rowid ∉ t.oldest n))
      = (t.rows.take n ++ t.rows.drop n).filter (fun r => decide (r.rowid ∉ t.oldest n)) := by
        rw [List.take_append_drop]
    _ = t.rows.drop n := by rw [List.filter_append, hgone, hstay, List.nil_append]

theorem get?_eq_some {r : TableRow κ ν} (hr : r ∈ t.rows) : t.get? r.key = some r.data := by
  have hfind : ∃ x, t.rows.find? (fun a => decide (a.key = r.key)) = some x := by
    rw [← Option.isSome_iff_exists, List.find?_isSome]
    exact ⟨r, hr, by simp⟩
  obtain ⟨x, hx⟩ := hfind
  have hkey : x.key = r.key := by simpa using List.find?_some hx
  have hmem := List.mem_of_find?_eq_some hx
  have heq : x = r := List.inj_on_of_nodup_map t.keys hmem hr hkey
  rw [get?, hx, heq]
  rfl

end RowTable

end MMRelay
