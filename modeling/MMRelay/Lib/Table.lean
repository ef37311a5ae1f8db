import Mathlib.Data.List.Pairwise
import Mathlib.Tactic.Common

/-!
# SQL tables with a primary key

A table is a list of rows with a key column. As in SQLite the key of a row may be `NULL`; two rows
never have the same key otherwise, which the structure carries as a field.

* `Table`, `Table.get?`, `Table.upsert`, `Table.insertOrIgnore`, `Table.delete`,
  `Table.deleteAll`, `Table.merge`;
* **`Table.mem_upsert`**, **`Table.mem_merge`**, `Table.mem_insertOrIgnore`, `Table.mem_delete`,
  `Table.mem_deleteAll`: the rows that each statement leaves;
* `Table.row_unique`, `Table.get?_eq_some_iff`, `Table.filter_key_eq`;
* `Table.SameRows`, **`Table.sameRows_of_mem_iff`**: when two tables have the same contents.
-/

namespace MMRelay

/-- A table with keys in `κ` and the other columns in `ν`. -/
structure Table (κ ν : Type) where
  rows : List (Option κ × ν)
  pk : rows.Pairwise fun a b => a.1 = none ∨ a.1 ≠ b.1

namespace Table

variable {κ ν : Type} [DecidableEq κ]

def empty : Table κ ν := ⟨[], List.Pairwise.nil⟩

/-- The row with the key. -/
def get? (t : Table κ ν) (k : κ) : Option ν := (t.rows.find? fun r => r.1 = some k).map Prod.snd

/-- Keep the rows that pass the test. -/
def filter (t : Table κ ν) (p : Option κ × ν → Bool) : Table κ ν := ⟨t.rows.filter p, t.pk.filter p⟩

/-- `DELETE … WHERE key = k`. -/
def delete (t : Table κ ν) (k : κ) : Table κ ν := t.filter fun r => decide (r.1 ≠ some k)

/-- `DELETE … WHERE key = k` for each key of the list. -/
def deleteAll (t : Table κ ν) (ks : List κ) : Table κ ν := ks.foldl delete t

/-- The table has a row with the key. -/
def hasKey (t : Table κ ν) (k : κ) : Bool := t.rows.any fun r => decide (r.1 = some k)

omit [DecidableEq κ] in
theorem pk_snoc {rows : List (Option κ × ν)} {r : Option κ × ν}
    (h : rows.Pairwise fun a b => a.1 = none ∨ a.1 ≠ b.1) (hr : ∀ a ∈ rows, a.1 = none ∨ a.1 ≠ r.1) :
    (rows ++ [r]).Pairwise fun a b => a.1 = none ∨ a.1 ≠ b.1 := by
  rw [List.pairwise_append]
  refine ⟨h, List.pairwise_singleton _ _, fun a ha b hb => ?_⟩
  rw [List.mem_singleton.mp hb]
  exact hr a ha

theorem hasKey_eq_false {t : Table κ ν} {k : κ} (h : t.hasKey k = false) :
    ∀ a ∈ t.rows, a.1 ≠ some k := by
  intro a ha hk
  have : t.hasKey k = true := List.any_eq_true.mpr ⟨a, ha, by simp [hk]⟩
  rw [h] at this
  cases this

/-- `INSERT OR IGNORE`. -/
def insertOrIgnore (t : Table κ ν) (k : κ) (v : ν) : Table κ ν :=
  if h : t.hasKey k = true then t
  else ⟨t.rows ++ [(some k, v)], pk_snoc t.pk fun a ha =>
    Or.inr (hasKey_eq_false (by simpa using h) a ha)⟩

/-- The row of an upsert after the conflict. -/
def replace (k : κ) (v : ν) (r : Option κ × ν) : Option κ × ν := if r.1 = some k then (r.1, v) else r

@[simp] theorem replace_fst (k : κ) (v : ν) (r : Option κ × ν) : (replace k v r).1 = r.1 := by
  unfold replace
  split_ifs <;> rfl

/-- `INSERT … ON CONFLICT DO UPDATE`. -/
def upsert (t : Table κ ν) (k : κ) (v : ν) : Table κ ν :=
  if t.hasKey k then ⟨t.rows.map (replace k v), by
    rw [List.pairwise_map]
    simpa using t.pk⟩
  else t.insertOrIgnore k v

/-- Add a row whose key is `NULL`. -/
def insertNull (t : Table κ ν) (v : ν) : Table κ ν :=
  ⟨t.rows ++ [(none, v)], by
    rw [List.pairwise_append]
    refine ⟨t.pk, List.pairwise_singleton _ _, fun a _ b hb => ?_⟩
    rw [List.mem_singleton.mp hb]
    exact em _⟩

/-- `INSERT OR IGNORE` of one row. -/
def insertRow (t : Table κ ν) (r : Option κ × ν) : Table κ ν :=
  match r.1 with
  | none => t.insertNull r.2
  | some k => t.insertOrIgnore k r.2

/-- `INSERT OR IGNORE … SELECT`: the rows of `s`, with `f` applied to the other columns. -/
def merge (t s : Table κ ν) (f : ν → ν) : Table κ ν :=
  s.rows.foldl (fun t r => t.insertRow (r.1, f r.2)) t

/-! ## What the statements leave -/

variable {t : Table κ ν} {k : κ} {v : ν} {r : Option κ × ν}

theorem mem_delete : r ∈ (t.delete k).rows ↔ r ∈ t.rows ∧ r.1 ≠ some k := by
  simp [delete, filter]

theorem mem_deleteAll {ks : List κ} :
    r ∈ (t.deleteAll ks).rows ↔ r ∈ t.rows ∧ ∀ k ∈ ks, r.1 ≠ some k := by
  unfold deleteAll
  induction ks generalizing t with
  | nil => simp
  | cons k ks ih =>
    rw [List.foldl_cons, ih, mem_delete, and_assoc]
    simp

theorem mem_insertOrIgnore :
    r ∈ (t.insertOrIgnore k v).rows ↔ r ∈ t.rows ∨ (t.hasKey k = false ∧ r = (some k, v)) := by
  unfold insertOrIgnore
  split_ifs with h
  · simp [h]
  · simp [Bool.not_eq_true _ ▸ h]

/-- **Upsert.** The row with the key is replaced or added, every other row stays. -/
theorem mem_upsert : r ∈ (t.upsert k v).rows ↔ (r ∈ t.rows ∧ r.1 ≠ some k) ∨ r = (some k, v) := by
  unfold upsert
  by_cases h : t.hasKey k = true
  · rw [if_pos h]
    simp only [List.mem_map]
    constructor
    · rintro ⟨a, ha, rfl⟩
      by_cases hk : a.1 = some k
      · exact Or.inr (by simp [replace, hk])
      · rw [replace, if_neg hk]
        exact Or.inl ⟨ha, hk⟩
    · rintro (⟨hr, hk⟩ | rfl)
      · exact ⟨r, hr, by simp [replace, hk]⟩
      · obtain ⟨a, ha, hak⟩ := List.any_eq_true.mp h
        exact ⟨a, ha, by simp [replace, of_decide_eq_true hak]⟩
  · rw [if_neg h, mem_insertOrIgnore]
    have hk := hasKey_eq_false (by simpa using h)
    constructor
    · rintro (hr | ⟨-, rfl⟩)
      · exact Or.inl ⟨hr, hk r hr⟩
      · exact Or.inr rfl
    · rintro (⟨hr, -⟩ | rfl)
      · exact Or.inl hr
      · exact Or.inr ⟨by simpa using h, rfl⟩

omit [DecidableEq κ] in
theorem row_unique (t : Table κ ν) {r r' : Option κ × ν} (hr : r ∈ t.rows) (hr' : r' ∈ t.rows)
    (hk : r.1 ≠ none) (h : r.1 = r'.1) : r = r' := by
  by_contra hne
  have key : ∀ rows : List (Option κ × ν),
      rows.Pairwise (fun a b => a.1 = none ∨ a.1 ≠ b.1) → r ∈ rows → r' ∈ rows → False := by
    intro rows hp
    induction hp with
    | nil => intro hm; cases hm
    | cons hhead _ ih =>
      intro hm hm'
      rcases List.mem_cons.mp hm with hr | hr
      · rcases List.mem_cons.mp hm' with hr' | hr'
        · exact hne (hr.trans hr'.symm)
        · exact (hhead r' hr').elim (fun hn => hk (hr ▸ hn)) fun hn => hn (hr ▸ h)
      · rcases List.mem_cons.mp hm' with hr' | hr'
        · exact (hhead r hr).elim (fun hn => hk (h.trans (hr' ▸ hn))) fun hn => hn (hr' ▸ h.symm)
        · exact ih hr hr'
  exact key t.rows t.pk hr hr'

theorem get?_eq_some_iff : t.get? k = some v ↔ (some k, v) ∈ t.rows := by
  unfold get?
  rw [Option.map_eq_some_iff]
  constructor
  · rintro ⟨a, ha, rfl⟩
    have hk : a.1 = some k := by simpa using List.find?_some ha
    rw [← hk]
    exact List.mem_of_find?_eq_some ha
  · intro h
    obtain ⟨a, ha⟩ : ∃ a, t.rows.find? (fun r => decide (r.1 = some k)) = some a := by
      rw [← Option.isSome_iff_exists, List.find?_isSome]
      exact ⟨(some k, v), h, by simp⟩
    have hk : a.1 = some k := by simpa using List.find?_some ha
    refine ⟨a, ha, ?_⟩
    have := t.row_unique (List.mem_of_find?_eq_some ha) h (by simp [hk]) hk
    rw [this]

theorem hasKey_iff : t.hasKey k = true ↔ ∃ v, (some k, v) ∈ t.rows := by
  unfold hasKey
  rw [List.any_eq_true]
  constructor
  · rintro ⟨⟨a, v⟩, ha, hk⟩
    exact ⟨v, of_decide_eq_true hk ▸ ha⟩
  · rintro ⟨v, hv⟩
    exact ⟨_, hv, by simp⟩

theorem mem_insertRow {r' : Option κ × ν} :
    r ∈ (t.insertRow r').rows ↔
      r ∈ t.rows ∨ (r = r' ∧ ∀ k, r'.1 = some k → t.hasKey k = false) := by
  obtain ⟨key, v⟩ := r'
  cases key with
  | none => simp [insertRow, insertNull]
  | some k =>
    simp only [insertRow, mem_insertOrIgnore, Option.some.injEq, forall_eq']
    rw [and_comm]

theorem hasKey_insertRow {r' : Option κ × ν} :
    (t.insertRow r').hasKey k = true ↔ t.hasKey k = true ∨ r'.1 = some k := by
  simp only [hasKey_iff, mem_insertRow]
  constructor
  · rintro ⟨v, hv | ⟨heq, -⟩⟩
    · exact Or.inl ⟨v, hv⟩
    · exact Or.inr (by rw [← heq])
  · rintro (⟨v, hv⟩ | hkey)
    · exact ⟨v, Or.inl hv⟩
    · cases hold : t.hasKey k with
      | true =>
        obtain ⟨v, hv⟩ := hasKey_iff.mp hold
        exact ⟨v, Or.inl hv⟩
      | false =>
        refine ⟨r'.2, Or.inr ⟨by rw [← hkey], fun k' hk' => ?_⟩⟩
        rw [hkey, Option.some.injEq] at hk'
        rw [← hk', hold]

/-- **Merging two tables.** A row of the source is added unless its key is taken. -/
theorem mem_merge {s : Table κ ν} {f : ν → ν} :
    r ∈ (t.merge s f).rows ↔ r ∈ t.rows ∨
      ∃ v, (r.1, v) ∈ s.rows ∧ r.2 = f v ∧ ∀ k, r.1 = some k → t.hasKey k = false := by
  obtain ⟨rows, pk⟩ := s
  unfold merge
  simp only
  induction pk generalizing t with
  | nil => simp
  | @cons a rows hhead _ ih =>
    rw [List.foldl_cons, ih, mem_insertRow]
    have hkey : ∀ k, (t.insertRow (a.1, f a.2)).hasKey k = false ↔
        t.hasKey k = false ∧ a.1 ≠ some k := by
      intro k
      rw [← Bool.not_eq_true, hasKey_insertRow, not_or, Bool.not_eq_true]
    constructor
    · rintro ((hr | ⟨rfl, hfree⟩) | ⟨v, hv, heq, hfree⟩)
      · exact Or.inl hr
      · exact Or.inr ⟨a.2, List.mem_cons_self, rfl, hfree⟩
      · exact Or.inr ⟨v, List.mem_cons_of_mem _ hv, heq, fun k hk => ((hkey k).mp (hfree k hk)).1⟩
    · rintro (hr | ⟨v, hv, heq, hfree⟩)
      · exact Or.inl (Or.inl hr)
      · rcases List.mem_cons.mp hv with hv | hv
        · refine Or.inl (Or.inr ⟨?_, ?_⟩)
          · rw [← hv]
            exact Prod.ext rfl heq
          · rw [← hv]
            exact hfree
        · refine Or.inr ⟨v, hv, heq, fun k hk => (hkey k).mpr ⟨hfree k hk, fun hak => ?_⟩⟩
          -- the keys of the source are distinct
          rcases hhead _ hv with hnone | hne
          · rw [hnone] at hak
            cases hak
          · exact hne (hak.trans hk.symm)

theorem filter_key_eq (h : (some k, v) ∈ t.rows) :
    t.rows.filter (fun r => decide (r.1 = some k)) = [(some k, v)] := by
  obtain ⟨rows, pk⟩ := t
  simp only at h ⊢
  induction pk with
  | nil => cases h
  | @cons a rows hhead _ ih =>
    rcases List.mem_cons.mp h with rfl | h
    · rw [List.filter_cons_of_pos (by simp), List.filter_eq_nil_iff.mpr]
      intro b hb hkey
      rcases hhead b hb with hnone | hne
      · cases hnone
      · exact hne (of_decide_eq_true hkey).symm
    · have hne : a.1 ≠ some k := by
        intro ha
        rcases hhead _ h with hnone | hne
        · rw [hnone] at ha
          cases ha
        · exact hne ha
      rw [List.filter_cons_of_neg (by simpa using hne)]
      exact ih h

/-! ## Same contents -/

/-- The tables hold the same rows, each as often, in any order. -/
def SameRows (t t' : Table κ ν) : Prop := t.rows.Perm t'.rows

/-- The rows without a key, which may repeat. -/
def keyless (t : Table κ ν) : List (Option κ × ν) := t.rows.filter fun r => r.1.isNone

@[simp] theorem keyless_delete (t : Table κ ν) (k : κ) : (t.delete k).keyless = t.keyless := by
  unfold keyless delete filter
  rw [List.filter_filter]
  apply List.filter_congr
  rintro ⟨key, v⟩ -
  cases key <;> simp

@[simp] theorem keyless_deleteAll (t : Table κ ν) (ks : List κ) :
    (t.deleteAll ks).keyless = t.keyless := by
  unfold deleteAll
  induction ks generalizing t with
  | nil => rfl
  | cons k ks ih => rw [List.foldl_cons, ih, keyless_delete]

theorem keyless_insertOrIgnore (t : Table κ ν) (k : κ) (v : ν) :
    (t.insertOrIgnore k v).keyless = t.keyless := by
  unfold keyless insertOrIgnore
  split_ifs
  · rfl
  · simp

@[simp] theorem keyless_upsert (t : Table κ ν) (k : κ) (v : ν) :
    (t.upsert k v).keyless = t.keyless := by
  unfold upsert
  split_ifs
  · unfold keyless
    simp only
    induction t.rows with
    | nil => rfl
    | cons r rows ih =>
      rw [List.map_cons, List.filter_cons, List.filter_cons, replace_fst, ih]
      split_ifs with hkey
      · -- a row without a key is not the one that is replaced
        have hr : replace k v r = r := by
          rw [replace, if_neg]
          intro heq
          rw [heq] at hkey
          cases hkey
        rw [hr]
      · rfl
  · exact keyless_insertOrIgnore t k v

omit [DecidableEq κ] in
theorem keyed_nodup (t : Table κ ν) : (t.rows.filter fun r => !r.1.isNone).Nodup := by
  refine List.Pairwise.imp_of_mem ?_ (t.pk.filter fun r => !r.1.isNone)
  intro a b ha hb h heq
  have hkey := (List.mem_filter.mp ha).2
  rcases h with h | h
  · rw [h] at hkey
    cases hkey
  · exact h (by rw [heq])

omit [DecidableEq κ] in
/-- **Same contents.** The rows without a key agree as lists, the others as sets. -/
theorem sameRows_of_mem_iff {t t' : Table κ ν} (hnull : t.keyless = t'.keyless)
    (h : ∀ r, r ∈ t.rows ↔ r ∈ t'.rows) : t.SameRows t' := by
  have hkeyed : (t.rows.filter fun r => !r.1.isNone).Perm (t'.rows.filter fun r => !r.1.isNone) := by
    rw [List.perm_ext_iff_of_nodup (keyed_nodup t) (keyed_nodup t')]
    intro r
    rw [List.mem_filter, List.mem_filter, h r]
  have hsplit := fun s : Table κ ν => List.filter_append_perm (fun r => r.1.isNone) s.rows
  unfold keyless at hnull
  calc
    t.rows.Perm _ := (hsplit t).symm
    List.Perm _ _ := List.Perm.append (hnull ▸ List.Perm.refl _) hkeyed
    List.Perm _ t'.rows := hsplit t'

end Table

end MMRelay
