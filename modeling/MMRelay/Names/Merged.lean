import MMRelay.Lib.Cells
import MMRelay.Names.Order

/-!
# Duplicate ids in a snapshot of node names

`_collect_node_name_snapshot` (`db_utils.py`) for one id: the entry of the id and the names of a
further node with it are two cells side by side, and the id is skipped when both are emptied.

* `Merged`, `Merged.add`: what the loop knows of an id, and a further node with it;
* `foldl_add`: in terms of cells;
* `Collect.merged`, `merged_collectNode`: one turn of the loop adds the names of its node to what is
  known of its id;
* `Agreeing`: names that never conflict;
* `Found`, **`found_collect`**: what the loop has found in the nodes.
-/

namespace MMRelay.Names

open Cells (Row blank meet meets Lives outcome left right)

/-- The names of the user of a node. -/
def userNames (user : Py) : Row String String :=
  (normalizeNodeNameValue (user.field "longName"), normalizeNodeNameValue (user.field "shortName"))

/-- What the loop knows of an id. -/
inductive Merged
  | absent
  | entry (names : Row String String)
  | skipped
  deriving DecidableEq

namespace Merged

/-- A node with the id of an entry. -/
def merge (existing names : Row String String) : Merged :=
  match mergeNodeNameValues existing.1 names.1, mergeNodeNameValues existing.2 names.2 with
  | none, none => .skipped
  | none, some (some s) => .entry (none, some s)
  | none, some none => .skipped
  | some (some l), none => .entry (some l, none)
  | some none, none => .skipped
  | some l, some s => .entry (l, s)

/-- A further node with the id. -/
def add : Merged → Row String String → Merged
  | absent, names => entry names
  | entry existing, names => merge existing names
  | skipped, _ => skipped

theorem add_entry (c p : Row String String) :
    (entry c).add p = if p ≠ blank ∧ meet c p = blank then skipped else entry (meet c p) := by
  obtain ⟨a, b⟩ := c
  obtain ⟨x, y⟩ := p
  cases a <;> cases b <;> cases x <;> cases y <;>
    simp only [add, merge, mergeNodeNameValues, meet, toggle, Option.elim] <;> grind

theorem foldl_add_entry (rows : List (Row String String)) (c : Row String String) :
    rows.foldl add (entry c) =
      if Lives c (rows.filter (· ≠ blank)) then entry (meets c (rows.filter (· ≠ blank)))
      else skipped := by
  induction rows generalizing c with
  | nil => rfl
  | cons p rows ih =>
    rw [List.foldl_cons, add_entry]
    by_cases hp : p = blank
    · have hm : meet c p = c := by rw [hp]; rfl
      rw [if_neg (fun h => h.1 hp), hm, ih, List.filter_cons_of_neg (by simpa using hp)]
    · rw [List.filter_cons_of_pos (by simpa using hp)]
      simp only [Cells.lives_cons, Cells.meets_cons]
      by_cases hm : meet c p = blank
      · rw [if_pos ⟨hp, hm⟩, if_neg fun h => h.1 hm]
        have hskip : ∀ rows : List (Row String String), rows.foldl add skipped = skipped := by
          intro rows
          induction rows with
          | nil => rfl
          | cons _ _ ih => exact ih
        exact hskip rows
      · rw [if_neg fun h => hm h.2, ih]
        simp only [hm, ne_eq, not_false_eq_true, true_and]

/-- **An id with duplicates.** -/
theorem foldl_add {rows : List (Row String String)} (hne : rows ≠ []) :
    rows.foldl add absent =
      ((outcome (rows.filter (· ≠ blank))).map entry).getD skipped := by
  cases rows with
  | nil => exact absurd rfl hne
  | cons p rows =>
    have hstart : (p :: rows).foldl add absent = (p :: rows).foldl add (entry blank) := by
      rw [List.foldl_cons, List.foldl_cons, add_entry]
      by_cases hp : p = blank
      · rw [if_neg fun h => h.1 hp, hp]
        rfl
      · have hm : meet blank p = p := by
          obtain ⟨x, y⟩ := p
          cases x <;> cases y <;> rfl
        rw [hm, if_neg fun h => h.1 h.2]
        rfl
    rw [hstart, foldl_add_entry, outcome]
    split_ifs <;> rfl

end Merged

/-! ## The nodes of an id -/

/-- The names that a node gives an id. -/
def rowOf (id : String) (node : Py) : Option (Row String String) :=
  (identified node).bind fun u => if u.1 = id then some (userNames u.2) else none

/-- The names that the nodes give an id. -/
def rows (id : String) (nodeRows : List (String × Py)) : List (Row String String) :=
  nodeRows.filterMap fun kv => rowOf id kv.2

theorem rows_concat (id : String) (nodeRows : List (String × Py)) (kv : String × Py) :
    rows id (nodeRows ++ [kv]) = rows id nodeRows ++ (rowOf id kv.2).toList := by
  unfold rows
  rw [List.filterMap_append]
  congr 1

theorem collectNode_eq (c : Collect) (node : Py) :
    collectNode c node =
      match identified node with
      | none => { c with complete := false }
      | some (id, user) => if id ∈ c.skipped then c else c.addUser id user := by
  unfold collectNode identified
  cases node.field "user" with
  | dict user =>
    dsimp only
    cases nodeId (.dict user) with
    | none => rfl
    | some id => rfl
  | _ => rfl

/-! ## One turn of the loop -/

namespace Collect

/-- What the loop knows of an id. -/
def merged (c : Collect) (id : String) : Merged :=
  if id ∈ c.skipped then .skipped
  else
    match c.find id with
    | none => .absent
    | some e => .entry (e.longName, e.shortName)

theorem find_skip_of_ne (c : Collect) {id id' : String} (h : id' ≠ id) :
    (c.skip id).find id' = c.find id' := by
  unfold skip find
  simp only
  rw [List.find?_filter]
  congr 1
  funext e
  by_cases he : e.meshtasticId = id'
  · simp [he, h]
  · simp [he]

theorem merged_put_self {c : Collect} {e : NodeNameEntry} (h : e.meshtasticId ∉ c.skipped) :
    (c.put e).merged e.meshtasticId = .entry (e.longName, e.shortName) := by
  have hs : (c.put e).skipped = c.skipped := rfl
  unfold merged
  rw [hs, if_neg h, find_put, if_pos rfl]

theorem merged_put_of_ne (c : Collect) {e : NodeNameEntry} {id : String}
    (h : id ≠ e.meshtasticId) : (c.put e).merged id = c.merged id := by
  have hs : (c.put e).skipped = c.skipped := rfl
  unfold merged
  rw [hs, find_put, if_neg h]

theorem merged_skip_self (c : Collect) (id : String) : (c.skip id).merged id = .skipped :=
  if_pos List.mem_cons_self

theorem merged_skip_of_ne (c : Collect) {id id' : String} (h : id' ≠ id) :
    (c.skip id).merged id' = c.merged id' := by
  unfold merged
  rw [find_skip_of_ne c h]
  have hs : id' ∈ (c.skip id).skipped ↔ id' ∈ c.skipped := by simp [skip, h]
  simp only [hs]

theorem merged_merge_self {c : Collect} {e : NodeNameEntry} (h : e.meshtasticId ∉ c.skipped)
    (long short : Option String) :
    (c.merge e long short).merged e.meshtasticId =
      Merged.merge (e.longName, e.shortName) (long, short) := by
  have put : ∀ l s b, ({ c with complete := b }.put ⟨e.meshtasticId, l, s⟩).merged e.meshtasticId =
      .entry (l, s) := fun l s b =>
    merged_put_self (c := { c with complete := b }) (e := ⟨e.meshtasticId, l, s⟩) h
  unfold merge Merged.merge
  simp only
  cases mergeNodeNameValues e.longName long with
  | none =>
    cases mergeNodeNameValues e.shortName short with
    | none => exact merged_skip_self c _
    | some s =>
      cases s with
      | none => exact merged_skip_self c _
      | some s => exact put none (some s) false
  | some l =>
    cases mergeNodeNameValues e.shortName short with
    | none =>
      cases l with
      | none => exact merged_skip_self c _
      | some l => exact put (some l) none false
    | some s => cases l <;> exact put _ s c.complete

theorem merged_merge_of_ne (c : Collect) {e : NodeNameEntry} {id : String}
    (h : id ≠ e.meshtasticId) (long short : Option String) :
    (c.merge e long short).merged id = c.merged id := by
  have put : ∀ l s b, ({ c with complete := b }.put ⟨e.meshtasticId, l, s⟩).merged id =
      c.merged id := fun l s b =>
    merged_put_of_ne { c with complete := b } (e := ⟨e.meshtasticId, l, s⟩) h
  have skip : (c.skip e.meshtasticId).merged id = c.merged id := merged_skip_of_ne c h
  unfold merge
  simp only
  cases mergeNodeNameValues e.longName long with
  | none =>
    cases mergeNodeNameValues e.shortName short with
    | none => exact skip
    | some s =>
      cases s with
      | none => exact skip
      | some s => exact put none (some s) false
  | some l =>
    cases mergeNodeNameValues e.shortName short with
    | none =>
      cases l with
      | none => exact skip
      | some l => exact put (some l) none false
    | some s => cases l <;> exact put _ s c.complete

theorem merged_addUser_self {c : Collect} {id : String} (h : id ∉ c.skipped) (user : Py) :
    (c.addUser id user).merged id = (c.merged id).add (userNames user) := by
  have hfind : (c.noteUser id user).find id = c.find id := rfl
  have hm : c.merged id = match c.find id with
      | none => .absent
      | some e => .entry (e.longName, e.shortName) := if_neg h
  unfold addUser
  simp only
  rw [hm, hfind]
  cases hf : c.find id with
  | none => exact merged_put_self (c := c.noteUser id user) (e := ⟨id, _, _⟩) h
  | some e =>
    have hid := find_id hf
    subst hid
    exact merged_merge_self (c := c.noteUser e.meshtasticId user) h _ _

theorem merged_addUser_of_ne (c : Collect) {id id' : String} (h : id' ≠ id) (user : Py) :
    (c.addUser id user).merged id' = c.merged id' := by
  have hfind : (c.noteUser id user).find id = c.find id := rfl
  unfold addUser
  simp only
  rw [hfind]
  cases hf : c.find id with
  | none => exact merged_put_of_ne (c.noteUser id user) (e := ⟨id, _, _⟩) h
  | some e =>
    have hid := find_id hf
    subst hid
    exact merged_merge_of_ne (c.noteUser e.meshtasticId user) h _ _

/-- **One turn of the loop.** -/
theorem merged_collectNode (c : Collect) (node : Py) (id : String) :
    (collectNode c node).merged id = (rowOf id node).toList.foldl Merged.add (c.merged id) := by
  rw [collectNode_eq]
  unfold rowOf
  cases identified node with
  | none => rfl
  | some u =>
    obtain ⟨id', user⟩ := u
    simp only [Option.bind_some]
    by_cases hid : id' = id
    · subst hid
      rw [if_pos rfl]
      by_cases hskip : id' ∈ c.skipped
      · have hm : c.merged id' = .skipped := if_pos hskip
        rw [if_pos hskip, hm]
        rfl
      · rw [if_neg hskip]
        exact merged_addUser_self hskip user
    · rw [if_neg hid]
      split_ifs
      · rfl
      · exact merged_addUser_of_ne c (fun h => hid h.symm) user

end Collect

/-! ## What the loop has found -/

/-- The names of the node are absent or strings. -/
def NamedUser (node : Py) : Prop :=
  ∃ u, identified node = some u ∧ isNameValue (u.2.field "longName") = true ∧
    isNameValue (u.2.field "shortName") = true

/-- The names of an id never conflict. -/
def Agreeing (rows : List (Row String String)) : Prop :=
  Uniform (left rows) ∧ Uniform (right rows)

/-- What the loop has found in the nodes. -/
structure Found (nodeRows : List (String × Py)) (c : Collect) : Prop where
  merged : ∀ id, c.merged id = (rows id nodeRows).foldl Merged.add .absent
  current : ∀ id, id ∈ c.currentIds ↔ rows id nodeRows ≠ []
  complete : c.complete = true ↔
    (∀ kv ∈ nodeRows, NamedUser kv.2) ∧ ∀ id, Agreeing (rows id nodeRows)
  popped : ∀ id ∈ c.skipped, c.find id = none

theorem left_filter_blank (rs : List (Row String String)) :
    left (rs.filter (· ≠ blank)) = left rs := by
  induction rs with
  | nil => rfl
  | cons p rs ih =>
    by_cases hp : p = blank
    · rw [List.filter_cons_of_neg (by simpa using hp), ih, hp]
      rfl
    · rw [List.filter_cons_of_pos (by simpa using hp)]
      obtain ⟨a, b⟩ := p
      cases a with
      | none => exact ih
      | some a => exact congrArg (a :: ·) ih

theorem right_filter_blank (rs : List (Row String String)) :
    right (rs.filter (· ≠ blank)) = right rs := by
  induction rs with
  | nil => rfl
  | cons p rs ih =>
    by_cases hp : p = blank
    · rw [List.filter_cons_of_neg (by simpa using hp), ih, hp]
      rfl
    · rw [List.filter_cons_of_pos (by simpa using hp)]
      obtain ⟨a, b⟩ := p
      cases b with
      | none => exact ih
      | some b => exact congrArg (b :: ·) ih

theorem blank_notMem_filter (rs : List (Row String String)) : blank ∉ rs.filter (· ≠ blank) := by
  intro h
  simpa using (List.mem_filter.mp h).2

/-- Names that never conflict make an entry. -/
theorem foldl_add_of_agreeing {rs : List (Row String String)} (h : Agreeing rs) (hne : rs ≠ []) :
    rs.foldl Merged.add .absent = .entry ((left rs).head?, (right rs).head?) := by
  have hout := Cells.outcome_of_uniform (blank_notMem_filter rs)
    (by rw [left_filter_blank]; exact h.1) (by rw [right_filter_blank]; exact h.2)
  rw [Merged.foldl_add hne, hout, left_filter_blank, right_filter_blank]
  rfl

theorem uniform_append_iff {l : List String} (h : Uniform l) (v : Option String) :
    Uniform (l ++ v.toList) ↔ mergeNodeNameValues l.head? v ≠ none := by
  cases v with
  | none =>
    rw [Option.toList_none, List.append_nil]
    refine ⟨fun _ => ?_, fun _ => h⟩
    cases l <;> simp [mergeNodeNameValues]
  | some b =>
    cases l with
    | nil =>
      refine ⟨fun _ => by simp [mergeNodeNameValues], fun _ x hx y hy => ?_⟩
      rw [List.mem_singleton.mp hx, List.mem_singleton.mp hy]
    | cons a l =>
      have hall : ∀ x ∈ a :: l, x = a := fun x hx => h x hx a List.mem_cons_self
      simp only [mergeNodeNameValues, List.head?_cons, Option.toList_some]
      constructor
      · intro hu
        have hab : a = b := hu a (by simp) b (by simp)
        simp [hab]
      · intro hm
        have hab : a = b := by
          by_contra hne
          simp [hne] at hm
        have all : ∀ x ∈ a :: l ++ [b], x = a := by
          intro x hx
          rcases List.mem_append.mp hx with hx | hx
          · exact hall x hx
          · rw [List.mem_singleton.mp hx, hab]
        exact fun x hx y hy => (all x hx).trans (all y hy).symm

theorem agreeing_concat_iff {rs : List (Row String String)} (h : Agreeing rs)
    (p : Row String String) : Agreeing (rs ++ [p]) ↔
      mergeNodeNameValues (left rs).head? p.1 ≠ none ∧
      mergeNodeNameValues (right rs).head? p.2 ≠ none := by
  have hl : left (rs ++ [p]) = left rs ++ p.1.toList := by
    rw [Cells.left_append]
    obtain ⟨a, b⟩ := p
    cases a <;> rfl
  have hr : right (rs ++ [p]) = right rs ++ p.2.toList := by
    rw [Cells.right_append]
    obtain ⟨a, b⟩ := p
    cases b <;> rfl
  unfold Agreeing
  rw [hl, hr, uniform_append_iff h.1, uniform_append_iff h.2]

theorem agreeing_of_append {rs rs' : List (Row String String)} (h : Agreeing (rs ++ rs')) :
    Agreeing rs := by
  unfold Agreeing at h
  rw [Cells.left_append, Cells.right_append] at h
  exact ⟨fun a ha b hb => h.1 a (List.mem_append_left _ ha) b (List.mem_append_left _ hb),
    fun a ha b hb => h.2 a (List.mem_append_left _ ha) b (List.mem_append_left _ hb)⟩

namespace Collect

theorem complete_addUser (c : Collect) (id : String) (user : Py) :
    (c.addUser id user).complete = true ↔
      (c.complete = true ∧ isNameValue (user.field "longName") = true ∧
        isNameValue (user.field "shortName") = true) ∧
      ∀ e, c.find id = some e → mergeNodeNameValues e.longName (userNames user).1 ≠ none ∧
        mergeNodeNameValues e.shortName (userNames user).2 ≠ none := by
  have hfind : (c.noteUser id user).find id = c.find id := rfl
  have hnote : (c.noteUser id user).complete = true ↔
      c.complete = true ∧ isNameValue (user.field "longName") = true ∧
        isNameValue (user.field "shortName") = true := by
    simp [noteUser, and_assoc]
  rw [← hnote]
  unfold addUser
  simp only
  rw [hfind]
  cases hf : c.find id with
  | none => simp [put]
  | some e =>
    simp only [Option.some.injEq, forall_eq', userNames]
    unfold merge
    simp only
    cases mergeNodeNameValues e.longName (normalizeNodeNameValue (user.field "longName")) with
    | none =>
      cases mergeNodeNameValues e.shortName (normalizeNodeNameValue (user.field "shortName")) with
      | none => simp [skip]
      | some s => cases s <;> simp [skip, put]
    | some l =>
      cases mergeNodeNameValues e.shortName (normalizeNodeNameValue (user.field "shortName")) with
      | none => cases l <;> simp [skip, put]
      | some s => cases l <;> simp [put]

theorem currentIds_addUser (c : Collect) (id : String) (user : Py) :
    (c.addUser id user).currentIds = c.currentIds.insert id := by
  unfold addUser
  simp only
  cases (c.noteUser id user).find id with
  | none => rfl
  | some e =>
    unfold merge
    simp only
    cases mergeNodeNameValues e.longName (normalizeNodeNameValue (user.field "longName")) with
    | none =>
      cases mergeNodeNameValues e.shortName (normalizeNodeNameValue (user.field "shortName")) with
      | none => rfl
      | some s => cases s <;> rfl
    | some l =>
      cases mergeNodeNameValues e.shortName (normalizeNodeNameValue (user.field "shortName")) with
      | none => cases l <;> rfl
      | some s => cases l <;> rfl

end Collect

namespace Collect

theorem popped_put {c : Collect} (hpop : ∀ id ∈ c.skipped, c.find id = none)
    {e : NodeNameEntry} (he : e.meshtasticId ∉ c.skipped) :
    ∀ id ∈ (c.put e).skipped, (c.put e).find id = none := by
  intro id hid
  have hne : id ≠ e.meshtasticId := fun heq => he (heq ▸ hid)
  rw [find_put, if_neg hne]
  exact hpop id hid

theorem popped_skip {c : Collect} (hpop : ∀ id ∈ c.skipped, c.find id = none) (id : String) :
    ∀ id' ∈ (c.skip id).skipped, (c.skip id).find id' = none := by
  intro id' hid'
  by_cases heq : id' = id
  · unfold find skip
    rw [List.find?_eq_none]
    intro e he
    simpa [heq] using (List.mem_filter.mp he).2
  · rw [find_skip_of_ne c heq]
    exact hpop id' ((List.mem_cons.mp hid').resolve_left heq)

theorem popped_addUser {c : Collect} (hpop : ∀ id ∈ c.skipped, c.find id = none) {id : String}
    (h : id ∉ c.skipped) (user : Py) :
    ∀ id' ∈ (c.addUser id user).skipped, (c.addUser id user).find id' = none := by
  have hnote : ∀ id' ∈ (c.noteUser id user).skipped, (c.noteUser id user).find id' = none := hpop
  unfold addUser
  simp only
  cases hf : (c.noteUser id user).find id with
  | none => exact popped_put hnote (e := ⟨id, _, _⟩) h
  | some e =>
    have hid := find_id hf
    subst hid
    have put : ∀ l s, ∀ id' ∈ ((c.noteUser e.meshtasticId user).put ⟨e.meshtasticId, l, s⟩).skipped,
        ((c.noteUser e.meshtasticId user).put ⟨e.meshtasticId, l, s⟩).find id' = none :=
      fun l s => popped_put hnote (e := ⟨e.meshtasticId, l, s⟩) h
    have skip := popped_skip hnote e.meshtasticId
    unfold merge
    simp only
    cases mergeNodeNameValues e.longName (normalizeNodeNameValue (user.field "longName")) with
    | none =>
      cases mergeNodeNameValues e.shortName (normalizeNodeNameValue (user.field "shortName")) with
      | none => exact skip
      | some s =>
        cases s with
        | none => exact skip
        | some s => exact put none (some s)
    | some l =>
      cases mergeNodeNameValues e.shortName (normalizeNodeNameValue (user.field "shortName")) with
      | none =>
        cases l with
        | none => exact skip
        | some l => exact put (some l) none
      | some s => cases l <;> exact put _ s

end Collect

namespace Found

variable {nodeRows : List (String × Py)} {c : Collect}

theorem not_skipped_of_agreeing (h : Found nodeRows c) {id : String}
    (ha : Agreeing (rows id nodeRows)) : id ∉ c.skipped := by
  intro hid
  have hm : c.merged id = .skipped := if_pos hid
  rw [h.merged] at hm
  by_cases hne : rows id nodeRows = []
  · rw [hne] at hm
    cases hm
  · rw [foldl_add_of_agreeing ha hne] at hm
    cases hm

theorem find_of_agreeing (h : Found nodeRows c) {id : String} (ha : Agreeing (rows id nodeRows))
    {e : NodeNameEntry} (hf : c.find id = some e) :
    e.longName = (left (rows id nodeRows)).head? ∧ e.shortName = (right (rows id nodeRows)).head? := by
  have hm : c.merged id = .entry (e.longName, e.shortName) := by
    unfold Collect.merged
    rw [if_neg (h.not_skipped_of_agreeing ha), hf]
  rw [h.merged] at hm
  by_cases hne : rows id nodeRows = []
  · rw [hne] at hm
    cases hm
  · rw [foldl_add_of_agreeing ha hne, Merged.entry.injEq, Prod.mk.injEq] at hm
    exact ⟨hm.1.symm, hm.2.symm⟩

theorem merged_step (h : Found nodeRows c) (kv : String × Py) (id : String) :
    (collectNode c kv.2).merged id =
      (rows id (nodeRows ++ [kv])).foldl Merged.add .absent := by
  rw [Collect.merged_collectNode, h.merged id, rows_concat, List.foldl_append]

theorem agreeing_step (h : Found nodeRows c) {kv : String × Py} {id : String} {user : Py}
    (hu : identified kv.2 = some (id, user)) (hall : ∀ id, Agreeing (rows id nodeRows)) :
    (∀ id, Agreeing (rows id (nodeRows ++ [kv]))) ↔
      ∀ e, c.find id = some e → mergeNodeNameValues e.longName (userNames user).1 ≠ none ∧
        mergeNodeNameValues e.shortName (userNames user).2 ≠ none := by
  have hrow : ∀ id', rowOf id' kv.2 = if id = id' then some (userNames user) else none := by
    intro id'
    unfold rowOf
    rw [hu]
    rfl
  have hself : Agreeing (rows id (nodeRows ++ [kv])) ↔
      mergeNodeNameValues (left (rows id nodeRows)).head? (userNames user).1 ≠ none ∧
      mergeNodeNameValues (right (rows id nodeRows)).head? (userNames user).2 ≠ none := by
    rw [rows_concat, hrow, if_pos rfl]
    exact agreeing_concat_iff (hall id) _
  have hothers : ∀ id', id ≠ id' → Agreeing (rows id' (nodeRows ++ [kv])) := by
    intro id' hne
    rw [rows_concat, hrow, if_neg hne, Option.toList_none, List.append_nil]
    exact hall id'
  constructor
  · intro ha e he
    obtain ⟨hl, hs⟩ := h.find_of_agreeing (hall id) he
    rw [hl, hs]
    exact hself.mp (ha id)
  · intro ha id'
    by_cases hid : id = id'
    · subst hid
      rw [hself]
      cases hf : c.find id with
      | some e =>
        obtain ⟨hl, hs⟩ := h.find_of_agreeing (hall id) hf
        rw [← hl, ← hs]
        exact ha e hf
      | none =>
        -- the first node with the id
        have hm : c.merged id = .absent := by
          unfold Collect.merged
          rw [if_neg (h.not_skipped_of_agreeing (hall id)), hf]
        have hnil : rows id nodeRows = [] := by
          by_contra hne
          rw [h.merged, foldl_add_of_agreeing (hall id) hne] at hm
          cases hm
        rw [hnil]
        exact ⟨by simp [mergeNodeNameValues, left], by simp [mergeNodeNameValues, right]⟩
    · exact hothers id' hid

theorem step (h : Found nodeRows c) (kv : String × Py) :
    Found (nodeRows ++ [kv]) (collectNode c kv.2) := by
  have hmerged := h.merged_step kv
  have hback : (∀ id, Agreeing (rows id (nodeRows ++ [kv]))) → ∀ id, Agreeing (rows id nodeRows) := by
    intro hall id
    have := hall id
    rw [rows_concat] at this
    exact agreeing_of_append this
  cases hu : identified kv.2 with
  | none =>
    have heq : collectNode c kv.2 = { c with complete := false } := by
      rw [collectNode_eq, hu]
    have hrow : ∀ id, rowOf id kv.2 = none := fun id => by
      unfold rowOf
      rw [hu]
      rfl
    refine ⟨hmerged, fun id => ?_, ?_, ?_⟩
    · rw [heq, rows_concat, hrow, Option.toList_none, List.append_nil]
      exact h.current id
    · rw [heq]
      constructor
      · intro hc
        cases hc
      · intro hall
        obtain ⟨u, hu', -⟩ := hall.1 kv (List.mem_append_right _ (List.mem_singleton_self _))
        rw [hu] at hu'
        cases hu'
    · rw [heq]
      exact h.popped
  | some u =>
    obtain ⟨id, user⟩ := u
    have heq : collectNode c kv.2 = if id ∈ c.skipped then c else c.addUser id user := by
      rw [collectNode_eq, hu]
    have hrow : ∀ id', rowOf id' kv.2 = if id = id' then some (userNames user) else none := by
      intro id'
      unfold rowOf
      rw [hu]
      rfl
    have hcur : ∀ id', rows id' (nodeRows ++ [kv]) ≠ [] ↔ id' ∈ c.currentIds ∨ id' = id := by
      intro id'
      rw [h.current, rows_concat, hrow]
      by_cases hid : id = id'
      · rw [if_pos hid]
        exact ⟨fun _ => Or.inr hid.symm, fun _ => List.concat_ne_nil _ _⟩
      · rw [if_neg hid, Option.toList_none, List.append_nil]
        exact ⟨Or.inl, fun hor => hor.resolve_right fun he => hid he.symm⟩
    have hnamed : NamedUser kv.2 ↔ isNameValue (user.field "longName") = true ∧
        isNameValue (user.field "shortName") = true := by
      unfold NamedUser
      rw [hu]
      simp
    by_cases hskip : id ∈ c.skipped
    · rw [if_pos hskip] at heq
      have hconf : ¬ ∀ id, Agreeing (rows id nodeRows) := fun hall =>
        h.not_skipped_of_agreeing (hall id) hskip
      refine ⟨hmerged, fun id' => ?_, ?_, ?_⟩
      · rw [heq, hcur]
        constructor
        · exact Or.inl
        · rintro (hin | rfl)
          · exact hin
          · rw [h.current]
            intro hnil
            have hm : c.merged id' = .skipped := if_pos hskip
            rw [h.merged, hnil] at hm
            cases hm
      · rw [heq, h.complete]
        exact ⟨fun hall => absurd hall.2 hconf, fun hall => absurd (hback hall.2) hconf⟩
      · rw [heq]
        exact h.popped
    · rw [if_neg hskip] at heq
      refine ⟨hmerged, fun id' => ?_, ?_, ?_⟩
      · rw [heq, hcur, Collect.currentIds_addUser, List.mem_insert_iff, or_comm]
      · rw [heq, Collect.complete_addUser, h.complete, List.forall_mem_append,
          List.forall_mem_singleton, hnamed]
        constructor
        · rintro ⟨⟨⟨hn, hall⟩, hl, hs⟩, hm⟩
          exact ⟨⟨hn, hl, hs⟩, (h.agreeing_step hu hall).mpr hm⟩
        · rintro ⟨⟨hn, hl, hs⟩, hall⟩
          exact ⟨⟨⟨hn, hback hall⟩, hl, hs⟩, (h.agreeing_step hu (hback hall)).mp hall⟩
      · rw [heq]
        exact Collect.popped_addUser h.popped hskip user

end Found

/-- The variables of the loop after all nodes. -/
def collectAll (nodeRows : List (String × Py)) : Collect :=
  nodeRows.foldl (fun c kv => collectNode c kv.2) ⟨[], [], [], true⟩

/-- **The loop** finds what the names of each id say. -/
theorem found_collect (nodeRows : List (String × Py)) : Found nodeRows (collectAll nodeRows) := by
  induction nodeRows using List.reverseRecOn with
  | nil =>
    refine ⟨fun _ => rfl, fun id => ?_, ?_, fun id hid => by cases hid⟩
    · exact ⟨fun hid => (by cases hid), fun hne => absurd rfl hne⟩
    · refine ⟨fun _ => ⟨fun kv hkv => (by cases hkv), fun id => ⟨?_, ?_⟩⟩, fun _ => rfl⟩
      · exact fun a ha => by cases ha
      · exact fun a ha => by cases ha
  | append_singleton nodeRows kv ih =>
    unfold collectAll
    rw [List.foldl_append]
    exact ih.step kv

end MMRelay.Names
