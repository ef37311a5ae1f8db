import MMRelay.Lib.FileOps

/-!
# Contents that survive

Which contents of files are still somewhere in a region of the file system after an operation that
may have failed half-way.

* `Kept`: each content of a set is at a path of the region;
* `Survive`: the files of a region are unchanged;
* `Stable`: properties that only depend on the files of a region;
* **`copied_of_copy2Op`**, **`moved_of_moveOp`**, …: what the operations leave, also when they fail.
-/

namespace MMRelay

/-- Each content of `P` is in a file of the region. -/
def Kept (P : Set String) (A : Path → Prop) (fs : Fs) : Prop := ∀ c ∈ P, ∃ p, A p ∧ fs.HasFile p c

/-- The files of the region are still there. -/
def Survive (A : Path → Prop) (fs fs' : Fs) : Prop := ∀ p c, A p → fs.HasFile p c → fs'.HasFile p c

namespace Kept

variable {P : Set String} {A B : Path → Prop} {fs fs' : Fs}

theorem mono (h : Kept P A fs) (hAB : ∀ p, A p → B p) : Kept P B fs := by
  intro c hc
  obtain ⟨p, hp, hfile⟩ := h c hc
  exact ⟨p, hAB p hp, hfile⟩

theorem survive (h : Kept P A fs) (hs : Survive A fs fs') : Kept P A fs' := by
  intro c hc
  obtain ⟨p, hp, hfile⟩ := h c hc
  exact ⟨p, hp, hs p c hp hfile⟩

end Kept

namespace Survive

variable {A B : Path → Prop} {fs fs' fs'' : Fs}

theorem refl (A : Path → Prop) (fs : Fs) : Survive A fs fs := fun _ _ _ h => h

theorem trans (h : Survive A fs fs') (h' : Survive A fs' fs'') : Survive A fs fs'' :=
  fun p c hp hfile => h' p c hp (h p c hp hfile)

theorem mono (h : Survive B fs fs') (hAB : ∀ p, A p → B p) : Survive A fs fs' :=
  fun p c hp => h p c (hAB p hp)

theorem of_node (h : ∀ p, A p → fs'.node p = fs.node p) : Survive A fs fs' := by
  rintro p c hp ⟨m, hm⟩
  exact ⟨m, (h p hp).trans hm⟩

theorem mkdirs (p : Path) : Survive A fs (fs.mkdirs p) :=
  fun _ _ _ h => Fs.hasFile_mkdirs.mpr h

theorem writeFile {p : Path} {c : String} {m : ℕ} (h : ∀ q, A q → q ≠ p) :
    Survive A fs (fs.writeFile p c m) :=
  of_node fun q hq => Fs.node_writeFile_of_ne (h q hq)

theorem removePart {p : Path} {keep : Path → Bool} (h : ∀ q, A q → ¬ p <+: q) :
    Survive A fs (fs.removePart p keep) :=
  of_node fun q hq => Fs.node_removePart (h q hq)

theorem copyTree (src dst : Path) : Survive A fs (fs.copyTree src dst) := by
  rintro q c - ⟨m, hm⟩
  refine ⟨m, ?_⟩
  rw [Fs.node_copyTree_of_ne_none (by rw [hm]; exact Option.some_ne_none _), hm]

end Survive

/-- Changes outside the region, and new files, do no harm to the property. -/
def Stable (B : Path → Prop) (X : Fs → Prop) : Prop := ∀ fs fs', X fs → Survive B fs fs' → X fs'

namespace Stable

variable {B : Path → Prop} {X X' : Fs → Prop}

theorem kept {P : Set String} {A : Path → Prop} (h : ∀ q, A q → B q) : Stable B (Kept P A) :=
  fun _ _ hX hs => hX.survive (hs.mono h)

theorem mono {B' : Path → Prop} (h : Stable B X) (hB : ∀ q, B q → B' q) : Stable B' X :=
  fun fs fs' hX hs => h fs fs' hX (hs.mono hB)

theorem and (h : Stable B X) (h' : Stable B X') : Stable B fun fs => X fs ∧ X' fs :=
  fun fs fs' hX hs => ⟨h fs fs' hX.1 hs, h' fs fs' hX.2 hs⟩

theorem all {κ : Type} {S : κ → Prop} {X : κ → Fs → Prop} (h : ∀ i, S i → Stable B (X i)) :
    Stable B fun fs => ∀ i, S i → X i fs :=
  fun fs fs' hX hs i hi => h i hi fs fs' (hX i hi) hs

end Stable

/-! ## What the operations leave -/

namespace FileOps

variable {fs fs' : Fs} {p src dst target : Path} {c : String}

theorem intoDir_below (fs : Fs) (src dst : Path) : dst <+: intoDir fs src dst := by
  unfold intoDir
  split_ifs
  · exact List.prefix_append _ _
  · exact List.prefix_rfl

theorem survive_mkdirOp {A : Path → Prop} (h : mkdirOp p fs = some fs') : Survive A fs fs' := by
  unfold mkdirOp at h
  split_ifs at h
  rw [← Option.some.inj h]
  exact Survive.mkdirs p

theorem copyTarget_below {t : Path × String × ℕ} (h : copyTarget fs src dst = some t) :
    dst <+: t.1 := by
  unfold copyTarget at h
  split at h
  · simp only at h
    split_ifs at h
    rw [← Option.some.inj h]
    exact intoDir_below fs src dst
  · cases h

theorem node_copy2Op (h : copy2Op src dst fs = some fs') {q : Path} (hq : ¬ dst <+: q) :
    fs'.node q = fs.node q := by
  obtain ⟨t, ht, rfl⟩ := Option.map_eq_some_iff.mp h
  refine Fs.node_writeFile_of_ne fun heq => hq ?_
  rw [heq]
  exact copyTarget_below ht

theorem survive_copy2Op (h : copy2Op src dst fs = some fs') :
    Survive (fun q => ¬ dst <+: q) fs fs' :=
  Survive.of_node fun _ hq => node_copy2Op h hq

theorem survive_copy2Damage (d : Damage) :
    Survive (fun q => ¬ dst <+: q) fs (copy2Damage src dst d fs) := by
  unfold copy2Damage
  split
  · next t ht =>
    split_ifs
    · exact Survive.refl _ fs
    · refine Survive.writeFile fun q hq heq => hq ?_
      rw [heq]
      exact copyTarget_below ht
  · exact Survive.refl _ fs

theorem no_file_below {q : Path} (hfree : fs.node dst = none) (hfile : fs.HasFile q c) :
    ¬ dst <+: q := by
  intro hpre
  by_cases heq : dst = q
  · exact Fs.hasFile_ne_none hfile (heq ▸ hfree)
  · exact Fs.hasFile_ne_none hfile
      (Fs.no_descendant (by rw [hfree]; exact (Option.some_ne_none _).symm) hpre heq)

theorem canCopytree_iff :
    canCopytree fs src dst = true ↔ fs.isDir src = true ∧ fs.node dst = none ∧ ¬ src <+: dst ∧
      dst.dropLast.inits.any fs.isFile = false := by
  simp [canCopytree, Fs.pathExists, and_assoc]

theorem survive_copytreeOp {A : Path → Prop} (h : copytreeOp src dst fs = some fs') :
    Survive A fs fs' := by
  unfold copytreeOp at h
  split_ifs at h
  rw [← Option.some.inj h]
  exact (Survive.mkdirs _).trans (Survive.copyTree _ _)

theorem survive_copytreeDamage {A : Path → Prop} (d : Damage) :
    Survive A fs (copytreeDamage src dst d fs) := by
  unfold copytreeDamage
  split_ifs with h
  · rw [Bool.and_eq_true, canCopytree_iff] at h
    intro q c hq hfile
    have hcopy : Survive A fs ((fs.mkdirs dst.dropLast).copyTree src dst) :=
      (Survive.mkdirs _).trans (Survive.copyTree _ _)
    exact Survive.removePart (fun _ hq => hq) q c (no_file_below h.1.2.1 hfile) (hcopy q c hq hfile)
  · exact Survive.refl _ fs

theorem not_prefix_dropLast {p : Path} (hne : p ≠ []) : ¬ p <+: p.dropLast := by
  intro h
  have hlen := h.length_le
  have hpos := List.length_pos_iff.mpr hne
  rw [List.length_dropLast] at hlen
  omega

theorem node_of_isFile (h : fs.isFile p = true) : ∃ c m, fs.node p = some (.file c m) := by
  unfold Fs.isFile at h
  split at h
  · next c m hnode => exact ⟨c, m, hnode⟩
  · cases h

theorem eq_of_isFile {q : Path} (h : fs.isFile p = true) (hpq : p <+: q) (hq : fs.node q ≠ none) :
    q = p := by
  by_contra hne
  obtain ⟨c', m', hnode⟩ := node_of_isFile h
  exact hq (Fs.no_descendant (by rw [hnode]; simp) hpq (Ne.symm hne))

theorem survive_unlinkOp (h : unlinkOp p fs = some fs') : Survive (· ≠ p) fs fs' := by
  unfold unlinkOp at h
  split_ifs at h with hp
  rw [← Option.some.inj h]
  intro q c hq hfile
  exact Survive.removePart (fun _ hr => hr) q c
    (fun hpq => hq (eq_of_isFile hp hpq (Fs.hasFile_ne_none hfile))) hfile

theorem survive_rmtreeOp (h : rmtreeOp p fs = some fs') : Survive (fun q => ¬ p <+: q) fs fs' := by
  unfold rmtreeOp at h
  split_ifs at h
  rw [← Option.some.inj h]
  exact Survive.removePart fun _ hq => hq

theorem survive_rmtreeDamage (d : Damage) : Survive (fun q => ¬ p <+: q) fs (rmtreeDamage p d fs) := by
  unfold rmtreeDamage
  split_ifs
  · exact Survive.removePart fun _ hq => hq
  · exact Survive.refl _ fs

theorem no_file_in_empty {q : Path} (hdir : fs.isDir p = true) (hnil : fs.children p = [])
    (hfile : fs.HasFile q c) : ¬ p <+: q := by
  rintro ⟨rest, rfl⟩
  cases rest with
  | nil =>
    obtain ⟨m, hm⟩ := hfile
    rw [List.append_nil] at hm
    simp [Fs.isDir, hm] at hdir
  | cons n rest =>
    have hchild : n ∈ fs.children p := by
      rw [Fs.mem_children]
      intro hnone
      exact no_file_below hnone hfile ⟨rest, by simp⟩
    rw [hnil] at hchild
    cases hchild

theorem survive_rmdirOp {A : Path → Prop} (h : rmdirOp p fs = some fs') : Survive A fs fs' := by
  unfold rmdirOp at h
  split_ifs at h with hempty
  rw [← Option.some.inj h]
  intro q c _ hfile
  exact Survive.removePart (fun _ hq => hq) q c (no_file_in_empty hempty.1 hempty.2 hfile) hfile

theorem survive_writeTextOp {text : String} {m : ℕ} (h : writeTextOp p text m fs = some fs') :
    Survive (· ≠ p) fs fs' := by
  unfold writeTextOp at h
  split_ifs at h
  rw [← Option.some.inj h]
  exact Survive.writeFile fun _ hq => hq

theorem survive_writeTextDamage (d : Damage) : Survive (· ≠ p) fs (writeTextDamage p d fs) := by
  unfold writeTextDamage
  split_ifs
  · exact Survive.writeFile fun _ hq => hq
  · exact Survive.refl _ fs

/-! ## Moves -/

/-- The conditions of a rename. -/
structure CanRename (fs : Fs) (src dst : Path) : Prop where
  src_exists : fs.node src ≠ none
  not_below : ¬ src <+: dst
  dst_not_dir : fs.node dst ≠ some .dir
  parent : fs.parentIsDir dst = true

theorem CanRename.not_above (h : CanRename fs src dst) : ¬ dst <+: src := by
  intro hpre
  by_cases heq : dst = src
  · exact h.not_below (heq ▸ List.prefix_rfl)
  · exact h.src_exists (Fs.no_descendant h.dst_not_dir hpre heq)

theorem CanRename.node_copy (h : CanRename fs src dst) (q : Path) :
    ((fs.removeTree dst).copyTree src dst).node q =
      if dst <+: q then fs.node (src ++ q.drop dst.length) else fs.node q := by
  have hne : dst ≠ [] := by
    rintro rfl
    exact h.not_above List.nil_prefix
  have hparent : (fs.removeTree dst).parentIsDir dst = true := by
    have := h.parent
    unfold Fs.parentIsDir Fs.isDir at this ⊢
    rw [Fs.node_removeTree, if_neg (not_prefix_dropLast hne)]
    exact this
  rw [Fs.node_copyTree hparent (by rw [Fs.node_removeTree, if_pos List.prefix_rfl]),
    Fs.node_removeTree, Fs.node_removeTree]
  by_cases hq : dst <+: q
  · rw [if_pos hq, if_pos hq, if_neg]
    intro hbad
    rcases List.prefix_or_prefix_of_prefix hbad (List.prefix_append src _) with hp | hp
    · exact h.not_above hp
    · exact h.not_below hp
  · rw [if_neg hq, if_neg hq, if_neg hq]

/-- A file of a region that excludes the target is where it was or at its new place. -/
theorem CanRename.moved (h : CanRename fs src dst) {q : Path} (hfile : fs.HasFile q c)
    (hq : ¬ dst <+: q) :
    (¬ src <+: q ∧ (renamed fs src dst).HasFile q c) ∨
      ∃ r, dst <+: r ∧ (renamed fs src dst).HasFile r c := by
  obtain ⟨m, hm⟩ := hfile
  by_cases hs : src <+: q
  · obtain ⟨rest, rfl⟩ := hs
    refine Or.inr ⟨dst ++ rest, List.prefix_append _ _, m, ?_⟩
    unfold renamed
    rw [Fs.node_removeTree, if_neg, h.node_copy, if_pos (List.prefix_append _ _), List.drop_left]
    · exact hm
    · intro hbad
      rcases List.prefix_or_prefix_of_prefix hbad (List.prefix_append dst rest) with hp | hp
      · exact h.not_below hp
      · exact h.not_above hp
  · refine Or.inl ⟨hs, m, ?_⟩
    unfold renamed
    rw [Fs.node_removeTree, if_neg hs, h.node_copy, if_neg hq]
    exact hm

theorem moveTarget_spec (h : moveTarget fs src dst = some target) :
    dst <+: target ∧ (src = target ∨ (CanRename fs src target ∧
      (fs.pathExists target = true → fs.isDir src = false))) := by
  unfold moveTarget at h
  simp only at h
  by_cases hsrc : fs.pathExists src = false
  · rw [if_pos hsrc] at h
    cases h
  rw [if_neg hsrc] at h
  by_cases hinto : fs.isDir dst = true ∧ src ≠ dst ∧ fs.pathExists (intoDir fs src dst) = true
  · rw [if_pos hinto] at h
    cases h
  rw [if_neg hinto] at h
  by_cases hsame : src = dst
  · rw [if_pos hsame] at h
    rw [← Option.some.inj h]
    exact ⟨List.prefix_rfl, Or.inl hsame⟩
  rw [if_neg hsame] at h
  by_cases hbad : src <+: intoDir fs src dst ∨ fs.parentIsDir (intoDir fs src dst) = false
  · rw [if_pos hbad] at h
    cases h
  rw [if_neg hbad] at h
  by_cases hfile : fs.pathExists (intoDir fs src dst) = true ∧ fs.isDir src = true
  · rw [if_pos hfile] at h
    cases h
  rw [if_neg hfile] at h
  rw [← Option.some.inj h]
  rw [not_or, Bool.not_eq_false] at hbad
  refine ⟨intoDir_below fs src dst, Or.inr ⟨⟨?_, hbad.1, ?_, hbad.2⟩, fun hex => ?_⟩⟩
  · simpa [Fs.pathExists] using hsrc
  · -- a directory that is there is entered, and then the target is free
    intro hdir
    have hex : fs.pathExists (intoDir fs src dst) = true := by simp [Fs.pathExists, hdir]
    by_cases hd : fs.isDir dst = true
    · exact hinto ⟨hd, hsame, hex⟩
    · unfold intoDir at hdir
      rw [if_neg hd] at hdir
      exact hd (by simp [Fs.isDir, hdir])
  · exact Bool.not_eq_true _ ▸ fun hd => hfile ⟨hex, hd⟩

theorem node_moveOp (h : moveOp src dst fs = some fs') {q : Path} (hq : ¬ dst <+: q) :
    fs'.node q = if src <+: q then none else fs.node q := by
  obtain ⟨target, ht, rfl⟩ := Option.map_eq_some_iff.mp h
  obtain ⟨hpre, hcases⟩ := moveTarget_spec ht
  by_cases heq : src = target
  · rw [if_pos heq, if_neg fun hs => hq (hpre.trans (heq ▸ hs))]
  · rw [if_neg heq]
    rcases hcases with heq' | ⟨hcan, -⟩
    · exact absurd heq' heq
    · unfold renamed
      rw [Fs.node_removeTree, hcan.node_copy, if_neg fun hbad => hq (hpre.trans hbad)]

theorem survive_moveOp (h : moveOp src dst fs = some fs') :
    Survive (fun q => ¬ src <+: q ∧ ¬ dst <+: q) fs fs' := by
  refine Survive.of_node fun q hq => ?_
  rw [node_moveOp h hq.2, if_neg hq.1]

theorem survive_moveDamage (d : Damage) :
    Survive (fun q => ¬ src <+: q ∧ ¬ dst <+: q) fs (moveDamage src dst d fs) := by
  unfold moveDamage
  split
  · exact Survive.refl _ fs
  · next target ht =>
    obtain ⟨hpre, hcases⟩ := moveTarget_spec ht
    have hout : ∀ q, (¬ src <+: q ∧ ¬ dst <+: q) → ¬ target <+: q :=
      fun q hq hbad => hq.2 (hpre.trans hbad)
    by_cases heq : src = target
    · rw [if_pos heq]
      exact Survive.refl _ fs
    rw [if_neg heq]
    split
    · exact Survive.refl _ fs
    · split_ifs
      · exact Survive.writeFile fun q hq heq => hout q hq (heq ▸ List.prefix_rfl)
      · exact (Survive.copyTree src target).trans (Survive.removePart hout)
    · exact ((Survive.removePart hout).trans (Survive.copyTree src target)).trans
        (Survive.removePart fun q hq => hq.1)

theorem replaceOp_cases (h : replaceOp src dst fs = some fs') :
    fs.node src ≠ none ∧
      ((src = dst ∧ fs' = fs) ∨ (CanRename fs src dst ∧ fs' = renamed fs src dst)) := by
  unfold replaceOp at h
  by_cases hsrc : fs.isFile src = false
  · rw [if_pos hsrc] at h
    cases h
  rw [if_neg hsrc] at h
  rw [Bool.not_eq_false] at hsrc
  obtain ⟨c', m', hnode⟩ := node_of_isFile hsrc
  have hex : fs.node src ≠ none := by
    rw [hnode]
    exact Option.some_ne_none _
  refine ⟨hex, ?_⟩
  by_cases heq : src = dst
  · rw [if_pos heq] at h
    exact Or.inl ⟨heq, (Option.some.inj h).symm⟩
  rw [if_neg heq] at h
  split_ifs at h with hok
  refine Or.inr ⟨⟨hex, ?_, ?_, hok.2⟩, (Option.some.inj h).symm⟩
  · intro hbad
    have hdir : fs.node src = some .dir := Fs.ancestors_isDir hok.2 hbad heq
    rw [hnode] at hdir
    cases hdir
  · simpa [Fs.isDir] using hok.1

end FileOps

end MMRelay
