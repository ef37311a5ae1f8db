import Mathlib

/-!
# File systems

A finite tree of directories and regular files, without links, addressed by absolute paths. The
structure carries that the ancestors of an entry are directories.

* `Path`, `Node`, `Fs`: the tree;
* `Fs.mkdirs`, `Fs.writeFile`, `Fs.removePart`, `Fs.removeTree`, `Fs.copyTree`: the operations;
* `Fs.children`: the names in a directory;
* `Fs.HasFile`, `Fs.node_mkdirs_ne_none`, **`Fs.node_copyTree`**, **`Fs.node_removeTree`**: what they leave.
-/

namespace MMRelay

/-- The components of an absolute path, the outermost first. -/
abbrev Path := List String

theorem concat_unique {e q : Path} {a b : String} (ha : e ++ [a] <+: q) (hb : e ++ [b] <+: q) :
    a = b := by
  have heq : e ++ [a] = e ++ [b] := by
    refine List.IsPrefix.eq_of_length (List.prefix_of_prefix_length_le ha hb ?_) ?_ <;> simp
  exact List.cons.inj (List.append_cancel_left heq) |>.1

inductive Node
  | dir
  | file (content : String) (mtime : ℕ)
  deriving DecidableEq

/-- A file system; `paths` lists at least the paths in use. -/
structure Fs where
  node : Path → Option Node
  paths : List Path
  complete : ∀ p, node p ≠ none → p ∈ paths
  closed : ∀ p q, node q ≠ none → p <+: q → p ≠ q → node p = some .dir

namespace Fs

/-- The file system with the root alone. -/
def root : Fs where
  node p := if p = [] then some .dir else none
  paths := [[]]
  complete := by
    intro p hp
    by_cases h : p = []
    · simp [h]
    · rw [if_neg h] at hp
      exact absurd rfl hp
  closed := by
    intro p q hq hpq hne
    by_cases h : q = []
    · rw [h, List.prefix_nil] at hpq
      exact absurd (hpq.trans h.symm) hne
    · rw [if_neg h] at hq
      exact absurd rfl hq

/-- `Path.exists`. -/
def pathExists (fs : Fs) (p : Path) : Bool := (fs.node p).isSome

/-- `Path.is_dir`. -/
def isDir (fs : Fs) (p : Path) : Bool := fs.node p = some .dir

/-- `Path.is_file`. -/
def isFile (fs : Fs) (p : Path) : Bool :=
  match fs.node p with
  | some (.file _ _) => true
  | _ => false

/-- The directory of the path exists. -/
def parentIsDir (fs : Fs) (p : Path) : Bool := p ≠ [] ∧ fs.isDir p.dropLast

/-- The file at the path has this content. -/
def HasFile (fs : Fs) (p : Path) (c : String) : Prop := ∃ m, fs.node p = some (.file c m)

/-- The names in a directory. -/
def children (fs : Fs) (p : Path) : List String :=
  (fs.paths.filterMap fun q =>
    if q ≠ [] ∧ q.dropLast = p ∧ fs.pathExists q then q.getLast? else none).dedup

/-! ## Operations -/

/-- Create the directory and those above it, unless a file is in the way. -/
def mkdirs (fs : Fs) (p : Path) : Fs :=
  if h : p.inits.any fs.isFile then fs
  else
    { node := fun q => if q <+: p ∧ fs.node q = none then some .dir else fs.node q
      paths := fs.paths ++ p.inits
      complete := by
        intro q hq
        rw [List.mem_append]
        by_cases hp : q <+: p
        · exact Or.inr ((List.mem_inits _ _).mpr hp)
        · rw [if_neg fun hand => hp hand.1] at hq
          exact Or.inl (fs.complete q hq)
      closed := by
        intro q r hr hqr hne
        have hfile : ∀ x, x <+: p → fs.node x = none ∨ fs.node x = some .dir := by
          intro x hx
          cases hnode : fs.node x with
          | none => exact Or.inl rfl
          | some n =>
            cases n with
            | dir => exact Or.inr rfl
            | file c m =>
              exact absurd (List.any_eq_true.mpr
                ⟨x, (List.mem_inits _ _).mpr hx, by simp [isFile, hnode]⟩) h
        by_cases hp : r <+: p
        · rcases hfile q (hqr.trans hp) with hnone | hdir
          · rw [if_pos ⟨hqr.trans hp, hnone⟩]
          · rw [if_neg (by simp [hdir]), hdir]
        · rw [if_neg fun hand => hp hand.1] at hr
          have hdir := fs.closed q r hr hqr hne
          rw [if_neg (by simp [hdir]), hdir] }

theorem no_descendant {fs : Fs} {p q : Path} (hp : fs.node p ≠ some .dir) (hpq : p <+: q)
    (hne : p ≠ q) : fs.node q = none := by
  by_contra hq
  exact hp (fs.closed p q hq hpq hne)

theorem ancestors_isDir {fs : Fs} {p q : Path} (h : fs.parentIsDir p = true) (hq : q <+: p)
    (hne : q ≠ p) : fs.node q = some .dir := by
  simp only [parentIsDir, isDir, decide_eq_true_eq] at h
  obtain ⟨hnil, hdir⟩ := h
  have hpre : q <+: p.dropLast := by
    rw [List.prefix_iff_eq_take] at hq
    have hlen : q.length < p.length := by
      by_contra hge
      rw [List.take_of_length_le (by omega)] at hq
      exact hne hq
    rw [List.prefix_iff_eq_take, List.dropLast_eq_take, List.take_take,
      Nat.min_eq_left (by omega)]
    exact hq
  by_cases heq : q = p.dropLast
  · rw [heq, hdir]
  · exact fs.closed q p.dropLast (by rw [hdir]; exact Option.some_ne_none _) hpre heq

/-- Write a file, unless a directory is there or the one above is missing. -/
def writeFile (fs : Fs) (p : Path) (c : String) (m : ℕ) : Fs :=
  if h : fs.parentIsDir p ∧ ¬ fs.isDir p then
    { node := fun q => if q = p then some (.file c m) else fs.node q
      paths := p :: fs.paths
      complete := by
        intro q hq
        by_cases hp : q = p
        · rw [hp]
          exact List.mem_cons_self
        · rw [if_neg hp] at hq
          exact List.mem_cons_of_mem _ (fs.complete q hq)
      closed := by
        intro q r hr hqr hne
        have hnot : fs.node p ≠ some .dir := by simpa [isDir] using h.2
        by_cases hrp : r = p
        · rw [hrp] at hqr hne
          rw [if_neg hne]
          exact ancestors_isDir h.1 hqr hne
        · rw [if_neg hrp] at hr
          by_cases hqp : q = p
          · rw [hqp] at hqr hne
            exact absurd (no_descendant hnot hqr hne) hr
          · rw [if_neg hqp]
            exact fs.closed q r hr hqr hne }
  else fs

/-- An entry below it is kept. -/
def keptBelow (fs : Fs) (keep : Path → Bool) (q : Path) : Bool :=
  fs.paths.any fun r => decide (q <+: r) && fs.pathExists r && keep r

/-- Remove the entries below a path except the kept ones and their directories. -/
def removePart (fs : Fs) (p : Path) (keep : Path → Bool) : Fs where
  node q := if p <+: q ∧ fs.keptBelow keep q = false then none else fs.node q
  paths := fs.paths
  complete := by
    intro q hq
    by_cases hp : p <+: q ∧ fs.keptBelow keep q = false
    · rw [if_pos hp] at hq
      exact absurd rfl hq
    · rw [if_neg hp] at hq
      exact fs.complete q hq
  closed := by
    intro q r hr hqr hne
    by_cases hp : p <+: r ∧ fs.keptBelow keep r = false
    · rw [if_pos hp] at hr
      exact absurd rfl hr
    · rw [if_neg hp] at hr
      have hdir := fs.closed q r hr hqr hne
      rw [if_neg, hdir]
      rintro ⟨hpq, hkept⟩
      refine hp ⟨hpq.trans hqr, ?_⟩
      -- what is kept below `r` is kept below `q`
      rw [keptBelow, List.any_eq_false] at hkept ⊢
      intro x hx
      have hno := hkept x hx
      simp only [Bool.and_eq_true, decide_eq_true_eq, not_and] at hno ⊢
      exact fun hrx => hno ⟨hqr.trans hrx.1, hrx.2⟩

/-- Remove a path with all below it. -/
def removeTree (fs : Fs) (p : Path) : Fs := fs.removePart p fun _ => false

/-- Copy a path with all below it to a new place, unless that is taken or the directory above it
is missing. -/
def copyTree (fs : Fs) (src dst : Path) : Fs :=
  if h : fs.parentIsDir dst ∧ fs.node dst = none then
    { node := fun q =>
        if dst <+: q then fs.node (src ++ q.drop dst.length) else fs.node q
      paths := fs.paths ++ (fs.paths.filter fun q => src <+: q).map fun q =>
        dst ++ q.drop src.length
      complete := by
        intro q hq
        rw [List.mem_append]
        by_cases hd : dst <+: q
        · rw [if_pos hd] at hq
          refine Or.inr (List.mem_map.mpr ⟨src ++ q.drop dst.length, ?_, ?_⟩)
          · exact List.mem_filter.mpr ⟨fs.complete _ hq, by simp⟩
          · obtain ⟨rest, rfl⟩ := hd
            simp
        · rw [if_neg hd] at hq
          exact Or.inl (fs.complete q hq)
      closed := by
        intro q r hr hqr hne
        by_cases hd : dst <+: r
        · rw [if_pos hd] at hr
          obtain ⟨rest, rfl⟩ := hd
          rw [List.drop_left] at hr
          by_cases hq : dst <+: q
          · rw [if_pos hq]
            obtain ⟨rest', rfl⟩ := hq
            rw [List.drop_left]
            refine fs.closed _ _ hr ?_ ?_
            · exact (List.prefix_append_right_inj src).mpr
                ((List.prefix_append_right_inj dst).mp hqr)
            · exact fun heq => hne (congrArg (dst ++ ·) (List.append_cancel_left heq))
          · rw [if_neg hq]
            refine ancestors_isDir h.1 ?_ ?_
            · rcases List.prefix_or_prefix_of_prefix hqr (List.prefix_append dst rest) with hp | hp
              · exact hp
              · exact absurd hp hq
            · rintro rfl
              exact hq List.prefix_rfl
        · rw [if_neg hd] at hr
          rw [if_neg fun hq => hd (hq.trans hqr)]
          exact fs.closed q r hr hqr hne }
  else fs

/-! ## What the operations leave -/

variable {fs : Fs} {p q src dst : Path} {c : String}

theorem hasFile_mkdirs : (fs.mkdirs p).HasFile q c ↔ fs.HasFile q c := by
  unfold mkdirs HasFile
  split_ifs with h
  · rfl
  · simp only
    by_cases hq : q <+: p ∧ fs.node q = none
    · rw [if_pos hq, hq.2]
      simp
    · rw [if_neg hq]

theorem hasFile_ne_none (h : fs.HasFile p c) : fs.node p ≠ none := by
  obtain ⟨m, hm⟩ := h
  rw [hm]
  exact Option.some_ne_none _

theorem node_writeFile_of_ne {m : ℕ} (h : q ≠ p) : (fs.writeFile p c m).node q = fs.node q := by
  unfold writeFile
  split_ifs with hw
  · exact if_neg h
  · rfl

theorem node_removePart {keep : Path → Bool} (h : ¬ p <+: q) :
    (fs.removePart p keep).node q = fs.node q :=
  if_neg fun hand => h hand.1

/-- **Removing a tree.** Nothing is left below the path, and everything else. -/
theorem node_removeTree (fs : Fs) (p q : Path) :
    (fs.removeTree p).node q = if p <+: q then none else fs.node q := by
  have hkept : fs.keptBelow (fun _ => false) q = false := by
    rw [keptBelow, List.any_eq_false]
    simp
  show (if p <+: q ∧ fs.keptBelow (fun _ => false) q = false then none else fs.node q) = _
  rw [hkept]
  simp

/-- **Copying a tree** to a place that is free. -/
theorem node_copyTree (hp : fs.parentIsDir dst = true) (hfree : fs.node dst = none) (q : Path) :
    (fs.copyTree src dst).node q =
      if dst <+: q then fs.node (src ++ q.drop dst.length) else fs.node q := by
  unfold copyTree
  rw [dif_pos ⟨hp, hfree⟩]

theorem node_copyTree_of_ne_none (h : fs.node q ≠ none) :
    (fs.copyTree src dst).node q = fs.node q := by
  unfold copyTree
  split_ifs with hc
  · refine if_neg fun hd => h ?_
    by_cases heq : dst = q
    · rw [← heq, hc.2]
    · exact no_descendant (by rw [hc.2]; exact (Option.some_ne_none _).symm) hd heq
  · rfl

theorem mem_children {n : String} : n ∈ fs.children p ↔ fs.node (p ++ [n]) ≠ none := by
  unfold children
  rw [List.mem_dedup, List.mem_filterMap]
  constructor
  · rintro ⟨r, -, hr⟩
    split_ifs at hr with hcond
    obtain ⟨hnil, rfl, hex⟩ := hcond
    have hlast : r.getLast hnil = n := by
      rw [List.getLast?_eq_getLast_of_ne_nil hnil] at hr
      exact Option.some.inj hr
    rw [← hlast, List.dropLast_concat_getLast hnil]
    simpa [pathExists, Option.isSome_iff_ne_none] using hex
  · intro h
    refine ⟨p ++ [n], fs.complete _ h, ?_⟩
    simp [pathExists, Option.isSome_iff_ne_none, h]

end Fs

end MMRelay
