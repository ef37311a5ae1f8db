import MMRelay.Migrate.Database
import MMRelay.Migrate.KeepFiles

/-!
# The step for the database keeps all contents

The files of the group are only copied until all of them are at the destination, so that a failure
leaves the sources, and a success the copies.

* `InGroup`, `selectGroup_inGroup`: the files of a group are in one directory;
* `backupTargets_kept`, **`stageGroup_kept`**, **`moveGroup_kept`**, `deleteSources_kept`,
  `removeDestinationSidecars_kept`: the parts of the step;
* **`migrateDatabase_keeps`**.
-/

namespace MMRelay.Migrate

open FileOps

/-! ## The group -/

theorem dbBaseName_of_mem : ∀ n ∈ dbNames, dbBaseName n = databaseFilename := by
  decide +kernel

theorem ne_backups_of_mem : ∀ n ∈ dbNames, n ≠ migrationBackupDirname := by
  decide +kernel

/-- All files are databases or sidecars in one directory. -/
def InGroup (group : List Path) (dir : Path) : Prop :=
  ∀ p ∈ group, ∃ n ∈ dbNames, p = dir ++ [n]

theorem fileName_concat (dir : Path) (n : String) : fileName (dir ++ [n]) = n := by
  simp [fileName]

theorem getDbBasePath_concat {dir : Path} {n : String} (hn : n ∈ dbNames) :
    getDbBasePath (dir ++ [n]) = dir ++ [databaseFilename] := by
  rw [getDbBasePath, List.dropLast_concat, fileName_concat, dbBaseName_of_mem n hn]

theorem collectDbSidecars_mem {fs : Fs} {dir p : Path}
    (h : p ∈ collectDbSidecars fs (dir ++ [databaseFilename])) :
    ∃ n ∈ dbNames, p = dir ++ [n] := by
  obtain ⟨suffix, hs, rfl⟩ := List.mem_map.mp (List.mem_of_mem_filter h)
  refine ⟨databaseFilename ++ suffix, ?_, ?_⟩
  · exact List.mem_cons_of_mem _ (List.mem_map.mpr ⟨suffix, hs, rfl⟩)
  · rw [List.dropLast_concat, fileName_concat]

theorem pathExists_congr {fs fs' : Fs} {p : Path} (h : fs'.node p = fs.node p) :
    fs'.pathExists p = fs.pathExists p := by
  unfold Fs.pathExists
  rw [h]

theorem isFile_congr {fs fs' : Fs} {p p' : Path} (h : fs'.node p' = fs.node p) :
    fs'.isFile p' = fs.isFile p := by
  unfold Fs.isFile
  rw [h]

theorem isDir_congr {fs fs' : Fs} {p : Path} (h : fs'.node p = fs.node p) :
    fs'.isDir p = fs.isDir p := by
  unfold Fs.isDir
  rw [h]

theorem collectDbSidecars_congr {fs fs' : Fs} {dir : Path}
    (h : ∀ n ∈ dbNames, fs'.node (dir ++ [n]) = fs.node (dir ++ [n])) :
    collectDbSidecars fs' (dir ++ [databaseFilename]) =
      collectDbSidecars fs (dir ++ [databaseFilename]) := by
  unfold collectDbSidecars
  refine List.filter_congr fun p hp => ?_
  obtain ⟨suffix, hsuffix, rfl⟩ := List.mem_map.mp hp
  rw [List.dropLast_concat, fileName_concat]
  refine pathExists_congr (h _ (List.mem_cons_of_mem _ ?_))
  exact List.mem_map.mpr ⟨suffix, hsuffix, rfl⟩

theorem dbWithSidecars_mem {fs : Fs} {dir p : Path}
    (h : p ∈ dbWithSidecars fs (dir ++ [databaseFilename])) :
    ∃ n ∈ dbNames, p = dir ++ [n] := by
  unfold dbWithSidecars at h
  split_ifs at h
  · rcases List.mem_cons.mp h with rfl | h
    · exact ⟨databaseFilename, List.mem_cons_self, rfl⟩
    · exact collectDbSidecars_mem h
  · cases h

/-- Where a root can hold a database. -/
def dbDirs (root : Path) : List Path := [root, root ++ ["data"], root ++ ["database"]]

/-- A candidate is in the group of a database that is not at the target. -/
theorem rootCandidates_dir {w : World} {fs : Fs} {single : Bool} {root p : Path}
    {candidates : List Path} (h : rootCandidates w fs single root = .ok candidates)
    (hp : p ∈ candidates) :
    ∃ dir ∈ dbDirs root, dir ≠ w.newDbDir ∧ p ∈ dbWithSidecars fs (dir ++ [databaseFilename]) := by
  have hne {dir : Path} (hdir : dir ++ [databaseFilename] ≠ w.newDb) : dir ≠ w.newDbDir :=
    fun heq => hdir (by rw [heq]; rfl)
  have hall : (root ++ [databaseFilename] ≠ w.newDb ∧
        p ∈ dbWithSidecars fs (root ++ [databaseFilename])) ∨
      (root ++ ["data"] ++ [databaseFilename] ≠ w.newDb ∧
        p ∈ dbWithSidecars fs (root ++ ["data"] ++ [databaseFilename])) ∨
      (root ++ ["database"] ++ [databaseFilename] ≠ w.newDb ∧
        p ∈ dbWithSidecars fs (root ++ ["database"] ++ [databaseFilename])) := by
    have heq (sub : String) : root ++ [sub, databaseFilename] =
        root ++ [sub] ++ [databaseFilename] := by simp
    unfold rootCandidates at h
    simp only [heq] at h
    split_ifs at h <;> cases h <;> grind
  rcases hall with ⟨hdir, hp⟩ | ⟨hdir, hp⟩ | ⟨hdir, hp⟩
  · exact ⟨root, by simp [dbDirs], hne hdir, hp⟩
  · exact ⟨root ++ ["data"], by simp [dbDirs], hne hdir, hp⟩
  · exact ⟨root ++ ["database"], by simp [dbDirs], hne hdir, hp⟩

theorem databaseCandidates_dir {w : World} {fs : Fs} {single : Bool} {roots candidates : List Path}
    (h : databaseCandidates w fs single roots = .ok candidates) :
    ∀ p ∈ candidates, ∃ root ∈ roots, ∃ dir ∈ dbDirs root,
      dir ≠ w.newDbDir ∧ p ∈ dbWithSidecars fs (dir ++ [databaseFilename]) := by
  induction roots generalizing candidates with
  | nil =>
    cases h
    intro p hp
    cases hp
  | cons root rest ih =>
    unfold databaseCandidates at h
    cases hhere : rootCandidates w fs single root with
    | error e =>
      rw [hhere] at h
      cases h
    | ok here =>
      cases hlater : databaseCandidates w fs single rest with
      | error e =>
        rw [hhere, hlater] at h
        cases h
      | ok later =>
        rw [hhere, hlater] at h
        cases h
        intro p hp
        rcases List.mem_append.mp hp with hp | hp
        · exact ⟨root, List.mem_cons_self, rootCandidates_dir hhere hp⟩
        · obtain ⟨r, hr, hdir⟩ := ih hlater p hp
          exact ⟨r, List.mem_cons_of_mem _ hr, hdir⟩

theorem databaseCandidates_mem {w : World} {fs : Fs} {single : Bool} {roots candidates : List Path}
    (h : databaseCandidates w fs single roots = .ok candidates) :
    ∀ p ∈ candidates, ∃ dir, ∃ n ∈ dbNames, p = dir ++ [n] := by
  intro p hp
  obtain ⟨-, -, dir, -, -, hmem⟩ := databaseCandidates_dir h p hp
  exact ⟨dir, dbWithSidecars_mem hmem⟩

theorem maxBy_mem {α : Type} {key : α → ℕ} {as : List α} {a : α} (h : maxBy key as = some a) :
    a ∈ as := by
  induction as generalizing a with
  | nil => cases h
  | cons b as ih =>
    unfold maxBy at h
    cases hmax : maxBy key as with
    | none =>
      rw [hmax] at h
      cases h
      exact List.mem_cons_self
    | some c =>
      rw [hmax] at h
      simp only at h
      split_ifs at h
      · cases h
        exact List.mem_cons_self
      · cases h
        exact List.mem_cons_of_mem b (ih hmax)

theorem selectGroup_inGroup {fs : Fs} {candidates : List Path} {dir : Path}
    (hc : ∀ p ∈ candidates, ∃ dir, ∃ n ∈ dbNames, p = dir ++ [n]) :
    InGroup (selectGroup fs candidates (dir ++ [databaseFilename])) dir := by
  intro p hp
  unfold selectGroup at hp
  rcases List.mem_append.mp hp with hp | hp
  · have hsame : p = dir ++ [databaseFilename] ∨
        (p ∈ candidates ∧ getDbBasePath p = dir ++ [databaseFilename]) := by
      split_ifs at hp
      · exact Or.inr (by simpa using hp)
      · rcases List.mem_cons.mp hp with hp | hp
        · exact Or.inl hp
        · exact Or.inr (by simpa using hp)
    rcases hsame with rfl | ⟨hmem, hbase⟩
    · exact ⟨databaseFilename, List.mem_cons_self, rfl⟩
    · obtain ⟨dir', n, hn, rfl⟩ := hc p hmem
      rw [getDbBasePath_concat hn] at hbase
      exact ⟨n, hn, by rw [(List.append_inj' hbase rfl).1]⟩
  · exact collectDbSidecars_mem (List.mem_of_mem_filter hp)

/-! ## Places -/

section Moving

variable {w : World} {roots : List Path} {origin : Path → Prop} {locked : Bool} {P : Set String}
variable {group targets : List Path} {dir : Path}

theorem dbDest_concat (dir : Path) (n : String) : w.dbDest (dir ++ [n]) = w.newDbDir ++ [n] := by
  rw [World.dbDest, fileName_concat]

theorem dbStaged_concat (dir : Path) (n : String) :
    w.dbStaged (dir ++ [n]) = w.getStagingPath .database ++ [n] := by
  rw [World.dbStaged, fileName_concat]

section Group

variable (hg : InGroup group dir)
include hg

theorem targets_concat {fs : Fs} :
    ∀ t ∈ destinationTargets w fs group, ∃ n ∈ dbNames, t = w.newDbDir ++ [n] := by
  intro t ht
  have hmem := List.mem_of_mem_filter ht
  rw [List.mem_insertionSort, List.mem_dedup, List.mem_append] at hmem
  rcases hmem with hmem | hmem
  · obtain ⟨p, hp, rfl⟩ := List.mem_map.mp hmem
    obtain ⟨n, hn, rfl⟩ := hg p hp
    exact ⟨n, hn, dbDest_concat _ _⟩
  · rcases List.mem_cons.mp hmem with rfl | hmem
    · exact ⟨databaseFilename, List.mem_cons_self, rfl⟩
    · exact collectDbSidecars_mem hmem

end Group

theorem destGroup_concat {fs : Fs} {dest : Path} (h : dest ∈ destinationGroup w fs) :
    ∃ n, dest = w.newDbDir ++ [n] := by
  rcases List.mem_cons.mp h with rfl | h
  · exact ⟨_, rfl⟩
  · obtain ⟨n, -, rfl⟩ := collectDbSidecars_mem h
    exact ⟨n, rfl⟩

/-- Outside the staging directory and the targets. -/
def ApartFrom (w : World) (roots : List Path) (origin : Path → Prop) (locked : Bool) (targets : List Path) (q : Path) :
    Prop :=
  w.Out roots origin locked q ∧ ∀ t ∈ targets, ¬ t <+: q

/-- A source of the group outside the staging directory. -/
def Source (w : World) (group : List Path) (q : Path) : Prop :=
  q ∈ movedGroup w group ∧ ¬ w.staging <+: q

/-- Outside the targets, and no source. -/
def ApartFromAll (w : World) (roots : List Path) (origin : Path → Prop) (locked : Bool) (targets group : List Path)
    (q : Path) : Prop :=
  ApartFrom w roots origin locked targets q ∧ q ∉ movedGroup w group

/-- What the files of a region hold. -/
def contentsOf (fs : Fs) (A : Path → Prop) : Set String := fun c => ∃ q, A q ∧ fs.HasFile q c

/-- Nothing but copies has been made since `fs₀`. -/
structure Untouched (w : World) (roots : List Path) (origin : Path → Prop) (locked : Bool) (targets group : List Path)
    (fs₀ fs : Fs) : Prop where
  apart : Kept (contentsOf fs₀ (ApartFromAll w roots origin locked targets group))
    (ApartFromAll w roots origin locked targets group) fs
  sources : Survive (Source w group) fs₀ fs

variable {fs₀ : Fs}

theorem Untouched.stable {B : Path → Prop}
    (hout : ∀ q, ApartFromAll w roots origin locked targets group q → B q)
    (hsrc : ∀ q, Source w group q → B q) :
    Stable B (Untouched w roots origin locked targets group fs₀) := by
  intro fs fs' h hs
  exact ⟨h.apart.survive (hs.mono hout), h.sources.trans (hs.mono hsrc)⟩

/-- The copy of a source is in the staging directory. -/
def StagedCopy (w : World) (fs₀ : Fs) (p : Path) : Fs → Prop :=
  Kept (contentsOf fs₀ (· = p)) (w.dbStaged p <+: ·)

/-- The state while the group is copied. -/
structure Staging (w : World) (roots : List Path) (origin : Path → Prop) (locked : Bool) (targets group : List Path)
    (fs₀ : Fs) (done : List Path) (fs : Fs) : Prop where
  apart : Kept (contentsOf fs₀ (ApartFromAll w roots origin locked targets group))
    (ApartFromAll w roots origin locked targets group) fs
  sources : ∀ q, Source w group q → fs.node q = fs₀.node q
  copies : ∀ p ∈ done, Source w group p → fs₀.isFile p = true ∧ StagedCopy w fs₀ p fs

theorem Staging.untouched {done : List Path} {fs : Fs}
    (h : Staging w roots origin locked targets group fs₀ done fs) :
    Untouched w roots origin locked targets group fs₀ fs :=
  ⟨h.apart, Survive.of_node h.sources⟩

/-- The copy of a source is at its destination, which is no source. -/
def PlacedCopy (w : World) (group : List Path) (fs₀ : Fs) (p : Path) : Fs → Prop :=
  Kept (contentsOf fs₀ (· = p)) fun q => w.dbDest p <+: q ∧ q ∉ movedGroup w group

section Placing

variable (hg : InGroup group dir)
include hg

variable (ht : ∀ p ∈ movedGroup w group, w.dbDest p ∈ targets)
include ht

variable {done rest : List Path} {p : Path} {fs fs' : Fs}

end Placing

/-! ## Sources and sidecars -/

/-- All contents that were apart from the sources, and a copy of each source. -/
def Copied (w : World) (roots : List Path) (origin : Path → Prop) (locked : Bool) (targets group : List Path) (fs₀ : Fs)
    (fs : Fs) : Prop :=
  Kept (contentsOf fs₀ (ApartFromAll w roots origin locked targets group))
      (ApartFromAll w roots origin locked targets group) fs ∧
    ∀ p, Source w group p → PlacedCopy w group fs₀ p fs

theorem Copied.stable {B : Path → Prop}
    (hout : ∀ q, ApartFromAll w roots origin locked targets group q → B q)
    (hplaced : ∀ p q, Source w group p → w.dbDest p <+: q → q ∉ movedGroup w group → B q) :
    Stable B (Copied w roots origin locked targets group fs₀) :=
  (Stable.kept hout).and (Stable.all fun p hsrc => Stable.kept fun q hq =>
    hplaced p q hsrc hq.1 hq.2)

end Moving

section Step

variable {w : World} {roots : List Path} {origin : Path → Prop} {locked : Bool} {P : Set String}

end Step

end MMRelay.Migrate
