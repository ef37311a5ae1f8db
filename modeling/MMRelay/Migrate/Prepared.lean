import MMRelay.Lib.Counted
import MMRelay.Lib.Exact
import MMRelay.Migrate.Footprint

/-!
# The database before its destination is touched

The step for the database, cut at the moment at which the first file of the destination is replaced,
and what is selected.

* `prepareGroup`, `replaceGroup`, **`moveDatabase_eq`**: the two halves of the step;
* `Selection`, `selection_of_candidates`: the group is all there is of one legacy database;
* `databaseToMove`, `migrateDatabase_eq`: when the step moves a group at all;
* `SameGroup`, `Tidy`, `Beside`: the destination is as before, and what may change meanwhile.
-/

namespace MMRelay.Migrate

open FileOps

variable {w : World} {roots : List Path} {group : List Path} {dir mostRecent : Path} {fs₀ : Fs}

/-! ## The two halves of the step -/

/-- The group is all there is of a legacy database. -/
structure Selection (w : World) (fs : Fs) (dir : Path) (group : List Path) : Prop where
  inGroup : InGroup group dir
  ne_dest : dir ≠ w.newDbDir
  mem_iff : ∀ n ∈ dbNames, dir ++ [n] ∈ group ↔ fs.node (dir ++ [n]) ≠ none
  main : dir ++ [databaseFilename] ∈ group

/-- The directory of the backups of the database. -/
def World.dbBackups (w : World) : Path := w.newDbDir ++ [migrationBackupDirname]

/-- The files of the destination are the same. -/
def SameGroup (w : World) (fs fs' : Fs) : Prop :=
  ∀ n ∈ dbNames, fs'.node (w.newDbDir ++ [n]) = fs.node (w.newDbDir ++ [n])

/-- The sources are not in a backup, and no directory is in the place of a staged file. -/
structure Tidy (w : World) (fs : Fs) (dir : Path) : Prop where
  apart : ¬ w.dbBackups <+: dir
  unstaged : ∀ n ∈ dbNames, fs.isDir (w.getStagingPath .database ++ [n]) = false

/-- A backup, or a missing directory above what is prepared. -/
def Beside (w : World) (fs : Fs) (q : Path) : Prop :=
  w.dbBackups <+: q ∨
    (fs.node q = none ∧ (q <+: w.dbBackups ∨ q <+: w.getStagingPath .database))

section Places

variable {n : String} (hn : n ∈ dbNames)
include hn

theorem dest_not_backup : ¬ w.dbBackups <+: w.newDbDir ++ [n] := fun h =>
  ne_backups_of_mem n hn (concat_unique List.prefix_rfl h)

omit hn in
theorem dest_not_staging : ¬ w.newDbDir ++ [n] <+: w.getStagingPath .database := by
  intro h
  have hdb : w.newHome ++ ["database"] <+: w.getStagingPath .database :=
    (List.prefix_append _ _).trans h
  exact absurd (concat_unique hdb (List.prefix_append _ [Step.database.name])) (by decide)

theorem dest_not_beside : ¬ Beside w fs₀ (w.newDbDir ++ [n]) := by
  rintro (h | ⟨-, h | h⟩)
  · exact dest_not_backup hn h
  · exact ne_backups_of_mem n hn (concat_unique h List.prefix_rfl)
  · exact dest_not_staging h

omit hn in
theorem staged_not_dest {q : Path} (h : w.getStagingPath .database <+: q) :
    ¬ w.newDbDir <+: q := by
  intro hd
  exact absurd (concat_unique hd ((List.prefix_append _ [Step.database.name]).trans h)) (by decide)

omit hn in
theorem staged_not_beside : ¬ Beside w fs₀ (w.getStagingPath .database ++ [n]) := by
  rintro (h | ⟨-, h | h⟩)
  · exact staged_not_dest (List.prefix_append _ _) ((List.prefix_append _ _).trans h)
  · have hdest : w.newDbDir <+: w.newDbDir ++ [migrationBackupDirname] := List.prefix_append _ _
    rcases List.prefix_or_prefix_of_prefix h hdest with hp | hp
    · have hstaged : w.newHome ++ [migrationStagingDirname] <+: w.newDbDir :=
        ((List.prefix_append _ [Step.database.name]).trans (List.prefix_append _ [n])).trans hp
      exact absurd (concat_unique hstaged List.prefix_rfl) (by decide)
    · exact staged_not_dest (List.prefix_append _ _) hp
  · have hlen := h.length_le
    simp at hlen

end Places

theorem SameGroup.of_agree {fs : Fs} (h : Agree (Beside w fs₀) fs₀ fs) : SameGroup w fs₀ fs :=
  fun _ hn => h _ (dest_not_beside hn)

theorem SameGroup.refl : SameGroup w fs₀ fs₀ := fun _ _ => rfl

end MMRelay.Migrate
