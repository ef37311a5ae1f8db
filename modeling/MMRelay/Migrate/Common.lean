import MMRelay.Lib.FileOps

/-!
# Migration of the files of older versions: common parts

The environment of a run of `perform_migration` (`migrate.py`), the results of its steps, and the
functions that all steps share. The model is that of a POSIX system without symbolic links, where
`_retry_on_file_in_use` tries once.

* `World`: the paths, the plan of faults and the answers of the environment;
* `Event`: the moments at which data can be lost, noted with the file system before them;
* `Step`, `Action`, `StepResult`, `Err`;
* `backupFile`, `backupTo`, `finalizeMove`, `dirHasEntries`, `getStagingPath`.
-/

namespace MMRelay.Migrate

open FileOps

def credentialsFilename : String := "credentials.json"
def configFilename : String := "config.yaml"
def databaseFilename : String := "meshtastic.sqlite"
def storeDirname : String := "store"
def matrixDirname : String := "matrix"
def migrationStagingDirname : String := ".migration_staging"
def migrationBackupDirname : String := ".migration_backups"
def migrationLockFilename : String := ".migration.lock"
def sqliteSidecarSuffixes : List String := ["-wal", "-shm", "-journal"]

inductive Step
  | credentials
  | config
  | database
  | logs
  | store
  | plugins
  | gpxtracker
  | service
  deriving DecidableEq

/-- The name of the step, of its staging path too. -/
def Step.name : Step → String
  | .credentials => "credentials"
  | .config => "config"
  | .database => "database"
  | .logs => "logs"
  | .store => "store"
  | .plugins => "plugins"
  | .gpxtracker => "gpxtracker"
  | .service => "service"

/-- Exceptions: failed operations, failed steps, and the ones that `perform_migration` does not
catch. -/
inductive Err
  | osError
  | migrationError (step : Step)
  | uncaught
  deriving DecidableEq

instance : OsError Err := ⟨.osError⟩

inductive Action
  | move
  | alreadyAtTarget
  | alreadyMigrated
  | notFound
  | skipForceRequired
  | scanSkippedPyyaml
  | update
  | updated
  | alreadyUpToDate
  | error
  deriving DecidableEq

/-- The dictionary that a step returns. -/
structure StepResult where
  success : Bool := true
  action : Option Action := none
  oldPath : Option Path := none
  newPath : Option Path := none
  dryRun : Bool := false
  migratedCount : Option ℕ := none
  migratedTypes : List String := []
  /-- Pairs of a backup and the path it was made of. -/
  backedUpFiles : List (Path × Path) := []
  migratedFiles : List Path := []
  message : String := ""
  deriving DecidableEq

/-- What `config.yaml` says of `community-plugins.gpxtracker.gpx_directory`. -/
inductive GpxEntry
  | absent
  | directory (p : Path)
  | yamlError
  /-- Any other exception, such as a `UnicodeDecodeError`. -/
  | otherError
  deriving DecidableEq

/-- What SQLite leaves of a sidecar when it opens a database. -/
inductive Sidecar
  | untouched
  | removed
  | written (content : String)
  deriving DecidableEq

/-- `PRAGMA integrity_check` over a connection with `mode=ro`: whether it passed, and what is left
of the log and of the shared memory, which SQLite maintains even then. -/
structure IntegrityCheck where
  passed : Bool
  wal : Sidecar := .untouched
  shm : Sidecar := .untouched

/-- The environment of one run. -/
structure World where
  newHome : Path
  /-- `legacy_sources` of `resolve_all_paths`. -/
  legacySources : List Path
  homeDir : Path
  servicePath : Path
  dryRun : Bool
  force : Bool
  /-- Which of the file operations fail. -/
  faults : ℕ → Option Damage
  /-- `datetime.now()` in the format of backups, and in that of migrated logs and tracks, when so
  many operations have been tried. -/
  backupStamp : ℕ → String
  migrationStamp : ℕ → String
  dirMtime : ℕ → Path → ℕ
  looksLikeMatrixCredentials : String → Bool
  yamlAvailable : Bool
  gpxDirectory : String → GpxEntry
  /-- The check at a time of the database whose files, by their suffixes, are given. -/
  integrityCheck : ℕ → (String → Option Node) → IntegrityCheck
  isMigrationNeeded : Fs → Bool
  isMmrelayRunning : Bool
  diskSpaceOk : Bool
  /-- `service_needs_update`; an exception is one of `read_text`. -/
  serviceNeedsUpdate : Fs → Except Err Bool
  /-- The text of `create_service_file`; `none` without a template. -/
  serviceContent : Option String

/-- The moments at which data can be lost, each with the file system before it. -/
inductive Event
  /-- A file is about to be copied, or a directory moved, to the backup path. -/
  | backup (fs : Fs) (path : Path)
  /-- The rollback is about to remove what is at the path. -/
  | rollbackRemoves (fs : Fs) (path : Path)
  /-- The rollback is about to remove the staging directory. -/
  | clearStaging (fs : Fs)
  /-- The service file is about to be written. -/
  | writeService (fs : Fs) (path : Path)
  /-- SQLite is about to leave the staged sidecar at the path like this. -/
  | leaveSidecar (fs : Fs) (path : Path) (left : Sidecar)

abbrev M := Prog Machine Event Err

namespace World

variable (w : World)

/-- `new_home / MIGRATION_STAGING_DIRNAME`. -/
def staging : Path := w.newHome ++ [migrationStagingDirname]

/-- `_get_staging_path`. -/
def getStagingPath (step : Step) : Path := w.staging ++ [step.name]

def lockFile : Path := w.newHome ++ [migrationLockFilename]

/-- The roots of a run; without other ones the new home itself, if it holds old data. -/
def legacyRoots (fs : Fs) : List Path :=
  if w.legacySources = [] then if w.isMigrationNeeded fs then [w.newHome] else []
  else w.legacySources

/-- `roots_to_scan`. -/
def rootsToScan (roots : List Path) : List Path :=
  if w.newHome ∈ roots then roots else roots ++ [w.newHome]

end World

/-- The last component. -/
def fileName (p : Path) : String := p.getLast?.getD ""

/-- `_dir_has_entries`. -/
def dirHasEntries (fs : Fs) (p : Path) : Bool := fs.isDir p && !(fs.children p).isEmpty

/-- `path.stat().st_mtime`. -/
def mtime (w : World) (tick : ℕ) (fs : Fs) (p : Path) : ℕ :=
  match fs.node p with
  | some (.file _ m) => m
  | some .dir => w.dirMtime tick p
  | none => 0

/-- `max(candidates, key=…)`: the first of the greatest. -/
def maxBy {α : Type} (key : α → ℕ) : List α → Option α
  | [] => none
  | a :: as =>
    match maxBy key as with
    | none => some a
    | some b => if key b ≤ key a then some a else some b

/-- `_backup_file`: the path of a new backup, in a directory that is created. -/
def backupFile (w : World) (srcPath : Path) (suffix : String) : M Path := do
  let tick ← getTick
  let backupDir := srcPath.dropLast ++ [migrationBackupDirname]
  mkdir w.faults backupDir
  pure (backupDir ++ [fileName srcPath ++ suffix ++ "." ++ w.backupStamp tick])

/-- Copy a file or a directory to a backup path. -/
def backupTo (w : World) (dest backupPath : Path) : M Unit := do
  let fs ← getFs
  if fs.isDir dest then copytree w.faults dest backupPath
  else do
    note fun fs => .backup fs backupPath
    copy2 w.faults dest backupPath

/-- A backup of a file or a directory; the answer is its path. -/
def backup (w : World) (dest : Path) : M Path := do
  let backupPath ← backupFile w dest ".bak"
  backupTo w dest backupPath
  pure backupPath

/-- A backup of a directory. -/
def backupDir (w : World) (dest : Path) : M Unit := do
  let backupPath ← backupFile w dest ".bak"
  copytree w.faults dest backupPath

/-- Remove a file or a directory. -/
def removeAny (w : World) (p : Path) : M Unit := do
  let fs ← getFs
  if fs.isDir p then rmtree w.faults p else unlink w.faults p

/-- The clean-up of a staging directory after a success. -/
def clearStagingDir (w : World) (stagingDir : Path) : M Unit :=
  whenFs (·.pathExists stagingDir) (rmtreeIgnore w.faults stagingDir)

/-- `_finalize_move`. -/
def finalizeMove (w : World) (stagingPath destPath : Path) : M Unit := do
  let fs ← getFs
  if fs.pathExists stagingPath = false then Prog.raise .osError
  else
    mkdir w.faults destPath.dropLast
    let fs ← getFs
    if fs.isFile stagingPath then
      whenFs (·.isDir destPath) (rmtree w.faults destPath)
      replace w.faults stagingPath destPath
    else
      whenFs (·.pathExists destPath) (removeAny w destPath)
      move w.faults stagingPath destPath

end MMRelay.Migrate
