import MMRelay.Migrate.Collections
import MMRelay.Migrate.Database

/-!
# Runs of the migration

`migrate_service`, `perform_migration` and `rollback_migration` (`migrate.py`): the eight steps in
their order, and the rollback of the completed ones after a failure.

* `migrateService`, `migrate`, `runSteps`;
* `findBackupForStep`, `restoreFromBackup`, `rollbackStep`, `rollbackMigration`;
* `Report`, `performMigration`, `performOn`.
-/

namespace MMRelay.Migrate

open FileOps

/-! ## The service file -/

/-- `create_service_file`: the directories and the unit file; an exception is an answer `False`
only in the last write. -/
def createServiceFile (w : World) : M Bool := do
  mkdir w.faults w.servicePath.dropLast
  mkdir w.faults (w.homeDir ++ [".mmrelay", "logs"])
  match w.serviceContent with
  | none => pure false
  | some text => do
    let tick ← getTick
    note fun fs => .writeService fs w.servicePath
    let written ← (writeText w.faults w.servicePath text tick : M Unit).attempt
    match written with
    | .ok _ => pure true
    | .error _ => pure false

/-- `migrate_service`. The path of a backup is chosen, but nothing is copied to it. -/
def migrateService (w : World) : M StepResult := do
  let fs ← getFs
  if fs.pathExists w.servicePath = false then
    pure { action := some .notFound, message := "No existing service file to migrate" }
  else
    match w.serviceNeedsUpdate fs with
    | .error e => Prog.raise e
    | .ok needsUpdate =>
      if needsUpdate = false ∧ w.force = false then
        pure { action := some .alreadyUpToDate, message := "Service file is up to date" }
      else if w.dryRun then
        pure { action := some .update, dryRun := true, message := "Would update service file" }
      else do
        let _ ← backupFile w w.servicePath ".service"
        let created ← createServiceFile w
        if created then pure { action := some .updated, message := "Service file updated" }
        else
          pure { success := false, action := some .error
                 message := "Failed to create/update service file" }

/-! ## The steps -/

def steps : List Step :=
  [.credentials, .config, .database, .logs, .store, .plugins, .gpxtracker, .service]

/-- The function of a step. -/
def migrate (w : World) (roots : List Path) : Step → M StepResult
  | .credentials => migrateCredentials w roots
  | .config => migrateConfig w roots
  | .database => migrateDatabase w roots
  | .logs => migrateLogs w roots
  | .store => migrateStore w roots
  | .plugins => migratePlugins w roots
  | .gpxtracker => migrateGpxtracker w roots
  | .service => migrateService w

/-- `completed_steps` and `report["migrations"]`. -/
structure Progress where
  completed : List Step := []
  migrations : List (Step × StepResult) := []
  deriving DecidableEq

/-- `_run_step` for one step after the other, up to the first failure: an exception, or a result
without success, which is recorded all the same. -/
def runSteps (w : World) (roots : List Path) (progress : Progress) :
    List Step → M (Progress × Option Err)
  | [] => pure (progress, none)
  | step :: rest => do
    let result ← (migrate w roots step).attempt
    match result with
    | .ok r =>
      let migrations := progress.migrations ++ [(step, r)]
      if r.success then runSteps w roots ⟨progress.completed ++ [step], migrations⟩ rest
      else pure ({ progress with migrations := migrations }, some (.migrationError step))
    | .error e =>
      pure ({ progress with
              migrations := progress.migrations ++ [(step, { success := false })] }, some e)

/-! ## Rollback -/

/-- The entries of a backup directory that begin with the name. -/
def backupCandidates (fs : Fs) (dir : Path) (name : String) : List Path :=
  ((fs.children dir).filter fun n => name.toList.isPrefixOf n.toList).map fun n => dir ++ [n]

/-- The loop of `find_backup_for_step`; a backup directory that is a file is an error. -/
def findBackupIn (w : World) (tick : ℕ) (fs : Fs) (name : String) :
    List Path → Except Err (Option Path)
  | [] => .ok none
  | dir :: rest =>
    if fs.pathExists dir = false then findBackupIn w tick fs name rest
    else if fs.isDir dir = false then .error .osError
    else if (backupCandidates fs dir name).isEmpty then findBackupIn w tick fs name rest
    else .ok (maxBy (mtime w tick fs) (backupCandidates fs dir name))

/-- `find_backup_for_step`. -/
def findBackupForStep (w : World) (tick : ℕ) (fs : Fs) (dest : Path) : Except Err (Option Path) :=
  findBackupIn w tick fs (fileName dest)
    [dest.dropLast ++ [migrationBackupDirname], w.newHome ++ [migrationBackupDirname]]

/-- `restore_from_backup`. -/
def restoreFromBackup (w : World) (backupPath restorePath : Path) : M Bool := do
  let restored ← (do
    mkdir w.faults restorePath.dropLast
    whenFs (·.pathExists restorePath) do
      note fun fs => .rollbackRemoves fs restorePath
      removeAny w restorePath
    let fs ← getFs
    if fs.isDir backupPath then copytree w.faults backupPath restorePath
    else copy2 w.faults backupPath restorePath : M Unit).attempt
  match restored with
  | .ok _ => pure true
  | .error _ => pure false

/-- Restore each backed-up file; the answer is whether all were restored. -/
def restoreAll (w : World) (backups : List (Path × Path)) : M Bool := do
  let restored ← Prog.collect backups fun b => restoreFromBackup w b.1 b.2
  pure (restored.all id)

/-- Remove the migrated files that had no predecessor; the answer is whether all were removed. -/
def removeUnbacked (w : World) (backups : List (Path × Path)) (migrated : List Path) : M Bool := do
  let removed ← Prog.collect migrated fun p => do
    let fs ← getFs
    if (backups.map Prod.snd).contains p || !fs.pathExists p then pure true
    else do
      note fun fs => .rollbackRemoves fs p
      let removed ← (removeAny w p).attempt
      match removed with
      | .ok _ => pure true
      | .error _ => pure false
  pure (removed.all id)

/-- Only sidecars of the database were backed up. -/
def onlySidecars (backups : List (Path × Path)) : Bool :=
  let paths := backups.map Prod.snd
  decide (databaseFilename ∉ paths.map fileName) &&
    decide (databaseFilename ∈ paths.map fun p => fileName (getDbBasePath p))

/-- One turn of the loop of `rollback_migration`; the answer is whether it had no error. -/
def rollbackStep (w : World) (step : Step) (r : StepResult) : M Bool :=
  match r.newPath with
  | none => pure true
  | some newPath =>
    if r.action ∈ [some .alreadyAtTarget, some .alreadyMigrated, some .notFound,
        some .skipForceRequired] then pure true
    else if r.backedUpFiles.isEmpty = false then do
      let all ← restoreAll w r.backedUpFiles
      if r.migratedFiles.isEmpty || !all || (step = .database && onlySidecars r.backedUpFiles) then
        pure all
      else removeUnbacked w r.backedUpFiles r.migratedFiles
    else do
      let fs ← getFs
      let tick ← getTick
      match findBackupForStep w tick fs newPath with
      | .error _ => pure false
      | .ok none => pure true
      | .ok (some backup) => restoreFromBackup w backup newPath

/-- `rollback_migration`; the answer is the `success` of its report. -/
def rollbackMigration (w : World) (progress : Progress) : M Bool := do
  let undone ← Prog.collect progress.completed.reverse fun step =>
    match progress.migrations.find? fun m => m.1 = step with
    | none => (pure true : M Bool)
    | some m => rollbackStep w step m.2
  let success := undone.all id
  whenFs (fun fs => success && fs.pathExists w.staging) do
    note .clearStaging
    rmtreeIgnore w.faults w.staging
  pure success

/-! ## A run -/

/-- The report of `perform_migration`. -/
structure Report where
  success : Bool
  progress : Progress := {}
  error : Option Err := none
  rollback : Option Bool := none
  message : String
  deriving DecidableEq

/-- Release the lock; failures are ignored. -/
def releaseLock (w : World) : M Unit :=
  whenFs (·.pathExists w.lockFile) do
    let _ ← (unlink w.faults w.lockFile : M Unit).attempt
    pure ()

/-- The steps, and after a failure the rollback; an exception that is not caught leaves at once. -/
def runAll (w : World) (roots : List Path) : M Report := do
  let (progress, failure) ← runSteps w roots {} steps
  match failure with
  | none =>
    pure { success := true, progress := progress
           message := if w.dryRun then "Dry run complete - no changes made"
             else "Migration completed successfully" }
  | some .uncaught => Prog.raise .uncaught
  | some e =>
    let report : Report :=
      { success := false, progress := progress, error := some e, message := "Migration failed" }
    if progress.completed.isEmpty = false ∧ w.dryRun = false then do
      let undone ← rollbackMigration w progress
      pure { report with rollback := some undone }
    else pure report

/-- `perform_migration` from the lock on. -/
def performLocked (w : World) (roots : List Path) : M Report := do
  let fs ← getFs
  if fs.pathExists w.lockFile then
    pure { success := false, message := "Another migration appears to be in progress" }
  else do
    let tick ← getTick
    let _ ← (writeText w.faults w.lockFile "" tick : M Unit).attempt
    let report ← runAll w roots
    releaseLock w
    pure report

/-- `perform_migration`. -/
def performMigration (w : World) : M Report := do
  let fs ← getFs
  let roots := w.legacyRoots fs
  if roots = [] then pure { success := true, message := "No legacy installation detected" }
  else if w.dryRun then runAll w roots
  else if w.isMmrelayRunning ∧ w.force = false then
    pure { success := false, message := "MMRelay appears to be running" }
  else if w.diskSpaceOk = false then
    pure { success := false, message := "Insufficient disk space for migration" }
  else do
    let made ← (mkdir w.faults w.newHome : M Unit).attempt
    match made with
    | .error _ => pure { success := false, message := "Failed to create new home directory" }
    | .ok _ => performLocked w roots

end MMRelay.Migrate
