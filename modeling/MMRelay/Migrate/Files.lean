import MMRelay.Migrate.Common

/-!
# The steps that move one file or directory

`migrate_credentials`, `migrate_config` and `migrate_store` (`migrate.py`): the first legacy
candidate is moved to its staging path and from there to the destination, of which a backup is made
before.

* `Scan`, `scanRoots`: the search for a candidate;
* `moveThroughStaging`: the common part of the first two steps;
* `migrateCredentials`, `migrateConfig`, `migrateStore`.
-/

namespace MMRelay.Migrate

open FileOps

/-- The outcome of the loop over the legacy roots. -/
inductive Scan
  | atTarget (candidate : Path)
  | found (candidate : Path)
  | missing
  deriving DecidableEq

/-- The loop over the legacy roots; a candidate that is the target itself ends it only if it is
`present`. -/
def scanRoots (fs : Fs) (target : Path) (name : String) (present : Path → Bool) :
    List Path → Scan
  | [] => .missing
  | root :: rest =>
    let candidate := root ++ [name]
    if candidate = target then
      if present candidate then .atTarget candidate else scanRoots fs target name present rest
    else if fs.pathExists candidate then .found candidate
    else scanRoots fs target name present rest

/-- Backup, staging and the final move of `migrate_credentials` and `migrate_config`. -/
def moveThroughStaging (w : World) (step : Step) (old dest : Path) : M Unit := do
  let staging := w.getStagingPath step
  Prog.mapErr (fun _ => .migrationError step) do
    mkdir w.faults staging.dropLast
    whenFs (·.pathExists dest) do
      let _ ← backup w dest
      pure ()
    whenFs (·.pathExists staging) (removeAny w staging)
    move w.faults old staging
    finalizeMove w staging dest
  -- the `finally` clause, after a success
  whenFs (·.pathExists staging) (unlink w.faults staging)

/-- The answer once a candidate is found, up to the step's own way of moving it. -/
def moveUnlessPresent (old dest : Path) (present force dryRun : Bool) (message : String)
    (act : M Unit) : M StepResult :=
  if present && !force then
    pure { action := some .skipForceRequired, oldPath := some old, newPath := some dest
           message := message }
  else if dryRun then
    pure { action := some .move, oldPath := some old, newPath := some dest, dryRun := true }
  else do
    act
    pure { action := some .move, oldPath := some old, newPath := some dest }

/-- The answers without a candidate. -/
def withoutCandidate (dest : Path) (present : Bool) (message : String) : M StepResult :=
  if present then
    pure { action := some .alreadyMigrated, newPath := some dest, message := "Already migrated" }
  else pure { action := some .notFound, message := message }

/-- `new_creds`. -/
def World.newCreds (w : World) : Path := w.newHome ++ [matrixDirname, credentialsFilename]

/-- `~/credentials.json`, if it has the keys of Matrix credentials. -/
def homeCredentials (w : World) (fs : Fs) : Option Path :=
  let candidate := w.homeDir ++ [credentialsFilename]
  match fs.node candidate with
  | some (.file c _) => if w.looksLikeMatrixCredentials c then some candidate else none
  | _ => none

/-- `migrate_credentials`. -/
def migrateCredentials (w : World) (roots : List Path) : M StepResult := do
  let fs ← getFs
  let dest := w.newCreds
  let found (old : Path) : M StepResult :=
    moveUnlessPresent old dest (fs.pathExists dest) w.force w.dryRun
      "Credentials already exist at destination" (moveThroughStaging w .credentials old dest)
  match scanRoots fs dest credentialsFilename fs.pathExists (w.rootsToScan roots) with
  | .atTarget candidate =>
    pure { action := some .alreadyAtTarget, oldPath := some candidate, newPath := some dest
           message := "Credentials already at target location" }
  | .found old => found old
  | .missing =>
    match homeCredentials w fs with
    | some old => found old
    | none =>
      withoutCandidate dest (fs.pathExists dest) "No credentials file found in legacy locations"

/-- `new_config`. -/
def World.newConfig (w : World) : Path := w.newHome ++ [configFilename]

/-- `migrate_config`. -/
def migrateConfig (w : World) (roots : List Path) : M StepResult := do
  let fs ← getFs
  let dest := w.newConfig
  match scanRoots fs dest configFilename fs.pathExists roots with
  | .atTarget candidate =>
    pure { action := some .alreadyAtTarget, oldPath := some candidate, newPath := some dest
           message := "Config already at target location" }
  | .found old =>
    moveUnlessPresent old dest (fs.pathExists dest) w.force w.dryRun
      "Config already exists at destination" (moveThroughStaging w .config old dest)
  | .missing =>
    withoutCandidate dest (fs.pathExists dest) "No config.yaml found in legacy locations"

/-- `new_store_dir`. -/
def World.newStoreDir (w : World) : Path := w.newHome ++ [matrixDirname, storeDirname]

/-- Backup, staging and the final move of `migrate_store`; the destination is always backed up as a
directory. -/
def moveStore (w : World) (old dest : Path) : M Unit := do
  let staging := w.getStagingPath .store
  mkdir w.faults staging.dropLast
  Prog.mapErr (fun _ => .migrationError .store) do
    whenFs (·.pathExists dest) (backupDir w dest)
    whenFs (·.pathExists staging) (rmtree w.faults staging)
    move w.faults old staging
    finalizeMove w staging dest
  clearStagingDir w staging

/-- `migrate_store`. -/
def migrateStore (w : World) (roots : List Path) : M StepResult := do
  let fs ← getFs
  let dest := w.newStoreDir
  match scanRoots fs dest storeDirname (dirHasEntries fs) (w.rootsToScan roots) with
  | .atTarget candidate =>
    pure { action := some .alreadyAtTarget, oldPath := some candidate, newPath := some dest
           message := "Store already at target location" }
  | .found old =>
    moveUnlessPresent old dest (dirHasEntries fs dest) w.force w.dryRun
      "Store directory already exists at destination" (moveStore w old dest)
  | .missing =>
    withoutCandidate dest (dirHasEntries fs dest)
      "No E2EE store directory found in legacy locations"

end MMRelay.Migrate
