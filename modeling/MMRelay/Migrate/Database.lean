import MMRelay.Migrate.Common

/-!
# The step that moves the database

`migrate_database` (`migrate.py`): of all legacy databases the group (main file and sidecars) that
was changed last is copied to the staging directory, checked, moved over the destination, and only
then deleted at its source.

* `getDbBasePath`, `collectDbSidecars`, `databaseCandidates`, `getMostRecentDatabase`,
  `selectGroup`: which files are moved;
* `backupTargets`, `stageGroup`, `verifyStaged`, `moveGroup`, `deleteSources`,
  `removeDestinationSidecars`, `placeGroup`, `moveDatabase`: how;
* `migrateDatabase`.
-/

namespace MMRelay.Migrate

open FileOps

/-- The names of a database and its sidecars. -/
def dbNames : List String :=
  databaseFilename :: sqliteSidecarSuffixes.map fun suffix => databaseFilename ++ suffix

/-- `_get_db_base_path` of a name. -/
def dbBaseName (name : String) : String :=
  match sqliteSidecarSuffixes.find? fun suffix => suffix.toList.isSuffixOf name.toList with
  | none => name
  | some suffix => String.ofList (name.toList.take (name.toList.length - suffix.toList.length))

/-- `_get_db_base_path`. -/
def getDbBasePath (p : Path) : Path := p.dropLast ++ [dbBaseName (fileName p)]

/-- `_collect_db_sidecars`. -/
def collectDbSidecars (fs : Fs) (db : Path) : List Path :=
  (sqliteSidecarSuffixes.map fun suffix => db.dropLast ++ [fileName db ++ suffix]).filter
    fs.pathExists

/-- The database and its sidecars, if it is there. -/
def dbWithSidecars (fs : Fs) (db : Path) : List Path :=
  if fs.pathExists db then db :: collectDbSidecars fs db else []

/-- `new_db_dir`. -/
def World.newDbDir (w : World) : Path := w.newHome ++ ["database"]

def World.newDb (w : World) : Path := w.newDbDir ++ [databaseFilename]

/-- The candidates of one root; an error is a database that is at the target already. A root where
the target turns up is not looked at any further. -/
def rootCandidates (w : World) (fs : Fs) (single : Bool) (root : Path) :
    Except Path (List Path) :=
  let legacyDb := root ++ [databaseFilename]
  let partialDb := root ++ ["data", databaseFilename]
  let legacyDirDb := root ++ ["database", databaseFilename]
  if legacyDb = w.newDb then
    if fs.pathExists legacyDb && single then .error legacyDb else .ok []
  else
    let first := dbWithSidecars fs legacyDb
    if fs.pathExists (root ++ ["data"]) ∧ partialDb = w.newDb then .ok first
    else
      let second :=
        if fs.pathExists (root ++ ["data"]) then first ++ dbWithSidecars fs partialDb else first
      if fs.pathExists (root ++ ["database"]) then
        if legacyDirDb = w.newDb then
          if fs.pathExists legacyDirDb && single then .error legacyDirDb else .ok second
        else .ok (second ++ dbWithSidecars fs legacyDirDb)
      else .ok second

/-- The loop over the roots. -/
def databaseCandidates (w : World) (fs : Fs) (single : Bool) :
    List Path → Except Path (List Path)
  | [] => .ok []
  | root :: rest => do
    let here ← rootCandidates w fs single root
    let later ← databaseCandidates w fs single rest
    pure (here ++ later)

/-- `_get_most_recent_database`. -/
def getMostRecentDatabase (w : World) (tick : ℕ) (fs : Fs) (candidates : List Path) :
    Option Path :=
  let present := candidates.filter fun p => fs.pathExists p && fs.pathExists (getDbBasePath p)
  let newest (base : Path) : ℕ :=
    ((present.filter fun p => getDbBasePath p = base).map (mtime w tick fs)).foldl max 0
  maxBy newest (present.map getDbBasePath)

/-- `selected_group`. -/
def selectGroup (fs : Fs) (candidates : List Path) (mostRecent : Path) : List Path :=
  let group := candidates.filter fun p => getDbBasePath p = mostRecent
  let group := if group.contains mostRecent then group else mostRecent :: group
  group ++ (collectDbSidecars fs mostRecent).filter fun p => !group.contains p

/-- The destination of a file of the group. -/
def World.dbDest (w : World) (p : Path) : Path := w.newDbDir ++ [fileName p]

/-- Its place in the staging directory. -/
def World.dbStaged (w : World) (p : Path) : Path := w.getStagingPath .database ++ [fileName p]

/-- `destination_group`. -/
def destinationGroup (w : World) (fs : Fs) : List Path := w.newDb :: collectDbSidecars fs w.newDb

/-- `destination_targets` without those that are sources, in the order of their names. -/
def destinationTargets (w : World) (fs : Fs) (group : List Path) : List Path :=
  ((group.map w.dbDest ++ destinationGroup w fs).dedup.insertionSort
    fun a b => fileName a ≤ fileName b).filter fun dest => !group.contains dest

/-- Back up the existing destination files. -/
def backupTargets (w : World) (targets : List Path) : M (List (Path × Path)) := do
  let backups ← Prog.collect targets fun dest => do
    let fs ← getFs
    if fs.pathExists dest then do
      let backupPath ← backup w dest
      pure [(backupPath, dest)]
    else pure []
  pure backups.flatten

/-- The files that are not at the target already. -/
def movedGroup (w : World) (group : List Path) : List Path :=
  group.filter fun p => p ≠ w.dbDest p

/-- Copy the group to the staging directory. -/
def stageGroup (w : World) (group : List Path) : M Unit :=
  Prog.each (movedGroup w group) fun p => copy2 w.faults p (w.dbStaged p)

/-- The staged file of the database with this suffix. -/
def World.stagedFile (w : World) (mostRecent : Path) (suffix : String) : Path :=
  w.getStagingPath .database ++ [fileName mostRecent ++ suffix]

/-- What is left of a file. -/
def Sidecar.leave (left : Sidecar) (p : Path) (m : ℕ) (fs : Fs) : Fs :=
  match left with
  | .untouched => fs
  | .removed => if fs.isFile p then fs.removeTree p else fs
  | .written content => fs.writeFile p content m

/-- Leave a staged sidecar. -/
def leaveSidecar (p : Path) (left : Sidecar) : M Unit := do
  let tick ← getTick
  note fun fs => .leaveSidecar fs p left
  change (left.leave p tick)

/-- The integrity check of the staged main file; anything but a file fails it. -/
def verifyStaged (w : World) (mostRecent : Path) : M Unit := do
  let fs ← getFs
  let tick ← getTick
  if fs.isFile (w.dbStaged mostRecent) then do
    let check := w.integrityCheck tick fun suffix => fs.node (w.stagedFile mostRecent suffix)
    leaveSidecar (w.stagedFile mostRecent "-wal") check.wal
    leaveSidecar (w.stagedFile mostRecent "-shm") check.shm
    if check.passed then pure () else Prog.raise (.migrationError .database)
  else Prog.raise (.migrationError .database)

/-- Move the staged group over the destination. -/
def moveGroup (w : World) (group : List Path) : M Unit := do
  mkdir w.faults w.newDbDir
  Prog.each (movedGroup w group) fun p => do
    whenFs (·.pathExists (w.dbDest p)) (unlink w.faults (w.dbDest p))
    move w.faults (w.dbStaged p) (w.dbDest p)

/-- Delete the sources; failures are ignored. -/
def deleteSources (w : World) (group : List Path) : M Unit :=
  Prog.each (movedGroup w group) fun p => do
    let _ ← (unlink w.faults p : M Unit).attempt
    pure ()

/-- Remove sidecars of the old destination that the group does not replace. -/
def removeDestinationSidecars (w : World) (destGroup : List Path) (sourceNames : List String) :
    M Unit :=
  Prog.each destGroup fun dest =>
    whenFs (fun fs => fs.pathExists dest && decide (fileName dest ∉ sourceNames)) (removeAny w dest)

/-- From the copies to the removal of what they replace. -/
def placeGroup (w : World) (mostRecent : Path) (group destGroup : List Path) : M Unit := do
  stageGroup w group
  verifyStaged w mostRecent
  moveGroup w group
  deleteSources w group
  removeDestinationSidecars w destGroup (group.map fileName)

/-- The part of `migrate_database` that moves: the backups and the migrated files. -/
def moveDatabase (w : World) (mostRecent : Path) (group : List Path) :
    M (List (Path × Path) × List Path) := do
  let staging := w.getStagingPath .database
  let result ← Prog.mapErr (fun _ => .migrationError .database) do
    mkdir w.faults staging
    let fs ← getFs
    let destGroup := destinationGroup w fs
    let backups ← backupTargets w (destinationTargets w fs group)
    placeGroup w mostRecent group destGroup
    let fs ← getFs
    let migrated := ((group.map w.dbDest).dedup.filter fs.pathExists).insertionSort
      fun a b => fileName a ≤ fileName b
    pure (backups, migrated)
  clearStagingDir w staging
  pure result

/-- `migrate_database`. -/
def migrateDatabase (w : World) (roots : List Path) : M StepResult := do
  let fs ← getFs
  let tick ← getTick
  match databaseCandidates w fs (roots.length = 1) roots with
  | .error db =>
    pure { action := some .alreadyAtTarget, oldPath := some db, newPath := some w.newDbDir
           message := "Database already at target location" }
  | .ok [] =>
    if fs.pathExists w.newDb then
      pure { action := some .alreadyMigrated, newPath := some w.newDbDir
             message := "Already migrated" }
    else
      pure { action := some .notFound, message := "No database files found in legacy locations" }
  | .ok candidates =>
    if fs.pathExists w.newDb && !w.force then
      pure { action := some .skipForceRequired, newPath := some w.newDbDir
             message := "Database already at target location" }
    else if w.dryRun then
      pure { action := some .move, newPath := some w.newDbDir, dryRun := true }
    else
      match getMostRecentDatabase w tick fs candidates with
      | none =>
        pure { success := false, message := "No valid database files found in legacy location" }
      | some mostRecent => do
        let (backups, migrated) ← moveDatabase w mostRecent (selectGroup fs candidates mostRecent)
        pure { action := some .move, oldPath := some mostRecent, newPath := some w.newDbDir
               backedUpFiles := backups, migratedFiles := migrated }

end MMRelay.Migrate
