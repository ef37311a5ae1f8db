import MMRelay.Migrate.Files

/-!
# The steps that move the files of a directory

`migrate_logs`, `migrate_gpxtracker` and `migrate_plugins` (`migrate.py`): the files or plugins of a
legacy directory are moved one by one into a staging directory, and its content from there to the
destination.

* `stageMatching`, `moveStaged`: the two loops of logs and tracks;
* `migrateLogs`, `migrateGpxtracker`;
* `stageItems`, `migratePluginTier`, `migratePlugins`.
-/

namespace MMRelay.Migrate

open FileOps

/-- The first root with an entry of this name. -/
def firstWith (fs : Fs) (name : String) (roots : List Path) : Option Path :=
  (roots.find? fun root => fs.pathExists (root ++ [name])).map fun root => root ++ [name]

/-- `glob("*.ext")`. -/
def matching (fs : Fs) (dir : Path) (ext : String) : List String :=
  (fs.children dir).filter fun name => ext.toList.isSuffixOf name.toList

/-- `Path.stem` of a name that ends with the extension. -/
def stem (name ext : String) : String :=
  if name = ext then name
  else String.ofList (name.toList.take (name.toList.length - ext.toList.length))

/-- The name of a migrated file. -/
def migratedName (name ext stamp : String) (idx : ℕ) : String :=
  stem name ext ++ "_migrated_" ++ stamp ++ "_" ++ toString idx ++ ext

/-- Move the matching files into the staging directory. -/
def stageMatching (w : World) (oldDir stagingDir : Path) (ext : String) : M ℕ := do
  let fs ← getFs
  let names := matching fs oldDir ext
  Prog.each names.zipIdx fun entry => do
    let tick ← getTick
    let newName := migratedName entry.1 ext (w.migrationStamp tick) entry.2
    move w.faults (oldDir ++ [entry.1]) (stagingDir ++ [newName])
  pure names.length

/-- Move what is in the staging directory to the destination. -/
def moveStaged (w : World) (stagingDir dest : Path) : M Unit := do
  mkdir w.faults dest
  let fs ← getFs
  Prog.each (fs.children stagingDir) fun name => do
    let finalDest := dest ++ [name]
    whenFs (·.pathExists finalDest) (unlink w.faults finalDest)
    move w.faults (stagingDir ++ [name]) finalDest

/-- Remove a directory that has become empty; failures are ignored. -/
def rmdirIfEmpty (w : World) (dir : Path) : M Unit :=
  whenFs (fun fs => fs.isDir dir && (fs.children dir).isEmpty) do
    let _ ← (rmdir w.faults dir : M Unit).attempt
    pure ()

/-! ## Logs -/

/-- `new_logs_dir`. -/
def World.newLogsDir (w : World) : Path := w.newHome ++ ["logs"]

/-- The part of `migrate_logs` that moves. -/
def moveLogs (w : World) (old dest : Path) : M ℕ := do
  let staging := w.getStagingPath .logs
  let count ← Prog.mapErr (fun _ => .migrationError .logs) do
    mkdir w.faults staging
    whenFs (·.pathExists dest) (backupDir w dest)
    let count ← stageMatching w old staging ".log"
    moveStaged w staging dest
    rmdirIfEmpty w old
    pure count
  clearStagingDir w staging
  pure count

/-- `migrate_logs`. -/
def migrateLogs (w : World) (roots : List Path) : M StepResult := do
  let fs ← getFs
  let dest := w.newLogsDir
  match firstWith fs "logs" roots with
  | none =>
    withoutCandidate dest (dirHasEntries fs dest) "No logs directory found in legacy locations"
  | some old =>
    if old = dest ∧ dirHasEntries fs old then
      pure { action := some .alreadyAtTarget, oldPath := some old, newPath := some dest
             message := "Logs already at target location" }
    else if dirHasEntries fs dest && !w.force then
      pure { action := some .skipForceRequired, oldPath := some old, newPath := some dest
             message := "Logs already exist at destination" }
    else if w.dryRun then
      pure { action := some .move, oldPath := some old, newPath := some dest, dryRun := true }
    else do
      let count ← moveLogs w old dest
      pure { action := some .move, oldPath := some old, newPath := some dest
             migratedCount := some count }

/-! ## Tracks -/

/-- `new_gpx_data_dir`. -/
def World.newGpxDataDir (w : World) : Path :=
  w.newHome ++ ["plugins", "community", "gpxtracker", "data"]

/-- The loop over the configurations: the first configured directory that exists, else the last
configured one. -/
def findGpxDir (w : World) (fs : Fs) (last : Option Path) : List Path → Except Err (Option Path)
  | [] => .ok last
  | root :: rest =>
    if w.yamlAvailable then
      match fs.node (root ++ [configFilename]) with
      | some (.file content _) =>
        match w.gpxDirectory content with
        | .absent => findGpxDir w fs last rest
        | .directory p => if fs.pathExists p then .ok (some p) else findGpxDir w fs (some p) rest
        | .yamlError => findGpxDir w fs last rest
        | .otherError => .error .uncaught
      | _ => findGpxDir w fs last rest
    else findGpxDir w fs last rest

/-- The backup of `migrate_gpxtracker`: only a directory with entries is backed up. -/
def backupEntries (w : World) (dest : Path) : M Unit := do
  let fs ← getFs
  if fs.isDir dest = false then Prog.raise .osError
  else if (fs.children dest).isEmpty then pure ()
  else backupDir w dest

/-- The part of `migrate_gpxtracker` that moves. -/
def moveGpx (w : World) (old dest : Path) : M ℕ := do
  let staging := w.getStagingPath .gpxtracker
  let count ← Prog.mapErr (fun _ => .migrationError .gpxtracker) do
    mkdir w.faults staging
    whenFs (·.pathExists dest) (backupEntries w dest)
    let count ← stageMatching w old staging ".gpx"
    whenFs (fun _ => count > 0) (moveStaged w staging dest)
    pure count
  clearStagingDir w staging
  pure count

/-- The answers of `migrate_gpxtracker` without a directory. -/
def withoutGpxDir (w : World) (fs : Fs) (dest : Path) : M StepResult :=
  if w.yamlAvailable = false then
    pure { action := some .scanSkippedPyyaml
           message := "gpxtracker scan skipped because PyYAML is unavailable" }
  else
    withoutCandidate dest (dirHasEntries fs dest)
      "gpxtracker plugin not configured with gpx_directory, skipping migration"

/-- `migrate_gpxtracker`. -/
def migrateGpxtracker (w : World) (roots : List Path) : M StepResult := do
  let fs ← getFs
  let dest := w.newGpxDataDir
  match findGpxDir w fs none (w.rootsToScan roots) with
  | .error e => Prog.raise e
  | .ok none => withoutGpxDir w fs dest
  | .ok (some old) =>
    if old = dest ∧ dirHasEntries fs old then
      pure { action := some .alreadyAtTarget, oldPath := some old, newPath := some dest
             migratedCount := some 0, message := "gpxtracker already at target location" }
    else if fs.pathExists old = false then withoutGpxDir w fs dest
    else if dirHasEntries fs dest && !w.force then
      pure { action := some .skipForceRequired, oldPath := some old, newPath := some dest
             message := "GPX tracker data directory already exists at destination" }
    else if w.dryRun then
      pure { action := some .move, oldPath := some old, newPath := some dest, dryRun := true }
    else do
      let count ← moveGpx w old dest
      pure { action := some .move, oldPath := some old, newPath := some dest
             migratedCount := some count }

/-! ## Plugins -/

/-- `new_plugins_dir`. -/
def World.newPluginsDir (w : World) : Path := w.newHome ++ ["plugins"]

/-- The loop of `_migrate_plugin_tier`: whether a plugin was moved, and what failed. A plugin that
is staged already is an error without `force`; a failed removal of it ends the loop. -/
def stageItems (w : World) (oldDir newDir : Path) : List String → M (Bool × List Path)
  | [] => pure (false, [])
  | item :: rest => do
    let fs ← getFs
    let src := oldDir ++ [item]
    let dest := newDir ++ [item]
    if fs.isDir src = false then stageItems w oldDir newDir rest
    else if fs.pathExists dest && !w.force then do
      let (migrated, errors) ← stageItems w oldDir newDir rest
      pure (migrated, dest :: errors)
    else do
      let cleared ← (whenFs (·.pathExists dest) (removeAny w dest)).attempt
      match cleared with
      | .error _ => pure (false, [oldDir])
      | .ok _ => do
        let moved ← (move w.faults src dest : M Unit).attempt
        let (migrated, errors) ← stageItems w oldDir newDir rest
        match moved with
        | .error _ => pure (migrated, src :: errors)
        | .ok _ => pure (true, errors)

/-- The plugins of a tier; one that is not a directory is an error. -/
def stageTier (w : World) (oldDir newDir : Path) : M (Bool × List Path) := do
  let fs ← getFs
  if fs.isDir oldDir then stageItems w oldDir newDir (fs.children oldDir)
  else pure (false, [oldDir])

/-- `_migrate_plugin_tier`. -/
def migratePluginTier (w : World) (oldDir newDir : Path) : M (Bool × List Path) := do
  let fs ← getFs
  if fs.pathExists oldDir = false then pure (false, [])
  else do
    let made ← (mkdir w.faults newDir : M Unit).attempt
    match made with
    | .error _ => pure (false, [newDir])
    | .ok _ => do
      let result ← stageTier w oldDir newDir
      rmdirIfEmpty w oldDir
      pure result

/-- The rest of the legacy directory becomes a backup; failures are ignored. -/
def retireOldPlugins (w : World) (old : Path) : M Unit :=
  whenFs (·.pathExists old) do
    let _ ← (do
      let backupPath ← backupFile w old "_pre_migration"
      note fun fs => .backup fs backupPath
      move w.faults old backupPath : M Unit).attempt
    pure ()

/-- The part of `migrate_plugins` that moves. -/
def movePlugins (w : World) (old dest : Path) : M (List String) := do
  let staging := w.getStagingPath .plugins
  let types ← Prog.mapErr (fun _ => .migrationError .plugins) do
    mkdir w.faults staging
    whenFs (·.pathExists dest) (backupDir w dest)
    let custom ← migratePluginTier w (old ++ ["custom"]) (staging ++ ["custom"])
    let community ← migratePluginTier w (old ++ ["community"]) (staging ++ ["community"])
    if (custom.2 ++ community.2).isEmpty = false then Prog.raise .osError
    else
      finalizeMove w staging dest
      retireOldPlugins w old
      pure ((if custom.1 then ["custom"] else []) ++ if community.1 then ["community"] else [])
  clearStagingDir w staging
  pure types

/-- `migrate_plugins`. -/
def migratePlugins (w : World) (roots : List Path) : M StepResult := do
  let fs ← getFs
  let dest := w.newPluginsDir
  match firstWith fs "plugins" roots with
  | none =>
    withoutCandidate dest (dirHasEntries fs dest) "No plugins directory found in legacy locations"
  | some old =>
    let hasPluginContent :=
      ["custom", "community", "core"].any fun tier => dirHasEntries fs (dest ++ [tier])
    if old = dest ∧ dirHasEntries fs old then
      pure { action := some .alreadyAtTarget, oldPath := some old, newPath := some dest
             message := "Plugins already at target location" }
    else if hasPluginContent && !w.force then
      pure { action := some .skipForceRequired, oldPath := some old, newPath := some dest
             message := "Plugins already at target location" }
    else if w.dryRun then
      pure { action := some .move, oldPath := some old, newPath := some dest, dryRun := true }
    else do
      let types ← movePlugins w old dest
      pure { action := some .move, oldPath := some old, newPath := some dest
             migratedTypes := types }

end MMRelay.Migrate
