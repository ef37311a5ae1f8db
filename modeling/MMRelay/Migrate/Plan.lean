import MMRelay.Migrate.Footprint

/-!
# What a step is about to do

The decision of each step before it acts, read off the file system. A dry run reports the decision
and changes nothing; a real run that succeeds reports it too, and changes nothing outside the trees
of the decision.

* `Plan`, `Plan.foretold`, `Plan.reported`, `Plan.trees`: a decision, what a dry and a real run
  report of it, and what it is going to change;
* `plan`: the decisions of the steps;
* `Obeys`, **`migrate_obeys`**: every step follows its decision.
-/

namespace MMRelay.Migrate

open FileOps

/-- A decision: an answer without an action, a move, an update of the service file, an exception. -/
inductive Plan
  | answer (action : Action)
  | act (sources : List Path) (dest : Path)
  | update
  | fail
  deriving DecidableEq

namespace Plan

/-- The action in the report of a dry run. -/
def foretold : Plan → Option Action
  | answer a => some a
  | act _ _ => some .move
  | update => some .update
  | fail => none

/-- The action in the report of a real run. -/
def reported : Plan → Option Action
  | answer a => some a
  | act _ _ => some .move
  | update => some .updated
  | fail => none

/-- The trees in which something may change. -/
def trees (w : World) (step : Step) : Plan → List Path
  | answer _ => []
  | act sources dest =>
    sources ++ [dest, w.getStagingPath step, backupsOf dest] ++
      if step = .plugins then sources.map backupsOf else []
  | update => [w.servicePath, backupsOf w.servicePath, w.homeDir ++ [".mmrelay", "logs"]]
  | fail => []

/-- Once there is a candidate. -/
def unlessPresent (old dest : Path) (present force : Bool) : Plan :=
  if present && !force then .answer .skipForceRequired else .act [old] dest

/-- Without a candidate. -/
def withoutCandidate (present : Bool) : Plan :=
  .answer (if present then .alreadyMigrated else .notFound)

end Plan

/-! ## The decisions -/

section Plans

variable (w : World) (roots : List Path) (fs : Fs)

def planCredentials : Plan :=
  match scanRoots fs w.newCreds credentialsFilename fs.pathExists (w.rootsToScan roots) with
  | .atTarget _ => .answer .alreadyAtTarget
  | .found old => .unlessPresent old w.newCreds (fs.pathExists w.newCreds) w.force
  | .missing =>
    match homeCredentials w fs with
    | some old => .unlessPresent old w.newCreds (fs.pathExists w.newCreds) w.force
    | none => .withoutCandidate (fs.pathExists w.newCreds)

def planConfig : Plan :=
  match scanRoots fs w.newConfig configFilename fs.pathExists roots with
  | .atTarget _ => .answer .alreadyAtTarget
  | .found old => .unlessPresent old w.newConfig (fs.pathExists w.newConfig) w.force
  | .missing => .withoutCandidate (fs.pathExists w.newConfig)

/-- The files that can be in the group of a candidate. -/
def groupFiles (p : Path) : List Path := dbNames.map fun n => p.dropLast ++ [n]

def planDatabase : Plan :=
  match databaseCandidates w fs (roots.length = 1) roots with
  | .error _ => .answer .alreadyAtTarget
  | .ok [] => .withoutCandidate (fs.pathExists w.newDb)
  | .ok candidates =>
    if fs.pathExists w.newDb && !w.force then .answer .skipForceRequired
    else .act (candidates.flatMap groupFiles) w.newDbDir

def planLogs : Plan :=
  match firstWith fs "logs" roots with
  | none => .withoutCandidate (dirHasEntries fs w.newLogsDir)
  | some old =>
    if old = w.newLogsDir ∧ dirHasEntries fs old then .answer .alreadyAtTarget
    else .unlessPresent old w.newLogsDir (dirHasEntries fs w.newLogsDir) w.force

def planStore : Plan :=
  match scanRoots fs w.newStoreDir storeDirname (dirHasEntries fs) (w.rootsToScan roots) with
  | .atTarget _ => .answer .alreadyAtTarget
  | .found old => .unlessPresent old w.newStoreDir (dirHasEntries fs w.newStoreDir) w.force
  | .missing => .withoutCandidate (dirHasEntries fs w.newStoreDir)

/-- `has_plugin_content`. -/
def hasPluginContent : Bool :=
  ["custom", "community", "core"].any fun tier => dirHasEntries fs (w.newPluginsDir ++ [tier])

def planPlugins : Plan :=
  match firstWith fs "plugins" roots with
  | none => .withoutCandidate (dirHasEntries fs w.newPluginsDir)
  | some old =>
    if old = w.newPluginsDir ∧ dirHasEntries fs old then .answer .alreadyAtTarget
    else .unlessPresent old w.newPluginsDir (hasPluginContent w fs) w.force

/-- The search of `findGpxDir`, from the configurations of the roots and the paths that exist. -/
def gpxDir (config : Path → Option Node) (there : Path → Bool) (last : Option Path) :
    List Path → Except Err (Option Path)
  | [] => .ok last
  | root :: rest =>
    if w.yamlAvailable then
      match config root with
      | some (.file content _) =>
        match w.gpxDirectory content with
        | .absent => gpxDir config there last rest
        | .directory p => if there p then .ok (some p) else gpxDir config there (some p) rest
        | .yamlError => gpxDir config there last rest
        | .otherError => .error .uncaught
      | _ => gpxDir config there last rest
    else gpxDir config there last rest

def withoutGpx (filled : Bool) : Plan :=
  if w.yamlAvailable = false then .answer .scanSkippedPyyaml else .withoutCandidate filled

/-- The decision about tracks, from the configurations of the roots, the paths that exist and
whether the destination has entries. -/
def gpxPlan (config : Path → Option Node) (there : Path → Bool) (filled : Bool) : Plan :=
  match gpxDir w config there none (w.rootsToScan roots) with
  | .error _ => .fail
  | .ok none => withoutGpx w filled
  | .ok (some old) =>
    if old = w.newGpxDataDir ∧ filled then .answer .alreadyAtTarget
    else if there old = false then withoutGpx w filled
    else .unlessPresent old w.newGpxDataDir filled w.force

def planGpxtracker : Plan :=
  gpxPlan w roots (fun root => fs.node (root ++ [configFilename])) fs.pathExists
    (dirHasEntries fs w.newGpxDataDir)

def planService : Plan :=
  if fs.pathExists w.servicePath = false then .answer .notFound
  else
    match w.serviceNeedsUpdate fs with
    | .error _ => .fail
    | .ok needsUpdate =>
      if needsUpdate = false ∧ w.force = false then .answer .alreadyUpToDate else .update

/-- The decision of a step. -/
def plan : Step → Plan
  | .credentials => planCredentials w roots fs
  | .config => planConfig w roots fs
  | .database => planDatabase w roots fs
  | .logs => planLogs w roots fs
  | .store => planStore w roots fs
  | .plugins => planPlugins w roots fs
  | .gpxtracker => planGpxtracker w roots fs
  | .service => planService w fs

end Plans

/-! ## Steps that follow a decision -/

variable {w : World} {roots : List Path} {step : Step} {s : Machine}

/-- From the state `s` the step follows the decision: a dry run reports it and changes nothing, a
real run that succeeds reports it, and changes nothing outside its trees. -/
structure Obeys (w : World) (step : Step) (p : Plan) (x : M StepResult) (s : Machine) : Prop where
  state : w.dryRun = true → (x s).state = s
  foretell : w.dryRun = true → p ≠ .fail →
    ∃ r, (x s).result = .ok r ∧ r.success = true ∧ r.action = p.foretold
  fail : p = .fail → ∃ e, (x s).result = .error e
  report : w.dryRun = false → ∀ r, (x s).result = .ok r → r.success = true →
    r.action = p.reported
  frame : ∀ T fs₀, (∀ t ∈ p.trees w step, Covers T fs₀ t) → Agree T fs₀ s.fs →
    Agree T fs₀ (x s).state.fs

namespace Obeys

theorem getFs {p : Plan} {f : Fs → M StepResult} (h : Obeys w step p (f s.fs) s) :
    Obeys w step p (FileOps.getFs >>= f) s :=
  ⟨h.state, h.foretell, h.fail, h.report, h.frame⟩

theorem getTick {p : Plan} {f : ℕ → M StepResult} (h : Obeys w step p (f s.tick) s) :
    Obeys w step p (FileOps.getTick >>= f) s :=
  ⟨h.state, h.foretell, h.fail, h.report, h.frame⟩

theorem answer {a : Action} {r : StepResult} (hs : r.success = true) (ha : r.action = some a) :
    Obeys w step (.answer a) (pure r) s where
  state _ := rfl
  foretell _ _ := ⟨r, rfl, hs, ha⟩
  fail := by
    intro h
    cases h
  report := by
    intro _ r' hr' _
    cases hr'
    exact ha
  frame _ _ _ h := h

theorem raise (e : Err) : Obeys w step .fail (Prog.raise e) s where
  state _ := rfl
  foretell _ h := absurd rfl h
  fail _ := ⟨e, rfl⟩
  report := by
    intro _ r hr
    cases hr
  frame _ _ _ h := h

theorem act {sources : List Path} {dest : Path} {r : StepResult} {x : M StepResult}
    (hs : r.success = true) (ha : r.action = some .move)
    (hx : ∀ r', (x s).result = .ok r' → r'.success = true → r'.action = some .move)
    (hframe : ∀ T fs₀, (∀ t ∈ (Plan.act sources dest).trees w step, Covers T fs₀ t) →
      Framed T fs₀ x) :
    Obeys w step (.act sources dest) (if w.dryRun then pure r else x) s := by
  have hmove : Plan.act sources dest = .fail → ∃ e, ((if w.dryRun then pure r else x : M _) s).result =
      .error e := by
    intro h
    cases h
  by_cases hdry : w.dryRun = true
  · rw [if_pos hdry] at hmove ⊢
    refine ⟨fun _ => rfl, fun _ _ => ⟨r, rfl, hs, ha⟩, hmove, fun hreal => ?_, fun _ _ _ h => h⟩
    exact absurd hdry (Bool.not_eq_true _ ▸ hreal)
  · rw [if_neg hdry] at hmove ⊢
    exact ⟨fun h => absurd h hdry, fun h => absurd h hdry, hmove, fun _ => hx,
      fun T fs₀ ht => (hframe T fs₀ ht).agree⟩

theorem moveUnlessPresent {old dest : Path} {present : Bool} {message : String} {act : M Unit}
    (hframe : ∀ T fs₀, (∀ t ∈ (Plan.act [old] dest).trees w step, Covers T fs₀ t) →
      Framed T fs₀ act) :
    Obeys w step (.unlessPresent old dest present w.force)
      (Migrate.moveUnlessPresent old dest present w.force w.dryRun message act) s := by
  unfold Plan.unlessPresent Migrate.moveUnlessPresent
  by_cases hskip : (present && !w.force) = true
  · rw [if_pos hskip, if_pos hskip]
    exact answer rfl rfl
  · rw [if_neg hskip, if_neg hskip]
    refine Obeys.act rfl rfl (fun r hr _ => ?_) fun T fs₀ ht =>
      Framed.bind (hframe T fs₀ ht) fun _ => Framed.pure _
    obtain ⟨u, -, hr⟩ := Prog.bind_eq_ok.mp hr
    cases hr
    rfl

theorem withoutCandidate {dest : Path} {present : Bool} {message : String} :
    Obeys w step (.withoutCandidate present) (Migrate.withoutCandidate dest present message) s := by
  unfold Plan.withoutCandidate Migrate.withoutCandidate
  split_ifs
  · exact answer rfl rfl
  · exact answer rfl rfl

end Obeys

/-! ## The steps -/

section Steps

variable {T : Path → Prop} {fs₀ : Fs} {old dest : Path}

theorem covers_of_act {sources : List Path}
    (ht : ∀ t ∈ (Plan.act sources dest).trees w step, Covers T fs₀ t) :
    (∀ t ∈ sources, Covers T fs₀ t) ∧ Covers T fs₀ dest ∧
      Covers T fs₀ (w.getStagingPath step) ∧ CoversBackups T fs₀ dest := by
  refine ⟨fun t hmem => ht t ?_, ht _ ?_, ht _ ?_, Covers.backups (ht _ ?_)⟩ <;>
    simp_all [Plan.trees]

theorem moveThroughStaging_obeys {present : Bool} {message : String} :
    Obeys w step (.unlessPresent old dest present w.force)
      (moveUnlessPresent old dest present w.force w.dryRun message
        (moveThroughStaging w step old dest)) s := by
  refine Obeys.moveUnlessPresent fun T fs₀ ht => ?_
  obtain ⟨ho, hd, hs, hb⟩ := covers_of_act ht
  exact moveThroughStaging_framed (ho old List.mem_cons_self) hd hs hb

theorem migrateCredentials_obeys :
    Obeys w .credentials (planCredentials w roots s.fs) (migrateCredentials w roots) s := by
  refine Obeys.getFs ?_
  unfold planCredentials
  dsimp only
  cases scanRoots s.fs w.newCreds credentialsFilename s.fs.pathExists (w.rootsToScan roots) with
  | atTarget candidate => exact Obeys.answer rfl rfl
  | found old => exact moveThroughStaging_obeys
  | missing =>
    dsimp only
    cases homeCredentials w s.fs with
    | some old => exact moveThroughStaging_obeys
    | none => exact Obeys.withoutCandidate

theorem migrateConfig_obeys :
    Obeys w .config (planConfig w roots s.fs) (migrateConfig w roots) s := by
  refine Obeys.getFs ?_
  unfold planConfig
  dsimp only
  cases scanRoots s.fs w.newConfig configFilename s.fs.pathExists roots with
  | atTarget candidate => exact Obeys.answer rfl rfl
  | found old => exact moveThroughStaging_obeys
  | missing => exact Obeys.withoutCandidate

theorem migrateStore_obeys :
    Obeys w .store (planStore w roots s.fs) (migrateStore w roots) s := by
  refine Obeys.getFs ?_
  unfold planStore
  dsimp only
  cases scanRoots s.fs w.newStoreDir storeDirname (dirHasEntries s.fs) (w.rootsToScan roots) with
  | atTarget candidate => exact Obeys.answer rfl rfl
  | found old =>
    refine Obeys.moveUnlessPresent fun T fs₀ ht => ?_
    obtain ⟨ho, hd, hs, hb⟩ := covers_of_act ht
    exact moveStore_framed (ho old List.mem_cons_self) hd hs hb
  | missing => exact Obeys.withoutCandidate

theorem Obeys.counted {α : Type} {present : Bool} {skipped foretold : StepResult} {x : M α}
    {done : α → StepResult} (hskip : skipped.success = true ∧ skipped.action = some .skipForceRequired)
    (hdry : foretold.success = true ∧ foretold.action = some .move)
    (hdone : ∀ a, (done a).action = some .move)
    (hframe : ∀ T fs₀, (∀ t ∈ (Plan.act [old] dest).trees w step, Covers T fs₀ t) →
      Framed T fs₀ x) :
    Obeys w step (.unlessPresent old dest present w.force)
      (if present && !w.force then pure skipped
        else if w.dryRun then pure foretold else do
          let a ← x
          pure (done a)) s := by
  unfold Plan.unlessPresent
  by_cases h : (present && !w.force) = true
  · rw [if_pos h, if_pos h]
    exact Obeys.answer hskip.1 hskip.2
  · rw [if_neg h, if_neg h]
    refine Obeys.act hdry.1 hdry.2 (fun r hr _ => ?_) fun T fs₀ ht =>
      Framed.bind (hframe T fs₀ ht) fun _ => Framed.pure _
    obtain ⟨a, -, hr⟩ := Prog.bind_eq_ok.mp hr
    cases hr
    exact hdone a

theorem migrateLogs_obeys :
    Obeys w .logs (planLogs w roots s.fs) (migrateLogs w roots) s := by
  refine Obeys.getFs ?_
  unfold planLogs
  dsimp only
  cases firstWith s.fs "logs" roots with
  | none => exact Obeys.withoutCandidate
  | some old =>
    dsimp only
    by_cases hat : old = w.newLogsDir ∧ dirHasEntries s.fs old = true
    · rw [if_pos hat, if_pos hat]
      exact Obeys.answer rfl rfl
    · rw [if_neg hat, if_neg hat]
      refine Obeys.counted ⟨rfl, rfl⟩ ⟨rfl, rfl⟩ (fun _ => rfl) fun T fs₀ ht => ?_
      obtain ⟨ho, hd, hs, hb⟩ := covers_of_act ht
      exact moveLogs_framed (ho old List.mem_cons_self) hd hs hb

theorem migratePlugins_obeys :
    Obeys w .plugins (planPlugins w roots s.fs) (migratePlugins w roots) s := by
  refine Obeys.getFs ?_
  unfold planPlugins
  dsimp only
  cases firstWith s.fs "plugins" roots with
  | none => exact Obeys.withoutCandidate
  | some old =>
    dsimp only
    by_cases hat : old = w.newPluginsDir ∧ dirHasEntries s.fs old = true
    · rw [if_pos hat, if_pos hat]
      exact Obeys.answer rfl rfl
    · rw [if_neg hat, if_neg hat]
      refine Obeys.counted ⟨rfl, rfl⟩ ⟨rfl, rfl⟩ (fun _ => rfl) fun T fs₀ ht => ?_
      obtain ⟨ho, hd, hs, hb⟩ := covers_of_act ht
      refine movePlugins_framed (ho old List.mem_cons_self) hd hs hb (Covers.backups (ht _ ?_))
      simp [Plan.trees]

theorem findGpxDir_eq (fs : Fs) (last : Option Path) (rs : List Path) :
    findGpxDir w fs last rs =
      gpxDir w (fun root => fs.node (root ++ [configFilename])) fs.pathExists last rs := by
  induction rs generalizing last with
  | nil => rfl
  | cons root rest ih =>
    unfold findGpxDir gpxDir
    by_cases hyaml : w.yamlAvailable = true
    · rw [if_pos hyaml, if_pos hyaml]
      cases fs.node (root ++ [configFilename]) with
      | none => exact ih last
      | some node =>
        cases node with
        | dir => exact ih last
        | file content _ =>
          dsimp only
          cases w.gpxDirectory content with
          | absent => exact ih last
          | directory p =>
            dsimp only
            split_ifs
            · rfl
            · exact ih (some p)
          | yamlError => exact ih last
          | otherError => rfl
    · rw [if_neg hyaml, if_neg hyaml]
      exact ih last

theorem withoutGpxDir_obeys :
    Obeys w step (withoutGpx w (dirHasEntries s.fs dest)) (withoutGpxDir w s.fs dest) s := by
  unfold withoutGpx withoutGpxDir
  by_cases hyaml : w.yamlAvailable = false
  · rw [if_pos hyaml, if_pos hyaml]
    exact Obeys.answer rfl rfl
  · rw [if_neg hyaml, if_neg hyaml]
    exact Obeys.withoutCandidate

theorem migrateGpxtracker_obeys :
    Obeys w .gpxtracker (planGpxtracker w roots s.fs) (migrateGpxtracker w roots) s := by
  refine Obeys.getFs ?_
  unfold planGpxtracker gpxPlan
  dsimp only
  rw [findGpxDir_eq]
  cases gpxDir w (fun root => s.fs.node (root ++ [configFilename])) s.fs.pathExists none
      (w.rootsToScan roots) with
  | error e => exact Obeys.raise e
  | ok found =>
    cases found with
    | none => exact withoutGpxDir_obeys
    | some old =>
      dsimp only
      have hiff : old = w.newGpxDataDir ∧ dirHasEntries s.fs old = true ↔
          old = w.newGpxDataDir ∧ dirHasEntries s.fs w.newGpxDataDir = true :=
        and_congr_right fun heq => by rw [heq]
      simp only [hiff]
      by_cases hat : old = w.newGpxDataDir ∧ dirHasEntries s.fs w.newGpxDataDir = true
      · rw [if_pos hat, if_pos hat]
        exact Obeys.answer rfl rfl
      rw [if_neg hat, if_neg hat]
      by_cases hgone : s.fs.pathExists old = false
      · rw [if_pos hgone, if_pos hgone]
        exact withoutGpxDir_obeys
      rw [if_neg hgone, if_neg hgone]
      refine Obeys.counted ⟨rfl, rfl⟩ ⟨rfl, rfl⟩ (fun _ => rfl) fun T fs₀ ht => ?_
      obtain ⟨ho, hd, hs, hb⟩ := covers_of_act ht
      exact moveGpx_framed (ho old List.mem_cons_self) hd hs hb

theorem selectGroup_covered {candidates : List Path} {mostRecent : Path} {tick : ℕ} {fs : Fs}
    (hc : ∀ p ∈ candidates, ∃ dir, ∃ n ∈ dbNames, p = dir ++ [n])
    (hmost : getMostRecentDatabase w tick fs candidates = some mostRecent)
    (hsrc : ∀ t ∈ candidates.flatMap groupFiles, Covers T fs₀ t) :
    ∃ dir, InGroup (selectGroup fs candidates mostRecent) dir ∧
      ∀ n ∈ dbNames, Covers T fs₀ (dir ++ [n]) := by
  obtain ⟨p, hp, rfl⟩ := List.mem_map.mp (maxBy_mem hmost)
  have hmem := List.mem_of_mem_filter hp
  obtain ⟨dir, n, hn, rfl⟩ := hc p hmem
  refine ⟨dir, ?_, fun n' hn' => hsrc _ (List.mem_flatMap.mpr ⟨_, hmem, ?_⟩)⟩
  · rw [getDbBasePath_concat hn]
    exact selectGroup_inGroup hc
  · exact List.mem_map.mpr ⟨n', hn', by rw [List.dropLast_concat]⟩

theorem migrateDatabase_obeys :
    Obeys w .database (planDatabase w roots s.fs) (migrateDatabase w roots) s := by
  refine Obeys.getFs (Obeys.getTick ?_)
  unfold planDatabase
  dsimp only
  cases hcand : databaseCandidates w s.fs (roots.length = 1) roots with
  | error db => exact Obeys.answer rfl rfl
  | ok candidates =>
    cases candidates with
    | nil =>
      unfold Plan.withoutCandidate
      dsimp only
      split_ifs
      · exact Obeys.answer rfl rfl
      · exact Obeys.answer rfl rfl
    | cons c cs =>
      dsimp only
      by_cases hskip : (s.fs.pathExists w.newDb && !w.force) = true
      · rw [if_pos hskip, if_pos hskip]
        exact Obeys.answer rfl rfl
      rw [if_neg hskip, if_neg hskip]
      refine Obeys.act rfl rfl ?_ fun T fs₀ ht => ?_
      · cases getMostRecentDatabase w s.tick s.fs (c :: cs) with
        | none =>
          intro r hr hsuccess
          cases hr
          cases hsuccess
        | some mostRecent =>
          intro r hr _
          obtain ⟨a, -, hr⟩ := Prog.bind_eq_ok.mp hr
          cases hr
          rfl
      · obtain ⟨ho, hd, hs, hb⟩ := covers_of_act ht
        cases hmost : getMostRecentDatabase w s.tick s.fs (c :: cs) with
        | none => exact Framed.pure _
        | some mostRecent =>
          obtain ⟨dir, hg, hsrc⟩ := selectGroup_covered (databaseCandidates_mem hcand) hmost ho
          exact Framed.bind (moveDatabase_framed hg hsrc hd hs) fun _ => Framed.pure _

theorem migrateService_obeys : Obeys w .service (planService w s.fs) (migrateService w) s := by
  refine Obeys.getFs ?_
  unfold planService
  by_cases hnone : s.fs.pathExists w.servicePath = false
  · rw [if_pos hnone, if_pos hnone]
    exact Obeys.answer rfl rfl
  rw [if_neg hnone, if_neg hnone]
  cases w.serviceNeedsUpdate s.fs with
  | error e => exact Obeys.raise e
  | ok needsUpdate =>
  dsimp only
  by_cases hfresh : needsUpdate = false ∧ w.force = false
  · rw [if_pos hfresh, if_pos hfresh]
    exact Obeys.answer rfl rfl
  rw [if_neg hfresh, if_neg hfresh]
  by_cases hdry : w.dryRun = true
  · rw [if_pos hdry]
    refine ⟨fun _ => rfl, fun _ _ => ⟨_, rfl, rfl, rfl⟩, fun h => ?_, fun hreal => ?_,
      fun _ _ _ h => h⟩
    · cases h
    · exact absurd hdry (Bool.not_eq_true _ ▸ hreal)
  rw [if_neg hdry]
  refine ⟨fun h => absurd h hdry, fun h => absurd h hdry, fun h => ?_, fun _ r hr hsuccess => ?_,
    fun T fs₀ ht => Framed.agree ?_⟩
  · cases h
  · obtain ⟨b, -, hr⟩ := Prog.bind_eq_ok.mp hr
    obtain ⟨created, -, hr⟩ := Prog.bind_eq_ok.mp hr
    cases created
    · cases hr
      cases hsuccess
    · cases hr
      rfl
  · refine backupFile_framed (Covers.backups (ht _ (by simp [Plan.trees])) |>.named _) fun b _ => ?_
    have hp : Covers T fs₀ w.servicePath := ht _ (by simp [Plan.trees])
    have hl : Covers T fs₀ (w.homeDir ++ [".mmrelay", "logs"]) := ht _ (by simp [Plan.trees])
    refine Framed.bind (createServiceFile_framed (hp.below _ List.prefix_rfl) hp.above hl.above)
      fun created => ?_
    exact Framed.ite (Framed.pure _) (Framed.pure _)

/-- **Every step** follows its decision. -/
theorem migrate_obeys (w : World) (roots : List Path) (step : Step) (s : Machine) :
    Obeys w step (plan w roots s.fs step) (migrate w roots step) s := by
  cases step with
  | credentials => exact migrateCredentials_obeys
  | config => exact migrateConfig_obeys
  | database => exact migrateDatabase_obeys
  | logs => exact migrateLogs_obeys
  | store => exact migrateStore_obeys
  | plugins => exact migratePlugins_obeys
  | gpxtracker => exact migrateGpxtracker_obeys
  | service => exact migrateService_obeys

end Steps

end MMRelay.Migrate
