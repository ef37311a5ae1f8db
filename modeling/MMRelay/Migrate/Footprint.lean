import MMRelay.Lib.Frame
import MMRelay.Migrate.KeepDatabase
import MMRelay.Migrate.Perform

/-!
# What a step can change

Frames of the acting parts of the steps: outside the trees of its source, its destination, its
staging path and the backups, a step changes nothing but missing directories that it creates above
them.

* `finalizeMove_framed`, `backup_framed`: the common functions;
* **`moveThroughStaging_framed`**, `moveStore_framed`, `moveLogs_framed`, `moveGpx_framed`,
  **`movePlugins_framed`**, **`moveDatabase_framed`**, `createServiceFile_framed`.
-/

namespace MMRelay.Migrate

open FileOps

variable {w : World} {T : Path → Prop} {fs₀ : Fs} {p old dest staged : Path}

/-! ## The common functions -/

theorem removeAny_framed (hp : Covers T fs₀ p) : Framed T fs₀ (removeAny w p) :=
  Framed.read fun _ => Framed.ite (Framed.rmtree hp.below) (Framed.unlink hp.below)

theorem clearStagingDir_framed (hp : Covers T fs₀ p) : Framed T fs₀ (clearStagingDir w p) :=
  Framed.whenFs (Framed.rmtreeIgnore hp.below)

theorem rmdirIfEmpty_framed (hp : Covers T fs₀ p) : Framed T fs₀ (rmdirIfEmpty w p) :=
  Framed.whenFs (Framed.bind (Framed.attempt (Framed.rmdir hp.below)) fun _ => Framed.pure ())

/-- The region holds every backup of the path. -/
def CoversBackups (T : Path → Prop) (fs₀ : Fs) (dest : Path) : Prop :=
  ∀ x, Covers T fs₀ (backupsOf dest ++ [fileName dest ++ x])

theorem Covers.backups (h : Covers T fs₀ (backupsOf dest)) : CoversBackups T fs₀ dest :=
  fun _ => h.mono (List.prefix_append _ _)

/-- A new backup is among the backups with its suffix. -/
theorem backupFile_framed {suffix : String} {α : Type} {f : Path → M α}
    (hb : ∀ x, Covers T fs₀ (backupsOf dest ++ [fileName dest ++ suffix ++ "." ++ x]))
    (hf : ∀ b, Covers T fs₀ b → Framed T fs₀ (f b)) :
    Framed T fs₀ (backupFile w dest suffix >>= f) := by
  refine FsSpec.bind (backupFile_spec (Framed.mkdir ((hb "").parents (List.prefix_append _ _))))
    fun b => ?_
  exact FsSpec.fact fun ⟨s, hs⟩ => hf b (hs ▸ hb s)

theorem CoversBackups.named (hb : CoversBackups T fs₀ dest) (suffix x : String) :
    Covers T fs₀ (backupsOf dest ++ [fileName dest ++ suffix ++ "." ++ x]) := by
  rw [String.append_assoc, String.append_assoc]
  exact hb _

theorem copytree_framed {src : Path} (hp : Covers T fs₀ p) :
    Framed T fs₀ (copytree w.faults src p : M Unit) :=
  Framed.copytree hp.below (hp.parents (List.dropLast_prefix p))

theorem backupDir_framed (hb : CoversBackups T fs₀ dest) : Framed T fs₀ (backupDir w dest) :=
  backupFile_framed (hb.named _) fun _ hc => copytree_framed hc

theorem backup_framed
    (hb : ∀ x, Covers T fs₀ (backupsOf dest ++ [fileName dest ++ ".bak" ++ "." ++ x])) :
    Framed T fs₀ (backup w dest) := by
  refine backupFile_framed hb fun b hc => Framed.bind ?_ fun _ => Framed.pure b
  refine Framed.read fun fs => Framed.ite (copytree_framed hc) ?_
  exact Framed.bind Framed.note fun _ => Framed.copy2 hc.below

theorem finalizeMove_framed (hs : Covers T fs₀ staged) (hd : Covers T fs₀ dest) :
    Framed T fs₀ (finalizeMove w staged dest) := by
  refine Framed.read fun _ => Framed.ite (Framed.raise _) ?_
  refine Framed.bind (Framed.mkdir (hd.parents (List.dropLast_prefix dest))) fun _ => ?_
  refine Framed.read fun _ => Framed.ite ?_ ?_
  · exact Framed.bind (Framed.whenFs (Framed.rmtree hd.below)) fun _ =>
      Framed.replace hs.below hd.below
  · exact Framed.bind (Framed.whenFs (removeAny_framed hd)) fun _ =>
      Framed.move hs.below hd.below

/-! ## The steps that move one file or directory -/

section Move

variable {step : Step} (ho : Covers T fs₀ old) (hd : Covers T fs₀ dest)
  (hs : Covers T fs₀ (w.getStagingPath step)) (hb : CoversBackups T fs₀ dest)

include ho hd hs hb

theorem moveThroughStaging_framed : Framed T fs₀ (moveThroughStaging w step old dest) := by
  refine Framed.bind (Framed.mapErr ?_) fun _ => Framed.whenFs (Framed.unlink hs.below)
  refine Framed.bind (Framed.mkdir (hs.parents (List.dropLast_prefix _))) fun _ => ?_
  refine Framed.bind (Framed.whenFs (Framed.bind (backup_framed (hb.named _)) fun _ => Framed.pure ()))
    fun _ => ?_
  refine Framed.bind (Framed.whenFs (removeAny_framed hs)) fun _ => ?_
  exact Framed.bind (Framed.move ho.below hs.below) fun _ => finalizeMove_framed hs hd

end Move

section Store

variable (ho : Covers T fs₀ old) (hd : Covers T fs₀ dest)
  (hs : Covers T fs₀ (w.getStagingPath .store)) (hb : CoversBackups T fs₀ dest)

include ho hd hs hb

theorem moveStore_framed : Framed T fs₀ (moveStore w old dest) := by
  refine Framed.bind (Framed.mkdir (hs.parents (List.dropLast_prefix _))) fun _ => ?_
  refine Framed.bind (Framed.mapErr ?_) fun _ => clearStagingDir_framed hs
  refine Framed.bind (Framed.whenFs (backupDir_framed hb)) fun _ => ?_
  refine Framed.bind (Framed.whenFs (Framed.rmtree hs.below)) fun _ => ?_
  exact Framed.bind (Framed.move ho.below hs.below) fun _ => finalizeMove_framed hs hd

end Store

/-! ## Logs and tracks -/

theorem stageMatching_framed {ext : String} (ho : Covers T fs₀ old) (hs : Covers T fs₀ staged) :
    Framed T fs₀ (stageMatching w old staged ext) := by
  refine Framed.read fun fs => Framed.bind (Framed.each fun entry _ => ?_) fun _ => Framed.pure _
  exact Framed.getTick fun _ =>
    Framed.move (ho.mono (List.prefix_append _ _)).below (hs.mono (List.prefix_append _ _)).below

theorem moveStaged_framed (hs : Covers T fs₀ staged) (hd : Covers T fs₀ dest) :
    Framed T fs₀ (moveStaged w staged dest) := by
  refine Framed.bind (Framed.mkdir (hd.parents List.prefix_rfl)) fun _ => ?_
  refine Framed.read fun fs => Framed.each fun name _ => ?_
  have hfinal : Covers T fs₀ (dest ++ [name]) := hd.mono (List.prefix_append _ _)
  exact Framed.bind (Framed.whenFs (Framed.unlink hfinal.below)) fun _ =>
    Framed.move (hs.mono (List.prefix_append _ _)).below hfinal.below

theorem moveLogs_framed (ho : Covers T fs₀ old) (hd : Covers T fs₀ dest)
    (hs : Covers T fs₀ (w.getStagingPath .logs)) (hb : CoversBackups T fs₀ dest) :
    Framed T fs₀ (moveLogs w old dest) := by
  refine Framed.bind (Framed.mapErr ?_) fun _ =>
    Framed.bind (clearStagingDir_framed hs) fun _ => Framed.pure _
  refine Framed.bind (Framed.mkdir (hs.parents List.prefix_rfl)) fun _ => ?_
  refine Framed.bind (Framed.whenFs (backupDir_framed hb)) fun _ => ?_
  refine Framed.bind (stageMatching_framed ho hs) fun _ => ?_
  refine Framed.bind (moveStaged_framed hs hd) fun _ => ?_
  exact Framed.bind (rmdirIfEmpty_framed ho) fun _ => Framed.pure _

theorem backupEntries_framed (hb : CoversBackups T fs₀ dest) :
    Framed T fs₀ (backupEntries w dest) :=
  Framed.read fun _ => Framed.ite (Framed.raise _) (Framed.ite (Framed.pure ())
    (backupDir_framed hb))

theorem moveGpx_framed (ho : Covers T fs₀ old) (hd : Covers T fs₀ dest)
    (hs : Covers T fs₀ (w.getStagingPath .gpxtracker)) (hb : CoversBackups T fs₀ dest) :
    Framed T fs₀ (moveGpx w old dest) := by
  refine Framed.bind (Framed.mapErr ?_) fun _ =>
    Framed.bind (clearStagingDir_framed hs) fun _ => Framed.pure _
  refine Framed.bind (Framed.mkdir (hs.parents List.prefix_rfl)) fun _ => ?_
  refine Framed.bind (Framed.whenFs (backupEntries_framed hb)) fun _ => ?_
  refine Framed.bind (stageMatching_framed ho hs) fun _ => ?_
  exact Framed.bind (Framed.whenFs (moveStaged_framed hs hd)) fun _ => Framed.pure _

/-! ## Plugins -/

theorem stageItems_framed {items : List String} (h : ∀ item ∈ items,
    Covers T fs₀ (old ++ [item]) ∧ Covers T fs₀ (staged ++ [item])) :
    Framed T fs₀ (stageItems w old staged items) := by
  induction items with
  | nil => exact Framed.pure _
  | cons item rest ih =>
    obtain ⟨hsrc, hdst⟩ := h item List.mem_cons_self
    have hrest := ih fun x hx => h x (List.mem_cons_of_mem _ hx)
    refine Framed.read fun fs => Framed.ite hrest (Framed.ite ?_ ?_)
    · exact Framed.bind hrest fun _ => Framed.pure _
    refine Framed.bind (Framed.attempt (Framed.whenFs (removeAny_framed hdst))) fun cleared => ?_
    cases cleared with
    | error e => exact Framed.pure _
    | ok _ =>
      refine Framed.bind (Framed.attempt (Framed.move hsrc.below hdst.below)) fun moved => ?_
      refine Framed.bind hrest fun _ => ?_
      cases moved <;> exact Framed.pure _

theorem migratePluginTier_framed (ho : Covers T fs₀ old) (hs : Covers T fs₀ staged) :
    Framed T fs₀ (migratePluginTier w old staged) := by
  refine Framed.read fun fs => Framed.ite (Framed.pure _) ?_
  refine Framed.bind (Framed.attempt (Framed.mkdir (hs.parents List.prefix_rfl))) fun made => ?_
  cases made with
  | error e => exact Framed.pure _
  | ok _ =>
    refine Framed.bind ?_ fun _ => Framed.bind (rmdirIfEmpty_framed ho) fun _ => Framed.pure _
    refine Framed.read fun fs => Framed.ite (stageItems_framed fun item _ => ?_) (Framed.pure _)
    exact ⟨ho.mono (List.prefix_append _ _), hs.mono (List.prefix_append _ _)⟩

theorem retireOldPlugins_framed (ho : Covers T fs₀ old) (hb : CoversBackups T fs₀ old) :
    Framed T fs₀ (retireOldPlugins w old) := by
  refine Framed.whenFs (Framed.bind (Framed.attempt ?_) fun _ => Framed.pure ())
  refine backupFile_framed (hb.named _) fun b hc => ?_
  exact Framed.bind Framed.note fun _ => Framed.move ho.below hc.below

theorem movePlugins_framed (ho : Covers T fs₀ old) (hd : Covers T fs₀ dest)
    (hs : Covers T fs₀ (w.getStagingPath .plugins)) (hb : CoversBackups T fs₀ dest)
    (hbo : CoversBackups T fs₀ old) : Framed T fs₀ (movePlugins w old dest) := by
  refine Framed.bind (Framed.mapErr ?_) fun _ =>
    Framed.bind (clearStagingDir_framed hs) fun _ => Framed.pure _
  refine Framed.bind (Framed.mkdir (hs.parents List.prefix_rfl)) fun _ => ?_
  refine Framed.bind (Framed.whenFs (backupDir_framed hb)) fun _ => ?_
  have htier (tier : String) :
      Framed T fs₀ (migratePluginTier w (old ++ [tier]) (w.getStagingPath .plugins ++ [tier])) :=
    migratePluginTier_framed (ho.mono (List.prefix_append _ _)) (hs.mono (List.prefix_append _ _))
  refine Framed.bind (htier _) fun _ => Framed.bind (htier _) fun _ => ?_
  refine Framed.ite (Framed.raise _) ?_
  exact Framed.bind (finalizeMove_framed hs hd) fun _ =>
    Framed.bind (retireOldPlugins_framed ho hbo) fun _ => Framed.pure _

/-! ## The database -/

section Database

variable {group : List Path} {dir : Path} (hg : InGroup group dir)
  (hsrc : ∀ n ∈ dbNames, Covers T fs₀ (dir ++ [n])) (hd : Covers T fs₀ w.newDbDir)
  (hs : Covers T fs₀ (w.getStagingPath .database))

include hd in
theorem backupTargets_framed {targets : List Path}
    (ht : ∀ t ∈ targets, ∃ n ∈ dbNames, t = w.newDbDir ++ [n]) :
    Framed T fs₀ (backupTargets w targets) := by
  refine Framed.bind (Framed.collect fun t hmem => ?_) fun _ => Framed.pure _
  refine Framed.read fun fs => Framed.ite ?_ (Framed.pure _)
  refine Framed.bind (backup_framed (CoversBackups.named ?_ _)) fun _ => Framed.pure _
  obtain ⟨n, -, rfl⟩ := ht t hmem
  refine Covers.backups (hd.mono ?_)
  rw [backupsOf, List.dropLast_concat]
  exact List.prefix_append _ _

include hd in
theorem removeDestinationSidecars_framed {fs : Fs} {names : List String} :
    Framed T fs₀ (removeDestinationSidecars w (destinationGroup w fs) names) := by
  refine Framed.each fun dest hdest => Framed.whenFs (removeAny_framed ?_)
  obtain ⟨n, -, rfl⟩ := destGroup_concat hdest
  exact hd.mono (List.prefix_append _ _)

include hs in
/-- The check leaves sidecars in the staging directory. -/
theorem verifyStaged_framed {mostRecent : Path} : Framed T fs₀ (verifyStaged w mostRecent) := by
  have hleave (suffix : String) (left : Sidecar) :
      Framed T fs₀ (leaveSidecar (w.stagedFile mostRecent suffix) left) := by
    have hp : Covers T fs₀ (w.stagedFile mostRecent suffix) := hs.mono (List.prefix_append _ _)
    refine Framed.getTick fun tick => Framed.bind Framed.note fun _ => Framed.change fun fs h => ?_
    unfold Sidecar.leave
    split
    · exact h
    · split_ifs
      · exact Framed.agree_removePart hp.below h
      · exact h
    · exact Framed.agree_writeFile (hp.below _ List.prefix_rfl) h
  refine Framed.read fun fs => Framed.getTick fun tick => Framed.ite ?_ (Framed.raise _)
  exact Framed.bind (hleave _ _) fun _ => Framed.bind (hleave _ _) fun _ =>
    Framed.ite (Framed.pure _) (Framed.raise _)

include hg hsrc hd hs

theorem placeGroup_framed {mostRecent : Path} {fs : Fs} :
    Framed T fs₀ (placeGroup w mostRecent group (destinationGroup w fs)) := by
  have hstaged (p : Path) : Covers T fs₀ (w.dbStaged p) := hs.mono (List.prefix_append _ _)
  have hdest (p : Path) : Covers T fs₀ (w.dbDest p) := hd.mono (List.prefix_append _ _)
  have hsource (p : Path) (hp : p ∈ movedGroup w group) : Covers T fs₀ p := by
    obtain ⟨n, hn, rfl⟩ := hg p (List.mem_of_mem_filter hp)
    exact hsrc n hn
  refine Framed.bind (Framed.each fun p _ => Framed.copy2 (hstaged p).below) fun _ => ?_
  refine Framed.bind (verifyStaged_framed hs) fun _ => Framed.bind (Framed.bind
    (Framed.mkdir (hd.parents List.prefix_rfl)) fun _ => Framed.each fun p _ => ?_) fun _ => ?_
  · exact Framed.bind (Framed.whenFs (Framed.unlink (hdest p).below)) fun _ =>
      Framed.move (hstaged p).below (hdest p).below
  · refine Framed.bind (Framed.each fun p hp => ?_) fun _ => removeDestinationSidecars_framed hd
    exact Framed.bind (Framed.attempt (Framed.unlink (hsource p hp).below)) fun _ => Framed.pure _

theorem moveDatabase_framed {mostRecent : Path} :
    Framed T fs₀ (moveDatabase w mostRecent group) := by
  refine Framed.bind (Framed.mapErr ?_) fun _ =>
    Framed.bind (clearStagingDir_framed hs) fun _ => Framed.pure _
  refine Framed.bind (Framed.mkdir (hs.parents List.prefix_rfl)) fun _ => ?_
  refine Framed.read fun fs => Framed.bind (backupTargets_framed hd (targets_concat hg)) fun _ => ?_
  exact Framed.bind (placeGroup_framed hg hsrc hd hs) fun _ => Framed.read fun _ => Framed.pure _

end Database

/-! ## The service file -/

theorem createServiceFile_framed (hp : T w.servicePath)
    (ha : ∀ q, q <+: w.servicePath → fs₀.node q = none → T q)
    (hl : ∀ q, q <+: w.homeDir ++ [".mmrelay", "logs"] → fs₀.node q = none → T q) :
    Framed T fs₀ (createServiceFile w) := by
  refine Framed.bind (Framed.mkdir fun q hq => ha q (hq.trans (List.dropLast_prefix _)))
    fun _ => ?_
  refine Framed.bind (Framed.mkdir hl) fun _ => ?_
  split
  · exact Framed.pure _
  · refine Framed.getTick fun _ => Framed.bind Framed.note fun _ => ?_
    refine Framed.bind (Framed.attempt (Framed.writeText hp)) fun written => ?_
    cases written <;> exact Framed.pure _

end MMRelay.Migrate
