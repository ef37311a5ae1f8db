import MMRelay.Migrate.Prepared

/-!
# When the database can be prepared

Whether the destination is reached at all, read off the state before the step: the backups, the
copies and their check succeed exactly if no operation fails, every file has its place and SQLite
passes the copies.

* `BackupFits`, `Preparable`: the condition;
* `stagedBefore`, `groupCheck`, `stagedAfter`: what SQLite checks, and what it leaves;
* `backup_spec`, `backupTargets_spec`, `stageGroup_spec`, `verifyStaged_checks`: the parts;
* `Prepared`, **`prepareGroup_spec`**: the group is staged as SQLite leaves it and the condition
  holds, or the destination is as before and it does not.
-/

namespace MMRelay.Migrate

open FileOps

variable {w : World} {group : List Path} {dir mostRecent : Path} {fs₀ : Fs} {s₀ s₁ : Machine}

/-! ## The condition -/

/-- The path of a backup that is begun at a time. -/
def World.backupPlace (w : World) (dest : Path) (tick : ℕ) : Path :=
  backupsOf dest ++ [fileName dest ++ ".bak" ++ "." ++ w.backupStamp tick]

/-- The backup of an entry has its place. -/
structure BackupFits (w : World) (fs : Fs) (dest : Path) (tick : ℕ) : Prop where
  room : fs.isFile (backupsOf dest) = false
  free : fs.isDir dest = true → fs.node (w.backupPlace dest tick) = none
  place : fs.isDir dest = false → fs.isDir (intoDir fs dest (w.backupPlace dest tick)) = false

section Condition

variable (w : World) (fs : Fs) (group : List Path) (t : ℕ)

/-- The number of the backup that comes after these targets, if the preparation begins at `t`: a
backup takes two operations. -/
def backupTime (targets : List Path) : ℕ := t + 1 + 2 * (targets.filter fs.pathExists).length

/-- The number of operations before the check. -/
def checkTime : ℕ := backupTime fs t (destinationTargets w fs group) + group.length

/-- The number of the first operation that replaces a file. -/
def placingStart : ℕ := checkTime w fs group t + 1

/-- A file of the staged database: a copy, or what an earlier run left there. -/
def stagedBefore (n : String) : Option Node :=
  match group.find? fun p => fileName p = n with
  | some p => fs.node p
  | none => fs.node (w.getStagingPath .database ++ [n])

/-- What SQLite answers, and leaves of the sidecars. -/
def groupCheck : IntegrityCheck :=
  w.integrityCheck (checkTime w fs group t) fun suffix =>
    stagedBefore w fs group (databaseFilename ++ suffix)

/-- What is left of an entry. -/
def Sidecar.node (left : Sidecar) (m : ℕ) : Option Node → Option Node
  | some .dir => some .dir
  | old =>
    match left with
    | .untouched => old
    | .removed => none
    | .written content => some (.file content m)

/-- A file of the staged database after the check. -/
def stagedAfter (n : String) : Option Node :=
  let check := groupCheck w fs group t
  if n = databaseFilename ++ "-wal" then
    check.wal.node (checkTime w fs group t) (stagedBefore w fs group n)
  else if n = databaseFilename ++ "-shm" then
    check.shm.node (checkTime w fs group t) (stagedBefore w fs group n)
  else stagedBefore w fs group n

/-- **The preparation succeeds.** No operation fails; no file is in the way of a directory; every
entry of the old destination has a place for its backup; the sources are files outside the staging
directory; and the copies pass the check. -/
structure Preparable : Prop where
  quiet : Quiet w.faults t (placingStart w fs group t)
  staging : ∀ q, q <+: w.getStagingPath .database → fs.isFile q = false
  backups : ∀ before dest after, destinationTargets w fs group = before ++ dest :: after →
    fs.pathExists dest = true → BackupFits w fs dest (backupTime fs t before)
  sources : ∀ p ∈ group, fs.isFile p = true ∧ p ≠ w.dbStaged p
  passed : (groupCheck w fs group t).passed = true
  dest : ∀ q, q <+: w.newDbDir → fs.isFile q = false

end Condition

/-! ## One backup -/

/-- Below a backup of the entry. -/
def BackedUp (dest q : Path) : Prop :=
  ∃ x, backupsOf dest ++ [fileName dest ++ ".bak" ++ "." ++ x] <+: q

/-- A backup of the entry, or its directory if there is none. -/
def NewBackup (fs : Fs) (dest q : Path) : Prop :=
  BackedUp dest q ∨ (fs.node q = none ∧ q <+: backupsOf dest)

/-- The state after a backup. -/
structure AfterBackup (w : World) (dest : Path) (s₀ s : Machine) : Prop where
  files : ∀ q, ¬ BackedUp dest q → s.fs.isFile q = s₀.fs.isFile q
  tick : s.tick = s₀.tick + 2
  quiet : Quiet w.faults s₀.tick (s₀.tick + 2)
  fits : BackupFits w s₀.fs dest s₀.tick

/-- A backup that fails has no place, or an operation failed. -/
def NoBackup (w : World) (dest : Path) (s₀ : Machine) : Prop :=
  ¬ (Quiet w.faults s₀.tick (s₀.tick + 2) ∧ BackupFits w s₀.fs dest s₀.tick)

theorem noBackup_of_fault {dest : Path}
    (h : w.faults s₀.tick ≠ none ∨ w.faults (s₀.tick + 1) ≠ none) : NoBackup w dest s₀ := by
  rintro ⟨hquiet, -⟩
  rcases h with h | h
  · exact h (hquiet _ le_rfl (by omega))
  · exact h (hquiet _ (by omega) (by omega))

theorem World.backedUp_place (w : World) {dest q : Path} {t : ℕ} (h : w.backupPlace dest t <+: q) :
    BackedUp dest q :=
  ⟨_, h⟩

section Backup

variable {e : Path} {n : String} {s₁ : Machine}

/-- The state between the two operations of a backup. -/
structure Roomy (w : World) (dest : Path) (s₀ s₁ : Machine) : Prop where
  made : mkdirOp (backupsOf dest) s₀.fs = some s₁.fs
  tick : s₁.tick = s₀.tick + 1
  quiet : w.faults s₀.tick = none

namespace Roomy

theorem node (h : Roomy w (e ++ [n]) s₀ s₁) {q : Path} (hq : ¬ q <+: backupsOf (e ++ [n])) :
    s₁.fs.node q = s₀.fs.node q :=
  node_of_mkdirOp h.made fun hbad => hq hbad.1

theorem room (h : Roomy w (e ++ [n]) s₀ s₁) : s₀.fs.isFile (backupsOf (e ++ [n])) = false := by
  rw [Bool.eq_false_iff]
  intro hfile
  have hnone := mkdirOp_eq_none.mpr ⟨_, List.prefix_rfl, hfile⟩
  rw [h.made] at hnone
  cases hnone

theorem after (h : Roomy w (e ++ [n]) s₀ s₁) {fs : Fs} (hq : w.faults s₁.tick = none)
    (hfiles : ∀ q, ¬ w.backupPlace (e ++ [n]) s₀.tick <+: q → fs.isFile q = s₁.fs.isFile q)
    (hfits : BackupFits w s₀.fs (e ++ [n]) s₀.tick) :
    AfterBackup w (e ++ [n]) s₀ ⟨fs, s₁.tick + 1⟩ := by
  refine ⟨fun q hno => ?_, by rw [h.tick], ?_, hfits⟩
  · exact (hfiles q fun hbad => hno (w.backedUp_place hbad)).trans (isFile_of_mkdirOp h.made)
  · rw [h.tick] at hq
    exact ((Quiet.refl w.faults s₀.tick).succ h.quiet).succ hq

theorem fault (h : Roomy w (e ++ [n]) s₀ s₁) {d : Damage} (hd : w.faults s₁.tick = some d) :
    NoBackup w (e ++ [n]) s₀ := by
  refine noBackup_of_fault (Or.inr ?_)
  rw [← h.tick, hd]
  exact Option.some_ne_none _

theorem parent (h : Roomy w (e ++ [n]) s₀ s₁) (t : ℕ) :
    s₁.fs.parentIsDir (intoDir s₁.fs (e ++ [n]) (w.backupPlace (e ++ [n]) t)) = true := by
  have hmade := isDir_of_mkdirOp h.made
  unfold intoDir Fs.parentIsDir
  split_ifs with hdir
  · simp [hdir]
  · simp [World.backupPlace, hmade]

end Roomy

end Backup

/-! ## The backups -/

theorem BackupFits.congr {fs fs' : Fs} {dest : Path} {t : ℕ}
    (hroom : fs'.isFile (backupsOf dest) = fs.isFile (backupsOf dest))
    (hdest : fs'.node dest = fs.node dest)
    (hplace : ∀ q, w.backupPlace dest t <+: q → fs'.node q = fs.node q)
    (h : BackupFits w fs dest t) : BackupFits w fs' dest t := by
  have hinto : intoDir fs' dest (w.backupPlace dest t) = intoDir fs dest (w.backupPlace dest t) := by
    unfold intoDir
    rw [isDir_congr (hplace _ List.prefix_rfl)]
  refine ⟨hroom.trans h.room, fun hdir => ?_, fun hdir => ?_⟩
  · rw [isDir_congr hdest] at hdir
    rw [hplace _ List.prefix_rfl]
    exact h.free hdir
  · rw [isDir_congr hdest] at hdir
    rw [hinto, isDir_congr (hplace _ (intoDir_below _ _ _))]
    exact h.place hdir

theorem backedUp_unique {e q : Path} {n m : String} (hn : n ∈ dbNames) (hm : m ∈ dbNames)
    (h : BackedUp (e ++ [n]) q) (h' : BackedUp (e ++ [m]) q) : n = m := by
  obtain ⟨x, hx⟩ := h
  obtain ⟨y, hy⟩ := h'
  rw [backupsOf_concat, fileName_concat] at hx hy
  have hname := congrArg String.toList (concat_unique hx hy)
  have hdot : ∀ a ∈ dbNames, ∀ b ∈ dbNames,
      a.toList ++ ['.'] <+: b.toList ++ ['.'] → a = b := by
    decide +kernel
  have hcut (a z : String) : a.toList ++ ['.'] <+: (a ++ ".bak" ++ "." ++ z).toList := by
    simp only [String.toList_append, List.append_assoc]
    exact List.prefix_append_right_inj _ |>.mpr ⟨"bak.".toList ++ z.toList, by simp⟩
  have hn' := hcut n x
  rw [hname] at hn'
  rcases List.prefix_or_prefix_of_prefix hn' (hcut m y) with hp | hp
  · exact hdot n hn m hm hp
  · exact (hdot m hm n hn hp).symm

theorem dbBackups_eq (w : World) (n : String) : backupsOf (w.newDbDir ++ [n]) = w.dbBackups :=
  backupsOf_concat _ _

theorem BackedUp.below {n : String} {q : Path} (h : BackedUp (w.newDbDir ++ [n]) q) :
    w.dbBackups <+: q ∧ q ≠ w.dbBackups := by
  obtain ⟨x, hx⟩ := h
  rw [dbBackups_eq] at hx
  refine ⟨(List.prefix_append _ _).trans hx, fun heq => ?_⟩
  rw [heq] at hx
  have hlen := hx.length_le
  simp at hlen

theorem backupTime_concat (fs : Fs) (t : ℕ) (done : List Path) (d : Path) :
    backupTime fs t (done ++ [d]) = backupTime fs t done + if fs.pathExists d then 2 else 0 := by
  unfold backupTime
  rw [List.filter_append, List.length_append, List.filter_singleton]
  cases fs.pathExists d with
  | true =>
    simp
    omega
  | false => simp

/-- The backups of these targets, or a missing directory above what is prepared. -/
def Begun (w : World) (fs : Fs) (done : List Path) (q : Path) : Prop :=
  (∃ d ∈ done, BackedUp d q) ∨
    (fs.node q = none ∧ (q <+: w.dbBackups ∨ q <+: w.getStagingPath .database))

/-- The state while the old destination is backed up. -/
structure BackingUp (w : World) (s₀ : Machine) (done : List Path) (s : Machine) : Prop where
  agree : Agree (Begun w s₀.fs done) s₀.fs s.fs
  files : ∀ q, (∀ d ∈ done, ¬ BackedUp d q) → s.fs.isFile q = s₀.fs.isFile q
  parent : s.fs.isDir (w.getStagingPath .database) = true
  tick : s.tick = backupTime s₀.fs s₀.tick done
  quiet : Quiet w.faults s₀.tick s.tick
  fits : ∀ before dest after, done = before ++ dest :: after → s₀.fs.pathExists dest = true →
    BackupFits w s₀.fs dest (backupTime s₀.fs s₀.tick before)

/-- The destination is as before, and the preparation was bound to fail. -/
def Stuck (w : World) (group : List Path) (s₀ s : Machine) : Prop :=
  SameGroup w s₀.fs s.fs ∧ ¬ Preparable w s₀.fs group s₀.tick

def DbFiles (w : World) (targets : List Path) : Prop :=
  ∀ d ∈ targets, ∃ n ∈ dbNames, d = w.newDbDir ++ [n]

theorem Begun.beside {fs : Fs} {done : List Path} {q : Path} (hd : DbFiles w done)
    (h : Begun w fs done q) : Beside w fs q := by
  rcases h with ⟨d, hmem, hb⟩ | h
  · obtain ⟨n, -, rfl⟩ := hd d hmem
    exact Or.inl hb.below.1
  · exact Or.inr h

theorem BackingUp.same {done : List Path} {s : Machine} (hd : DbFiles w done)
    (h : BackingUp w s₀ done s) : SameGroup w s₀.fs s.fs :=
  SameGroup.of_agree (h.agree.mono fun _ hq => hq.beside hd)

theorem BackingUp.fits_congr {done : List Path} {s : Machine} {n : String} {t : ℕ}
    (h : BackingUp w s₀ done s) (hd : DbFiles w done) (hn : n ∈ dbNames)
    (hfresh : w.newDbDir ++ [n] ∉ done) :
    s.fs.isFile (backupsOf (w.newDbDir ++ [n])) = s₀.fs.isFile (backupsOf (w.newDbDir ++ [n])) ∧
      ∀ q, w.backupPlace (w.newDbDir ++ [n]) t <+: q → s.fs.node q = s₀.fs.node q := by
  constructor
  · refine h.files _ fun d hmem hb => ?_
    obtain ⟨m, -, rfl⟩ := hd d hmem
    rw [dbBackups_eq] at hb
    exact hb.below.2 rfl
  · intro q hq
    have hplace : BackedUp (w.newDbDir ++ [n]) q := w.backedUp_place hq
    refine h.agree q ?_
    rintro (⟨d, hmem, hb⟩ | ⟨-, hq | hq⟩)
    · obtain ⟨m, hm, rfl⟩ := hd d hmem
      rw [backedUp_unique hm hn hb hplace] at hmem
      exact hfresh hmem
    · exact hplace.below.2 (hplace.below.1.eq_of_length_le hq.length_le).symm
    · exact dest_not_staging (hplace.below.1.trans hq)

theorem splits_concat {α : Type} {P : List α → α → Prop} {done : List α} {d : α}
    (h : ∀ before a after, done = before ++ a :: after → P before a) (hd : P done d) :
    ∀ before a after, done ++ [d] = before ++ a :: after → P before a := by
  intro before a after hsplit
  rcases List.eq_nil_or_concat after with rfl | ⟨rest, last, rfl⟩
  · obtain ⟨rfl, heq⟩ := List.append_inj' hsplit rfl
    obtain rfl := (List.cons.inj heq).1
    exact hd
  · rw [List.concat_eq_append, ← List.cons_append, ← List.append_assoc] at hsplit
    exact h before a rest (List.append_inj' hsplit rfl).1

theorem BackingUp.next {done : List Path} {s s' : Machine} {n : String}
    (h : BackingUp w s₀ done s) (hd : DbFiles w done) (hn : n ∈ dbNames)
    (hfresh : w.newDbDir ++ [n] ∉ done) (hex : s₀.fs.pathExists (w.newDbDir ++ [n]) = true)
    (hagree : Agree (NewBackup s.fs (w.newDbDir ++ [n])) s.fs s'.fs)
    (ha : AfterBackup w (w.newDbDir ++ [n]) s s') :
    BackingUp w s₀ (done ++ [w.newDbDir ++ [n]]) s' := by
  have hsub {q : Path} (hq : Begun w s₀.fs done q) :
      Begun w s₀.fs (done ++ [w.newDbDir ++ [n]]) q :=
    hq.imp_left fun ⟨d, hmem, hb⟩ => ⟨d, List.mem_append_left _ hmem, hb⟩
  refine ⟨fun q hq => ?_, fun q hq => ?_, ?_, ?_, ?_, splits_concat h.fits fun _ => ?_⟩
  · have hsame : s.fs.node q = s₀.fs.node q := h.agree q fun hbad => hq (hsub hbad)
    rw [hagree q, hsame]
    rintro (hb | ⟨hnone, hpre⟩)
    · exact hq (Or.inl ⟨_, by simp, hb⟩)
    · rw [dbBackups_eq] at hpre
      exact hq (Or.inr ⟨hsame ▸ hnone, Or.inl hpre⟩)
  · rw [ha.files q (hq _ (by simp)), h.files q fun d hmem => hq d (List.mem_append_left _ hmem)]
  · rw [isDir_congr (hagree _ ?_)]
    · exact h.parent
    · rintro (hb | ⟨hnone, -⟩)
      · exact dest_not_staging hb.below.1
      · have hdir := h.parent
        simp [Fs.isDir, hnone] at hdir
  · rw [ha.tick, h.tick, backupTime_concat, if_pos hex]
  · rw [ha.tick]
    intro k hk hk'
    by_cases hlt : k < s.tick
    · exact h.quiet k hk hlt
    · exact ha.quiet k (by omega) hk'
  · obtain ⟨hroom, hplace⟩ := h.fits_congr hd hn hfresh
    rw [← h.tick]
    exact ha.fits.congr hroom.symm (h.same hd n hn).symm fun q hq => (hplace q hq).symm

theorem SameGroup.mkdirs {fs : Fs} {p : Path} (hp : ∀ n ∈ dbNames, ¬ w.newDbDir ++ [n] <+: p)
    (h : SameGroup w fs₀ fs) : SameGroup w fs₀ (fs.mkdirs p) := by
  intro n hn
  rw [Fs.node_mkdirs_eq fun hbad => hp n hn hbad.1, h n hn]

/-- A failed copy leaves the destination alone. -/
theorem SameGroup.copy2Damage {p : Path} {fs : Fs} {d : Damage} (h : SameGroup w fs₀ fs) :
    SameGroup w fs₀ (copy2Damage p (w.dbStaged p) d fs) := by
  intro n hn
  rw [node_copy2Damage, h n hn]
  intro hbad
  exact staged_not_dest ((List.prefix_append _ _).trans hbad) (List.prefix_append _ _)

/-- The state while the group is copied. -/
structure Copying (w : World) (group : List Path) (s₀ : Machine) (done : List Path) (s : Machine) :
    Prop where
  dest : SameGroup w s₀.fs s.fs
  above : ∀ q, q <+: w.newDbDir → s.fs.isFile q = s₀.fs.isFile q
  parent : s.fs.isDir (w.getStagingPath .database) = true
  sources : ∀ p ∈ group, s.fs.node p = s₀.fs.node p
  places : ∀ p ∈ group, s.fs.isDir (w.dbStaged p) = false
  copies : ∀ p ∈ done, (s₀.fs.isFile p = true ∧ p ≠ w.dbStaged p) ∧
    s.fs.node (w.dbStaged p) = s₀.fs.node p
  others : ∀ n, (∀ p ∈ done, fileName p ≠ n) →
    s.fs.node (w.getStagingPath .database ++ [n]) =
      s₀.fs.node (w.getStagingPath .database ++ [n])
  tick : s.tick = backupTime s₀.fs s₀.tick (destinationTargets w s₀.fs group) + done.length
  quiet : Quiet w.faults s₀.tick s.tick

theorem BackingUp.copying (hsel : Selection w s₀.fs dir group) (htidy : Tidy w s₀.fs dir)
    {s : Machine} (h : BackingUp w s₀ (destinationTargets w s₀.fs group) s) :
    Copying w group s₀ [] s := by
  have hd : DbFiles w (destinationTargets w s₀.fs group) := targets_concat hsel.inGroup
  have hbeside : Agree (Beside w s₀.fs) s₀.fs s.fs := h.agree.mono fun _ hq => hq.beside hd
  refine ⟨h.same hd, fun q hq => h.files q fun d hmem hb => ?_, h.parent, fun p hp => ?_,
    fun p hp => ?_, by simp, fun n _ => hbeside _ staged_not_beside, h.tick, h.quiet⟩
  · obtain ⟨n, -, rfl⟩ := hd d hmem
    have hlen := (hb.below.1.trans hq).length_le
    simp [World.dbBackups] at hlen
  · obtain ⟨n, hn, rfl⟩ := hsel.inGroup p hp
    refine hbeside _ ?_
    rintro (hbad | ⟨hnone, -⟩)
    · rcases List.prefix_concat_iff.mp hbad with heq | hbad
      · have hname : migrationBackupDirname = n := by
          simpa using (List.append_inj' heq rfl).2
        exact ne_backups_of_mem n hn hname.symm
      · exact htidy.apart hbad
    · exact (hsel.mem_iff n hn).mp hp hnone
  · obtain ⟨n, hn, rfl⟩ := hsel.inGroup p hp
    rw [dbStaged_concat, isDir_congr (hbeside _ staged_not_beside)]
    exact htidy.unstaged n hn

section Copies

variable (hg : InGroup group dir)
include hg

end Copies

/-! ## The check -/

theorem Copying.staged (h : Copying w group s₀ group s₁) (n : String) :
    s₁.fs.node (w.getStagingPath .database ++ [n]) = stagedBefore w s₀.fs group n := by
  unfold stagedBefore
  cases hfind : group.find? fun p => fileName p = n with
  | none =>
    refine h.others n fun p hp heq => ?_
    have hno := List.find?_eq_none.mp hfind p hp
    simp [heq] at hno
  | some p =>
    have hname : fileName p = n := by simpa using List.find?_some hfind
    have hp : p ∈ group := List.mem_of_find?_eq_some hfind
    rw [← hname]
    exact (h.copies p hp).2

/-- The state after the check. -/
structure Checked (w : World) (group : List Path) (s₀ s : Machine) : Prop where
  dest : SameGroup w s₀.fs s.fs
  above : ∀ q, q <+: w.newDbDir → s.fs.isFile q = s₀.fs.isFile q
  sources : ∀ p ∈ group, s₀.fs.isFile p = true ∧ p ≠ w.dbStaged p
  staged : ∀ n, s.fs.node (w.getStagingPath .database ++ [n]) =
    stagedAfter w s₀.fs group s₀.tick n
  passed : (groupCheck w s₀.fs group s₀.tick).passed = true
  tick : s.tick = checkTime w s₀.fs group s₀.tick
  quiet : Quiet w.faults s₀.tick s.tick

section Check

variable {fs : Fs} {p p' : Path} {left left' : Sidecar} {m : ℕ}

end Check

theorem Copying.checked (h : Copying w group s₀ group s₁) {fs : Fs}
    (hnode : ∀ q, fs.node q =
      if q = w.getStagingPath .database ++ [databaseFilename ++ "-shm"] then
        (groupCheck w s₀.fs group s₀.tick).shm.node s₁.tick (s₁.fs.node q)
      else if q = w.getStagingPath .database ++ [databaseFilename ++ "-wal"] then
        (groupCheck w s₀.fs group s₀.tick).wal.node s₁.tick (s₁.fs.node q)
      else s₁.fs.node q)
    (hpassed : (groupCheck w s₀.fs group s₀.tick).passed = true) :
    Checked w group s₀ ⟨fs, s₁.tick⟩ := by
  have hapart {q : Path} (hq : ∀ n, q ≠ w.getStagingPath .database ++ [n]) :
      fs.node q = s₁.fs.node q := by
    rw [hnode, if_neg (hq _), if_neg (hq _)]
  refine ⟨fun n hn => ?_, fun q hq => ?_, fun p hp => (h.copies p hp).1, fun n => ?_, hpassed,
    h.tick, h.quiet⟩
  · rw [hapart, h.dest n hn]
    intro m heq
    have hstaged : w.getStagingPath .database <+: w.newDbDir ++ [n] := by
      rw [heq]
      exact List.prefix_append _ _
    exact staged_not_dest hstaged (List.prefix_append _ _)
  · rw [isFile_congr (hapart ?_), h.above q hq]
    rintro m rfl
    exact staged_not_dest ((List.prefix_append _ _).trans hq) List.prefix_rfl
  · have hiff (x : String) : w.getStagingPath .database ++ [n] =
        w.getStagingPath .database ++ [x] ↔ n = x := by simp
    have htick : s₁.tick = checkTime w s₀.fs group s₀.tick := h.tick
    rw [hnode, h.staged, htick]
    simp only [hiff, stagedAfter]
    by_cases hwal : n = databaseFilename ++ "-wal"
    · rw [if_pos hwal, if_pos hwal, if_neg]
      rw [hwal]
      decide
    · rw [if_neg hwal, if_neg hwal]

end MMRelay.Migrate
